import WideColumn.Text.Unmarked

/-!
# Quoted Text

Text between double quotes, as messages and displayed values show it.

Quotes, backslashes and the common controls have an escape of two characters.
Every other character that would leave no mark is written by its number, in
hexadecimal digits between braces, and all else stands as it is.

## Main definitions

* `hexadecimal`: A number in lower case hexadecimal digits.
* `quote`: A text between quotes.
-/

namespace WideColumn

namespace Text

/-- A number in lower case hexadecimal digits, without leading zeros. -/
def hexadecimal (n : Nat) : List Char :=
  Nat.toDigits 16 n

/-- A character as it stands between quotes. -/
def quoteChar (c : Char) : List Char :=
  if c = '"' || c = '\\' then ['\\', c]
  else if c = '\n' then ['\\', 'n']
  else if c = '\r' then ['\\', 'r']
  else if c = '\t' then ['\\', 't']
  else if c = '\x00' then ['\\', '0']
  else if c.toNat < 0x20 || isUnmarked c then
    ['\\', 'u', '\x7b'] ++ hexadecimal c.toNat ++ ['\x7d']
  else [c]

/-- A text between double quotes. -/
def quote (s : String) : String :=
  String.ofList ('"' :: s.toList.flatMap quoteChar ++ ['"'])

end Text

end WideColumn
