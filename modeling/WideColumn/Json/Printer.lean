import WideColumn.Json.Basic
import WideColumn.Binary64.Layout

/-!
# Written JSON

The compact text of a JSON value.

There are no blanks between tokens, members stand in the order the object lists
them, and within a string only the two characters that would end or bend it and
the controls are escaped.

## Main definitions

* `Json.layout`: How doubles are written.
* `Json.render`: The text of a value.
-/

namespace WideColumn

namespace Json

/-- Doubles are positional from 0.00001 up to and without ten to the sixteenth,
    a power of ten carries its sign, and of two shortest decimals that are
    equally near the even one is written. -/
def layout : Layout where
  tie := .even
  leastOrder := -5
  orderLimit := 16
  plusSign := true

/-- The numeral of a number. -/
def Number.render : Number → List Char
  | .natural n => (Nat.repr n.toNat).toList
  | .negative i _ => (Int.repr i.toInt).toList
  | .double x _ => (layout.write x).toList

/-- Four hexadecimal digits of a number below 65536. -/
def fourHexDigits (n : Nat) : List Char :=
  let digits := Nat.toDigits 16 n
  List.replicate (4 - digits.length) '0' ++ digits

/-- A character as it stands in a string. -/
def escapeChar (c : Char) : List Char :=
  if c = '"' || c = '\\' then ['\\', c]
  else if c = '\n' then ['\\', 'n']
  else if c = '\r' then ['\\', 'r']
  else if c = '\t' then ['\\', 't']
  else if c = '\x08' then ['\\', 'b']
  else if c = '\x0c' then ['\\', 'f']
  else if c.toNat < 0x20 then '\\' :: 'u' :: fourHexDigits c.toNat
  else [c]

/-- A string in quotes. -/
def renderString (s : String) : List Char :=
  '"' :: s.toList.flatMap escapeChar ++ ['"']

mutual

/-- The characters of a value's text. -/
def toChars : Json → List Char
  | .null => ['n', 'u', 'l', 'l']
  | .bool true => ['t', 'r', 'u', 'e']
  | .bool false => ['f', 'a', 'l', 's', 'e']
  | .number n => n.render
  | .string s => renderString s
  | .array elements => '[' :: elementsToChars elements ++ [']']
  | .object members => '\x7b' :: membersToChars members ++ ['\x7d']

/-- The characters of elements, with commas between them. -/
def elementsToChars : List Json → List Char
  | [] => []
  | [e] => toChars e
  | e :: rest => toChars e ++ ',' :: elementsToChars rest

/-- The characters of members, with commas between them. -/
def membersToChars : List (String × Json) → List Char
  | [] => []
  | [(name, e)] => renderString name ++ ':' :: toChars e
  | (name, e) :: rest => renderString name ++ ':' :: toChars e ++ ',' :: membersToChars rest

end

/-- The compact text of a value. -/
def render (j : Json) : String :=
  String.ofList j.toChars

end Json

end WideColumn
