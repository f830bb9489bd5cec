import WideColumn.Json.Document

/-!
# JSON Tokens

The tokens of a JSON text.

The lexer takes one character at a time and is always in one of five modes, so
reading a text is a fold over its characters. Keywords and numerals are runs of
characters without punctuation between them; what they mean is decided when
they end.

A string is kept as marks, the characters that were written and the halves of
surrogate pairs that were escaped, until its closing quote. Only halves that
were escaped one right after the other make a character. A half that is left
over makes the string unreadable, which is not an error of the text.

## Main definitions

* `Token`: Punctuation, words and strings.
* `Lexer`: The tokens so far and the mode.
* `Lexer.step`: Taking one character.
* `tokens?`: The tokens of a text.
-/

namespace WideColumn

namespace Json

/-- A piece of a text that is read as one. -/
inductive Token where
  | openArray
  | closeArray
  | openObject
  | closeObject
  | comma
  | colon
  /-- A keyword or a numeral. -/
  | word (cs : List Char)
  /-- A string, or nothing where half of a surrogate pair stands alone. -/
  | string (s : Option String)

/-- What a string is made of before the halves of surrogate pairs are joined. -/
inductive Mark where
  | char (c : Char)
  /-- An escaped half of a surrogate pair. -/
  | half (n : Nat)

/-- The text of marks in reading order: halves are joined to characters, and
    there is none if a half stands alone. -/
def joinMarks : List Mark → Option (List Char)
  | [] => some []
  | .char c :: rest => (joinMarks rest).map (c :: ·)
  | .half high :: .half low :: rest =>
    if high < 0xDC00 && 0xDC00 ≤ low then
      (joinMarks rest).map
        (Char.ofNat (0x10000 + (high - 0xD800) * 0x400 + (low - 0xDC00)) :: ·)
    else none
  | .half _ :: _ => none

/-- What the lexer is in the middle of. Lists hold the last character first. -/
inductive Mode where
  /-- Between tokens. -/
  | between
  /-- Within a keyword or numeral. -/
  | word (cs : List Char)
  /-- Within a string. -/
  | text (marks : List Mark)
  /-- After a backslash. -/
  | escape (marks : List Mark)
  /-- Within an escaped number: its value so far and the digits still owed. -/
  | code (marks : List Mark) (value owed : Nat)

/-- The tokens so far, the last one first, and the mode. -/
structure Lexer where
  tokens : List Token
  mode : Mode

/-- The token of a punctuation character. -/
def punctuation? : Char → Option Token
  | '[' => some .openArray
  | ']' => some .closeArray
  | '\x7b' => some .openObject
  | '\x7d' => some .closeObject
  | ',' => some .comma
  | ':' => some .colon
  | _ => none

/-- The four blanks that may stand between tokens. -/
def isBlank (c : Char) : Bool :=
  c = ' ' || c = '\t' || c = '\n' || c = '\r'

/-- The value of a hexadecimal digit in either case. -/
def hexDigit? (c : Char) : Option Nat :=
  if '0' ≤ c && c ≤ '9' then some (c.toNat - '0'.toNat)
  else if 'a' ≤ c && c ≤ 'f' then some (c.toNat - 'a'.toNat + 10)
  else if 'A' ≤ c && c ≤ 'F' then some (c.toNat - 'A'.toNat + 10)
  else none

/-- The character that a backslash and this character stand for. -/
def escaped? : Char → Option Char
  | '"' => some '"'
  | '\\' => some '\\'
  | '/' => some '/'
  | 'b' => some '\x08'
  | 'f' => some '\x0c'
  | 'n' => some '\n'
  | 'r' => some '\r'
  | 't' => some '\t'
  | _ => none

/-- The mark of an escaped number below 65536. -/
def markOfCode (n : Nat) : Mark :=
  if 0xD800 ≤ n && n < 0xE000 then .half n else .char (Char.ofNat n)

namespace Lexer

/-- Take a character between tokens. -/
def start (tokens : List Token) (c : Char) : Lexer :=
  match punctuation? c with
  | some token => ⟨token :: tokens, .between⟩
  | none =>
    if c = '"' then ⟨tokens, .text []⟩
    else if isBlank c then ⟨tokens, .between⟩
    else ⟨tokens, .word [c]⟩

/-- Take one character. There is no next state where no text goes on so: a
    control in a string, or an escape of no meaning. -/
def step (lexer : Lexer) (c : Char) : Option Lexer :=
  match lexer.mode with
  | .between => some (start lexer.tokens c)
  | .word cs =>
    if (punctuation? c).isSome || c = '"' || isBlank c then
      some (start (.word cs.reverse :: lexer.tokens) c)
    else some ⟨lexer.tokens, .word (c :: cs)⟩
  | .text marks =>
    if c = '"' then
      some ⟨.string ((joinMarks marks.reverse).map String.ofList) :: lexer.tokens, .between⟩
    else if c = '\\' then some ⟨lexer.tokens, .escape marks⟩
    else if c.toNat < 0x20 then none
    else some ⟨lexer.tokens, .text (.char c :: marks)⟩
  | .escape marks =>
    if c = 'u' then some ⟨lexer.tokens, .code marks 0 4⟩
    else (escaped? c).map fun e => ⟨lexer.tokens, .text (.char e :: marks)⟩
  | .code marks value owed =>
    (hexDigit? c).map fun digit =>
      let value := 16 * value + digit
      if owed ≤ 1 then ⟨lexer.tokens, .text (markOfCode value :: marks)⟩
      else ⟨lexer.tokens, .code marks value (owed - 1)⟩

/-- The tokens in reading order, if the text may end here. -/
def finish (lexer : Lexer) : Option (List Token) :=
  match lexer.mode with
  | .between => some lexer.tokens.reverse
  | .word cs => some (Token.word cs.reverse :: lexer.tokens).reverse
  | _ => none

end Lexer

/-- The tokens of a text, if it has no other parts. -/
def tokens? (text : String) : Option (List Token) :=
  (text.toList.foldlM Lexer.step ⟨[], .between⟩).bind Lexer.finish

end Json

end WideColumn
