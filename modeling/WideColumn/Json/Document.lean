import WideColumn.Json.Basic
import WideColumn.Binary64.Numeral

/-!
# JSON Documents

A JSON text as it was written, before it is taken for a value of any kind.

A document keeps what the value forgets: the order in which members were
written and the names that were written twice. Readers of records refuse a
field that is given twice, so they need both.

Some texts are well formed and still stand for nothing: a numeral beyond the
doubles, a string with half of a surrogate pair, brackets nested too deep. A
reader that skips such a part never notices, and any other reader fails on it.
They are all the one leaf `unreadable`.

## Main definitions

* `Document`: A text's structure.
* `Document.ofWord`: The document of a keyword or numeral.
* `Document.toJson?`: The value of a document, unless part of it is unreadable.
* `Document.ofJson`: A value as a document.
-/

namespace WideColumn

/-- The structure of a JSON text. -/
inductive Document where
  | null
  | bool (b : Bool)
  | number (n : Json.Number)
  | string (s : String)
  | array (elements : List Document)
  | object (members : List (String × Document))
  /-- A well-formed part that stands for nothing. -/
  | unreadable

/-- The number of an integer literal. Integers that fit 64 bits are kept, and
    others go to the nearest double. A minus sign before zero makes a double,
    the only kind with a negative zero. -/
def Json.Number.ofInteger? (negative : Bool) (n : Nat) : Option Json.Number :=
  let i := Int64.ofInt (-n)
  if !negative && n < UInt64.size then some (.natural n.toUInt64)
  else if neg : negative = true ∧ n ≤ 0x8000000000000000 ∧ i < 0 then some (.negative i neg.2.2)
  else Number.ofDouble? (.ofRatio negative n 1)

namespace Document

/-- The numeral is one of JSON's: no digit may be left out, and a first digit
    of zero stands alone before the point. -/
def isStrict (n : Numeral) : Bool :=
  (n.whole == ['0'] || (n.whole.head?.any (· != '0'))) && n.fraction != some []

/-- The number of a numeral under a sign. Numerals with a fraction or a power
    are doubles. -/
def ofNumeral (negative : Bool) (n : Numeral) : Document :=
  let number? :=
    if n.fraction.isNone && n.power.isNone then
      Json.Number.ofInteger? negative (digitsValue n.whole)
    else Json.Number.ofDouble? (.ofDecimal negative n.decimal)
  (number?.map number).getD unreadable

/-- Read a numeral with an optional minus sign. -/
def readNumeral (cs : List Char) : Option Document :=
  let unsigned (negative : Bool) (ds : List Char) : Option Document :=
    ((Numeral.scan ds).filter isStrict).map (ofNumeral negative)
  match cs with
  | '-' :: ds => unsigned true ds
  | ds => unsigned false ds

/-- The document of a run of characters that are neither blank, nor quote, nor
    punctuation: a keyword or a numeral. -/
def ofWord (cs : List Char) : Option Document :=
  if cs = ['n', 'u', 'l', 'l'] then some null
  else if cs = ['t', 'r', 'u', 'e'] then some (bool true)
  else if cs = ['f', 'a', 'l', 's', 'e'] then some (bool false)
  else readNumeral cs

mutual

/-- The value of a document. The members of an object become a keyed list, the
    last one of a name winning. -/
def toJson? : Document → Option Json
  | null => some .null
  | bool b => some (.bool b)
  | number n => some (.number n)
  | string s => some (.string s)
  | array elements => (elementsToJson? elements).map .array
  | object members => (membersToJson? members).map fun ms => .object (Keyed.ofList ms)
  | unreadable => none

/-- The values of the elements, if every one of them can be read. -/
def elementsToJson? : List Document → Option (List Json)
  | [] => some []
  | d :: rest => do
    let j ← toJson? d
    let js ← elementsToJson? rest
    some (j :: js)

/-- The values of the members, if every one of them can be read. -/
def membersToJson? : List (String × Document) → Option (List (String × Json))
  | [] => some []
  | (name, d) :: rest => do
    let j ← toJson? d
    let js ← membersToJson? rest
    some ((name, j) :: js)

end

mutual

/-- A value as a document. -/
def ofJson : Json → Document
  | .null => null
  | .bool b => bool b
  | .number n => number n
  | .string s => string s
  | .array elements => array (ofElements elements)
  | .object members => object (ofMembers members)

/-- The elements of an array as documents. -/
def ofElements : List Json → List Document
  | [] => []
  | j :: rest => ofJson j :: ofElements rest

/-- The members of an object as documents. -/
def ofMembers : List (String × Json) → List (String × Document)
  | [] => []
  | (name, j) :: rest => (name, ofJson j) :: ofMembers rest

end

end Document

end WideColumn
