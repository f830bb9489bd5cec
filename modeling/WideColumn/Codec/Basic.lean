import WideColumn.Value.OfJson
import WideColumn.Format.Reader

/-!
# Record Codecs

How records become items and items become records.

A record that is not itself an item goes through JSON. It must be written to an
object, whose members become the attributes; an item is read back from the
object of its attributes, so a binary comes back as the list of its bytes and a
double that is no finite number as null.

## Main definitions

* `CodecError`: Why a record or an item has no counterpart.
* `toItem`, `fromItem`: The conversions through JSON.
* `Codec`: Both directions for one type of record.
* `Codec.raw`, `Codec.json`, `Codec.ofFormat`: The codecs.
* `encodePairKeyed`, `encodeIntKeyed`: Maps whose keys are not strings.
-/

namespace WideColumn

/-- Why a record or an item has no counterpart. -/
inductive CodecError where
  /-- The record cannot be written as JSON. -/
  | unwritable
  /-- The item, or the text, is not of the record's form. -/
  | unreadable
  /-- The record is written to something other than an object. -/
  | notAMap (type : ValueType)
deriving DecidableEq

namespace CodecError

/-- What is said about an error, as far as it does not depend on the record. -/
def message? : CodecError → Option String
  | unwritable => none
  | unreadable => none
  | notAMap type => some s!"unsupported value: record must encode to a map, got {type.name}"

end CodecError

/-- The item of a record's JSON value. -/
def toItem (j : Json) : Except CodecError Item :=
  match Value.ofJson j with
  | .map entries => .ok entries
  | other => .error (.notAMap other.type)

/-- The JSON value that an item is read back from. -/
def fromItem (item : Item) : Json :=
  (Value.map item).toJson

/-- Both directions between items and one type of record. -/
structure Codec (α : Type) where
  decode : Item → Except CodecError α
  encode : α → Except CodecError Item

namespace Codec

/-- Items as records of their own. -/
def raw : Codec Item where
  decode := .ok
  encode := .ok

/-- JSON values as records. -/
def json : Codec Json where
  decode item := .ok (fromItem item)
  encode := toItem

/-- Records with a format. -/
def ofFormat {α : Type} (read : Document → Option α) (write : α → Json) : Codec α where
  decode item :=
    match read (.ofJson (fromItem item)) with
    | some record => .ok record
    | none => .error .unreadable
  encode record := toItem (write record)

end Codec

/-- The record of a JSON text that need not be well formed. -/
def readRecord {α : Type} (read : Document → Option α) (text : String) : Except CodecError α :=
  match (Document.read? text).bind read with
  | some record => .ok record
  | none => .error .unreadable

/-- The ways in which reading or writing JSON may fail. -/
inductive JsonFault where
  /-- The medium failed. -/
  | medium
  /-- The text is not JSON, or ends too early. -/
  | malformed
  /-- The text is JSON of another form. -/
  | mismatched
deriving DecidableEq

/-- A failure of the medium is taken for a failure to write, and any other for a
    failure to read. -/
def CodecError.ofFault : JsonFault → CodecError
  | .medium => unwritable
  | .malformed => unreadable
  | .mismatched => unreadable

/-- The item of a map under integers. Their numerals become the names. -/
def encodeIntKeyed (entries : List (Int × Json)) : Except CodecError Item :=
  toItem (.object (Keyed.ofList (entries.map fun (key, j) => (Int.repr key, j))))

/-- The item of a map under pairs. A pair has no name, so only the empty map is
    an object. -/
def encodePairKeyed {α β : Type} (entries : List ((α × β) × Json)) : Except CodecError Item :=
  if entries.isEmpty then toItem (.object []) else .error .unwritable

end WideColumn
