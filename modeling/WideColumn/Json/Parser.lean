import WideColumn.Json.Lexer

/-!
# Reading JSON

From the tokens of a text to its document.

The reader takes one token at a time. Containers that are open wait on a stack
of frames, and `Expected` says what may come next: a value, a name, a colon, or
what follows a value. A value that is complete is handed to the innermost
frame, and the value that completes with no frame open is the document.

An object with an unreadable name is unreadable as a whole, since whoever reads
any of it reads its names. So is every container that lies deeper than the
limit.

## Main definitions

* `depthLimit`: How many containers may be open around a readable one.
* `Frame`: A container part way through.
* `Reading`: The frames and what is expected.
* `Reading.step`: Taking one token.
* `Document.read?`: The document of a text.
* `Json.read?`: The value of a text.
-/

namespace WideColumn

namespace Json

/-- Containers may nest this deep. -/
def depthLimit : Nat := 127

/-- A container part way through, its last part first. An object keeps the name
    that waits for its value. -/
inductive Frame where
  | array (elements : List Document)
  | object (members : List (Option String × Document)) (name : Option String)

/-- What the next token may be. -/
inductive Expected where
  /-- A value. Right after an opening bracket the container may close instead. -/
  | value (mayClose : Bool)
  /-- A name. Right after an opening brace the container may close instead. -/
  | name (mayClose : Bool)
  | colon
  /-- A comma or the end of the container. -/
  | separator
  /-- Nothing: the document is complete. -/
  | nothing (document : Document)

/-- The open containers, innermost first, and what is expected. -/
structure Reading where
  frames : List Frame
  expected : Expected

namespace Reading

/-- The names and values of members in reading order, unless a name is
    unreadable. -/
def namedMembers (members : List (Option String × Document)) :
    Option (List (String × Document)) :=
  members.reverse.mapM fun member => member.1.map fun name => (name, member.2)

/-- The document of a complete container with `outer` containers around it. -/
def close (frame : Frame) (outer : Nat) : Document :=
  if depthLimit ≤ outer then .unreadable
  else
    match frame with
    | .array elements => .array elements.reverse
    | .object members _ => ((namedMembers members).map Document.object).getD .unreadable

/-- Hand a complete value to the innermost container. -/
def deliver (document : Document) : List Frame → Reading
  | [] => ⟨[], .nothing document⟩
  | .array elements :: rest => ⟨.array (document :: elements) :: rest, .separator⟩
  | .object members name :: rest =>
    ⟨.object ((name, document) :: members) none :: rest, .separator⟩

/-- Take a token where a value may start. -/
def takeValue (frames : List Frame) : Token → Option Reading
  | .openArray => some ⟨.array [] :: frames, .value true⟩
  | .openObject => some ⟨.object [] none :: frames, .name true⟩
  | .word cs => (Document.ofWord cs).map (deliver · frames)
  | .string s => some (deliver ((s.map Document.string).getD .unreadable) frames)
  | _ => none

/-- Take a token that closes the innermost container. -/
def takeClose : List Frame → Token → Option Reading
  | .array elements :: rest, .closeArray =>
    some (deliver (close (.array elements) rest.length) rest)
  | .object members name :: rest, .closeObject =>
    some (deliver (close (.object members name) rest.length) rest)
  | _, _ => none

/-- Take the next token, if it may stand here. -/
def step (reading : Reading) (token : Token) : Option Reading :=
  match reading.expected, token with
  | .value mayClose, token =>
    match takeValue reading.frames token with
    | some next => some next
    | none => if mayClose then takeClose reading.frames token else none
  | .name _, .string s =>
    match reading.frames with
    | .object members _ :: rest => some ⟨.object members s :: rest, .colon⟩
    | _ => none
  | .name mayClose, token => if mayClose then takeClose reading.frames token else none
  | .colon, .colon => some ⟨reading.frames, .value false⟩
  | .separator, .comma =>
    match reading.frames with
    | .array _ :: _ => some ⟨reading.frames, .value false⟩
    | .object _ _ :: _ => some ⟨reading.frames, .name false⟩
    | [] => none
  | .separator, token => takeClose reading.frames token
  | _, _ => none

/-- The document, if it is complete. -/
def finish (reading : Reading) : Option Document :=
  match reading.expected with
  | .nothing document => some document
  | _ => none

end Reading

end Json

/-- The document of a text. -/
def Document.read? (text : String) : Option Document := do
  let tokens ← Json.tokens? text
  let reading ← tokens.foldlM Json.Reading.step ⟨[], .value false⟩
  reading.finish

/-- The value of a text. -/
def Json.read? (text : String) : Option Json :=
  (Document.read? text).bind Document.toJson?

end WideColumn
