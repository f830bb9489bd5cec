import WideColumn.Binary64.Numeral
import WideColumn.Text.Quoted

/-!
# Client Configuration

The two settings of a client, and how the environment overrides them.

A variable that is set but cannot be read changes nothing. It is passed over
with a warning that shows what it held.

## Main definitions

* `Duration`: A length of time.
* `ClientConfig`: The settings.
* `readThreshold`, `readMilliseconds`: Reading the variables.
* `ClientConfig.ofEnvironment`: The settings under an environment.
-/

namespace WideColumn

/-- A length of time, to the nanosecond. -/
structure Duration where
  nanoseconds : Nat
deriving DecidableEq

namespace Duration

/-- A length of time in milliseconds. -/
def ofMilliseconds (ms : Nat) : Duration := ⟨ms * 1000000⟩

/-- The whole milliseconds in a length of time. -/
def milliseconds (d : Duration) : Nat := d.nanoseconds / 1000000

end Duration

/-- The settings of a client. -/
structure ClientConfig where
  /-- Secondary indexes that hold less than this part of their table's items are
      sparse. -/
  threshold : Binary64
  /-- How long each call to a store may take. -/
  fetchTimeout : Option Duration
deriving DecidableEq

/-- Every index that could be sparse is, and calls may take any time. -/
def ClientConfig.default : ClientConfig where
  threshold := .ofRatio false 11 10
  fetchTimeout := none

/-- What is wrong with the text of a number. -/
inductive NumberFault where
  | emptyFloat
  | invalidFloat
  | emptyInteger
  | invalidDigit
  | tooLarge
deriving DecidableEq

namespace NumberFault

/-- What is said about a fault, in the words of the parser of numbers. -/
def message : NumberFault → String
  | emptyFloat => "cannot parse float from empty string"
  | invalidFloat => "invalid float literal"
  | emptyInteger => "cannot parse integer from empty string"
  | invalidDigit => "invalid digit found in string"
  | tooLarge => "number too large to fit in target type"

end NumberFault

/-- The number that an unsigned text stands for: one of the words for what is no
    finite number, in any case, or a numeral with at least one digit. -/
def readUnsigned? (negative : Bool) (cs : List Char) : Option Binary64 :=
  let word := cs.map Char.toLower
  if word = ['n', 'a', 'n'] then some .nan
  else if word = ['i', 'n', 'f'] || word = ['i', 'n', 'f', 'i', 'n', 'i', 't', 'y'] then
    some (.infinity negative)
  else
    match Numeral.scan cs with
    | some n =>
      if n.whole.isEmpty && (n.fraction.getD []).isEmpty then none
      else some (.ofDecimal negative n.decimal)
    | none => none

/-- The double nearest to the number of a text, with an optional sign. -/
def readThreshold (text : String) : Except NumberFault Binary64 :=
  let number? := match text.toList with
    | '-' :: cs => readUnsigned? true cs
    | '+' :: cs => readUnsigned? false cs
    | cs => readUnsigned? false cs
  if text = "" then .error .emptyFloat
  else
    match number? with
    | some x => .ok x
    | none => .error .invalidFloat

/-- One more digit of a number that must fit 64 bits. -/
def pushDigit (n : Nat) (c : Char) : Except NumberFault Nat :=
  if !c.isDigit then .error .invalidDigit
  else if UInt64.size ≤ 10 * n + (c.toNat - '0'.toNat) then .error .tooLarge
  else .ok (10 * n + (c.toNat - '0'.toNat))

/-- The number of a text of digits, with an optional plus sign. The first fault
    in reading order counts. -/
def readMilliseconds (text : String) : Except NumberFault Nat :=
  match text.toList with
  | [] => .error .emptyInteger
  | ['+'] => .error .invalidDigit
  | '+' :: cs => cs.foldlM pushDigit 0
  | cs => cs.foldlM pushDigit 0

namespace ClientConfig

/-- The variable that overrides the threshold. -/
def thresholdVariable : String := "AUTOQUERY_SPARSITY_THRESHOLD"

/-- The variable that overrides the timeout. -/
def timeoutVariable : String := "AUTOQUERY_FETCH_TIMEOUT_MS"

/-- The warning about a variable that cannot be read. -/
def warning (name held : String) (fault : NumberFault) : String :=
  s!"Ignoring {name}={Text.quote held}: {fault.message}"

/-- The settings with the threshold that a variable holds, if it is set. -/
def withThreshold (held : Option String) (config : ClientConfig) : ClientConfig × List String :=
  match held.map fun text => (text, readThreshold text) with
  | none => (config, [])
  | some (_, .ok threshold) => ({ config with threshold := threshold }, [])
  | some (text, .error fault) => (config, [warning thresholdVariable text fault])

/-- The settings with the timeout that a variable holds, if it is set. -/
def withTimeout (held : Option String) (config : ClientConfig) : ClientConfig × List String :=
  match held.map fun text => (text, readMilliseconds text) with
  | none => (config, [])
  | some (_, .ok ms) => ({ config with fetchTimeout := some (.ofMilliseconds ms) }, [])
  | some (text, .error fault) => (config, [warning timeoutVariable text fault])

/-- The settings under an environment that holds what is given in the two
    variables, with the warnings in order. -/
def ofEnvironment (threshold timeout : Option String) : ClientConfig × List String :=
  let first := withThreshold threshold default
  let second := withTimeout timeout first.1
  (second.1, first.2 ++ second.2)

end ClientConfig

end WideColumn
