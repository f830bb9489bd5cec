import WideColumn.Format.Reader
import WideColumn.Config

/-!
# The Format of Configurations

Client settings as documents.

Every setting may be left out and then has its default. A duration is split into
seconds and nanoseconds, and is strict about it: no field may be missing and
none may be added.

## Main definitions

* `Duration.write`, `Duration.read?`: Lengths of time.
* `ClientConfig.write`, `ClientConfig.read?`: Settings.
-/

namespace WideColumn

open Document

namespace Duration

/-- The names of the fields of a length of time. -/
def fieldNames : List String := ["secs", "nanos"]

/-- The form of a length of time, in whole seconds and the nanoseconds beyond them. -/
def write (d : Duration) : Json :=
  .object [("secs", .ofNat (d.nanoseconds / 1000000000)),
    ("nanos", .ofNat (d.nanoseconds % 1000000000))]

/-- The document has no members beyond the fields of a length of time. -/
def hasOnlyFields : Document → Bool
  | .object members => members.all fun member => fieldNames.contains member.1
  | _ => true

/-- The length of time of a form. More nanoseconds than a second has carry over,
    as long as the seconds fit 64 bits. -/
def read? (d : Document) : Option Duration := do
  let [seconds, nanoseconds] ← d.fields? fieldNames | none
  let seconds ← required (nat? UInt64.size) seconds
  let nanoseconds ← required (nat? UInt32.size) nanoseconds
  if hasOnlyFields d && seconds + nanoseconds / 1000000000 < UInt64.size then
    some ⟨seconds * 1000000000 + nanoseconds⟩
  else none

end Duration

namespace ClientConfig

/-- The form of settings, with null for no timeout. -/
def write (config : ClientConfig) : Json :=
  .object [("sparsity_threshold", .ofDouble config.threshold),
    ("fetch_timeout", .ofOption Duration.write config.fetchTimeout)]

/-- The threshold of a form, or the default where it is missing. -/
def readThreshold? : Option Document → Option Binary64
  | none => some default.threshold
  | some d => d.double?

/-- The settings of a form. -/
def read? (d : Document) : Option ClientConfig := do
  let [threshold, timeout] ← d.leadingFields? 0 ["sparsity_threshold", "fetch_timeout"] | none
  return ⟨← readThreshold? threshold, ← optional Duration.read? timeout⟩

end ClientConfig

end WideColumn
