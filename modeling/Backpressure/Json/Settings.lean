import Backpressure.Json.Values
import Backpressure.SessionId
import Backpressure.Settings
set_option autoImplicit false

/-!
# Settings as JSON text

How policies, durations, session identities and settings are written as JSON text, and
how they are read from it. Settings are an object in which keys may be missing, in any
order and among unknown keys, or an array of the values in the order of the fields.
What is written is always read back as the same value.
-/

namespace Backpressure.Json

/-! ## Policies -/

/-- A policy as JSON text. -/
def policyText (p : Policy) : String := "\"" ++ p.name ++ "\""

/-- The policy with a canonical name. -/
def policyNamed (name : List Char) : Except Fault Policy :=
  match Policy.ofName? name with
  | some p => .ok p
  | none => .error (.unknownVariant name)

/-- A policy: its name, or an object with its name as the one key and null as the value. -/
def readPolicy : Step Policy := fun cs =>
  match skipBlanks cs with
  | '\x22' :: rest => do
    let (name, rest) ← readString rest
    let p ← policyNamed name
    return (p, rest)
  | '\x7b' :: rest => do
    let rest ← expectMark '\x22' rest
    let (name, rest) ← readString rest
    let p ← policyNamed name
    let rest ← expectMark ':' rest
    let rest ← readNull .unit rest
    let rest ← expectMark '\x7d' rest
    return (p, rest)
  | _ => .error .malformed

/-! ## Session identities -/

/-- A session identity as JSON text. -/
def sessionIdText (i : SessionId) : String := Decimal.text i.value.toNat

/-- A session identity. -/
def readSessionId : Step SessionId := fun cs => do
  let (z, rest) ← readInteger .unsigned64 cs
  return (⟨UInt64.ofNat z.toNat⟩, rest)

/-! ## Durations -/

/-- A duration as JSON text. -/
def durationText (d : Duration) : String :=
  "\x7b\"secs\":" ++ Decimal.text d.seconds ++ ",\"nanos\":" ++ Decimal.text d.subsecond ++ "\x7d"

/-- The parts of a duration that were read so far. -/
structure DurationParts where
  seconds : Option Int := none
  nanos : Option Int := none
  deriving DecidableEq, Repr

/-- The duration with given parts. -/
def durationOf (seconds nanos : Int) : Except Fault Duration :=
  match Duration.ofParts? seconds.toNat nanos.toNat with
  | some d => .ok d
  | none => .error .overflow

/-- One member of a duration. -/
def durationMember (parts : DurationParts) (key : List Char) :
    Step DurationParts := fun rest =>
  if key = "secs".toList then
    if parts.seconds.isSome then .error (.duplicateField "secs")
    else do
      let rest ← expectMark ':' rest
      let (z, rest) ← readInteger .unsigned64 rest
      return ({ parts with seconds := some z }, rest)
  else if key = "nanos".toList then
    if parts.nanos.isSome then .error (.duplicateField "nanos")
    else do
      let rest ← expectMark ':' rest
      let (z, rest) ← readInteger .unsigned32 rest
      return ({ parts with nanos := some z }, rest)
  else .error (.unknownField key)

/-- The duration that an object gives. -/
def DurationParts.duration (parts : DurationParts) : Except Fault Duration :=
  match parts.seconds, parts.nanos with
  | some s, some n => durationOf s n
  | none, _ => .error (.missingField "secs")
  | some _, none => .error (.missingField "nanos")

/-- A duration as an array, behind its opening bracket. -/
def readDurationArray : Step Duration := fun cs => do
  match ← next ']' true cs with
  | .close _ => .error (.tooShort 0)
  | .part rest =>
    let (s, rest) ← readInteger .unsigned64 rest
    match ← next ']' false rest with
    | .close _ => .error (.tooShort 1)
    | .part rest =>
      let (n, rest) ← readInteger .unsigned32 rest
      let d ← durationOf s n
      let rest ← expectMark ']' rest
      return (d, rest)

/-- A duration: an object with its seconds and nanoseconds, or an array of them. -/
def readDuration : Step Duration := fun cs =>
  match skipBlanks cs with
  | '\x7b' :: rest => do
    let (parts, rest) ← readObject durationMember {} rest
    let d ← parts.duration
    return (d, rest)
  | '[' :: rest => readDurationArray rest
  | other => .error (unexpected .duration other)

/-- An optional duration as JSON text. -/
def timeoutText : Option Duration → String
  | none => "null"
  | some d => durationText d

/-- A duration or null. -/
def readTimeout : Step (Option Duration) := fun cs =>
  match skipBlanks cs with
  | 'n' :: rest => do
    let rest ← expectWord ['u', 'l', 'l'] rest
    return (none, rest)
  | other => do
    let (d, rest) ← readDuration other
    return (some d, rest)

/-! ## Fields of settings -/

/-- A field of settings. -/
inductive Field where
  | policy
  | limit (d : Dimension)
  | logInterval
  | blockTimeout
  deriving DecidableEq, Repr

namespace Field

/-- The fields in the order in which they are written. -/
def all : List Field :=
  [policy] ++ Dimension.all.map limit ++ [logInterval, blockTimeout]

/-- The key of a field. -/
def key : Field → String
  | policy => "policy"
  | limit .localMessages => "local_max_scheduled_write_messages"
  | limit .localBytes => "local_max_scheduled_write_bytes"
  | limit .globalMessages => "global_max_scheduled_write_messages"
  | limit .globalBytes => "global_max_scheduled_write_bytes"
  | logInterval => "log_interval"
  | blockTimeout => "block_timeout"

/-- The field with a given key. -/
def ofKey? (text : List Char) : Option Field := all.find? (·.key.toList == text)

/-- The value of a field as JSON text. -/
def valueText (s : Settings) : Field → String
  | policy => policyText s.policy
  | limit d => Decimal.signedText (s.limits.get d).toInt
  | logInterval => durationText s.logInterval
  | blockTimeout => timeoutText s.blockTimeout

/-- Reads the value of a field into settings. -/
def readValue (s : Settings) (f : Field) : Step Settings := fun cs =>
  match f with
  | policy => do
    let (p, rest) ← readPolicy cs
    return (s.choose (.policy p), rest)
  | limit d => do
    let (z, rest) ← readInteger .signed64 cs
    return (s.choose (.limit d (Int64.ofInt z)), rest)
  | logInterval => do
    let (interval, rest) ← readDuration cs
    return (s.choose (.logInterval interval), rest)
  | blockTimeout => do
    let (timeout, rest) ← readTimeout cs
    return (s.choose (.blockTimeout timeout), rest)

theorem mem_all (f : Field) : f ∈ all := by
  cases f with
  | limit d => cases d <;> decide
  | _ => decide

@[simp] theorem ofKey?_key (f : Field) : ofKey? f.key.toList = some f := by
  cases f with
  | limit d => cases d <;> decide
  | _ => decide

end Field

/-! ## Settings -/

/-- One member of settings as JSON text. -/
def memberText (s : Settings) (f : Field) : String :=
  "\"" ++ f.key ++ "\":" ++ f.valueText s

/-- Settings as JSON text: an object with every field, in order. -/
def settingsText (s : Settings) : String :=
  "\x7b" ++ String.intercalate "," (Field.all.map (memberText s)) ++ "\x7d"

/-- What was read of settings so far, and which fields were among it. -/
structure Progress where
  settings : Settings := {}
  seen : List Field := []
  deriving DecidableEq, Repr

/-- One member of settings; a member with an unknown key is skipped. -/
def settingsMember (p : Progress) (key : List Char) : Step Progress := fun rest =>
  match Field.ofKey? key with
  | none => do
    let rest ← expectMark ':' rest
    let rest ← skipValue rest
    return (p, rest)
  | some f =>
    if f ∈ p.seen then .error (.duplicateField f.key)
    else do
      let rest ← expectMark ':' rest
      let (s, rest) ← f.readValue p.settings rest
      return ({ settings := s, seen := f :: p.seen }, rest)

/-- Goes through the elements of an array of settings behind its opening bracket; those
at its end may be missing. -/
def readElements (first : Bool) (s : Settings) : List Field → Step Settings
  | [], cs => do
    let rest ← expectMark ']' cs
    return (s, rest)
  | f :: fields, cs => do
    match ← next ']' first cs with
    | .close rest => return (s, rest)
    | .part rest =>
      let (s, rest) ← f.readValue s rest
      readElements false s fields rest

/-- Settings: an object or an array; what is missing has its default. -/
def readSettings : Step Settings := fun cs =>
  match skipBlanks cs with
  | '\x7b' :: rest => do
    let (p, rest) ← readObject settingsMember {} rest
    return (p.settings, rest)
  | '[' :: rest => readElements true {} Field.all rest
  | other => .error (unexpected .settings other)

/-- The policy that a JSON text gives. -/
def parsePolicy (text : String) : Except Fault Policy := document readPolicy text

/-- The session identity that a JSON text gives. -/
def parseSessionId (text : String) : Except Fault SessionId := document readSessionId text

/-- The settings that a JSON text gives. -/
def parseSettings (text : String) : Except Fault Settings := document readSettings text

end Backpressure.Json
