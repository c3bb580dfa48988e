import TrackedFields.Json.Reader
import TrackedFields.Json.Record
import TrackedFields.Json.Writer
import TrackedFields.Timestamp.Basic

/-!
# Timestamps in JSON

A timestamp is a record of its seconds and nanoseconds. Reading takes any seconds and nanoseconds
that fit their words; it does not ask that the nanoseconds are less than one second.
-/

namespace TrackedFields.Timestamp

/-- The JSON form of a timestamp. -/
def toJson (t : Timestamp) : Json :=
  .object [("secs", .int t.secs.toInt), ("nanos", .nat t.nanos.toNat)]

/-- The timestamp that a JSON document describes. -/
def ofJson? (j : Json) : Option Timestamp := do
  match ← j.fields ["secs", "nanos"] with
  | [secs, nanos] =>
    let secs ← Json.required (Json.intIn? (-Word.signedLimit) (Word.signedLimit - 1)) secs
    let nanos ← Json.required (Json.natBelow? 4294967296) nanos
    some ⟨Int64.ofInt secs, UInt32.ofNat nanos⟩
  | _ => none

/-- The timestamp that a JSON text describes. -/
def ofJsonText? (s : String) : Option Timestamp := (Json.read s).bind ofJson?

end TrackedFields.Timestamp
