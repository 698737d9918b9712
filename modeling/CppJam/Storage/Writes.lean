import CppJam.Bytes
import CppJam.Stores

/-!
# Writes to a storage

Every storage and every batch is `Writeable`: a value is put under a key or the value
of a key is removed.
-/

namespace CppJam.Storage

open Bytes Stores

/-- `ByteVec`. -/
abbrev ByteVec := List Byte

/-- A call of the `Writeable` interface. -/
inductive Write where
  /-- `put(key, value)`. -/
  | put (key value : ByteVec)
  /-- `remove(key)`. -/
  | remove (key : ByteVec)
  deriving DecidableEq

/-- The key of a write. -/
def Write.key : Write → ByteVec
  | .put key _ => key
  | .remove key => key

/-- What a write leaves at its key. -/
def Write.value : Write → Option ByteVec
  | .put _ value => some value
  | .remove _ => none

/-- A write that leaves nothing at its key is the remove of this key. -/
theorem Write.eq_remove {w : Write} (hvalue : w.value = none) : w = .remove w.key := by
  cases w with
  | put key value => cases hvalue
  | remove key => rfl

/-- The last write to a key. -/
def lastWrite (writes : List Write) (key : ByteVec) : Option Write :=
  lastAt Write.key writes key

end CppJam.Storage
