import CppJam.Checks
import CppJam.Containers.WeighedMap
import CppJam.Hex
import CppJam.Storage.Writes
import CppJam.Types

/-!
# The in-memory storage and its batches

`InMemoryStorage` keeps values in an ordered map under the hexadecimal strings of
their keys, together with the number of bytes of all values. A batch collects puts
in a map of its own and writes them at `commit()`, one after the other in the order
of the strings. It holds a reference to its storage, modelled as the storage that
the reference leads to.
-/

namespace CppJam.Storage

open Bytes Checks Std

/-- `std::map<std::string, ByteVec>`; a string is the list of its characters. -/
abbrev HexMap := ExtTreeMap (List Char) ByteVec

/-- `toHex`. -/
def toHex (key : ByteVec) : List Char := Hex.encode key

/-- `ByteVec::fromHex(text).value()`. -/
def fromHex (text : List Char) : Except Abort ByteVec :=
  match Hex.decode text with
  | some bytes => .ok bytes
  | none => .error .badResultAccess

/-- Every string of the map is the string of a key. -/
def Keyed (m : HexMap) : Prop := ∀ text value, m[text]? = some value → ∃ key, toHex key = text

/-- `InMemoryStorage`. The counter of the bytes held in memory does not reach the limit of
`size_t`, so it grows without a bound; only subtracting too much wraps around. -/
structure InMemoryStorage where
  /-- `storage_`. -/
  storage : HexMap
  /-- `size_`. -/
  size : ℕ

/-- `a -= b` on `size_t`. -/
def subtractSize (a b : ℕ) : ℕ := if b ≤ a then a - b else a + 2 ^ 64 - b

namespace InMemoryStorage

/-- `InMemoryStorage::tryGet`. -/
def tryGet (db : InMemoryStorage) (key : ByteVec) : Option ByteVec := db.storage[toHex key]?

/-- `InMemoryStorage::put`. -/
def put (db : InMemoryStorage) (key value : ByteVec) : Except Abort InMemoryStorage := do
  let size ← match db.storage[toHex key]? with
    | some old => do
        failIf (¬old.length ≤ db.size) .assertion
        pure (subtractSize db.size old.length)
    | none => pure db.size
  return ⟨db.storage.insert (toHex key) value, size + value.length⟩

/-- `InMemoryStorage::remove`. -/
def remove (db : InMemoryStorage) (key : ByteVec) : InMemoryStorage :=
  match db.storage[toHex key]? with
  | some old => ⟨db.storage.erase (toHex key), subtractSize db.size old.length⟩
  | none => db

/-- `InMemoryStorage::byteSizeHint`. -/
def byteSizeHint (db : InMemoryStorage) : Option ℕ := some db.size

end InMemoryStorage

/-- `InMemoryBatch`. -/
structure InMemoryBatch where
  /-- `entries`. -/
  entries : HexMap
  /-- `db`: the storage behind the reference. -/
  db : InMemoryStorage

/-- `InMemoryStorage::batch`. -/
def InMemoryStorage.batch (db : InMemoryStorage) : InMemoryBatch := ⟨∅, db⟩

namespace InMemoryBatch

/-- `InMemoryBatch::put`. -/
def put (batch : InMemoryBatch) (key value : ByteVec) : InMemoryBatch :=
  { batch with entries := batch.entries.insert (toHex key) value }

/-- `InMemoryBatch::remove`: the pending put is forgotten. -/
def remove (batch : InMemoryBatch) (key : ByteVec) : InMemoryBatch :=
  { batch with entries := batch.entries.erase (toHex key) }

/-- `InMemoryBatch::clear`. -/
def clear (batch : InMemoryBatch) : InMemoryBatch := { batch with entries := ∅ }

/-- `InMemoryBatch::commit`. -/
def commit (batch : InMemoryBatch) : Except Abort InMemoryBatch := do
  let db ← batch.entries.foldlM (fun db text value => do
    let key ← fromHex text
    db.put key value) batch.db
  return { batch with db := db }

end InMemoryBatch

/-- The storage that holds a map and counts its bytes. -/
def InMemoryStorage.holding (m : HexMap) : InMemoryStorage := ⟨m, Containers.total List.length m⟩

/-- A new storage is empty and counts no bytes. -/
def InMemoryStorage.new : InMemoryStorage := ⟨∅, 0⟩

/-- The counter is the number of bytes of all values. -/
def InMemoryStorage.Accounted (db : InMemoryStorage) : Prop :=
  db.size = Containers.total List.length db.storage

/-- An accounted storage is determined by its map. -/
theorem InMemoryStorage.Accounted.eq_holding {db : InMemoryStorage} (hdb : db.Accounted) :
    db = .holding db.storage := by
  cases db
  exact congrArg (InMemoryStorage.mk _) hdb

/-- The value that a put replaces is counted. -/
theorem length_le_total {m : HexMap} {text : List Char} {old : ByteVec}
    (hold : m[text]? = some old) : old.length ≤ Containers.total List.length m := by
  have hle := Containers.weightAt_le_total List.length m text
  rwa [Containers.weightAt, hold] at hle

/-- A put on an accounted storage passes its assertion and keeps it accounted. -/
theorem put_holding (m : HexMap) (key value : ByteVec) :
    (InMemoryStorage.holding m).put key value = .ok (.holding (m.insert (toHex key) value)) := by
  have htotal := Containers.total_insert List.length m (toHex key) value
  unfold InMemoryStorage.put InMemoryStorage.holding
  rw [Containers.weightAt] at htotal
  cases hold : m[toHex key]? with
  | none =>
    rw [hold] at htotal
    simp only [pure_bind]
    exact congrArg (fun n => Except.ok (InMemoryStorage.mk _ n)) htotal.symm
  | some old =>
    have hle := length_le_total hold
    rw [hold] at htotal
    have hcount : Containers.total List.length m - old.length + value.length =
        Containers.total List.length (m.insert (toHex key) value) := by
      rw [Option.map_some, Option.getD_some] at htotal
      omega
    simp only [failIf, hle, not_true, if_false, subtractSize, if_true]
    exact congrArg (fun n => Except.ok (InMemoryStorage.mk _ n)) hcount

/-- A remove on an accounted storage does not wrap around and keeps it accounted. -/
theorem remove_holding (m : HexMap) (key : ByteVec) :
    (InMemoryStorage.holding m).remove key = .holding (m.erase (toHex key)) := by
  have htotal := Containers.total_erase List.length m (toHex key)
  unfold InMemoryStorage.remove InMemoryStorage.holding
  rw [Containers.weightAt] at htotal
  cases hold : m[toHex key]? with
  | none =>
    rw [Containers.erase_eq_self hold]
  | some old =>
    have hle := length_le_total hold
    rw [hold, Option.map_some, Option.getD_some] at htotal
    simp only [subtractSize, hle, if_true]
    exact congrArg (InMemoryStorage.mk _) (by omega)

end CppJam.Storage
