import CppJam.Storage.Cursor
import CppJam.Storage.RocksDb

/-!
# RocksDB as a space calls it

`RocksDbSpace`, `RocksDbBatch` and `RocksDBCursor` call a library that is not part of the
repository, so the library is a parameter: its calls are functions on states that are not looked
into. What its documentation promises of them is a structure of laws. A call that reads or writes
may fail with any status, and the laws say nothing of a database after a failed call.
-/

namespace CppJam.Storage

open Bytes Containers Stores Std

/-- The calls that the code makes: `δ` are the states of an open `rocksdb::DB`, `β` those of a
`rocksdb::WriteBatch` and `ι` those of a `rocksdb::Iterator`. A column family is given by its
name. -/
structure Rocks (δ β ι : Type) where
  /-- `DB::Get`: the value, or the status if it is not `ok()`. -/
  get : δ → String → ByteVec → Except FailedStatus ByteVec × δ
  /-- `DB::Put`: the status, if it is not `ok()`. -/
  put : δ → String → ByteVec → ByteVec → Option FailedStatus × δ
  /-- `DB::Delete`. -/
  delete : δ → String → ByteVec → Option FailedStatus × δ
  /-- `DB::Write`. -/
  write : δ → β → Option FailedStatus × δ
  /-- A new `WriteBatch`. -/
  newBatch : β
  /-- `WriteBatch::Put`. -/
  batchPut : β → String → ByteVec → ByteVec → β
  /-- `WriteBatch::Delete`. -/
  batchDelete : β → String → ByteVec → β
  /-- `WriteBatch::Clear`. -/
  batchClear : β → β
  /-- `DB::NewIterator`. -/
  newIterator : δ → String → ι
  /-- `Iterator::SeekToFirst`. -/
  seekToFirst : ι → ι
  /-- `Iterator::Seek`. -/
  seek : ι → ByteVec → ι
  /-- `Iterator::SeekToLast`. -/
  seekToLast : ι → ι
  /-- `Iterator::Next`. -/
  next : ι → ι
  /-- `Iterator::Prev`. -/
  prev : ι → ι
  /-- `Iterator::Valid`. -/
  valid : ι → Bool
  /-- `Iterator::key`. -/
  key : ι → ByteVec
  /-- `Iterator::value`. -/
  value : ι → ByteVec

/-- The entries of all column families. -/
abbrev Families := String → ByteVec → Option ByteVec

/-- A write to a column family. -/
def Families.write (content : Families) (w : String × Write) : Families :=
  Function.update content w.1 (Function.update (content w.1) w.2.key w.2.value)

/-- After writes to one column family each of its keys has what the last write left. -/
theorem Families.foldl_write (content : Families) (column : String) (writes : List Write)
    (key : ByteVec) :
    (writes.map (Prod.mk column)).foldl Families.write content column key =
      left Write.key Write.value writes key (content column key) := by
  have hstep : ∀ (content : Families) (w : Write) (key : ByteVec),
      content.write (column, w) column key =
        if w.key = key then w.value else content column key := by
    intro content w key
    rw [Families.write, Function.update_self, Function.update_apply]
    simp only [eq_comm]
  rw [List.foldl_map]
  exact read_foldl (fun (content : Families) key => content column key) hstep content writes key

namespace Rocks

variable {δ β ι : Type}

/-- What the documentation of the library speaks of. -/
structure View (δ β ι : Type) where
  /-- The entries of a database. -/
  content : δ → Families
  /-- The writes of a batch, in order. -/
  writes : β → List (String × Write)
  /-- The entries that an iterator goes through. -/
  snapshot : ι → ByteVec → Option ByteVec

variable (R : Rocks δ β ι) (V : View δ β ι)

/-- The entry that an iterator stands on. -/
def position (it : ι) : Option (ByteVec × ByteVec) :=
  if R.valid it then some (R.key it, R.value it) else none

/-- The iterator goes to the nearest entry, in an order and among the admitted keys. -/
structure Reaches (order : ByteVec → ByteVec → Prop) (admitted : ByteVec → Prop)
    (it it' : ι) : Prop where
  /-- The entries stay. -/
  snapshot : V.snapshot it' = V.snapshot it
  /-- The position is the nearest entry. -/
  nearest : Nearest order (V.snapshot it) admitted (R.position it')

/-- What the documentation promises. Reads and writes are only described when they do not fail.
An iterator goes through the entries as they were when it was made, in the order of their bytes,
and does not fail; `Next` and `Prev` need a valid one. -/
structure Laws : Prop where
  get_ok : ∀ db column key value db', R.get db column key = (.ok value, db') →
    V.content db column key = some value ∧ V.content db' = V.content db
  get_notFound : ∀ db column key db', R.get db column key = (.error .notFound, db') →
    V.content db column key = none ∧ V.content db' = V.content db
  put_ok : ∀ db column key value db', R.put db column key value = (none, db') →
    V.content db' = (V.content db).write (column, .put key value)
  delete_ok : ∀ db column key db', R.delete db column key = (none, db') →
    V.content db' = (V.content db).write (column, .remove key)
  write_ok : ∀ db batch db', R.write db batch = (none, db') →
    V.content db' = (V.writes batch).foldl Families.write (V.content db)
  writes_new : V.writes R.newBatch = []
  writes_put : ∀ batch column key value,
    V.writes (R.batchPut batch column key value) = V.writes batch ++ [(column, .put key value)]
  writes_delete : ∀ batch column key,
    V.writes (R.batchDelete batch column key) = V.writes batch ++ [(column, .remove key)]
  writes_clear : ∀ batch, V.writes (R.batchClear batch) = []
  snapshot_new : ∀ db column, V.snapshot (R.newIterator db column) = V.content db column
  valid_new : ∀ db column, R.valid (R.newIterator db column) = false
  seekToFirst : ∀ it, R.Reaches V Precedes (fun _ => True) it (R.seekToFirst it)
  seek : ∀ it key, R.Reaches V Precedes (fun key' => ¬Precedes key' key) it (R.seek it key)
  seekToLast : ∀ it,
    R.Reaches V (fun a b => Precedes b a) (fun _ => True) it (R.seekToLast it)
  next : ∀ it, R.valid it = true →
    R.Reaches V Precedes (Precedes (R.key it)) it (R.next it)
  prev : ∀ it, R.valid it = true →
    R.Reaches V (fun a b => Precedes b a) (fun key' => Precedes key' (R.key it)) it (R.prev it)

/-! ## A library in memory -/

/-- The entries of a column family in memory. -/
abbrev Family := ExtTreeMap ByteVec ByteVec

/-- A write to a column family in memory. -/
def Family.write (m : Family) : Write → Family
  | .put key value => m.insert key value
  | .remove key => m.erase key

/-- A write to one of the column families. -/
def writeFamily (db : String → Family) (w : String × Write) : String → Family :=
  Function.update db w.1 ((db w.1).write w.2)

/-- A library that keeps the column families in memory, where no call fails. -/
def inMemory : Rocks (String → Family) (List (String × Write))
    (Family × Option (ByteVec × ByteVec)) where
  get db column key :=
    match (db column)[key]? with
    | some value => (.ok value, db)
    | none => (.error .notFound, db)
  put db column key value := (none, writeFamily db (column, .put key value))
  delete db column key := (none, writeFamily db (column, .remove key))
  write db batch := (none, batch.foldl writeFamily db)
  newBatch := []
  batchPut batch column key value := batch ++ [(column, .put key value)]
  batchDelete batch column key := batch ++ [(column, .remove key)]
  batchClear _ := []
  newIterator db column := (db column, none)
  seekToFirst it := (it.1, begin it.1)
  seek it key := (it.1, lowerBound it.1 key)
  seekToLast it := (it.1, Containers.prev it.1 none)
  next it := (it.1, it.2.bind fun e => upperBound it.1 e.1)
  prev it := (it.1, it.2.bind fun e => Containers.prev it.1 (some e))
  valid it := it.2.isSome
  key it := (it.2.map Prod.fst).getD []
  value it := (it.2.map Prod.snd).getD []

/-- What the library in memory holds. -/
def inMemoryView : View (String → Family) (List (String × Write))
    (Family × Option (ByteVec × ByteVec)) where
  content db column key := (db column)[key]?
  writes batch := batch
  snapshot it key := it.1[key]?

/-- The entries after a write in memory. -/
theorem content_writeFamily (db : String → Family) (w : String × Write) :
    inMemoryView.content (writeFamily db w) = (inMemoryView.content db).write w := by
  obtain ⟨column, w⟩ := w
  funext column' key
  by_cases hcolumn : column' = column
  · subst hcolumn
    cases w with
    | put key' value =>
      simp [inMemoryView, writeFamily, Families.write, Family.write, ExtTreeMap.getElem?_insert,
        Write.key, Write.value, Function.update_apply, eq_comm (a := key)]
    | remove key' =>
      simp [inMemoryView, writeFamily, Families.write, Family.write, ExtTreeMap.getElem?_erase,
        Write.key, Write.value, Function.update_apply, eq_comm (a := key)]
  · simp [inMemoryView, writeFamily, Families.write, Function.update_of_ne hcolumn]

/-- An iterator in memory that is put on the nearest entry reaches it. -/
theorem reaches_inMemory {order : ByteVec → ByteVec → Prop} {admitted : ByteVec → Prop}
    {it : Family × Option (ByteVec × ByteVec)} {e : Option (ByteVec × ByteVec)}
    (he : Nearest order (fun key => it.1[key]?) admitted e) :
    inMemory.Reaches inMemoryView order admitted it (it.1, e) := by
  have hposition : inMemory.position (it.1, e) = e := by
    cases e <;> rfl
  refine ⟨rfl, ?_⟩
  rw [hposition]
  exact he

/-- Byte strings are listed in their order. -/
theorem compare_lt_eq_precedes : (fun a b : ByteVec => compare a b = .lt) = Precedes := by
  funext a b
  exact propext precedes_iff_compare.symm

/-- **The laws can be met.** The library in memory keeps them. -/
theorem inMemory_laws : inMemory.Laws inMemoryView where
  get_ok db column key value db' hget := by
    unfold inMemory at hget
    cases hentry : (db column)[key]? with
    | none => simp [hentry] at hget
    | some found =>
      simp only [hentry, Prod.mk.injEq, Except.ok.injEq] at hget
      obtain ⟨rfl, rfl⟩ := hget
      exact ⟨hentry, rfl⟩
  get_notFound db column key db' hget := by
    unfold inMemory at hget
    cases hentry : (db column)[key]? with
    | none =>
      simp only [hentry, Prod.mk.injEq, true_and] at hget
      exact ⟨hentry, by rw [hget]⟩
    | some found => simp [hentry] at hget
  put_ok db column key value db' hput := by
    cases hput
    exact content_writeFamily db _
  delete_ok db column key db' hdelete := by
    cases hdelete
    exact content_writeFamily db _
  write_ok db batch db' hwrite := by
    cases hwrite
    exact (List.foldl_hom inMemoryView.content fun db w => (content_writeFamily db w).symm).symm
  writes_new := rfl
  writes_put _ _ _ _ := rfl
  writes_delete _ _ _ := rfl
  writes_clear _ := rfl
  snapshot_new _ _ := rfl
  valid_new _ _ := rfl
  seekToFirst it := by
    rw [← compare_lt_eq_precedes]
    exact reaches_inMemory (begin_nearest it.1)
  seek it key := by
    rw [← compare_lt_eq_precedes]
    exact reaches_inMemory (lowerBound_nearest it.1 key)
  seekToLast it := by
    rw [← compare_lt_eq_precedes]
    exact reaches_inMemory (prev_end_nearest it.1)
  next it hvalid := by
    obtain ⟨m, e⟩ := it
    obtain ⟨e, rfl⟩ := Option.isSome_iff_exists.mp hvalid
    rw [← compare_lt_eq_precedes]
    exact reaches_inMemory (upperBound_nearest m e.1)
  prev it hvalid := by
    obtain ⟨m, e⟩ := it
    obtain ⟨e, rfl⟩ := Option.isSome_iff_exists.mp hvalid
    rw [← compare_lt_eq_precedes]
    exact reaches_inMemory (prev_entry_nearest m e)

end Rocks

end CppJam.Storage
