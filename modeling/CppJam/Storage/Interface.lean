import CppJam.Storage.RocksCalls
import CppJam.Storage.SizeAccounting

/-!
# The interface of a space

`InMemoryStorage` and `RocksDbSpace` are both a `BufferStorage`: they are read and written, and they
hand out batches and cursors. A client makes calls on the storage and on the batches and cursors
that it was given, and sees an answer to each call.

A space of RocksDB answers with an error when a call of the library fails and when the storage is
gone. A call through a pointer that is null or dangling is undefined.
-/

namespace CppJam.Storage

open Bytes Checks Containers Runs

/-! ## Calls and answers -/

/-- A move of a cursor. -/
inductive Move where
  | seekFirst
  | seek (key : ByteVec)
  | seekLast
  | seekReverse (pfx : ByteVec)
  | next
  | prev
  deriving DecidableEq

/-- A call of a client. Batches and cursors are numbered in the order in which they were made. -/
inductive Call where
  /-- `put`, `remove`, `batch`, and the calls on a batch. -/
  | storage (call : StorageCall)
  | get (key : ByteVec)
  | tryGet (key : ByteVec)
  | contains (key : ByteVec)
  /-- `cursor()`. -/
  | cursor
  /-- A move of a cursor. -/
  | move (i : ℕ) (m : Move)
  /-- `isValid()` of a cursor. -/
  | isValid (i : ℕ)
  /-- `key()` of a cursor. -/
  | key (i : ℕ)
  /-- `value()` of a cursor. -/
  | value (i : ℕ)

/-- What a call returns. -/
inductive Answer where
  /-- `outcome::success()`, or a new object. -/
  | success
  | found (value : ByteVec)
  | optional (value : Option ByteVec)
  | bool (b : Bool)
  /-- An error, returned or thrown. -/
  | failed (error : StorageError)

/-! ## The in-memory storage -/

/-- `InMemoryStorage::get`. -/
def InMemoryStorage.get (db : InMemoryStorage) (key : ByteVec) : Answer :=
  match db.storage[toHex key]? with
  | some value => .found value
  | none => .failed .notFound

/-- `InMemoryStorage::contains`. -/
def InMemoryStorage.contains (db : InMemoryStorage) (key : ByteVec) : Bool :=
  db.storage[toHex key]?.isSome

/-- `value`. -/
def InMemoryCursor.value (c : InMemoryCursor) : Option ByteVec := c.kv.map Prod.snd

/-- A move of the cursor, with what it returns. -/
def InMemoryCursor.move (db : InMemoryStorage) (c : InMemoryCursor) :
    Move → Except Abort (InMemoryCursor × Answer)
  | .seekFirst => do
      let (c, ok) ← seekFirst db
      return (c, .bool ok)
  | .seek key => do
      let (c, ok) ← seek db key
      return (c, .bool ok)
  | .seekLast => do
      let (c, ok) ← seekLast db
      return (c, .bool ok)
  | .seekReverse pfx => do
      let (c, ok) ← seekReverse db pfx
      return (c, .bool ok)
  | .next => do
      let c ← c.next db
      return (c, .success)
  | .prev => do
      let c ← c.prev db
      return (c, .success)

/-- An in-memory storage with its batches and cursors. -/
structure MemorySpace where
  /-- The storage and its batches. -/
  storages : Storages
  /-- The cursors. -/
  cursors : List InMemoryCursor

namespace MemorySpace

/-- A new storage, without batches and cursors. -/
def new : MemorySpace := ⟨.new, []⟩

/-- A call is carried out. -/
def exec (s : MemorySpace) : Call → Except Abort (MemorySpace × Answer)
  | .storage call => do
      let storages ← s.storages.exec call
      return ({ s with storages := storages }, .success)
  | .get key => .ok (s, s.storages.db.get key)
  | .tryGet key => .ok (s, .optional (s.storages.db.tryGet key))
  | .contains key => .ok (s, .bool (s.storages.db.contains key))
  | .cursor => .ok ({ s with cursors := s.cursors ++ [⟨none⟩] }, .success)
  | .move i m => do
      let c ← element s.cursors i
      let (c, answer) ← c.move s.storages.db m
      return ({ s with cursors := s.cursors.set i c }, answer)
  | .isValid i => do
      let c ← element s.cursors i
      return (s, .bool c.isValid)
  | .key i => do
      let c ← element s.cursors i
      return (s, .optional c.key)
  | .value i => do
      let c ← element s.cursors i
      return (s, .optional c.value)

/-- A call with its answer. -/
abbrev Step (s : MemorySpace) (label : Call × Answer) (t : MemorySpace) : Prop :=
  s.exec label.1 = .ok (t, label.2)

end MemorySpace

/-! ## The space of a database -/

section Rocks

variable {δ β ι : Type}

namespace Rocks

variable (R : Rocks δ β ι)

/-- `RocksDbBatch::put` and `RocksDbBatch::remove`, and `RocksDbBatch::clear`. -/
def onBatch (column : String) (batch : β) : BatchCall → β
  | .write (.put key value) => R.batchPut batch column key value
  | .write (.remove key) => R.batchDelete batch column key
  | .clear => R.batchClear batch

/-- `RocksDBCursor::next`; the library needs a valid iterator. -/
def cursorNext (it : ι) : Except Abort ι :=
  if R.valid it then .ok (R.next it) else .error .undefinedBehaviour

/-- `RocksDBCursor::prev`; the library needs a valid iterator. -/
def cursorPrev (it : ι) : Except Abort ι :=
  if R.valid it then .ok (R.prev it) else .error .undefinedBehaviour

/-- `RocksDBCursor::key`. -/
def cursorKey (it : ι) : Option ByteVec := if R.valid it then some (R.key it) else none

/-- `RocksDBCursor::value`. -/
def cursorValue (it : ι) : Option ByteVec := if R.valid it then some (R.value it) else none

/-- `MapCursor::seekReverse` of a `RocksDBCursor`. -/
def seekReverse (it : ι) (pfx : ByteVec) : Except Abort (ι × Answer) :=
  let it := R.seek it pfx
  if ¬R.valid it then
    let it := R.seekToLast it
    .ok (it, .bool (R.valid it))
  else match R.cursorKey it with
    | none => .error .undefinedBehaviour
    | some key =>
      if Precedes pfx key then do
        let it ← R.cursorPrev it
        return (it, .bool (R.valid it))
      else .ok (it, .bool true)

/-- A move of a `RocksDBCursor`, with what it returns. -/
def move (it : ι) : Move → Except Abort (ι × Answer)
  | .seekFirst =>
      let it := R.seekToFirst it
      .ok (it, .bool (R.valid it))
  | .seek key =>
      let it := R.seek it key
      .ok (it, .bool (R.valid it))
  | .seekLast =>
      let it := R.seekToLast it
      .ok (it, .bool (R.valid it))
  | .seekReverse pfx => R.seekReverse it pfx
  | .next => do
      let it ← R.cursorNext it
      return (it, .success)
  | .prev => do
      let it ← R.cursorPrev it
      return (it, .success)

end Rocks

/-- What `put`, `remove` and `commit` return for a status. -/
def Answer.ofStatus : Option FailedStatus → Answer
  | none => .success
  | some status => .failed (statusAsError status)

/-- What `RocksDbSpace::get` returns for what `Get` found. -/
def Answer.ofGet : Except FailedStatus ByteVec → Answer
  | .ok value => .found value
  | .error status => .failed (statusAsError status)

/-- What `RocksDbSpace::tryGet` returns for what `Get` found. -/
def Answer.ofTryGet : Except FailedStatus ByteVec → Answer
  | .ok value => .optional (some value)
  | .error .notFound => .optional none
  | .error status => .failed (statusAsError status)

/-- What `RocksDbSpace::contains` returns for what `Get` found. -/
def Answer.ofContains : Except FailedStatus ByteVec → Answer
  | .ok _ => .bool true
  | .error .notFound => .bool false
  | .error status => .failed (statusAsError status)

/-- `RocksDbSpace` with its batches and cursors. -/
structure RocksSpace (δ β ι : Type) where
  /-- `storage_`: nothing when the `RocksDb` is gone, or its `db_`, which may be null. -/
  storage : Option (Option δ)
  /-- `column_`. -/
  column : String
  /-- `batch_` of every batch that was made. -/
  batches : List β
  /-- `i_` of every cursor that was made. -/
  cursors : List ι

namespace RocksSpace

variable (R : Rocks δ β ι) (s : RocksSpace δ β ι)

/-- The space of an open database, without batches and cursors. -/
def new (db : δ) (column : String) : RocksSpace δ β ι := ⟨some (some db), column, [], []⟩

/-- `use()`, or the lock of `storage_`, and what follows on the database. -/
def useDatabase (f : δ → Answer × RocksSpace δ β ι) :
    Except Abort (RocksSpace δ β ι × Answer) :=
  match s.storage with
  | none => .ok (s, .failed .storageGone)
  | some none => .error .undefinedBehaviour
  | some (some db) => .ok ((f db).2, (f db).1)

/-- A call of the library on the database. -/
def onDatabase {α : Type} (call : δ → α × δ) (answer : α → Answer) :
    Except Abort (RocksSpace δ β ι × Answer) :=
  s.useDatabase fun db =>
    (answer (call db).1, { s with storage := some (some (call db).2) })

/-- The iterator of a cursor, which must not outlive the database. -/
def iterator (i : ℕ) : Except Abort ι := do
  failIf s.storage.isNone .undefinedBehaviour
  element s.cursors i

/-- A call is carried out. -/
def exec : Call → Except Abort (RocksSpace δ β ι × Answer)
  | .storage (.write (.put key value)) =>
      s.onDatabase (fun db => R.put db s.column key value) Answer.ofStatus
  | .storage (.write (.remove key)) =>
      s.onDatabase (fun db => R.delete db s.column key) Answer.ofStatus
  | .storage .batch => .ok ({ s with batches := s.batches ++ [R.newBatch] }, .success)
  | .storage (.onBatch i call) => do
      let batch ← element s.batches i
      return ({ s with batches := s.batches.set i (R.onBatch s.column batch call) }, .success)
  | .storage (.commit i) => do
      let batch ← element s.batches i
      s.onDatabase (fun db => R.write db batch) Answer.ofStatus
  | .get key => s.onDatabase (fun db => R.get db s.column key) Answer.ofGet
  | .tryGet key => s.onDatabase (fun db => R.get db s.column key) Answer.ofTryGet
  | .contains key => s.onDatabase (fun db => R.get db s.column key) Answer.ofContains
  | .cursor =>
      s.useDatabase fun db =>
        (.success, { s with cursors := s.cursors ++ [R.newIterator db s.column] })
  | .move i m => do
      let it ← s.iterator i
      let (it, answer) ← R.move it m
      return ({ s with cursors := s.cursors.set i it }, answer)
  | .isValid i => do
      let it ← s.iterator i
      return (s, .bool (R.valid it))
  | .key i => do
      let it ← s.iterator i
      return (s, .optional (R.cursorKey it))
  | .value i => do
      let it ← s.iterator i
      return (s, .optional (R.cursorValue it))

variable {R s}

/-- When the storage is gone, a call that is not on a batch and returns answers so and changes
nothing. -/
theorem exec_of_gone (hgone : s.storage = none) {call : Call} {t : RocksSpace δ β ι}
    {answer : Answer} (hexec : s.exec R call = .ok (t, answer)) :
    (t = s ∧ answer = .failed .storageGone) ∨
      call = .storage .batch ∨ ∃ i onBatch, call = .storage (.onBatch i onBatch) := by
  have huse : ∀ f, s.useDatabase f = .ok (t, answer) → t = s ∧ answer = .failed .storageGone := by
    intro f hf
    rw [useDatabase, hgone] at hf
    cases hf
    exact ⟨rfl, rfl⟩
  -- a cursor that is used after the storage is gone reads freed memory, so no such call returns
  have hcursor : ∀ i (f : ι → Except Abort (RocksSpace δ β ι × Answer)),
      (s.iterator i >>= f) ≠ .ok (t, answer) := by
    intro i f hf
    obtain ⟨it, hi, _⟩ := bind_eq_ok.mp hf
    rw [iterator, hgone] at hi
    cases hi
  match call with
  | .storage (.write (.put _ _)) => exact Or.inl (huse _ hexec)
  | .storage (.write (.remove _)) => exact Or.inl (huse _ hexec)
  | .storage .batch => exact Or.inr (Or.inl rfl)
  | .storage (.onBatch i onBatch) => exact Or.inr (Or.inr ⟨i, onBatch, rfl⟩)
  | .storage (.commit _) =>
    obtain ⟨_, _, hcommit⟩ := bind_eq_ok.mp hexec
    exact Or.inl (huse _ hcommit)
  | .get _ => exact Or.inl (huse _ hexec)
  | .tryGet _ => exact Or.inl (huse _ hexec)
  | .contains _ => exact Or.inl (huse _ hexec)
  | .cursor => exact Or.inl (huse _ hexec)
  | .move _ _ => exact absurd hexec (hcursor _ _)
  | .isValid _ => exact absurd hexec (hcursor _ _)
  | .key _ => exact absurd hexec (hcursor _ _)
  | .value _ => exact absurd hexec (hcursor _ _)

end RocksSpace

end Rocks

end CppJam.Storage
