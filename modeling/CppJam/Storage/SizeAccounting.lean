import CppJam.Common
import CppJam.Runs
import CppJam.Storage.BatchRefinement

/-!
# The byte counter over whole runs

A storage is written directly and through any number of batches, each with pending
entries of its own. Along every such run the counter is the number of bytes of all
stored values. A value that a put or a remove takes off was counted, so the
subtraction never wraps around and no assertion fails.
-/

namespace CppJam.Storage

open Bytes Checks Runs Std

/-- A storage and the pending entries of its batches. -/
structure Storages where
  /-- The storage. -/
  db : InMemoryStorage
  /-- The entries of every batch that was made. -/
  batches : List HexMap

/-- A call on the storage or on one of its batches. -/
inductive StorageCall where
  /-- `put` or `remove` of the storage. -/
  | write (w : Write)
  /-- `batch()`. -/
  | batch
  /-- A call on a batch before `commit()`. -/
  | onBatch (i : ℕ) (call : BatchCall)
  /-- `commit()` of a batch. -/
  | commit (i : ℕ)

/-- The call concerns a batch that exists. -/
def StorageCall.Exists (s : Storages) : StorageCall → Prop
  | .write _ | .batch => True
  | .onBatch i _ | .commit i => i < s.batches.length

/-- A call is carried out. -/
def Storages.exec (s : Storages) : StorageCall → Except Abort Storages
  | .write w => do
      let db ← w.apply s.db
      return { s with db := db }
  | .batch => .ok { s with batches := s.batches ++ [s.db.batch.entries] }
  | .onBatch i call => do
      let entries ← element s.batches i
      return { s with batches := s.batches.set i (call.apply ⟨entries, s.db⟩).entries }
  | .commit i => do
      let entries ← element s.batches i
      let batch ← InMemoryBatch.commit ⟨entries, s.db⟩
      return { s with db := batch.db }

/-- A new storage without batches. -/
def Storages.new : Storages := ⟨.new, []⟩

/-- A call is a step when it returns. -/
abbrev Storages.Step (s : Storages) (call : StorageCall) (t : Storages) : Prop :=
  s.exec call = .ok t

/-- The storage counts the bytes of what it holds, and its strings come from keys. -/
structure InMemoryStorage.Sound (db : InMemoryStorage) : Prop where
  accounted : db.Accounted
  keyed : Keyed db.storage

/-- The storage is sound, and the pending strings come from keys. -/
structure Storages.Sound (s : Storages) : Prop where
  db_sound : s.db.Sound
  batches_keyed : ∀ entries ∈ s.batches, Keyed entries

/-- A new storage is sound. -/
theorem Storages.Sound.new : Storages.new.Sound where
  db_sound := ⟨(Containers.total_empty List.length).symm, keyed_empty⟩
  batches_keyed := by simp [Storages.new]

/-- A storage that holds a map with the strings of keys is sound. -/
theorem InMemoryStorage.Sound.holding {m : HexMap} (hm : Keyed m) :
    (InMemoryStorage.holding m).Sound := ⟨rfl, hm⟩

/-- Inserting pending entries keeps the strings of keys. -/
theorem Keyed.insertMany {m entries : HexMap} (hm : Keyed m) (hentries : Keyed entries) :
    Keyed (m.insertMany entries.toList) := by
  intro text value htext
  rw [Containers.getElem?_insertMany_toList, Option.or_eq_some_iff] at htext
  rcases htext with hpending | ⟨_, hold⟩
  · exact hentries text value hpending
  · exact hm text value hold

/-- The pending entries after a call on a batch. -/
theorem BatchCall.keyed_apply {entries : HexMap} (hentries : Keyed entries)
    (db : InMemoryStorage) (call : BatchCall) : Keyed (call.apply ⟨entries, db⟩).entries := by
  match call with
  | .write (.put key value) => exact hentries.onMap [.put key value]
  | .write (.remove key) => exact hentries.onMap [.remove key]
  | .clear => exact keyed_empty

/-- A direct write on a sound storage returns a sound storage. -/
theorem InMemoryStorage.Sound.write {db : InMemoryStorage} (hdb : db.Sound) (w : Write) :
    ∃ db', w.apply db = .ok db' ∧ db'.Sound := by
  have hwrite := applyWrites_holding db.storage [w]
  rw [← hdb.accounted.eq_holding, applyWrites, List.foldlM_cons] at hwrite
  obtain ⟨db', hw, hend⟩ := bind_eq_ok.mp hwrite
  obtain rfl := pure_eq_ok.mp hend
  exact ⟨_, hw, .holding (hdb.keyed.onMap [w])⟩

/-- Every call on a sound storage and its batches returns and leaves them sound. -/
theorem Storages.Sound.exec {s : Storages} (hs : s.Sound) {call : StorageCall}
    (hcall : call.Exists s) : ∃ t, s.exec call = .ok t ∧ t.Sound := by
  cases call with
  | write w =>
    obtain ⟨db, hw, hdb⟩ := hs.db_sound.write w
    exact ⟨_, bind_eq_ok.mpr ⟨db, hw, rfl⟩, hdb, hs.batches_keyed⟩
  | batch =>
    refine ⟨_, rfl, hs.db_sound, ?_⟩
    intro entries hentries
    rcases List.mem_append.mp hentries with hold | hnew
    · exact hs.batches_keyed entries hold
    · rw [List.mem_singleton.mp hnew]
      exact keyed_empty
  | onBatch i call =>
    have hi := List.getElem?_eq_getElem hcall
    have hkeyed := hs.batches_keyed _ (List.mem_of_getElem? hi)
    refine ⟨_, bind_eq_ok.mpr ⟨_, element_eq_ok.mpr hi, rfl⟩, hs.db_sound, ?_⟩
    intro entries hentries
    rcases List.mem_or_eq_of_mem_set hentries with hold | rfl
    · exact hs.batches_keyed entries hold
    · exact call.keyed_apply hkeyed s.db
  | commit i =>
    have hi := List.getElem?_eq_getElem hcall
    have hkeyed := hs.batches_keyed _ (List.mem_of_getElem? hi)
    have hcommit := commit_holding s.db.storage hkeyed
    rw [← hs.db_sound.accounted.eq_holding] at hcommit
    exact ⟨_, bind_eq_ok.mpr ⟨_, element_eq_ok.mpr hi, bind_eq_ok.mpr ⟨_, hcommit, rfl⟩⟩,
      .holding (hs.db_sound.keyed.insertMany hkeyed), hs.batches_keyed⟩

/-- A call that returns concerns a batch that exists. -/
theorem StorageCall.exists_of_step {s t : Storages} {call : StorageCall}
    (hstep : s.Step call t) : call.Exists s := by
  cases call with
  | write w => trivial
  | batch => trivial
  | onBatch i call =>
    obtain ⟨_, hi, _⟩ := bind_eq_ok.mp hstep
    exact (List.getElem?_eq_some_iff.mp (element_eq_ok.mp hi)).1
  | commit i =>
    obtain ⟨_, hi, _⟩ := bind_eq_ok.mp hstep
    exact (List.getElem?_eq_some_iff.mp (element_eq_ok.mp hi)).1

/-- Storages stay sound along every run. -/
theorem sound_of_run {trace : List StorageCall} {s : Storages}
    (hrun : Run Storages.Step .new trace s) : s.Sound := by
  refine hrun.invariant (I := fun _ s => s.Sound) Storages.Sound.new ?_
  intro trace call s t _ hs hstep
  obtain ⟨t', ht', hsound⟩ := hs.exec (StorageCall.exists_of_step hstep)
  cases hstep.symm.trans ht'
  exact hsound

/-- The counter is right and no subtraction from it wraps around: the value that a put or a
remove of any key takes off is counted. -/
structure SizeLaw (s : Storages) : Prop where
  byteSizeHint_eq : s.db.byteSizeHint = some (Containers.total List.length s.db.storage)
  no_underflow : ∀ key old, s.db.tryGet key = some old → old.length ≤ s.db.size
  returns : ∀ call : StorageCall, call.Exists s → ∃ t, s.exec call = .ok t

/-- **Size accounting.** In every run of puts, removes and batches from a new storage the
hint is the number of bytes of all stored values, every call returns, and the counter never
underflows. -/
theorem sizeLaw_of_run {trace : List StorageCall} {s : Storages}
    (hrun : Run Storages.Step .new trace s) : SizeLaw s := by
  have hs := sound_of_run hrun
  refine ⟨congrArg some hs.db_sound.accounted, ?_, ?_⟩
  · intro key old hold
    rw [hs.db_sound.accounted]
    exact length_le_total hold
  · intro call hcall
    obtain ⟨t, ht, _⟩ := hs.exec hcall
    exact ⟨t, ht⟩

namespace Scenario

/-- Overwrites, an empty value, a remove, and a batch that is committed twice. -/
def calls : List StorageCall :=
  [.write (.put [3] [7, 7]), .write (.put [3] [1]), .write (.put [4] []), .batch,
    .onBatch 0 (.write (.put [3] [1, 2, 3])), .commit 0, .write (.remove [4]),
    .write (.remove [5]), .commit 0]

end Scenario

/-- The calls leave three bytes under one key. -/
theorem sizeLaw_calls :
    ∃ s, Run Storages.Step .new Scenario.calls s ∧ SizeLaw s ∧ s.db.byteSizeHint = some 3 := by
  have hrun : Run Storages.Step .new Scenario.calls _ := Run.of_foldlM rfl
  exact ⟨_, hrun, sizeLaw_of_run hrun, rfl⟩

end CppJam.Storage
