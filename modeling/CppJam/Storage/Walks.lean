import CppJam.Storage.Cursor
import CppJam.Storage.SizeAccounting

/-!
# Walking through a storage with a cursor

A cursor goes through a storage from one end to the other, in either direction, while
the storage is written. Every move finds the nearest key behind the copied one, also
when the key on which the cursor stands was removed.
-/

namespace CppJam.Storage

open Bytes Checks Containers Runs Std

/-- The two ways through a storage: `next` from `seekFirst`, or `prev` from `seekLast`. -/
inductive Direction where
  | forward
  | backward
  deriving DecidableEq

namespace Direction

/-- The order in which keys are visited. -/
def order : Direction → ByteVec → ByteVec → Prop
  | forward => Precedes
  | backward => fun a b => Precedes b a

/-- The first move. -/
def seek (dir : Direction) (db : InMemoryStorage) : Except Abort (InMemoryCursor × Bool) :=
  match dir with
  | forward => InMemoryCursor.seekFirst db
  | backward => InMemoryCursor.seekLast db

/-- Every other move. -/
def advance (dir : Direction) (db : InMemoryStorage) (c : InMemoryCursor) :
    Except Abort InMemoryCursor :=
  match dir with
  | forward => c.next db
  | backward => c.prev db

instance (dir : Direction) : IsTrans ByteVec dir.order where
  trans a b c hab hbc := by
    cases dir with
    | forward => exact trans_of Precedes hab hbc
    | backward => exact trans_of Precedes hbc hab

instance (dir : Direction) : Std.Irrefl dir.order where
  irrefl a haa := by
    cases dir with
    | forward => exact irrefl_of Precedes a haa
    | backward => exact irrefl_of Precedes a haa

variable {db : InMemoryStorage} {c : InMemoryCursor} {key value : ByteVec}

/-- The first move finds the first key. -/
theorem seek_spec (dir : Direction) (hdb : Keyed db.storage) :
    ∃ c : InMemoryCursor, dir.seek db = .ok (c, c.isValid) ∧
      Nearest dir.order db.tryGet (fun _ => True) c.kv := by
  cases dir with
  | forward => exact InMemoryCursor.seekFirst_spec hdb
  | backward => exact InMemoryCursor.seekLast_spec hdb

/-- Every other move finds the nearest key behind the copied one. -/
theorem advance_spec (dir : Direction) (hdb : Keyed db.storage) (hkv : c.kv = some (key, value)) :
    ∃ c', dir.advance db c = .ok c' ∧ Nearest dir.order db.tryGet (dir.order key) c'.kv := by
  cases dir with
  | forward => exact InMemoryCursor.next_spec hdb hkv
  | backward => exact InMemoryCursor.prev_spec hdb hkv

/-- A move from an invalid cursor is undefined. -/
theorem valid_of_advance (dir : Direction) {c' : InMemoryCursor}
    (hadvance : dir.advance db c = .ok c') : ∃ key value, c.kv = some (key, value) := by
  obtain ⟨kv⟩ := c
  cases kv with
  | none => cases dir <;> cases hadvance
  | some pair => exact ⟨pair.1, pair.2, rfl⟩

end Direction

/-! ## A walk and the writes during it -/

/-- A storage, a cursor on its way through it, and the pairs that the cursor has visited. -/
structure Walk where
  db : InMemoryStorage
  cursor : InMemoryCursor
  visited : List (ByteVec × ByteVec)

/-- What happens during a walk. -/
inductive WalkCall where
  /-- `put` or `remove` on the storage. -/
  | write (w : Write)
  /-- A move of the cursor. -/
  | advance
  deriving DecidableEq

/-- A walk begins. -/
def Walk.start (dir : Direction) (db : InMemoryStorage) : Except Abort Walk := do
  let (c, _) ← dir.seek db
  return ⟨db, c, c.kv.toList⟩

/-- A call during a walk; a move visits the pair it finds. -/
def Walk.exec (dir : Direction) (s : Walk) : WalkCall → Except Abort Walk
  | .write w => do
      let db ← w.apply s.db
      return { s with db := db }
  | .advance => do
      let c ← dir.advance s.db s.cursor
      return { s with cursor := c, visited := s.visited ++ c.kv.toList }

/-- A call is a step when it returns; so the cursor is moved only while it is valid. -/
abbrev Walk.Step (dir : Direction) (s : Walk) (call : WalkCall) (t : Walk) : Prop :=
  s.exec dir call = .ok t

/-- The walk has moved last: it is at its start, or its last call was a move. -/
def JustMoved (trace : List WalkCall) : Prop :=
  trace = [] ∨ ∃ front, trace = front ++ [.advance]

/-- A key is stored during the whole walk. -/
def StoredThroughout (dir : Direction) (s : Walk) (trace : List WalkCall) (key : ByteVec) : Prop :=
  ∀ front back t, trace = front ++ back → Run (Walk.Step dir) s front t → t.db.tryGet key ≠ none

variable {dir : Direction} {db : InMemoryStorage} {s t u : Walk} {trace : List WalkCall}

/-- A walk begins at the first pair. -/
theorem Walk.start_spec (dir : Direction) (hdb : Keyed db.storage) :
    ∃ c : InMemoryCursor, Walk.start dir db = .ok ⟨db, c, c.kv.toList⟩ ∧
      Nearest dir.order db.tryGet (fun _ => True) c.kv := by
  obtain ⟨c, hseek, hc⟩ := dir.seek_spec hdb
  exact ⟨c, bind_eq_ok.mpr ⟨_, hseek, rfl⟩, hc⟩

/-- What a call does: a write changes the storage only, and a move visits the nearest pair
behind the copied key. -/
theorem Walk.step_cases (hs : s.db.Sound) {call : WalkCall} (hstep : s.Step dir call t) :
    (∃ w, call = .write w ∧ t.db.Sound ∧ t.cursor = s.cursor ∧ t.visited = s.visited) ∨
    (call = .advance ∧ t.db = s.db ∧ t.visited = s.visited ++ t.cursor.kv.toList ∧
      ∃ key value, s.cursor.kv = some (key, value) ∧
        Nearest dir.order s.db.tryGet (dir.order key) t.cursor.kv) := by
  cases call with
  | write w =>
    obtain ⟨db, hw, hdb⟩ := hs.write w
    obtain ⟨db', hw', ht⟩ := bind_eq_ok.mp hstep
    cases hw.symm.trans hw'
    cases ht
    exact Or.inl ⟨w, rfl, hdb, rfl, rfl⟩
  | advance =>
    obtain ⟨c, hadvance, ht⟩ := bind_eq_ok.mp hstep
    obtain ⟨key, value, hkv⟩ := dir.valid_of_advance hadvance
    obtain ⟨c', hadvance', hc'⟩ := dir.advance_spec hs.keyed hkv
    cases hadvance.symm.trans hadvance'
    cases ht
    exact Or.inr ⟨rfl, rfl, rfl, key, value, hkv, hc'⟩

/-- What holds at every time of a walk. -/
structure Walk.Invariant (dir : Direction) (s : Walk) (trace : List WalkCall) (t : Walk) :
    Prop where
  sound : t.db.Sound
  walked : Walked dir.order (StoredThroughout dir s trace) t.cursor.kv t.visited
  reached : JustMoved trace → ∀ key value, t.cursor.kv = some (key, value) →
    t.db.tryGet key = some value

/-- A key that is stored throughout is stored at the end. -/
theorem StoredThroughout.last {key : ByteVec} (hrun : Run (Walk.Step dir) s trace t)
    (hkey : StoredThroughout dir s trace key) : t.db.tryGet key ≠ none :=
  hkey trace [] t (by simp) hrun

/-- A key that is stored throughout was so before the last call. -/
theorem StoredThroughout.before {key : ByteVec} {call : WalkCall}
    (hkey : StoredThroughout dir s (trace ++ [call]) key) : StoredThroughout dir s trace key := by
  rintro front back t rfl hrun
  exact hkey front (back ++ [call]) t (by simp) hrun

/-- A move visits a stored pair. -/
theorem tryGet_of_nearest {A : ByteVec → Prop} {kv : Option (ByteVec × ByteVec)}
    (hkv : Nearest dir.order db.tryGet A kv) :
    ∀ key value, kv = some (key, value) → db.tryGet key = some value := by
  rintro key value rfl
  exact hkv.1

/-- The invariant holds along every walk. -/
theorem Walk.invariant_of_run (hdb : db.Sound) (hstart : Walk.start dir db = .ok s)
    (hrun : Run (Walk.Step dir) s trace t) : Walk.Invariant dir s trace t := by
  refine hrun.invariant (I := Walk.Invariant dir s) ?_ ?_
  · obtain ⟨c, hc, hnearest⟩ := Walk.start_spec dir hdb.keyed
    cases hc.symm.trans hstart
    exact ⟨hdb, .start hnearest fun key hkey => hkey.last .nil,
      fun _ => tryGet_of_nearest hnearest⟩
  · intro trace call t u hrun ht hstep
    rcases Walk.step_cases ht.sound hstep with
      ⟨w, rfl, hsound, hcursor, hvisited⟩ | ⟨rfl, hdb, hvisited, key, value, hkv, hnearest⟩
    · refine ⟨hsound, ?_, ?_⟩
      · rw [hcursor, hvisited]
        exact ht.walked.mono fun key hkey => hkey.before
      · rintro (hnil | ⟨front, hfront⟩)
        · simp at hnil
        · cases List.append_inj' hfront rfl |>.2
    · have hwalked := ht.walked
      rw [hkv] at hwalked
      refine ⟨hdb ▸ ht.sound, ?_, ?_⟩
      · rw [hvisited]
        exact (hwalked.mono fun key hkey => hkey.before).advance hnearest
          fun key hkey => hkey.before.last hrun
      · rw [hdb]
        exact fun _ => tryGet_of_nearest hnearest

end CppJam.Storage
