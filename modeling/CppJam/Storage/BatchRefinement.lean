import CppJam.Storage.InMemory

/-!
# Batches against direct writes

A batch should write at `commit()` what the puts and removes since its last
`clear()` would have written directly. On maps, direct writes give every key the
value of its last write. The pending entries of a batch are what the same writes
leave of an empty map, so a remove is forgotten together with the put it cancels,
and `commit()` keeps the old value of a key that was removed last. The refinement
holds exactly when no such key has an old value.
-/

namespace CppJam.Storage

open Bytes Checks Std Stores

/-- A write applied directly to a storage. -/
def Write.apply (db : InMemoryStorage) : Write → Except Abort InMemoryStorage
  | .put key value => db.put key value
  | .remove key => .ok (db.remove key)

/-- Writes applied directly to a storage, in order. -/
def applyWrites (db : InMemoryStorage) (writes : List Write) : Except Abort InMemoryStorage :=
  writes.foldlM Write.apply db

/-- A call on a batch before `commit()`. -/
inductive BatchCall where
  /-- `put` or `remove`. -/
  | write (w : Write)
  /-- `clear()`. -/
  | clear
  deriving DecidableEq

/-- A call on a batch. -/
def BatchCall.apply (batch : InMemoryBatch) : BatchCall → InMemoryBatch
  | .write (.put key value) => batch.put key value
  | .write (.remove key) => batch.remove key
  | .clear => batch.clear

/-- A new batch of a storage after a sequence of calls. -/
def issue (db : InMemoryStorage) (calls : List BatchCall) : InMemoryBatch :=
  calls.foldl BatchCall.apply db.batch

/-- The writes issued since the last `clear()`. -/
def sinceClear (calls : List BatchCall) : List Write :=
  calls.foldl (fun writes call => match call with
    | .write w => writes ++ [w]
    | .clear => []) []

/-- No call before `commit()` changes the storage, and `commit()` leaves it as the writes
since the last `clear()` do when they are applied directly. -/
def BatchRefines (db : InMemoryStorage) (calls : List BatchCall) : Prop :=
  (∀ front, front <+: calls → (issue db front).db = db) ∧
  ∃ committed, (issue db calls).commit = .ok committed ∧
    applyWrites db (sinceClear calls) = .ok committed.db

/-- A write on a map. -/
def Write.onMap (m : HexMap) : Write → HexMap
  | .put key value => m.insert (toHex key) value
  | .remove key => m.erase (toHex key)

/-- Writes on a map, in order. -/
def onMap (m : HexMap) (writes : List Write) : HexMap := writes.foldl Write.onMap m

/-- A write changes the entry of its key only. -/
theorem Write.getElem?_onMap (m : HexMap) (w : Write) (text : List Char) :
    (w.onMap m)[text]? = if toHex w.key = text then w.value else m[text]? := by
  by_cases hw : toHex w.key = text
  · subst hw
    cases w with
    | put key value => simp [Write.onMap, Write.key, Write.value]
    | remove key => simp [Write.onMap, Write.key, Write.value]
  · have hne : compare (toHex w.key) text ≠ .eq := fun heq => hw (LawfulEqCmp.eq_of_compare heq)
    rw [if_neg hw]
    cases w with
    | put key value => exact ExtTreeMap.getElem?_insert.trans (if_neg hne)
    | remove key => exact ExtTreeMap.getElem?_erase.trans (if_neg hne)

/-- The last write whose key has the given string. -/
def lastWriteAt (writes : List Write) (text : List Char) : Option Write :=
  lastAt (fun w => toHex w.key) writes text

/-- A string is written last by the write to its key. -/
theorem lastWriteAt_toHex (writes : List Write) (key : ByteVec) :
    lastWriteAt writes (toHex key) = lastWrite writes key :=
  lastAt_comp Hex.encode_injective Write.key writes key

/-- After a sequence of writes an entry is what the last write to it left. -/
theorem getElem?_onMap (m : HexMap) (writes : List Write) (text : List Char) :
    (onMap m writes)[text]? = ((lastWriteAt writes text).map Write.value).getD m[text]? :=
  read_foldl (fun m text => m[text]?) Write.getElem?_onMap m writes text

/-- Direct writes on an accounted storage return and work as on its map. -/
theorem applyWrites_holding (m : HexMap) (writes : List Write) :
    applyWrites (.holding m) writes = .ok (.holding (onMap m writes)) := by
  induction writes generalizing m with
  | nil => rfl
  | cons w writes ih =>
    have hw : w.apply (.holding m) = .ok (.holding (w.onMap m)) := by
      cases w with
      | put key value => exact put_holding m key value
      | remove key => exact congrArg Except.ok (remove_holding m key)
    rw [applyWrites, List.foldlM_cons, hw]
    exact ih _

/-- A batch refers to its storage and holds what the writes since the last `clear()` leave
of an empty map. -/
theorem issue_eq (db : InMemoryStorage) (calls : List BatchCall) :
    issue db calls = ⟨onMap ∅ (sinceClear calls), db⟩ := by
  induction calls using List.reverseRecOn with
  | nil => rfl
  | append_singleton calls call ih =>
    have hstep : issue db (calls ++ [call]) = call.apply (issue db calls) := by
      simp [issue]
    rw [hstep, ih]
    match call with
    | .write (.put key value) =>
      simp [BatchCall.apply, InMemoryBatch.put, sinceClear, onMap, Write.onMap]
    | .write (.remove key) =>
      simp [BatchCall.apply, InMemoryBatch.remove, sinceClear, onMap, Write.onMap]
    | .clear => simp [BatchCall.apply, InMemoryBatch.clear, sinceClear, onMap]

/-- An empty map has no strings. -/
theorem keyed_empty : Keyed ∅ := by
  intro text value htext
  simp at htext

/-- Writes to a map whose strings come from keys leave such a map. -/
theorem Keyed.onMap {m : HexMap} (hm : Keyed m) (writes : List Write) :
    Keyed (Storage.onMap m writes) := by
  intro text value htext
  rw [getElem?_onMap] at htext
  cases hlast : lastWriteAt writes text with
  | none =>
    rw [hlast] at htext
    exact hm text value htext
  | some w => exact ⟨w.key, (mem_of_lastAt hlast).2⟩

/-- The loop of `commit()` inserts its entries, if their strings come from keys. -/
theorem commit_loop (entries : List (List Char × ByteVec)) (m : HexMap)
    (hkeys : ∀ entry ∈ entries, ∃ key, toHex key = entry.1) :
    entries.foldlM (fun db entry => do
        let key ← fromHex entry.1
        InMemoryStorage.put db key entry.2) (InMemoryStorage.holding m) =
      .ok (.holding (m.insertMany entries)) := by
  induction entries generalizing m with
  | nil => rfl
  | cons entry entries ih =>
    obtain ⟨text, value⟩ := entry
    obtain ⟨key, rfl⟩ := hkeys _ List.mem_cons_self
    have hkey : fromHex (toHex key) = .ok key := by
      rw [fromHex, toHex, Hex.decode_encode]
    rw [List.foldlM_cons, hkey, ExtTreeMap.insertMany_cons]
    change (InMemoryStorage.put _ key value >>= _) = _
    rw [put_holding]
    exact ih _ fun entry hentry => hkeys entry (List.mem_cons_of_mem _ hentry)

/-- `commit()` inserts the pending entries into the map of the storage. -/
theorem commit_holding (m : HexMap) {entries : HexMap} (hentries : Keyed entries) :
    (InMemoryBatch.mk entries (.holding m)).commit =
      .ok ⟨entries, .holding (m.insertMany entries.toList)⟩ := by
  have hkeys : ∀ entry ∈ entries.toList, ∃ key, toHex key = entry.1 := by
    intro entry hentry
    exact hentries _ _ (ExtTreeMap.mem_toList_iff_getElem?_eq_some.mp hentry)
  rw [InMemoryBatch.commit, ExtTreeMap.foldlM_eq_foldlM_toList, commit_loop _ m hkeys]
  rfl

/-- Inserting the pending entries is writing directly exactly when every string removed last
is absent. -/
theorem insertMany_pending_eq_iff (m : HexMap) (writes : List Write) :
    m.insertMany (onMap ∅ writes).toList = onMap m writes ↔
      ∀ text w, lastWriteAt writes text = some w → w.value = none → m[text]? = none := by
  have hentry : ∀ text, (m.insertMany (onMap ∅ writes).toList)[text]? =
      ((lastWriteAt writes text).bind Write.value).or m[text]? := by
    intro text
    rw [Containers.getElem?_insertMany_toList, getElem?_onMap]
    cases lastWriteAt writes text <;> simp
  constructor
  · intro heq text w hlast hremoved
    have htext := hentry text
    rw [heq, getElem?_onMap, hlast, Option.bind_some, hremoved, Option.none_or] at htext
    exact htext.symm.trans hremoved
  · intro habsent
    refine ExtTreeMap.ext_getElem? fun text => ?_
    rw [hentry, getElem?_onMap]
    cases hlast : lastWriteAt writes text with
    | none => rfl
    | some w =>
      cases hvalue : w.value with
      | some value => simp [hvalue]
      | none => simp [hvalue, habsent text w hlast hvalue]

/-- A batch of an accounted storage refines direct writes exactly when every string removed
last is absent from its map. -/
theorem batchRefines_holding_iff (m : HexMap) (calls : List BatchCall) :
    BatchRefines (.holding m) calls ↔
      ∀ text w, lastWriteAt (sinceClear calls) text = some w → w.value = none →
        m[text]? = none := by
  have hdirect := applyWrites_holding m (sinceClear calls)
  have hcommit := commit_holding m (keyed_empty.onMap (sinceClear calls))
  rw [← insertMany_pending_eq_iff, BatchRefines, issue_eq, hcommit, hdirect]
  constructor
  · rintro ⟨_, committed, hcommitted, hwritten⟩
    rw [Except.ok.injEq] at hcommitted hwritten
    rw [← hcommitted] at hwritten
    exact (congrArg InMemoryStorage.storage hwritten).symm
  · intro hmaps
    exact ⟨fun front _ => by rw [issue_eq], _, rfl, by rw [hmaps]⟩

/-- **When a batch refines direct writes.** For every accounted storage and every sequence
of calls, nothing changes before `commit()` and `commit()` works like the direct writes
exactly when every key whose last write since the last `clear()` is a remove is absent
from the storage. -/
theorem batchRefines_iff {db : InMemoryStorage} (hdb : db.Accounted) (calls : List BatchCall) :
    BatchRefines db calls ↔
      ∀ key, lastWrite (sinceClear calls) key = some (.remove key) → db.tryGet key = none := by
  obtain ⟨m, rfl⟩ : ∃ m, db = .holding m := ⟨_, hdb.eq_holding⟩
  rw [batchRefines_holding_iff]
  constructor
  · intro habsent key hlast
    exact habsent (toHex key) (.remove key) ((lastWriteAt_toHex _ _).trans hlast) rfl
  · intro habsent text w hlast hvalue
    obtain ⟨_, hkey⟩ := mem_of_lastAt hlast
    subst hkey
    refine habsent w.key ?_
    rw [← lastWriteAt_toHex, hlast, ← Write.eq_remove hvalue]

namespace Scenario

/-- A map with one value under the key `03`. -/
def stored : HexMap := (∅ : HexMap).insert (toHex [3]) [7]

end Scenario

/-- A put that is removed again in the batch, of a key that the storage does not have, is
committed like the direct writes. -/
theorem batchRefines_cancelled_put :
    BatchRefines (.holding Scenario.stored)
      [.write (.remove [3]), .clear, .write (.put [5] [1]), .write (.remove [5]),
        .write (.put [3] [])] := by
  refine (@batchRefines_iff (.holding Scenario.stored) rfl _).mpr fun key hlast => ?_
  obtain ⟨hmem, _⟩ := mem_of_lastAt hlast
  obtain rfl : key = [5] := by simpa [sinceClear] using hmem
  rfl

/-- A remove of a key that the storage has is lost. -/
theorem not_batchRefines_remove :
    (InMemoryStorage.holding Scenario.stored).Accounted ∧
      ¬BatchRefines (.holding Scenario.stored) [.write (.remove [3])] := by
  refine ⟨rfl, fun hrefines => ?_⟩
  have habsent := (batchRefines_holding_iff _ _).mp hrefines (toHex [3]) (.remove [3]) rfl rfl
  rw [Scenario.stored, ExtTreeMap.getElem?_insert_self] at habsent
  cases habsent

end CppJam.Storage
