import CppJam.Storage.Interface

/-!
# The in-memory storage in place of a database

Tests use the in-memory storage where the node uses RocksDB. A client of a space without entries
sees the same answers from a new in-memory storage, call for call, as long as no call of the space
fails and the client keeps to two rules: no batch removes a key that the space has when the batch is
committed, and no cursor is moved when the space has changed since the cursor was made. The library
behind the space is any one that keeps the laws.
-/

namespace CppJam.Storage

open Bytes Checks Containers Runs Stores Std

/-- The call does not fail: no error is answered, but that a read found nothing. -/
def Call.Succeeds : Call → Answer → Prop
  | .get _, .failed error => error = .notFound
  | _, .failed _ => False
  | _, _ => True

variable {δ β ι : Type}

namespace RocksSpace

variable (R : Rocks δ β ι) (V : Rocks.View δ β ι) (s : RocksSpace δ β ι)

/-- The entries of the space. -/
def content : ByteVec → Option ByteVec :=
  match s.storage with
  | some (some db) => V.content db s.column
  | _ => fun _ => none

/-- The call keeps to the rules. -/
def Fits : Call → Prop
  | .storage (.commit i) => ∀ batch, s.batches[i]? = some batch → ∀ key,
      lastAt (fun w => (w.1, w.2.key)) (V.writes batch) (s.column, key) =
        some (s.column, .remove key) → s.content V key = none
  | .move i _ => ∀ it, s.cursors[i]? = some it → V.snapshot it = s.content V
  | _ => True

/-- A step in which no call fails and that keeps to the rules. -/
structure FittingStep (label : Call × Answer) (t : RocksSpace δ β ι) : Prop where
  exec : s.exec R label.1 = .ok (t, label.2)
  succeeds : label.1.Succeeds label.2
  fits : s.Fits V label.1

end RocksSpace

variable (R : Rocks δ β ι) (V : Rocks.View δ β ι)

/-- The writes of a batch, without their column families. -/
def Rocks.View.pending (batch : β) : List Write := (V.writes batch).map Prod.snd

/-- The in-memory storage stands for the space: it has the same entries, the pending entries of a
batch are what its writes, all to the column family of the space, leave of nothing, and the cursors
stand on the same entries. -/
structure StandsFor (m : MemorySpace) (s : RocksSpace δ β ι) : Prop where
  sound : m.storages.Sound
  opened : ∃ db, s.storage = some (some db)
  content : m.storages.db.tryGet = s.content V
  columns : ∀ batch ∈ s.batches, ∀ w ∈ V.writes batch, w.1 = s.column
  batches : m.storages.batches = s.batches.map fun batch => onMap ∅ (V.pending batch)
  cursors : m.cursors = s.cursors.map fun it => ⟨R.position it⟩

variable {R : Rocks δ β ι} {V : Rocks.View δ β ι} {m : MemorySpace} {s : RocksSpace δ β ι}

/-! ## Cursors -/

namespace Rocks

/-- An iterator stands on an entry when it is valid. -/
theorem isSome_position (R : Rocks δ β ι) (it : ι) : (R.position it).isSome = R.valid it := by
  unfold position
  split_ifs with hvalid
  · exact hvalid.symm
  · exact (Bool.eq_false_iff.mpr hvalid).symm

/-- A cursor on the same entry returns the same key. -/
theorem key_position (R : Rocks δ β ι) (it : ι) :
    InMemoryCursor.key ⟨R.position it⟩ = R.cursorKey it := by
  unfold position cursorKey InMemoryCursor.key
  split_ifs <;> rfl

/-- A cursor on the same entry returns the same value. -/
theorem value_position (R : Rocks δ β ι) (it : ι) :
    InMemoryCursor.value ⟨R.position it⟩ = R.cursorValue it := by
  unfold position cursorValue InMemoryCursor.value
  split_ifs <;> rfl

variable {it it' : ι} {db : InMemoryStorage}

/-- The iterator and the cursor reach the same entry of the same content. -/
theorem Reaches.eq_position {order : ByteVec → ByteVec → Prop} {admitted : ByteVec → Prop}
    (hreaches : R.Reaches V order admitted it it') (hasymm : ∀ a b, order a b → ¬order b a)
    (hcontent : V.snapshot it = db.tryGet) {kv : Option (ByteVec × ByteVec)}
    (hkv : Nearest order db.tryGet admitted kv) : kv = R.position it' := by
  rw [← hcontent] at hkv
  exact hkv.unique hasymm hreaches.nearest

/-- A search of the cursor finds what the iterator reaches. -/
theorem Reaches.found {order : ByteVec → ByteVec → Prop} {admitted : ByteVec → Prop}
    (hreaches : R.Reaches V order admitted it it') (hasymm : ∀ a b, order a b → ¬order b a)
    (hcontent : V.snapshot it = db.tryGet) {search : Except Abort (InMemoryCursor × Bool)}
    (hsearch : ∃ c : InMemoryCursor, search = .ok (c, c.isValid) ∧
      Nearest order db.tryGet admitted c.kv) :
    search = .ok (⟨R.position it'⟩, R.valid it') := by
  obtain ⟨⟨kv⟩, rfl, hkv⟩ := hsearch
  obtain rfl := hreaches.eq_position hasymm hcontent hkv
  rw [InMemoryCursor.isValid, isSome_position]

/-- A step of the cursor leads where the iterator goes. -/
theorem Reaches.stepped {order : ByteVec → ByteVec → Prop} {admitted : ByteVec → Prop}
    (hreaches : R.Reaches V order admitted it it') (hasymm : ∀ a b, order a b → ¬order b a)
    (hcontent : V.snapshot it = db.tryGet) {step : Except Abort InMemoryCursor}
    (hstep : ∃ c : InMemoryCursor, step = .ok c ∧ Nearest order db.tryGet admitted c.kv) :
    step = .ok ⟨R.position it'⟩ := by
  obtain ⟨⟨kv⟩, rfl, hkv⟩ := hstep
  obtain rfl := hreaches.eq_position hasymm hcontent hkv
  rfl

namespace Laws

variable (hR : R.Laws V) (hdb : Keyed db.storage) (hcontent : V.snapshot it = db.tryGet)

include hR hdb hcontent

/-- `seek` finds the same. -/
theorem seek_eq (key : ByteVec) : InMemoryCursor.seek db key =
    .ok (⟨R.position (R.seek it key)⟩, R.valid (R.seek it key)) :=
  (hR.seek it key).found (fun _ _ => asymm) hcontent (InMemoryCursor.seek_spec hdb key)

/-- `seekLast` finds the same. -/
theorem seekLast_eq : InMemoryCursor.seekLast db =
    .ok (⟨R.position (R.seekToLast it)⟩, R.valid (R.seekToLast it)) :=
  (hR.seekToLast it).found (fun _ _ => asymm) hcontent (InMemoryCursor.seekLast_spec hdb)

/-- `next` leads to the same entry. -/
theorem next_eq (hnext : R.cursorNext it = .ok it') :
    InMemoryCursor.next db ⟨R.position it⟩ = .ok ⟨R.position it'⟩ := by
  unfold cursorNext at hnext
  split_ifs at hnext with hvalid
  cases hnext
  exact (hR.next it hvalid).stepped (fun _ _ => asymm) hcontent
    (InMemoryCursor.next_spec (c := ⟨R.position it⟩) hdb (if_pos hvalid))

/-- `prev` leads to the same entry. -/
theorem prev_eq (hprev : R.cursorPrev it = .ok it') :
    InMemoryCursor.prev db ⟨R.position it⟩ = .ok ⟨R.position it'⟩ := by
  unfold cursorPrev at hprev
  split_ifs at hprev with hvalid
  cases hprev
  exact (hR.prev it hvalid).stepped (fun _ _ => asymm) hcontent
    (InMemoryCursor.prev_spec (c := ⟨R.position it⟩) hdb (if_pos hvalid))

/-- `seekReverse` finds the same. -/
theorem seekReverse_eq {pfx : ByteVec} {answer : Answer}
    (hseek : R.seekReverse it pfx = .ok (it', answer)) :
    ∃ found, InMemoryCursor.seekReverse db pfx = .ok (⟨R.position it'⟩, found) ∧
      answer = .bool found := by
  have hkept : V.snapshot (R.seek it pfx) = db.tryGet := (hR.seek it pfx).snapshot.trans hcontent
  rw [InMemoryCursor.seekReverse, hR.seek_eq hdb hcontent, ok_bind]
  unfold seekReverse at hseek
  dsimp only at hseek ⊢
  rw [key_position]
  split_ifs at hseek ⊢ with hvalid
  · cases hkey : R.cursorKey (R.seek it pfx) with
    | none =>
      rw [hkey] at hseek
      cases hseek
    | some key =>
      rw [hkey] at hseek
      dsimp only at hseek ⊢
      split_ifs at hseek ⊢ with hgt
      · obtain ⟨_, hprev, hend⟩ := bind_eq_ok.mp hseek
        cases hend
        rw [hR.prev_eq hdb hkept hprev, ok_bind]
        exact ⟨_, rfl, by rw [InMemoryCursor.isValid, isSome_position]⟩
      · cases hseek
        exact ⟨true, rfl, rfl⟩
  · cases hseek
    exact ⟨_, hR.seekLast_eq hdb hkept, rfl⟩

/-- A cursor makes the moves of an iterator over the same entries, and returns the same. -/
theorem move_eq {move : Move} {answer : Answer} (hmove : R.move it move = .ok (it', answer)) :
    InMemoryCursor.move db ⟨R.position it⟩ move = .ok (⟨R.position it'⟩, answer) := by
  cases move with
  | seekFirst =>
    cases hmove
    rw [InMemoryCursor.move, (hR.seekToFirst it).found (fun _ _ => asymm) hcontent
      (InMemoryCursor.seekFirst_spec hdb)]
    rfl
  | seek key =>
    cases hmove
    rw [InMemoryCursor.move, hR.seek_eq hdb hcontent]
    rfl
  | seekLast =>
    cases hmove
    rw [InMemoryCursor.move, hR.seekLast_eq hdb hcontent]
    rfl
  | seekReverse pfx =>
    obtain ⟨found, hfound, rfl⟩ := hR.seekReverse_eq hdb hcontent hmove
    rw [InMemoryCursor.move, hfound]
    rfl
  | next =>
    obtain ⟨_, hnext, hend⟩ := bind_eq_ok.mp hmove
    cases hend
    rw [InMemoryCursor.move, hR.next_eq hdb hcontent hnext]
    rfl
  | prev =>
    obtain ⟨_, hprev, hend⟩ := bind_eq_ok.mp hmove
    cases hend
    rw [InMemoryCursor.move, hR.prev_eq hdb hcontent hprev]
    rfl

end Laws

end Rocks

/-! ## Writes -/

/-- Writes on an accounted storage leave what the last write to each key left. -/
theorem tryGet_onMap (entries : HexMap) (writes : List Write) (key : ByteVec) :
    (InMemoryStorage.holding (onMap entries writes)).tryGet key =
      left Write.key Write.value writes key ((InMemoryStorage.holding entries).tryGet key) := by
  rw [InMemoryStorage.tryGet, InMemoryStorage.holding, getElem?_onMap, lastWriteAt_toHex]
  rfl

/-- A write after others. -/
theorem onMap_append (writes : List Write) (w : Write) :
    onMap ∅ (writes ++ [w]) = w.onMap (onMap ∅ writes) := List.foldl_append ..

/-- A call on a batch does the same to the pending entries. -/
theorem Rocks.Laws.entries_apply (hR : R.Laws V) (call : BatchCall) (column : String) (batch : β)
    (db : InMemoryStorage) :
    (call.apply ⟨onMap ∅ (V.pending batch), db⟩).entries =
      onMap ∅ (V.pending (R.onBatch column batch call)) := by
  match call with
  | .write (.put key value) =>
    rw [onBatch, View.pending, View.pending, hR.writes_put, List.map_append]
    exact (onMap_append _ (.put key value)).symm
  | .write (.remove key) =>
    rw [onBatch, View.pending, View.pending, hR.writes_delete, List.map_append]
    exact (onMap_append _ (.remove key)).symm
  | .clear =>
    rw [onBatch, View.pending, View.pending, hR.writes_clear]
    rfl

/-- A batch writes to the column family of its space only. -/
theorem Rocks.Laws.columns_onBatch (hR : R.Laws V) (call : BatchCall) {column : String} {batch : β}
    (hbatch : ∀ w ∈ V.writes batch, w.1 = column) :
    ∀ w ∈ V.writes (R.onBatch column batch call), w.1 = column := by
  match call with
  | .write (.put key value) =>
    rw [onBatch, hR.writes_put, List.forall_mem_append]
    exact ⟨hbatch, by simp⟩
  | .write (.remove key) =>
    rw [onBatch, hR.writes_delete, List.forall_mem_append]
    exact ⟨hbatch, by simp⟩
  | .clear =>
    rw [onBatch, hR.writes_clear]
    simp

/-- The writes of a batch to one column family. -/
theorem Rocks.View.writes_eq {column : String} {batch : β}
    (hbatch : ∀ w ∈ V.writes batch, w.1 = column) :
    V.writes batch = (V.pending batch).map (Prod.mk column) := by
  have hself : ∀ w ∈ V.writes batch, (Prod.mk column ∘ Prod.snd) w = w := by
    rintro ⟨_, w⟩ hw
    rw [← hbatch _ hw]
    rfl
  rw [Rocks.View.pending, List.map_map, List.map_congr_left hself, List.map_id']

/-- Sound storages stay sound in a step. -/
theorem Storages.Sound.step {storages storages' : Storages} (hs : storages.Sound)
    {call : StorageCall} (hstep : storages.exec call = .ok storages') : storages'.Sound := by
  obtain ⟨t, ht, hsound⟩ := hs.exec (StorageCall.exists_of_step hstep)
  rw [hstep] at ht
  cases ht
  exact hsound

/-- A call of the library on an open database. -/
theorem RocksSpace.of_onDatabase {α : Type} {call : δ → α × δ} {answer : α → Answer}
    {t : RocksSpace δ β ι} {a : Answer} {db : δ} (hdb : s.storage = some (some db))
    (hcall : s.onDatabase call answer = .ok (t, a)) :
    ∃ result db', call db = (result, db') ∧ t = { s with storage := some (some db') } ∧
      a = answer result := by
  rw [onDatabase, useDatabase, hdb] at hcall
  cases hcall
  exact ⟨_, _, rfl, rfl, rfl⟩

/-- A cursor of an open space. -/
theorem RocksSpace.of_cursor {t : RocksSpace δ β ι} {a : Answer} {db : δ}
    (hdb : s.storage = some (some db)) (hcall : s.exec R .cursor = .ok (t, a)) :
    t = { s with cursors := s.cursors ++ [R.newIterator db s.column] } ∧ a = .success := by
  rw [exec, useDatabase, hdb] at hcall
  cases hcall
  exact ⟨by rw [hdb], rfl⟩

/-- The entries of an open space. -/
theorem RocksSpace.content_eq {db : δ} (hdb : s.storage = some (some db)) :
    s.content V = V.content db s.column := by
  rw [content, hdb]

/-- A new cursor goes through the entries that the space has, so it may be moved. -/
theorem RocksSpace.fits_new_cursor (hR : R.Laws V) {db : δ} (hdb : s.storage = some (some db))
    {t : RocksSpace δ β ι} {answer : Answer} (hexec : s.exec R .cursor = .ok (t, answer))
    (m : Move) : t.Fits V (.move s.cursors.length m) := by
  obtain ⟨rfl, rfl⟩ := of_cursor hdb hexec
  intro it hit
  have hnew : (s.cursors ++ [R.newIterator db s.column])[s.cursors.length]? =
      some (R.newIterator db s.column) := List.getElem?_concat_length
  obtain rfl := Option.some.inj (hnew.symm.trans hit)
  rw [hR.snapshot_new]
  exact (content_eq hdb).symm

namespace StandsFor

/-- A step of the storage and its batches that leads to the entries of the space. -/
theorem storage (h : StandsFor R V m s) {call : StorageCall} {s' : RocksSpace δ β ι}
    {storages : Storages} (hexec : m.storages.exec call = .ok storages)
    (hopened : ∃ db, s'.storage = some (some db)) (hcontent : storages.db.tryGet = s'.content V)
    (hcolumns : ∀ batch ∈ s'.batches, ∀ w ∈ V.writes batch, w.1 = s'.column)
    (hbatches : storages.batches = s'.batches.map fun batch => onMap ∅ (V.pending batch))
    (hcursors : s'.cursors = s.cursors) :
    ∃ m', m.Step (.storage call, .success) m' ∧ StandsFor R V m' s' := by
  refine ⟨{ m with storages := storages }, ?_, h.sound.step hexec, hopened, hcontent, hcolumns,
    hbatches, ?_⟩
  · rw [MemorySpace.Step, MemorySpace.exec, hexec]
    rfl
  · rw [hcursors]
    exact h.cursors

/-- The same writes lead to the same entries. -/
theorem content_writes (h : StandsFor R V m s) {db db' : δ} (hdb : s.storage = some (some db))
    (writes : List Write) (hwrites : V.content db' =
      (writes.map (Prod.mk s.column)).foldl Families.write (V.content db)) :
    (InMemoryStorage.holding (onMap m.storages.db.storage writes)).tryGet =
      RocksSpace.content V { s with storage := some (some db') } := by
  funext key
  have hcontent : (InMemoryStorage.holding m.storages.db.storage).tryGet key =
      V.content db s.column key := by
    rw [← RocksSpace.content_eq hdb]
    exact congrFun h.content key
  rw [tryGet_onMap, hcontent, RocksSpace.content_eq rfl, hwrites, Families.foldl_write]

/-- A write is made by both. -/
theorem write (h : StandsFor R V m s) {db db' : δ} (hdb : s.storage = some (some db)) {w : Write}
    (hwrite : V.content db' = (V.content db).write (s.column, w)) :
    ∃ m', m.Step (.storage (.write w), .success) m' ∧
      StandsFor R V m' { s with storage := some (some db') } := by
  have hmemory := applyWrites_holding m.storages.db.storage [w]
  rw [applyWrites, List.foldlM_cons, ← h.sound.db_sound.accounted.eq_holding] at hmemory
  obtain ⟨_, hw, hend⟩ := bind_eq_ok.mp hmemory
  cases hend
  exact h.storage (bind_eq_ok.mpr ⟨_, hw, rfl⟩) ⟨db', rfl⟩
    (h.content_writes hdb [w] hwrite) h.columns h.batches rfl

/-- Both have the batch. -/
theorem batch_entries (h : StandsFor R V m s) {i : ℕ} {batch : β}
    (hi : s.batches[i]? = some batch) :
    m.storages.batches[i]? = some (onMap ∅ (V.pending batch)) := by
  rw [h.batches, List.getElem?_map, hi]
  rfl

/-- A batch is made by both. -/
theorem newBatch (h : StandsFor R V m s) (hR : R.Laws V) :
    ∃ m', m.Step (.storage .batch, .success) m' ∧
      StandsFor R V m' { s with batches := s.batches ++ [R.newBatch] } := by
  refine h.storage rfl h.opened h.content ?_ ?_ rfl
  · rw [List.forall_mem_append]
    exact ⟨h.columns, by simp [hR.writes_new]⟩
  · rw [h.batches, List.map_append, List.map_singleton, Rocks.View.pending, hR.writes_new]
    rfl

/-- A batch is written or cleared by both. -/
theorem onBatch (h : StandsFor R V m s) (hR : R.Laws V) {i : ℕ} {batch : β}
    (hi : s.batches[i]? = some batch) (call : BatchCall) :
    ∃ m', m.Step (.storage (.onBatch i call), .success) m' ∧
      StandsFor R V m' { s with batches := s.batches.set i (R.onBatch s.column batch call) } := by
  have hentries := element_eq_ok.mpr (h.batch_entries hi)
  refine h.storage (bind_eq_ok.mpr ⟨_, hentries, rfl⟩) h.opened h.content ?_ ?_ rfl
  · intro b hb
    rcases List.mem_or_eq_of_mem_set hb with hold | rfl
    · exact h.columns b hold
    · exact hR.columns_onBatch call (h.columns batch (List.mem_of_getElem? hi))
  · rw [h.batches, hR.entries_apply call s.column, List.map_set]

/-- A batch is committed by both. -/
theorem commit (h : StandsFor R V m s) {db db' : δ} (hdb : s.storage = some (some db)) {i : ℕ}
    {batch : β} (hi : s.batches[i]? = some batch) (hfits : s.Fits V (.storage (.commit i)))
    (hwrite : V.content db' = (V.writes batch).foldl Families.write (V.content db)) :
    ∃ m', m.Step (.storage (.commit i), .success) m' ∧
      StandsFor R V m' { s with storage := some (some db') } := by
  have hwrites := Rocks.View.writes_eq (h.columns batch (List.mem_of_getElem? hi))
  have hcommit := commit_holding m.storages.db.storage (keyed_empty.onMap (V.pending batch))
  have hpending : m.storages.db.storage.insertMany (onMap ∅ (V.pending batch)).toList =
      onMap m.storages.db.storage (V.pending batch) := by
    refine (insertMany_pending_eq_iff _ _).mpr fun text w hlast hvalue => ?_
    obtain ⟨_, rfl⟩ := mem_of_lastAt hlast
    have habsent := hfits batch hi w.key
    have hmapped : lastAt (fun w => (w.1, w.2.key)) (V.writes batch) (s.column, w.key) =
        some (s.column, .remove w.key) := by
      rw [hwrites, lastAt_map, lastAt_comp (Prod.mk_right_injective s.column)]
      rw [lastWriteAt_toHex, lastWrite] at hlast
      rw [hlast, ← Write.eq_remove hvalue]
      rfl
    have hnone := habsent hmapped
    rw [← h.content] at hnone
    exact hnone
  rw [← h.sound.db_sound.accounted.eq_holding, hpending] at hcommit
  rw [hwrites] at hwrite
  have hexec : m.storages.exec (.commit i) = .ok _ :=
    bind_eq_ok.mpr ⟨_, element_eq_ok.mpr (h.batch_entries hi), bind_eq_ok.mpr ⟨_, hcommit, rfl⟩⟩
  exact h.storage hexec ⟨db', rfl⟩ (h.content_writes hdb _ hwrite) h.columns h.batches rfl

/-! ## Reads -/

/-- The entry that both have. -/
theorem entry (h : StandsFor R V m s) {db : δ} (hdb : s.storage = some (some db)) (key : ByteVec) :
    m.storages.db.storage[toHex key]? = V.content db s.column key := by
  rw [← RocksSpace.content_eq hdb]
  exact congrFun h.content key

/-- A read that changes no entry leaves the storage standing for the space. -/
theorem read (h : StandsFor R V m s) {db db' : δ} (hdb : s.storage = some (some db))
    (hkept : V.content db' = V.content db) :
    StandsFor R V m { s with storage := some (some db') } := by
  refine ⟨h.sound, ⟨db', rfl⟩, ?_, h.columns, h.batches, h.cursors⟩
  rw [h.content, RocksSpace.content_eq hdb, RocksSpace.content_eq rfl, hkept]

/-- Both have the cursor, on the same entry. -/
theorem element (h : StandsFor R V m s) {i : ℕ} {it : ι} (hi : s.iterator i = .ok it) :
    s.cursors[i]? = some it ∧ element m.cursors i = .ok ⟨R.position it⟩ := by
  obtain ⟨_, _, hi⟩ := bind_eq_ok.mp hi
  rw [element_eq_ok] at hi ⊢
  rw [h.cursors, List.getElem?_map, hi]
  exact ⟨rfl, rfl⟩

/-- A cursor is made by both, on no entry. -/
theorem newCursor (h : StandsFor R V m s) (hR : R.Laws V) (db : δ) :
    ∃ m', m.Step (.cursor, .success) m' ∧
      StandsFor R V m' { s with cursors := s.cursors ++ [R.newIterator db s.column] } := by
  refine ⟨_, rfl, h.sound, h.opened, h.content, h.columns, h.batches, ?_⟩
  have hnew : R.position (R.newIterator db s.column) = none := by
    rw [Rocks.position, hR.valid_new]
    rfl
  rw [h.cursors, List.map_append, List.map_singleton, hnew]

/-- A cursor is moved by both. -/
theorem move (h : StandsFor R V m s) (hR : R.Laws V) {i : ℕ} {it it' : ι} {move : Move}
    {answer : Answer} (hi : s.iterator i = .ok it) (hfits : s.Fits V (.move i move))
    (hmove : R.move it move = .ok (it', answer)) :
    ∃ m', m.Step (.move i move, answer) m' ∧
      StandsFor R V m' { s with cursors := s.cursors.set i it' } := by
  obtain ⟨hcursor, helement⟩ := h.element hi
  have hcurrent := (hfits it hcursor).trans h.content.symm
  have hmemory := hR.move_eq h.sound.db_sound.keyed hcurrent hmove
  refine ⟨_, bind_eq_ok.mpr ⟨_, helement, bind_eq_ok.mpr ⟨_, hmemory, rfl⟩⟩, h.sound, h.opened,
    h.content, h.columns, h.batches, ?_⟩
  rw [h.cursors, List.map_set]

/-- What a cursor is asked is answered by both, if cursors on the same entry answer the same. -/
theorem query (h : StandsFor R V m s) {i : ℕ} {call : Call} {answer : Answer}
    {ofIterator : ι → Answer} {ofCursor : InMemoryCursor → Answer} {s' : RocksSpace δ β ι}
    (hsame : ∀ it, ofCursor ⟨R.position it⟩ = ofIterator it)
    (hexec : (do let it ← s.iterator i; return (s, ofIterator it)) = Except.ok (s', answer))
    (hmemory : m.exec call = do
      let c ← CppJam.element m.cursors i
      return (m, ofCursor c)) :
    ∃ m', m.Step (call, answer) m' ∧ StandsFor R V m' s' := by
  obtain ⟨it, hi, hend⟩ := bind_eq_ok.mp hexec
  cases hend
  refine ⟨m, hmemory.trans (bind_eq_ok.mpr ⟨_, (h.element hi).2, ?_⟩), h⟩
  rw [hsame]
  rfl

end StandsFor

/-- What `Get` gives for an entry when it does not fail. -/
def getOf : Option ByteVec → Except FailedStatus ByteVec
  | some value => .ok value
  | none => .error .notFound

/-- A `Get` that does not fail gives the entry and changes none. -/
theorem Rocks.Laws.get_eq (hR : R.Laws V) {db db' : δ} {column : String} {key : ByteVec}
    {result : Except FailedStatus ByteVec} (hget : R.get db column key = (result, db'))
    (hresult : ∀ status, result = .error status → status = .notFound) :
    result = getOf (V.content db column key) ∧ V.content db' = V.content db := by
  cases result with
  | ok value =>
    obtain ⟨hentry, hkept⟩ := hR.get_ok _ _ _ _ _ hget
    rw [hentry]
    exact ⟨rfl, hkept⟩
  | error status =>
    obtain rfl := hresult status rfl
    obtain ⟨hentry, hkept⟩ := hR.get_notFound _ _ _ _ hget
    rw [hentry]
    exact ⟨rfl, hkept⟩

/-- A read by `Get` is made by both, if it does not fail and both answer the same for an entry. -/
theorem StandsFor.get (h : StandsFor R V m s) (hR : R.Laws V) {key : ByteVec} {call : Call}
    {answer : Except FailedStatus ByteVec → Answer} {a : Answer} {s' : RocksSpace δ β ι}
    (hexec : s.onDatabase (fun db => R.get db s.column key) answer = .ok (s', a))
    (hresult : ∀ status, call.Succeeds (answer (.error status)) → status = .notFound)
    (hsucceeds : call.Succeeds a)
    (hmemory : m.exec call = .ok (m, answer (getOf m.storages.db.storage[toHex key]?))) :
    ∃ m', m.Step (call, a) m' ∧ StandsFor R V m' s' := by
  obtain ⟨db, hdb⟩ := h.opened
  obtain ⟨result, db', hget, rfl, rfl⟩ := RocksSpace.of_onDatabase hdb hexec
  obtain ⟨rfl, hkept⟩ := hR.get_eq hget (by rintro status rfl; exact hresult status hsucceeds)
  refine ⟨m, ?_, h.read hdb hkept⟩
  rw [h.entry hdb] at hmemory
  exact hmemory

/-- A call that ends with a status succeeds when the status is `ok()`. -/
theorem eq_none_of_succeeds {call : StorageCall} {status : Option FailedStatus}
    (hsucceeds : (Call.storage call).Succeeds (.ofStatus status)) : status = none := by
  cases status with
  | none => rfl
  | some status => exact hsucceeds.elim

/-- **One step.** Every step of the space in which no call fails and that keeps to the rules is a
step of the in-memory storage. -/
theorem StandsFor.step (h : StandsFor R V m s) (hR : R.Laws V) {label : Call × Answer}
    {s' : RocksSpace δ β ι} (hstep : s.FittingStep R V label s') :
    ∃ m', m.Step label m' ∧ StandsFor R V m' s' := by
  obtain ⟨call, answer⟩ := label
  obtain ⟨hexec, hsucceeds, hfits⟩ := hstep
  obtain ⟨db, hdb⟩ := h.opened
  dsimp only at hexec hsucceeds hfits
  match call with
  | .storage (.write (.put key value)) =>
    obtain ⟨_, db', hput, rfl, rfl⟩ := RocksSpace.of_onDatabase hdb hexec
    obtain rfl := eq_none_of_succeeds hsucceeds
    exact h.write hdb (hR.put_ok _ _ _ _ _ hput)
  | .storage (.write (.remove key)) =>
    obtain ⟨_, db', hdelete, rfl, rfl⟩ := RocksSpace.of_onDatabase hdb hexec
    obtain rfl := eq_none_of_succeeds hsucceeds
    exact h.write hdb (hR.delete_ok _ _ _ _ hdelete)
  | .storage .batch =>
    cases hexec
    exact h.newBatch hR
  | .storage (.onBatch i call) =>
    obtain ⟨batch, hi, hend⟩ := bind_eq_ok.mp hexec
    cases hend
    exact h.onBatch hR (element_eq_ok.mp hi) call
  | .storage (.commit i) =>
    obtain ⟨batch, hi, hend⟩ := bind_eq_ok.mp hexec
    obtain ⟨_, db', hwrite, rfl, rfl⟩ := RocksSpace.of_onDatabase hdb hend
    obtain rfl := eq_none_of_succeeds hsucceeds
    exact h.commit hdb (element_eq_ok.mp hi) hfits (hR.write_ok _ _ _ hwrite)
  | .get key =>
    refine h.get hR hexec ?_ hsucceeds ?_
    · rintro (_ | _ | _ | _ | _ | _ | _) hstatus <;> first | rfl | cases hstatus
    · rw [MemorySpace.exec, InMemoryStorage.get]
      cases m.storages.db.storage[toHex key]? <;> rfl
  | .tryGet key =>
    refine h.get hR hexec ?_ hsucceeds ?_
    · rintro (_ | _ | _ | _ | _ | _ | _) hstatus <;> first | rfl | cases hstatus
    · rw [MemorySpace.exec, InMemoryStorage.tryGet]
      cases m.storages.db.storage[toHex key]? <;> rfl
  | .contains key =>
    refine h.get hR hexec ?_ hsucceeds ?_
    · rintro (_ | _ | _ | _ | _ | _ | _) hstatus <;> first | rfl | cases hstatus
    · rw [MemorySpace.exec, InMemoryStorage.contains]
      cases m.storages.db.storage[toHex key]? <;> rfl
  | .cursor =>
    obtain ⟨rfl, rfl⟩ := RocksSpace.of_cursor hdb hexec
    exact h.newCursor hR db
  | .move i move =>
    obtain ⟨it, hi, hrest⟩ := bind_eq_ok.mp hexec
    obtain ⟨⟨it', _⟩, hmove, hend⟩ := bind_eq_ok.mp hrest
    cases hend
    exact h.move hR hi hfits hmove
  | .isValid i =>
    exact h.query (fun it => congrArg Answer.bool (R.isSome_position it)) hexec rfl
  | .key i => exact h.query (fun it => congrArg Answer.optional (R.key_position it)) hexec rfl
  | .value i => exact h.query (fun it => congrArg Answer.optional (R.value_position it)) hexec rfl

/-! ## Whole runs -/

/-- A new in-memory storage stands for a space without entries. -/
theorem StandsFor.new {db : δ} {column : String} (hnew : ∀ key, V.content db column key = none) :
    StandsFor R V .new (.new db column) where
  sound := .new
  opened := ⟨db, rfl⟩
  content := by
    funext key
    have hcontent : RocksSpace.content V (.new db column : RocksSpace δ β ι) =
        V.content db column := RocksSpace.content_eq rfl
    rw [hcontent]
    simp [MemorySpace.new, Storages.new, InMemoryStorage.new, InMemoryStorage.tryGet, hnew]
  columns := by simp [RocksSpace.new]
  batches := rfl
  cursors := rfl

/-- **The in-memory storage can take the place of a database.** Whatever library keeps the laws of
RocksDB, and whatever a client sees of a space that has no entries at first, along any sequence of
calls on the space, on its batches and on its cursors, it sees of a new in-memory storage, when no
call fails, no commit is of a batch that removes a key that the space has then, and no cursor is
moved after the space has changed. In the end both have the same entries. -/
theorem interchangeable (hR : R.Laws V) {db : δ} {column : String}
    (hnew : ∀ key, V.content db column key = none) {trace : List (Call × Answer)}
    (hrun : Run (RocksSpace.FittingStep R V) (.new db column) trace s) :
    ∃ m, Run MemorySpace.Step .new trace m ∧ m.storages.db.tryGet = s.content V := by
  have hmatched : ∀ ⦃t label u m⦄, RocksSpace.FittingStep R V t label u → StandsFor R V m t →
      ∃ m', MemorySpace.Step m label m' ∧ StandsFor R V m' u :=
    fun _ _ _ _ hstep h => h.step hR hstep
  obtain ⟨m, hmemory, hstands⟩ := hrun.matched hmatched (.new hnew)
  exact ⟨m, hmemory, hstands.content⟩

namespace Scenario

/-- Two values are put, one of them through a batch, a third one is looked for in vain, and a cursor
looks for the second one. -/
def lookup : List (Call × Answer) :=
  [(.storage (.write (.put [1] [2])), .success), (.storage .batch, .success),
    (.storage (.onBatch 0 (.write (.put [3] [4]))), .success), (.storage (.commit 0), .success),
    (.get [5], .failed .notFound), (.cursor, .success), (.move 0 (.seek [2]), .bool true),
    (.key 0, .optional (some [3]))]

end Scenario

/-- A client that finds a value with a cursor finds it in both storages. -/
theorem interchangeable_lookup : ∃ m, Run MemorySpace.Step .new Scenario.lookup m := by
  obtain ⟨s, hrun⟩ : ∃ s, Run (RocksSpace.FittingStep Rocks.inMemory Rocks.inMemoryView)
      (.new (fun _ => ∅) "default") Scenario.lookup s := by
    refine ⟨_, (((((((Run.nil.snoc ⟨rfl, trivial, trivial⟩).snoc ⟨rfl, trivial, trivial⟩).snoc
      ⟨rfl, trivial, trivial⟩).snoc ⟨rfl, trivial, ?_⟩).snoc ⟨rfl, rfl, trivial⟩).snoc
      ⟨rfl, trivial, trivial⟩).snoc ⟨rfl, trivial, ?_⟩).snoc ⟨rfl, trivial, trivial⟩⟩
    · -- the batch removes nothing
      rintro _ ⟨⟩ key hlast
      cases (mem_of_lastAt hlast).1 with
      | tail _ hmem => cases hmem
    · -- the cursor was made after the last write
      rintro _ ⟨⟩
      rfl
  have hnew : ∀ key, Rocks.inMemoryView.content (fun _ => ∅) "default" key = none := by
    simp [Rocks.inMemoryView]
  obtain ⟨m, hmemory, _⟩ := interchangeable Rocks.inMemory_laws hnew hrun
  exact ⟨m, hmemory⟩

end CppJam.Storage
