import CppJam.Storage.Walks

/-!
# The traversal law

Along every walk the visited keys go up in byte-lexicographic order, every visited pair
is in the storage when it is reached, and no key is passed over that is there all the
time. Without writes all pairs are visited and the walk ends, as every move
visits another one of them. Backwards everything is mirrored.
-/

namespace CppJam.Storage

open Bytes Checks Containers Runs Std

/-- What every walk through a storage must satisfy. -/
structure TraversalLaw (dir : Direction) (db : InMemoryStorage) : Prop where
  /-- The cursor can be put on the first pair. -/
  starts : ∃ s, Walk.start dir db = .ok s
  /-- The storage can be written at any time, and a valid cursor can be moved. -/
  returns : ∀ s trace t, Walk.start dir db = .ok s → Run (Walk.Step dir) s trace t →
    (∀ w, ∃ u, t.exec dir (.write w) = .ok u) ∧
    (t.cursor.isValid → ∃ u, t.exec dir .advance = .ok u)
  /-- The visited keys strictly increase in the order of the walk. -/
  increasing : ∀ s trace t, Walk.start dir db = .ok s → Run (Walk.Step dir) s trace t →
    (t.visited.map Prod.fst).Pairwise dir.order
  /-- Every visited pair is in the storage when it is reached. -/
  reached : ∀ s trace t, Walk.start dir db = .ok s → Run (Walk.Step dir) s trace t →
    JustMoved trace → ∀ key value, t.cursor.kv = some (key, value) →
      t.db.tryGet key = some value
  /-- A key that is stored during the whole walk is visited exactly once. -/
  once : ∀ s trace t, Walk.start dir db = .ok s → Run (Walk.Step dir) s trace t →
    t.cursor.kv = none → ∀ key, StoredThroughout dir s trace key →
      (t.visited.filter (fun pair => pair.1 = key)).length = 1
  /-- Without writes exactly the stored pairs are visited. -/
  exactly : ∀ s trace t, Walk.start dir db = .ok s → Run (Walk.Step dir) s trace t →
    t.cursor.kv = none → (∀ call ∈ trace, call = .advance) →
      ∀ key value, (key, value) ∈ t.visited ↔ db.tryGet key = some value
  /-- Without writes the walk comes to its end. -/
  ends : ∀ s, Walk.start dir db = .ok s →
    ∃ n t, Run (Walk.Step dir) s (List.replicate n .advance) t ∧ t.cursor.kv = none

variable {dir : Direction} {db : InMemoryStorage} {s t : Walk} {trace : List WalkCall}

/-! ## A walk without writes -/

/-- Moves leave the storage and visit only stored pairs. -/
theorem Walk.moves_only (hdb : db.Sound) (hstart : Walk.start dir db = .ok s)
    (hrun : Run (Walk.Step dir) s trace t) : (∀ call ∈ trace, call = .advance) →
    t.db = db ∧ ∀ pair ∈ t.visited, db.tryGet pair.1 = some pair.2 := by
  refine hrun.invariant (I := fun trace t => (∀ call ∈ trace, call = .advance) →
    t.db = db ∧ ∀ pair ∈ t.visited, db.tryGet pair.1 = some pair.2) ?_ ?_
  · obtain ⟨c, hc, hnearest⟩ := Walk.start_spec dir hdb.keyed
    cases hc.symm.trans hstart
    intro _
    refine ⟨rfl, ?_⟩
    intro pair hpair
    exact tryGet_of_nearest hnearest _ _ (Option.mem_toList.mp hpair)
  · intro trace call t u hrun ih hstep hcalls
    obtain ⟨htdb, hvisitedBefore⟩ := ih fun call hcall => hcalls call (by simp [hcall])
    have hsound := (Walk.invariant_of_run hdb hstart hrun).sound
    obtain rfl := hcalls call (by simp)
    rcases Walk.step_cases hsound hstep with ⟨_, hwrite, _⟩ | ⟨_, hudb, hvisited, _, _, _, hnearest⟩
    · cases hwrite
    · refine ⟨hudb.trans htdb, ?_⟩
      rw [htdb] at hnearest
      intro pair hpair
      rw [hvisited] at hpair
      rcases List.mem_append.mp hpair with hold | hnew
      · exact hvisitedBefore pair hold
      · exact tryGet_of_nearest hnearest _ _ (Option.mem_toList.mp hnew)

/-- Without writes every stored key is stored throughout. -/
theorem Walk.storedThroughout_of_moves (hdb : db.Sound) (hstart : Walk.start dir db = .ok s)
    (hcalls : ∀ call ∈ trace, call = .advance) {key : ByteVec} (hkey : db.tryGet key ≠ none) :
    StoredThroughout dir s trace key := by
  rintro front back t rfl hrun
  obtain ⟨htdb, _⟩ := Walk.moves_only hdb hstart hrun
    fun call hcall => hcalls call (List.mem_append_left _ hcall)
  rwa [htdb]

/-- A walk without writes visits at most as many pairs as are stored. -/
theorem Walk.length_visited_le (hdb : db.Sound) (hstart : Walk.start dir db = .ok s)
    (hrun : Run (Walk.Step dir) s trace t) (hcalls : ∀ call ∈ trace, call = .advance) :
    t.visited.length ≤ db.storage.toList.length := by
  have hnodup := (Walk.invariant_of_run hdb hstart hrun).walked.nodup
  obtain ⟨_, hvisited⟩ := Walk.moves_only hdb hstart hrun hcalls
  have hinjective : Function.Injective
      (fun pair : ByteVec × ByteVec => (toHex pair.1, pair.2)) := by
    rintro ⟨a, x⟩ ⟨b, y⟩ hab
    simp only [Prod.mk.injEq] at hab
    exact Prod.ext (Hex.encode_injective hab.1) hab.2
  have hsubset : t.visited.map (fun pair => (toHex pair.1, pair.2)) ⊆ db.storage.toList := by
    intro entry hentry
    obtain ⟨pair, hpair, rfl⟩ := List.mem_map.mp hentry
    exact ExtTreeMap.mem_toList_iff_getElem?_eq_some.mpr (hvisited pair hpair)
  have hle := (List.subperm_of_subset ((hnodup.of_map _).map hinjective) hsubset).length_le
  rwa [List.length_map] at hle

/-- A valid cursor can be moved. -/
theorem Walk.advance_returns (dir : Direction) (hs : s.db.Sound) (hkv : s.cursor.kv ≠ none) :
    ∃ t, s.Step dir .advance t := by
  obtain ⟨⟨key, value⟩, hkv⟩ := Option.ne_none_iff_exists'.mp hkv
  obtain ⟨c, hadvance, _⟩ := dir.advance_spec hs.keyed hkv
  exact ⟨_, bind_eq_ok.mpr ⟨c, hadvance, rfl⟩⟩

/-- Without writes the walk has ended after some moves, or it has gone on and visited a pair
with every move. -/
theorem Walk.ended_or_length (hdb : db.Sound) (hstart : Walk.start dir db = .ok s) (n : ℕ) :
    (∃ m t, Run (Walk.Step dir) s (List.replicate m .advance) t ∧ t.cursor.kv = none) ∨
    ∃ t, Run (Walk.Step dir) s (List.replicate n .advance) t ∧ n < t.visited.length := by
  induction n with
  | zero =>
    obtain ⟨c, hc, _⟩ := Walk.start_spec dir hdb.keyed
    cases hc.symm.trans hstart
    cases hkv : c.kv with
    | none => exact Or.inl ⟨0, _, .nil, hkv⟩
    | some pair => exact Or.inr ⟨_, .nil, by simp⟩
  | succ n ih =>
    rcases ih with hended | ⟨t, hrun, hlength⟩
    · exact Or.inl hended
    · by_cases hkv : t.cursor.kv = none
      · exact Or.inl ⟨n, t, hrun, hkv⟩
      · have hsound := (Walk.invariant_of_run hdb hstart hrun).sound
        obtain ⟨u, hstep⟩ := Walk.advance_returns dir hsound hkv
        have hrun' := hrun.snoc hstep
        rw [← List.replicate_succ'] at hrun'
        rcases Walk.step_cases hsound hstep with ⟨_, hwrite, _⟩ | ⟨_, _, hvisited, _⟩
        · cases hwrite
        · cases hkv' : u.cursor.kv with
          | none => exact Or.inl ⟨n + 1, u, hrun', hkv'⟩
          | some pair =>
            refine Or.inr ⟨u, hrun', ?_⟩
            rw [hvisited, hkv', List.length_append, Option.toList_some, List.length_singleton]
            omega

/-- **Traversal of a storage.** For every content and both directions, every walk with any
writes during it visits keys in order, finds every pair in the storage and does not miss a
key that is stored throughout; without writes it visits all pairs and ends. -/
theorem traversalLaw (dir : Direction) {db : InMemoryStorage} (hdb : db.Sound) :
    TraversalLaw dir db where
  starts := by
    obtain ⟨c, hc, _⟩ := Walk.start_spec dir hdb.keyed
    exact ⟨_, hc⟩
  returns s trace t hstart hrun := by
    have hsound := (Walk.invariant_of_run hdb hstart hrun).sound
    refine ⟨fun w => ?_, fun hvalid => ?_⟩
    · obtain ⟨db', hw, _⟩ := hsound.write w
      exact ⟨_, bind_eq_ok.mpr ⟨db', hw, rfl⟩⟩
    · exact Walk.advance_returns dir hsound (Option.isSome_iff_ne_none.mp hvalid)
  increasing s trace t hstart hrun :=
    List.pairwise_map.mpr (Walk.invariant_of_run hdb hstart hrun).walked.sorted
  reached s trace t hstart hrun := (Walk.invariant_of_run hdb hstart hrun).reached
  once s trace t hstart hrun hend key hkey := by
    have hwalked := (Walk.invariant_of_run hdb hstart hrun).walked
    rw [hend] at hwalked
    exact hwalked.once hkey
  exactly s trace t hstart hrun hend hcalls key value := by
    have hwalked := (Walk.invariant_of_run hdb hstart hrun).walked
    obtain ⟨_, hvisited⟩ := Walk.moves_only hdb hstart hrun hcalls
    constructor
    · exact hvisited (key, value)
    · intro hkey
      have hthroughout : StoredThroughout dir s trace key :=
        Walk.storedThroughout_of_moves hdb hstart hcalls (by simp [hkey])
      rcases hwalked.covered key hthroughout with hmem | ⟨_, hposition, _⟩
      · obtain ⟨⟨_, value'⟩, hpair, rfl⟩ := List.mem_map.mp hmem
        obtain rfl : value' = value :=
          Option.some.inj ((hvisited _ hpair).symm.trans hkey)
        exact hpair
      · rw [hend] at hposition
        cases hposition
  ends s hstart := by
    rcases Walk.ended_or_length hdb hstart db.storage.toList.length with hended | ⟨t, hrun, hlt⟩
    · exact hended
    · have hle := Walk.length_visited_le hdb hstart hrun
        fun call hcall => List.eq_of_mem_replicate hcall
      omega

/-- The three keys of a small storage are walked through backwards. -/
theorem traversalLaw_threeKeys :
    TraversalLaw .backward (.holding Scenario.threeKeys) ∧
      ∃ s t, Walk.start .backward (.holding Scenario.threeKeys) = .ok s ∧
        Run (Walk.Step .backward) s
          [.write (.remove [3, 0]), .advance, .write (.put [4] []), .advance, .advance] t ∧
        t.visited = [([3, 0], [2]), ([3], [7]), ([], [1])] ∧ t.cursor.kv = none :=
  ⟨traversalLaw .backward (.holding (keyed_empty.onMap _)), _, _, rfl, Run.of_foldlM rfl, rfl, rfl⟩

end CppJam.Storage
