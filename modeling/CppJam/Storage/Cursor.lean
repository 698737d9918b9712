import CppJam.Containers.OrderedMap
import CppJam.Storage.BatchRefinement

/-!
# The cursor of the in-memory storage

`InMemoryCursor` keeps a copy of the pair it stands on. Every move looks up a
position in the map of the storage afresh, by the hexadecimal string of the copied
key, and copies the pair found there. The strings are ordered as the keys, so every
move finds the nearest key in byte-lexicographic order. `seekReverse` is put together
from such moves.
-/

namespace CppJam.Storage

open Bytes Checks Containers Std

/-- Byte-lexicographic order: the first different octet decides, and a proper prefix comes
before its extensions. -/
def Precedes (a b : ByteVec) : Prop := List.Lex (· < ·) a b

instance (a b : ByteVec) : Decidable (Precedes a b) :=
  inferInstanceAs (Decidable (List.Lex (· < ·) a b))

/-- `InMemoryCursor`. The storage that it refers to is an argument of its methods. -/
structure InMemoryCursor where
  /-- `kv`. -/
  kv : Option (ByteVec × ByteVec)
  deriving DecidableEq

namespace InMemoryCursor

/-- `isValid`. -/
def isValid (c : InMemoryCursor) : Bool := c.kv.isSome

/-- `key`. -/
def key (c : InMemoryCursor) : Option ByteVec := c.kv.map Prod.fst

/-- The private `seek(it)`: copy the pair at a position of the map. -/
def seekTo (it : Option (List Char × ByteVec)) : Except Abort (InMemoryCursor × Bool) := do
  let c : InMemoryCursor ← match it with
    | none => pure ⟨none⟩
    | some (text, value) => do
        let key ← fromHex text
        pure ⟨some (key, value)⟩
  return (c, c.isValid)

/-- `seekFirst`. -/
def seekFirst (db : InMemoryStorage) : Except Abort (InMemoryCursor × Bool) :=
  seekTo (begin db.storage)

/-- `seek(key)`. -/
def seek (db : InMemoryStorage) (key : ByteVec) : Except Abort (InMemoryCursor × Bool) :=
  seekTo (lowerBound db.storage (toHex key))

/-- `seekLast`. -/
def seekLast (db : InMemoryStorage) : Except Abort (InMemoryCursor × Bool) :=
  seekTo (if db.storage.isEmpty then none else Containers.prev db.storage none)

/-- `next`. On an invalid cursor it reads an empty optional. -/
def next (db : InMemoryStorage) (c : InMemoryCursor) : Except Abort InMemoryCursor :=
  match c.kv with
  | none => .error .undefinedBehaviour
  | some (key, _) => do
      let (c, _) ← seekTo (upperBound db.storage (toHex key))
      return c

/-- `prev`. On an invalid cursor it reads an empty optional. Two iterators are equal when
they stand on the same string. -/
def prev (db : InMemoryStorage) (c : InMemoryCursor) : Except Abort InMemoryCursor :=
  match c.kv with
  | none => .error .undefinedBehaviour
  | some (key, _) => do
      let it := lowerBound db.storage (toHex key)
      let (c, _) ← seekTo (if it.map Prod.fst = (begin db.storage).map Prod.fst then none
        else Containers.prev db.storage it)
      return c

/-- `MapCursor::seekReverse`. -/
def seekReverse (db : InMemoryStorage) (pfx : ByteVec) :
    Except Abort (InMemoryCursor × Bool) := do
  let (c, ok) ← seek db pfx
  if ¬ok then seekLast db
  else match c.key with
    | none => .error .undefinedBehaviour
    | some key =>
      if Precedes pfx key then do
        let c ← prev db c
        return (c, c.isValid)
      else return (c, true)

end InMemoryCursor

/-! ## The order of the keys -/

/-- Byte strings compare as less when they precede. -/
theorem precedes_iff_compare {a b : ByteVec} : Precedes a b ↔ compare a b = .lt := by
  rw [Precedes, List.compare_eq_compareLex]
  induction a generalizing b with
  | nil =>
    cases b with
    | nil => simp [List.compareLex_nil_nil]
    | cons y b => simp [List.compareLex_nil_cons]
  | cons x a ih =>
    cases b with
    | nil => simp [List.compareLex_cons_nil]
    | cons y b =>
      have hlt : compare x y = .lt ↔ x < y := compare_eq_lt
      rw [List.compareLex_cons_cons, List.cons_lex_cons_iff, ih, Ordering.then_eq_lt,
        LawfulEqCmp.compare_eq_iff_eq, hlt]

/-- The strings of keys are ordered as the keys. -/
theorem compare_toHex_eq_lt {a b : ByteVec} :
    compare (toHex a) (toHex b) = .lt ↔ Precedes a b := by
  rw [toHex, toHex, Hex.compare_encode, precedes_iff_compare]

/-- The byte-lexicographic order is strict and total. -/
instance : IsStrictTotalOrder ByteVec Precedes where
  trichotomous a b hab hba := by
    rw [precedes_iff_compare] at hab hba
    cases hcompare : compare a b with
    | lt => exact absurd hcompare hab
    | eq => exact LawfulEqCmp.eq_of_compare hcompare
    | gt => exact absurd (OrientedCmp.gt_iff_lt.mp hcompare) hba
  irrefl a haa := by
    have hself : compare a a = .eq := ReflCmp.compare_self
    rw [precedes_iff_compare, hself] at haa
    cases haa
  trans a b c hab hbc := by
    rw [precedes_iff_compare] at hab hbc ⊢
    exact TransCmp.lt_trans hab hbc

/-! ## What each move finds -/

variable {db : InMemoryStorage} {c : InMemoryCursor} {key value : ByteVec}

namespace InMemoryCursor

/-- The cursor of the nearest entry of the map is on the nearest key of the storage. -/
theorem seekTo_nearest (hdb : Keyed db.storage) {r : ByteVec → ByteVec → Prop}
    {r' : List Char → List Char → Prop} (hr : ∀ a b, r' (toHex a) (toHex b) ↔ r a b)
    {A : List Char → Prop} {it : Option (List Char × ByteVec)}
    (hit : Nearest r' (fun text => db.storage[text]?) A it) :
    ∃ c : InMemoryCursor, seekTo it = .ok (c, c.isValid) ∧
      Nearest r db.tryGet (fun key => A (toHex key)) c.kv := by
  match it, hit with
  | none, hnone => exact ⟨⟨none⟩, rfl, fun key value hkey => hnone _ value hkey⟩
  | some (text, value), hsome =>
    obtain ⟨key, rfl⟩ := hdb text value hsome.1
    refine ⟨⟨some (key, value)⟩, ?_, hsome.of_renamed Hex.encode_injective hr⟩
    simp [seekTo, fromHex, toHex]

/-- `seekFirst` finds the least key. -/
theorem seekFirst_spec (hdb : Keyed db.storage) :
    ∃ c : InMemoryCursor, seekFirst db = .ok (c, c.isValid) ∧
      Nearest Precedes db.tryGet (fun _ => True) c.kv :=
  seekTo_nearest hdb (fun _ _ => compare_toHex_eq_lt) (begin_nearest db.storage)

/-- `seekLast` finds the greatest key. -/
theorem seekLast_spec (hdb : Keyed db.storage) :
    ∃ c : InMemoryCursor, seekLast db = .ok (c, c.isValid) ∧
      Nearest (fun a b => Precedes b a) db.tryGet (fun _ => True) c.kv := by
  have hlast : (if db.storage.isEmpty then none else Containers.prev db.storage none) =
      Containers.prev db.storage none := by
    split_ifs with hempty
    · exact (prev_end_of_isEmpty hempty).symm
    · rfl
  rw [seekLast, hlast]
  exact seekTo_nearest hdb (fun _ _ => compare_toHex_eq_lt) (prev_end_nearest db.storage)

/-- `seek` finds the least key that is not less. -/
theorem seek_spec (hdb : Keyed db.storage) (key : ByteVec) :
    ∃ c : InMemoryCursor, seek db key = .ok (c, c.isValid) ∧
      Nearest Precedes db.tryGet (fun key' => ¬Precedes key' key) c.kv := by
  obtain ⟨c, hseek, hc⟩ := seekTo_nearest hdb (fun _ _ => compare_toHex_eq_lt)
    (lowerBound_nearest db.storage (toHex key))
  exact ⟨c, hseek, hc.congr fun _ _ _ => not_congr compare_toHex_eq_lt⟩

/-- `next` finds the least key that is greater than the copied one. -/
theorem next_spec (hdb : Keyed db.storage) (hkv : c.kv = some (key, value)) :
    ∃ c', next db c = .ok c' ∧ Nearest Precedes db.tryGet (Precedes key) c'.kv := by
  obtain ⟨c', hseek, hc'⟩ := seekTo_nearest hdb (fun _ _ => compare_toHex_eq_lt)
    (upperBound_nearest db.storage (toHex key))
  refine ⟨c', ?_, hc'.congr fun _ _ _ => compare_toHex_eq_lt⟩
  rw [next, hkv]
  simp only [hseek]
  rfl

/-- `prev` finds the greatest key that is less than the copied one. -/
theorem prev_spec (hdb : Keyed db.storage) (hkv : c.kv = some (key, value)) :
    ∃ c', prev db c = .ok c' ∧
      Nearest (fun a b => Precedes b a) db.tryGet (fun key' => Precedes key' key) c'.kv := by
  have hposition : Nearest (fun a b => compare b a = .lt) (fun text => db.storage[text]?)
      (fun text => compare text (toHex key) = .lt)
      (if (lowerBound db.storage (toHex key)).map Prod.fst = (begin db.storage).map Prod.fst
        then none else Containers.prev db.storage (lowerBound db.storage (toHex key))) := by
    split_ifs with hbegin
    · intro text value htext
      exact not_lt_of_lowerBound_eq_begin db.storage (toHex key) hbegin htext
    · exact prev_lowerBound_nearest db.storage (toHex key)
  obtain ⟨c', hseek, hc'⟩ := seekTo_nearest hdb (fun _ _ => compare_toHex_eq_lt) hposition
  refine ⟨c', ?_, hc'.congr fun _ _ _ => compare_toHex_eq_lt⟩
  rw [prev, hkv]
  simp only [hseek]
  rfl

/-- `seekReverse` finds the greatest key that is not greater than the given one. -/
theorem seekReverse_spec (hdb : Keyed db.storage) (pfx : ByteVec) :
    ∃ c : InMemoryCursor, seekReverse db pfx = .ok (c, c.isValid) ∧
      Nearest (fun a b => Precedes b a) db.tryGet (fun key => ¬Precedes pfx key) c.kv := by
  obtain ⟨⟨kv⟩, hseek, hkv⟩ := seek_spec hdb pfx
  match kv, hseek, hkv with
  | none, hseek, hbelow =>
    -- all keys precede, so the last one is the greatest of them
    obtain ⟨c, hlast, hc⟩ := seekLast_spec hdb
    refine ⟨c, ?_, hc.congr ?_⟩
    · simp only [seekReverse, hseek, bind, Except.bind]
      exact hlast
    · intro key value hkey
      simp only [true_iff]
      exact asymm (not_not.mp (hbelow key value hkey))
  | some (key, value), hseek, ⟨hkey, hge, hleast⟩ =>
    by_cases hgt : Precedes pfx key
    · -- the key found is greater; no key lies between it and the given one
      obtain ⟨c, hprev, hc⟩ := prev_spec (c := ⟨some (key, value)⟩) hdb rfl
      refine ⟨c, ?_, hc.congr ?_⟩
      · simp [seekReverse, hseek, isValid, InMemoryCursor.key, hgt, hprev]
      · intro key' value' hkey'
        constructor
        · intro hlt hgt'
          rcases hleast key' value' hkey' (asymm hgt') with rfl | hgt''
          · exact irrefl _ hlt
          · exact asymm hlt hgt''
        · intro hle
          rcases trichotomous_of Precedes key' pfx with hlt | rfl | hgt'
          · exact trans_of Precedes hlt hgt
          · exact hgt
          · exact absurd hgt' hle
    · -- the key found is the given one
      obtain rfl : key = pfx := by
        rcases trichotomous_of Precedes key pfx with hlt | heq | hgt'
        · exact absurd hlt hge
        · exact heq
        · exact absurd hgt' hgt
      refine ⟨⟨some (key, value)⟩, ?_, hkey, hgt, ?_⟩
      · simp [seekReverse, hseek, isValid, InMemoryCursor.key, hgt]
      · intro key' value' _ hle
        rcases trichotomous_of Precedes key' key with hlt | heq | hgt'
        · exact Or.inr hlt
        · exact Or.inl heq
        · exact absurd hgt' hle

end InMemoryCursor

/-- `seekReverse` returns true on the greatest stored key that is not greater than the given
one, or false with an invalid cursor when every stored key is greater. -/
def SeeksReverse (db : InMemoryStorage) (pfx : ByteVec) : Prop :=
  (∃ key value, InMemoryCursor.seekReverse db pfx = .ok (⟨some (key, value)⟩, true) ∧
    db.tryGet key = some value ∧ ¬Precedes pfx key ∧
    ∀ key' value', db.tryGet key' = some value' → ¬Precedes pfx key' →
      key' = key ∨ Precedes key' key) ∨
  (InMemoryCursor.seekReverse db pfx = .ok (⟨none⟩, false) ∧
    ∀ key' value', db.tryGet key' = some value' → Precedes pfx key')

/-- **Lower bound in reverse order.** For every content of a storage and every given key,
`seekReverse` finds the greatest stored key that is not greater, if there is one. -/
theorem seeksReverse {db : InMemoryStorage} (hdb : Keyed db.storage) (pfx : ByteVec) :
    SeeksReverse db pfx := by
  obtain ⟨⟨kv⟩, hseek, hkv⟩ := InMemoryCursor.seekReverse_spec hdb pfx
  match kv, hseek, hkv with
  | some (key, value), hseek, ⟨hkey, hle, hgreatest⟩ =>
    exact Or.inl ⟨key, value, hseek, hkey, hle, hgreatest⟩
  | none, hseek, hnone =>
    exact Or.inr ⟨hseek, fun key' value' hkey' => not_not.mp (hnone key' value' hkey')⟩

/-- A map with three keys: the empty one, `03` and an extension of it. -/
def Scenario.threeKeys : HexMap := onMap ∅ [.put [3, 0] [2], .put [3] [7], .put [] [1]]

/-- A search for a key that is not stored stops at the one before it. -/
theorem seeksReverse_threeKeys :
    SeeksReverse (.holding Scenario.threeKeys) [2, 9] ∧
      InMemoryCursor.seekReverse (.holding Scenario.threeKeys) [2, 9] =
        .ok (⟨some ([], [1])⟩, true) :=
  ⟨seeksReverse (keyed_empty.onMap _) _, rfl⟩

end CppJam.Storage
