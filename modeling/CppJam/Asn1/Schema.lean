import CppJam.Graphs
import Mathlib.Data.Int.Notation
import Mathlib.Data.List.Dedup

/-!
# Schemas of the generator

`asn1.py` reads the type definitions of a module as nested dictionaries. A dictionary has a name,
an `OPTIONAL` mark and a tag, and what its `"type"` needs: a range, a size, an element, members or
values. The types that a definition mentions are its dependencies. The generator follows them
recursively, which ends exactly when no type depends on itself, and then it knows all types that
a type depends on.
-/

namespace CppJam.Asn1

open Checks

/-- What the generator raises. -/
inductive GenError where
  | assertion
  | keyError
  | typeError
  | recursion
  deriving DecidableEq

/-- A number, or the name of a constant. -/
inductive Bound where
  | number (n : ℕ)
  | constant (name : String)
  deriving DecidableEq

/-- The entry of `"size"`. -/
inductive Size where
  /-- `SIZE (n)`. -/
  | exactly (bound : Bound)
  /-- `SIZE (a..b)`. -/
  | between (least greatest : Bound)
  deriving DecidableEq

/-- The entry of `"tag"`. -/
inductive Tag where
  | number (n : ℕ)
  | str (name : String)
  deriving DecidableEq

mutual

/-- The entry of `"type"`, with the entries that belong to it. -/
inductive Shape where
  /-- `INTEGER`, with the range of `"restricted-to"`. -/
  | integer (restrictedTo : Option (ℤ × ℤ))
  | boolean
  | octetString (size : Option Size)
  | null
  | sequenceOf (element : Descriptor) (size : Option Size)
  | choice (members : List Descriptor)
  | enumerated (values : List (String × ℤ))
  | sequence (members : List Descriptor)
  /-- The name of a type. -/
  | named (name : String)

/-- A dictionary. -/
inductive Descriptor where
  | mk (name : String) (optional : Bool) (tag : Option Tag) (shape : Shape)

end

namespace Descriptor

/-- `"name"`. -/
def name : Descriptor → String
  | mk name _ _ _ => name

/-- `"optional"`. -/
def optional : Descriptor → Bool
  | mk _ optional _ _ => optional

/-- `"tag"`. -/
def tag : Descriptor → Option Tag
  | mk _ _ tag _ => tag

/-- `"type"`. -/
def shape : Descriptor → Shape
  | mk _ _ _ shape => shape

end Descriptor

mutual

/-- `asn_recurse`: a dictionary, its element and its members. -/
def asnRecurse : Descriptor → List Descriptor
  | .mk name optional tag shape => .mk name optional tag shape :: recurseShape shape

/-- What `asn_recurse` visits below a dictionary. -/
def recurseShape : Shape → List Descriptor
  | .sequenceOf element _ => asnRecurse element
  | .choice members => recurseMembers members
  | .sequence members => recurseMembers members
  | .integer _ | .boolean | .octetString _ | .null | .enumerated _ | .named _ => []

/-- What `asn_recurse` visits in the members. -/
def recurseMembers : List Descriptor → List Descriptor
  | [] => []
  | t :: ts => asnRecurse t ++ recurseMembers ts

end

/-- The type that a dictionary names. -/
def Shape.typeName : Shape → Option String
  | .named name => some name
  | .integer _ | .boolean | .octetString _ | .null | .sequenceOf _ _ | .choice _ | .enumerated _
  | .sequence _ => none

/-- A module: its type definitions in order, and the names that it imports. -/
structure Module where
  /-- `"types"`. -/
  types : List (String × Descriptor)
  /-- The names in `"imports"`. -/
  imports : List String
  /-- The definitions are the entries of a dictionary. -/
  types_nodup : (types.map Prod.fst).Nodup

namespace Module

/-- The names of the module's own types. -/
def names (m : Module) : List String := m.types.map Prod.fst

/-- The types of the module that a definition mentions. -/
def mentioned (m : Module) (t : Descriptor) : List String :=
  (((asnRecurse t).filterMap fun x => x.shape.typeName).filter m.names.contains).dedup

/-- The first `deps1` in `asn_deps`: what the definition of a type mentions. -/
def mentions (m : Module) (k : String) : List String :=
  match m.types.lookup k with
  | some t => m.mentioned t
  | none => []

/-- The entry of a type in the second `deps1` in `asn_deps`. The calls of `deep` may be nested up
to the limit of the interpreter. -/
def entry (m : Module) (limit : ℕ) (k : String) : Except GenError (String × List String) := do
  let below ← (m.mentions k).mapM (Graphs.collect GenError.recursion m.mentions limit)
  return (k, below.flatten.dedup)

/-- `asn_deps`: all types that a type depends on, for each type of the module. -/
def asnDeps (m : Module) (limit : ℕ) : Except GenError (List (String × List String)) :=
  m.names.mapM (m.entry limit)

/-- One type depends on another, directly or through others. -/
def DependsOn (m : Module) : String → String → Prop :=
  Relation.TransGen (Graphs.Edge m.mentions)

variable {m : Module} {limit : ℕ} {deps : List (String × List String)}

/-- Definitions mention types of the module. -/
theorem mem_names_of_mentions {a b : String} (hab : Graphs.Edge m.mentions a b) :
    b ∈ m.names := by
  unfold Graphs.Edge mentions at hab
  split at hab
  · rw [mentioned, List.mem_dedup, List.mem_filter] at hab
    simpa using hab.2
  · cases hab

/-- The dependencies of a type, as they were computed. -/
theorem exists_of_asnDeps (hdeps : m.asnDeps limit = .ok deps) {k : String} {ds : List String}
    (hk : (k, ds) ∈ deps) : k ∈ m.names ∧ ∃ below,
      (m.mentions k).mapM (Graphs.collect GenError.recursion m.mentions limit) = .ok below ∧
        ds = below.flatten.dedup := by
  obtain ⟨k', hk', hentry⟩ := exists_of_mem_mapM hdeps hk
  simp only [entry, bind_eq_ok, pure_eq_ok, Prod.mk.injEq] at hentry
  obtain ⟨below, hbelow, rfl, rfl⟩ := hentry
  exact ⟨hk', below, hbelow, rfl⟩

/-- The computed dependencies of a type are the types that it depends on. -/
theorem mem_asnDeps_iff (hdeps : m.asnDeps limit = .ok deps) {k : String} {ds : List String}
    (hk : (k, ds) ∈ deps) {d : String} : d ∈ ds ↔ m.DependsOn k d := by
  obtain ⟨_, below, hbelow, rfl⟩ := exists_of_asnDeps hdeps hk
  rw [List.mem_dedup, mem_flatten_of_mapM hbelow, DependsOn, Relation.TransGen.head'_iff]
  constructor
  · rintro ⟨a, ha, l, hl, hd⟩
    exact ⟨a, ha, (Graphs.mem_collect_iff hl).mp hd⟩
  · rintro ⟨a, ha, hd⟩
    obtain ⟨l, _, hl⟩ := ok_of_mapM hbelow ha
    exact ⟨a, ha, l, hl, (Graphs.mem_collect_iff hl).mpr hd⟩

/-- The entries are those of the types, in order. -/
theorem map_fst_asnDeps (hdeps : m.asnDeps limit = .ok deps) : deps.map Prod.fst = m.names := by
  rw [asnDeps, mapM_eq_ok_iff] at hdeps
  generalize m.names = names at hdeps
  induction hdeps with
  | nil => rfl
  | cons hhead _ ih =>
    simp only [entry, bind_eq_ok, pure_eq_ok] at hhead
    obtain ⟨_, _, rfl⟩ := hhead
    rw [List.map_cons, ih]

/-- Every type has an entry. -/
theorem exists_mem_asnDeps (hdeps : m.asnDeps limit = .ok deps) {k : String} (hk : k ∈ m.names) :
    ∃ ds, (k, ds) ∈ deps := by
  rw [← map_fst_asnDeps hdeps] at hk
  obtain ⟨⟨_, ds⟩, hmem, rfl⟩ := List.mem_map.mp hk
  exact ⟨ds, hmem⟩

/-- A type whose dependencies were computed does not depend on itself. -/
theorem not_dependsOn_self (hdeps : m.asnDeps limit = .ok deps) {k : String} (hk : k ∈ m.names) :
    ¬m.DependsOn k k := by
  obtain ⟨ds, hmem⟩ := exists_mem_asnDeps hdeps hk
  obtain ⟨_, below, hbelow, _⟩ := exists_of_asnDeps hdeps hmem
  refine Graphs.not_transGen_of_acc ⟨k, fun d hd => ?_⟩
  obtain ⟨l, _, hl⟩ := ok_of_mapM hbelow hd
  exact Graphs.acc_of_collect hl

/-- With a high enough limit the dependencies are computed when no type depends on itself. -/
theorem exists_asnDeps (hacyclic : ∀ k ∈ m.names, ¬m.DependsOn k k) :
    ∃ limit deps, m.asnDeps limit = .ok deps := by
  have hacc := Graphs.acc_of_acyclic (fun _ _ => mem_names_of_mentions) hacyclic
  obtain ⟨limit, hlimit⟩ := Graphs.exists_limit_forall (l := m.names) fun k _ =>
    Graphs.exists_collect_of_acc GenError.recursion (hacc k)
  have hentry : ∀ k ∈ m.names, ∃ e, True ∧ m.entry limit k = .ok e := by
    intro k _
    obtain ⟨below, hbelow, _⟩ := mapM_total (Q := fun _ => True) fun d hd =>
      (hlimit d (mem_names_of_mentions hd)).imp fun l hl => ⟨trivial, hl⟩
    refine ⟨(k, below.flatten.dedup), trivial, ?_⟩
    rw [entry, hbelow]
    rfl
  obtain ⟨deps, hdeps, _⟩ := mapM_total hentry
  exact ⟨limit, deps, hdeps⟩

/-- The generator computes the dependencies, with a high enough limit on the nesting of calls,
exactly when no type depends on itself; and then they are, for each type, the types that it
depends on directly or through others. -/
theorem asnDeps_iff_acyclic (m : Module) :
    ((∃ limit deps, m.asnDeps limit = .ok deps) ↔ ∀ k ∈ m.names, ¬m.DependsOn k k) ∧
      ∀ limit deps, m.asnDeps limit = .ok deps →
        (∀ k ∈ m.names, ∃ ds, (k, ds) ∈ deps) ∧
        ∀ k ds, (k, ds) ∈ deps → ∀ d, d ∈ ds ↔ m.DependsOn k d := by
  refine ⟨⟨?_, exists_asnDeps⟩, fun limit deps hdeps => ⟨?_, ?_⟩⟩
  · rintro ⟨limit, deps, hdeps⟩ k hk
    exact not_dependsOn_self hdeps hk
  · exact fun k hk => exists_mem_asnDeps hdeps hk
  · exact fun k ds hk d => mem_asnDeps_iff hdeps hk

end Module

end CppJam.Asn1
