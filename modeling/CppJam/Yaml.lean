import Mathlib.Data.Nat.Notation

/-!
# Parsed YAML documents

The nodes of a parsed document belong to a library, and a program only asks them for their kind,
for the text of a scalar and for the entry of a key. What is known of the answers are two laws:
a scalar, and nothing else, cannot be asked for an entry, and only a map has entries. Which of
several equal keys of a map counts is left open.
-/

namespace Yaml

/-- The nodes `ν` of a library, with texts in `τ`. -/
class Nodes (ν : Type) (τ : outParam Type) where
  /-- `IsMap`. -/
  isMap : ν → Bool
  /-- The text of a node for which `IsScalar` holds. -/
  scalar : ν → Option τ
  /-- `operator[]`: the entry of a key, if it is defined, unless the call throws. -/
  subscript : ν → τ → Option (Option ν)
  /-- A call throws when the node is a scalar. -/
  subscript_eq_none : ∀ node key, subscript node key = none ↔ (scalar node).isSome = true
  /-- A node with an entry is a map. -/
  isMap_of_subscript : ∀ node key entry, subscript node key = some (some entry) →
    isMap node = true

namespace Nodes

variable {ν τ : Type} [Nodes ν τ]

/-- The entry of a key, if it is defined. -/
def find (node : ν) (key : τ) : Option ν := (subscript node key).join

/-- The text of the entry of a key, if it is defined and a scalar. -/
def textAt (node : ν) (key : τ) : Option τ := (find node key).bind scalar

/-- A node with an entry was asked for it. -/
theorem subscript_of_find {node entry : ν} {key : τ} (hentry : find node key = some entry) :
    subscript node key = some (some entry) :=
  Option.join_eq_some_iff.mp hentry

/-- A node with an entry is a map. -/
theorem isMap_of_find {node entry : ν} {key : τ} (hentry : find node key = some entry) :
    isMap node = true :=
  isMap_of_subscript node key entry (subscript_of_find hentry)

end Nodes

/-! ## Documents as trees -/

/-- A node of a document with texts in `τ`. -/
inductive Node (τ : Type) where
  | null
  | scalar (value : τ)
  | sequence (items : List (Node τ))
  | map (entries : List (Node τ × Node τ))

namespace Node

variable {τ : Type} [DecidableEq τ]

/-- The node is the key `key`. -/
def isKey (key : τ) : Node τ → Bool
  | .scalar value => value = key
  | _ => false

/-- The kind of a tree is that of its root, and the first one of equal keys counts. -/
instance : Nodes (Node τ) τ where
  isMap
    | .map _ => true
    | _ => false
  scalar
    | .scalar value => some value
    | _ => none
  subscript
    | .scalar _, _ => none
    | .map entries, key => some ((entries.find? fun e => e.1.isKey key).map Prod.snd)
    | _, _ => some none
  subscript_eq_none node key := by
    cases node <;> simp
  isMap_of_subscript node key entry hentry := by
    cases node with
    | map entries => rfl
    | null | scalar | sequence => cases hentry

end Node

end Yaml
