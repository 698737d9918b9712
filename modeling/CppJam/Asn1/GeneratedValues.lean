import CppJam.Asn1.Values

/-!
# Generated types hold the values of the schema

The declarations hold all values of the types when no member is of the kinds that the generator
treats wrongly: numbers, booleans and octet strings that are `OPTIONAL`, ranges up to 65536, and a
choice of `none` and `some` whose `none` is not empty. An `OPTIONAL` number, boolean or octet
string is declared without the mark, and then its absence has no value in C++.
-/

namespace CppJam.Asn1

open Checks

/-! ## What the generator keeps -/

/-- Numbers, booleans and octet strings, which are written without mark and tag. -/
def Shape.isPrimitive : Shape → Bool
  | .integer _ | .boolean | .octetString _ => true
  | .null | .sequenceOf _ _ | .choice _ | .enumerated _ | .sequence _ | .named _ => false

/-- The ranges for which the type is too narrow. -/
def TooNarrow (least greatest : ℤ) : Prop := 0 ≤ least ∧ greatest = 65536

/-- A member that is written as the schema has it. -/
structure Descriptor.Plain (x : Descriptor) : Prop where
  /-- The mark is not lost. -/
  mark : x.optional = true → x.shape.isPrimitive = false
  /-- The type is wide enough. -/
  range : ∀ least greatest, x.shape = .integer (some (least, greatest)) →
    ¬TooNarrow least greatest

/-- The members of a choice or a sequence. -/
def Shape.members : Shape → List Descriptor
  | .choice members => members
  | .sequence members => members
  | .integer _ | .boolean | .octetString _ | .null | .sequenceOf _ _ | .enumerated _
  | .named _ => []

/-- A definition that is written as the schema has it. -/
structure Descriptor.PlainType (t : Descriptor) : Prop where
  /-- A definition is not marked. -/
  definite : t.optional = false
  /-- The type itself, when it is not made of members. -/
  plain : t.Plain
  /-- The members. -/
  members : ∀ x ∈ t.shape.members, x.Plain
  /-- The type of an enumeration is wide enough. -/
  enumerated : ∀ numbers, t.shape = .enumerated numbers →
    ¬TooNarrow ((numbers.map Prod.snd).min?.getD 0) ((numbers.map Prod.snd).max?.getD 0)
  /-- The `none` of an optional value is empty. -/
  empty : ∀ first second, t.shape = .choice [first, second] →
    isOptionalChoice [first, second] = .ok true → first.optional = false ∧ first.shape = .null

/-! ## Members and definitions -/

variable {fields : String → ℕ} {P : String → Value → Prop}
  {m : Module} {constants : String → ℕ} {outer : String → Value → Prop} {depth : ℕ}

/-- A list of the schema is held when its elements are, and bytes are bytes. -/
theorem holds_of_asnSequenceOf (hfields : ∀ field, fields (cDash field) = constants field)
    {name : String} {size : Option Size} {r : CType} {R : Value → Prop} {v : Value}
    (h : asnSequenceOf m (some name) size = .ok r) (hv : v.IsList (Admits constants size) R)
    (hbyte : name = "U8" → ∀ w, R w → w.IsByte) (hnamed : m.knows name = true → name ≠ "U8" →
      ∀ w, R w → P name w) : r.Holds fields P v := by
  simp only [asnSequenceOf] at h
  split_ifs at h with hknown hname
  · split at h <;> cases h
    · exact hv.imp (fun n hn => hn) (hbyte hname)
    · exact hv.imp (fun n hn => hn.trans (hfields _).symm) (hbyte hname)
    · exact hv.imp (fun n hn => trivial) (hbyte hname)
    · exact hv.imp (fun n hn => trivial) (hbyte hname)
  · have hvalues := hnamed (by simpa using hknown) hname
    split at h <;> cases h
    · exact hv.imp (fun n hn => hn.trans (hfields _).symm) hvalues
    · exact hv.imp (fun n hn => hn) hvalues
    · exact hv.imp (fun n hn => trivial) hvalues
    · exact hv.imp (fun n hn => trivial) hvalues

/-- The mark makes a value optional; the tag changes nothing. -/
theorem holds_asnMark {optional : Bool} {tag : Option Tag} {r : CType} {v : Value} :
    (asnMark optional tag r).Holds fields P v ↔
      if optional then v.Maybe (r.Holds fields P) else r.Holds fields P v := by
  unfold asnMark
  split_ifs
  · rfl
  · cases tag <;> rfl

/-- What is assumed of names: the configuration has the values of the constants, and the generated
types hold the values of the types. -/
structure NamesHold (m : Module) (constants : String → ℕ) (outer : String → Value → Prop)
    (fields : String → ℕ) (P : String → Value → Prop) (depth : ℕ) : Prop where
  /-- The configuration has the constants of the schema. -/
  field : ∀ name, fields (cDash name) = constants name
  /-- The values of the names are held. -/
  named : ∀ e ≤ depth, ∀ name, m.knows name = true → ∀ v,
    Conforms m constants outer e (.named name) v → P name v
  /-- `U8` is a byte. -/
  byte : ∀ e ≤ depth, ∀ v, Conforms m constants outer e (.named "U8") v → v.IsByte

/-- A sequence of named elements is held. -/
theorem holds_of_sequenceOf (hnames : NamesHold m constants outer fields P depth)
    {element : Descriptor} {size : Option Size} {r : CType} {v : Value}
    (h : asnSequenceOf m element.shape.typeName size = .ok r)
    (hv : v.IsList (Admits constants size) (Conforms m constants outer depth element.shape)) :
    r.Holds fields P v := by
  cases hshape : element.shape with
  | named name =>
    rw [hshape] at h hv
    refine holds_of_asnSequenceOf hnames.field h hv ?_ ?_
    · rintro rfl w hw
      exact hnames.byte depth le_rfl w hw
    · intro hknown _ w hw
      exact hnames.named depth le_rfl name hknown w hw
  | integer | boolean | octetString | null | sequenceOf | choice | enumerated | sequence =>
    rw [hshape] at h
    cases h

/-- A member that may be marked is held when the type before the mark holds its values. -/
theorem holds_asnMark_of_has {values : Shape → Value → Prop} {x : Descriptor} {r : CType}
    {v : Value} (hr : ∀ w, values x.shape w → r.Holds fields P w) (hv : x.Has values v) :
    (asnMark x.optional x.tag r).Holds fields P v := by
  rw [holds_asnMark]
  unfold Descriptor.Has at hv
  split_ifs at hv ⊢
  · exact hv.imp hr
  · exact hr v hv

/-- Numbers, booleans and octet strings are not marked. -/
theorem Descriptor.Plain.value {values : Shape → Value → Prop} {x : Descriptor} (hplain : x.Plain)
    (hprimitive : x.shape.isPrimitive = true) {v : Value} (hv : x.Has values v) :
    values x.shape v := by
  unfold Descriptor.Has at hv
  split_ifs at hv with hoptional
  · exact absurd (hplain.mark hoptional) (by simp [hprimitive])
  · exact hv

/-- The values of a type, at a depth. -/
theorem Conforms.has {shape : Shape} {v : Value} (h : Conforms m constants outer depth shape v) :
    ∃ e, depth = e + 1 ∧ shape.Has constants (Conforms m constants outer e)
      (m.NameHas outer (Conforms m constants outer e)) v := by
  cases depth with
  | zero => exact h.elim
  | succ depth => exact ⟨depth, rfl, h⟩

/-- Names that hold values of some depth hold those of a smaller depth. -/
theorem NamesHold.mono {e : ℕ} (h : NamesHold m constants outer fields P depth) (he : e ≤ depth) :
    NamesHold m constants outer fields P e :=
  ⟨h.field, fun e' he' => h.named e' (he'.trans he), fun e' he' => h.byte e' (he'.trans he)⟩

/-- The value of a member is held by the type that is written for it. -/
theorem holds_of_asnMember (hnames : NamesHold m constants outer fields P depth)
    {x : Descriptor} (hplain : x.Plain) {r : CType} {v : Value}
    (h : asnMember m x = .ok r) (hv : x.Has (Conforms m constants outer depth) v) :
    r.Holds fields P v := by
  unfold asnMember at h
  cases hshape : x.shape with
  | integer range =>
    have hv := hplain.value (by rw [hshape]; rfl) hv
    simp only [hshape] at h hv
    cases range with
    | none => cases h
    | some range =>
      obtain ⟨_, _, z, rfl, hleast, hgreatest⟩ := hv.has
      simp only at h
      split at h
      · rename_i t ht
        cases h
        have hspans := spans_of_chosen ht (hplain.range _ _ hshape)
        exact ⟨z, rfl, hspans.represents hleast hgreatest⟩
      · cases h
  | boolean =>
    have hv := hplain.value (by rw [hshape]; rfl) hv
    simp only [hshape] at h hv
    obtain ⟨_, _, hv⟩ := hv.has
    cases h
    exact hv
  | octetString size =>
    have hv := hplain.value (by rw [hshape]; rfl) hv
    simp only [hshape] at h hv
    obtain ⟨_, _, hv⟩ := hv.has
    exact holds_of_asnSequenceOf hnames.field h hv (fun _ w hw => hw) fun _ hne => absurd rfl hne
  | null =>
    simp only [hshape] at h
    cases h
    refine holds_asnMark_of_has (fun w hw => ?_) hv
    rw [hshape] at hw
    obtain ⟨_, _, hw⟩ := hw.has
    exact hw
  | sequenceOf element size =>
    simp only [hshape, bind_eq_ok, pure_eq_ok] at h
    obtain ⟨r, hr, rfl⟩ := h
    refine holds_asnMark_of_has (fun w hw => ?_) hv
    rw [hshape] at hw
    obtain ⟨e, rfl, hw⟩ := hw.has
    exact holds_of_sequenceOf (hnames.mono e.le_succ) hr hw
  | named name =>
    simp only [hshape] at h
    split_ifs at h with hknown
    cases h
    refine holds_asnMark_of_has (fun w hw => ?_) hv
    rw [hshape] at hw
    exact hnames.named depth le_rfl name hknown w hw
  | choice | enumerated | sequence =>
    simp only [hshape] at h
    cases h

/-- A choice of `none` and `some` has two members. -/
theorem eq_pair_of_isOptionalChoice {members : List Descriptor}
    (h : isOptionalChoice members = .ok true) : ∃ first second, members = [first, second] := by
  unfold isOptionalChoice at h
  split_ifs at h with hnames
  · have hlength := congrArg List.length hnames
    rw [List.length_map] at hlength
    exact List.length_eq_two.mp hlength
  · cases h

/-- The numbers of an enumeration are between the bounds that its type is chosen by. -/
theorem bounds_of_mem {numbers : List ℤ} {z : ℤ} (hz : z ∈ numbers) :
    numbers.min?.getD 0 ≤ z ∧ z ≤ numbers.max?.getD 0 := by
  constructor
  · cases hmin : numbers.min? with
    | none => exact absurd (List.min?_eq_none_iff.mp hmin ▸ hz) List.not_mem_nil
    | some least => exact (List.min?_eq_some_iff.mp hmin).2 z hz
  · cases hmax : numbers.max? with
    | none => exact absurd (List.max?_eq_none_iff.mp hmax ▸ hz) List.not_mem_nil
    | some greatest => exact (List.max?_eq_some_iff.mp hmax).2 z hz

/-- The values of the members are held by the types that are written for them. -/
theorem forall₂_of_members (hnames : NamesHold m constants outer fields P depth)
    {members : List Descriptor} (hplain : ∀ x ∈ members, x.Plain)
    {types : List (String × CType)} {vs : List Value}
    (h : (members.mapM fun x => (cDash x.name, ·) <$> asnMember m x) = .ok types)
    (hvs : List.Forall₂ (Descriptor.Has (Conforms m constants outer depth)) members vs) :
    List.Forall₂ (fun y w => y.2.Holds fields P w) types vs := by
  rw [mapM_eq_ok_iff] at h
  induction hvs generalizing types with
  | nil =>
    cases h
    exact .nil
  | cons hv _ ih =>
    cases h with
    | cons hhead htail =>
      obtain ⟨r, hr, rfl⟩ := map_eq_ok.mp hhead
      exact .cons (holds_of_asnMember hnames (hplain _ List.mem_cons_self) hr hv)
        (ih (fun x hx => hplain x (List.mem_cons_of_mem _ hx)) htail)

/-- The `none` of an optional value is absent, and its `some` is held. -/
theorem maybe_of_pair {first second x : Descriptor} {values : Shape → Value → Prop} {i : ℕ}
    {w : Value} {Q : Value → Prop} (hempty : first.optional = false ∧ first.shape = .null)
    (hnull : ∀ v, values .null v → v = .null) (hx : [first, second][i]? = some x)
    (hw : x.Has values w) (hQ : second.Has values w → Q w) : (Value.choice i w).Maybe Q := by
  cases i with
  | zero =>
    obtain rfl := Option.some.inj hx
    unfold Descriptor.Has at hw
    rw [hempty.1, hempty.2] at hw
    rw [hnull w hw]
    exact Or.inl rfl
  | succ i =>
    obtain ⟨rfl, rfl⟩ : i = 0 ∧ second = x := by simpa [List.getElem?_singleton] using hx
    exact Or.inr ⟨w, rfl, hQ hw⟩

/-- The values of a definition are held by its declaration. -/
theorem holds_of_declare (hnames : NamesHold m constants outer fields P depth)
    {t : Descriptor} (hplain : t.PlainType) {body : Body} {v : Value} (h : declare m t = .ok body)
    (hv : Conforms m constants outer depth t.shape v) : body.Holds fields P v := by
  have hmember : t.Has (Conforms m constants outer depth) v := by
    unfold Descriptor.Has
    rw [hplain.definite]
    exact hv
  unfold declare at h
  cases hshape : t.shape with
  | choice members =>
    have hmembers : ∀ x ∈ members, x.Plain := by
      have := hplain.members
      rwa [hshape] at this
    rw [hshape] at hv
    obtain ⟨e, rfl, i, x, w, rfl, hx, hw⟩ := hv.has
    have hnames := hnames.mono e.le_succ
    simp only [hshape, bind_eq_ok] at h
    obtain ⟨isOptional, hoptional, h⟩ := h
    split_ifs at h with htrue
    · subst htrue
      obtain ⟨first, second, rfl⟩ := eq_pair_of_isOptionalChoice hoptional
      simp only [bind_eq_ok, pure_eq_ok] at h
      obtain ⟨r, hr, rfl⟩ := h
      refine maybe_of_pair (hplain.empty first second hshape hoptional) (fun v hv => ?_) hx hw ?_
      · obtain ⟨_, _, hv⟩ := hv.has
        exact hv
      · exact holds_of_asnMember hnames (hmembers second (by simp)) hr
    · simp only [bind_eq_ok, pure_eq_ok] at h
      obtain ⟨types, htypes, rfl⟩ := h
      obtain ⟨y, hy, hxy⟩ := mapM_getElem? htypes hx
      obtain ⟨r, hr, rfl⟩ := map_eq_ok.mp hxy
      have hplainx := hmembers x (List.mem_of_getElem? hx)
      exact ⟨i, _, w, rfl, hy, holds_of_asnMember hnames hplainx hr hw⟩
  | enumerated values =>
    rw [hshape] at hv
    obtain ⟨_, _, z, rfl, hz⟩ := hv.has
    simp only [hshape] at h
    split at h
    · rename_i base hbase
      cases h
      have hspans := spans_of_chosen hbase (hplain.enumerated values hshape)
      obtain ⟨hleast, hgreatest⟩ := bounds_of_mem hz
      exact ⟨z, rfl, hz, hspans.represents hleast hgreatest⟩
    · cases h
  | sequence members =>
    have hmembers : ∀ x ∈ members, x.Plain := by
      have := hplain.members
      rwa [hshape] at this
    rw [hshape] at hv
    obtain ⟨e, rfl, vs, rfl, hvs⟩ := hv.has
    simp only [hshape, bind_eq_ok, pure_eq_ok] at h
    obtain ⟨types, htypes, rfl⟩ := h
    exact ⟨vs, rfl, forall₂_of_members (hnames.mono e.le_succ) hmembers htypes hvs⟩
  | null =>
    rw [hshape] at hv
    obtain ⟨_, _, hv⟩ := hv.has
    simp only [hshape] at h
    cases h
    exact hv
  | integer | boolean | octetString | sequenceOf | named =>
    simp only [hshape, bind_eq_ok, pure_eq_ok] at h
    obtain ⟨r, hr, rfl⟩ := h
    exact holds_of_asnMember hnames hplain.plain hr hmember

/-! ## Whole modules -/

section Declared

variable {sort : List (String × List String) → List String} {cppNamespace : String} {limit : ℕ}
  {decls : List CDecl} {deps : List (String × List String)} {k : String}

/-- The declaration of a type is found under its name. -/
theorem find_declaration {t : Descriptor} (hdeps : m.asnDeps limit = .ok deps)
    (hsort : (sort deps).Perm (deps.map Prod.fst))
    (h : parseTypes sort cppNamespace m limit = .ok decls) (hk : (k, t) ∈ m.types) :
    ∃ d, decls.find? (fun d => d.name = k) = some d ∧ declare m t = .ok d.body := by
  obtain ⟨deps', hdeps', hnames, hdecls⟩ := parseTypes_eq_ok h
  obtain rfl : deps = deps' := Except.ok.inj (hdeps.symm.trans hdeps')
  have hmem : k ∈ decls.map CDecl.name :=
    (perm_names hdeps hsort hnames).mem_iff.mpr (List.mem_map_of_mem (f := Prod.fst) hk)
  cases hfind : decls.find? fun d => decide (d.name = k) with
  | none =>
    obtain ⟨d, hd, hname⟩ := List.mem_map.mp hmem
    exact absurd (decide_eq_true hname) (List.find?_eq_none.mp hfind d hd)
  | some d =>
    have hname : d.name = k := by simpa using List.find?_some hfind
    obtain ⟨t', ht', hdeclare⟩ := hdecls d (List.mem_of_find?_eq_some hfind)
    rw [hname] at ht'
    obtain rfl : t = t' := Option.some.inj ((lookup_types hk).symm.trans (lookup_types ht'))
    exact ⟨d, rfl, hdeclare⟩

/-- A declared name holds the values of its declaration. -/
theorem nameHolds_of_find {outer' named : String → Value → Prop} {d : CDecl}
    (hfind : decls.find? (fun d => d.name = k) = some d) :
    NameHolds decls fields outer' named k = d.body.Holds fields named := by
  rw [NameHolds, hfind]

/-- Nothing else is declared. -/
theorem find_eq_none (hdeps : m.asnDeps limit = .ok deps)
    (hsort : (sort deps).Perm (deps.map Prod.fst))
    (h : parseTypes sort cppNamespace m limit = .ok decls) (hk : k ∉ m.names) :
    decls.find? (fun d => d.name = k) = none := by
  obtain ⟨deps', hdeps', hnames, _⟩ := parseTypes_eq_ok h
  obtain rfl : deps = deps' := Except.ok.inj (hdeps.symm.trans hdeps')
  refine List.find?_eq_none.mpr fun d hd hname => hk ?_
  rw [← of_decide_eq_true hname, ← (perm_names hdeps hsort hnames).mem_iff]
  exact List.mem_map_of_mem hd

/-- A name without a definition is not found. -/
theorem lookup_eq_none (hk : k ∉ m.names) : m.types.lookup k = none := by
  refine List.lookup_eq_none_iff.mpr fun entry hentry => ?_
  refine bne_iff_ne.mpr fun heq => hk ?_
  exact heq ▸ List.mem_map_of_mem (f := Prod.fst) hentry

/-- The values of a defined name are those of its definition. -/
theorem conforms_named {t : Descriptor} (ht : (k, t) ∈ m.types) {v : Value} :
    Conforms m constants outer (depth + 1) (.named k) v ↔
      Conforms m constants outer depth t.shape v := by
  rw [Conforms, Shape.Has, Module.NameHas, lookup_types ht]

/-- The generated types hold all values of the schema. -/
theorem holds_of_conforms {outer' : String → Value → Prop}
    (hdeps : m.asnDeps limit = .ok deps) (hsort : (sort deps).Perm (deps.map Prod.fst))
    (h : parseTypes sort cppNamespace m limit = .ok decls)
    (hplain : ∀ k t, (k, t) ∈ m.types → t.PlainType)
    (hfields : ∀ name, fields (cDash name) = constants name)
    (hbyte : ∀ depth v, Conforms m constants outer depth (.named "U8") v → v.IsByte)
    (houter : ∀ name ∈ m.imports, ∀ v, outer name v → outer' name v) {v : Value}
    (hk : m.knows k = true) (hv : Conforms m constants outer depth (.named k) v) :
    HoldsName decls fields outer' depth k v := by
  induction depth using Nat.strong_induction_on generalizing k v with
  | h depth ih =>
    cases depth with
    | zero => exact hv.elim
    | succ depth =>
      rw [HoldsName]
      by_cases hown : k ∈ m.names
      · obtain ⟨⟨k, t⟩, ht, rfl⟩ := List.mem_map.mp hown
        obtain ⟨d, hfind, hdeclare⟩ := find_declaration hdeps hsort h ht
        rw [nameHolds_of_find hfind]
        -- The names in the definition are a level deeper.
        have hnames : NamesHold m constants outer fields
            (HoldsName decls fields outer' depth) depth :=
          ⟨hfields, fun e he name hname v hv => (ih e (by omega) hname hv).mono he,
            fun e _ v => hbyte e v⟩
        exact holds_of_declare hnames (hplain _ t ht) hdeclare ((conforms_named ht).mp hv)
      · have himported : k ∈ m.imports := by
          have hknows : k ∈ m.names ∨ k ∈ m.imports := by simpa [Module.knows] using hk
          exact hknows.resolve_left hown
        rw [Conforms, Shape.Has, Module.NameHas, lookup_eq_none hown] at hv
        rw [NameHolds, find_eq_none hdeps hsort h hown]
        exact houter k himported v hv

/-- A hash, of equal bytes. -/
def someHash : Value := .list (List.replicate 32 (.int 7))

/-- A header with one ancestor. -/
def someHeader : Value := .record [someHash, .list [someHash]]

/-- It is a value of the definition of hashes. -/
theorem conforms_someHash (depth : ℕ) :
    Conforms headerModule (fun _ => 0) (fun _ => Value.IsByte) (depth + 1)
      (.octetString (some (.exactly (.number 32)))) someHash := by
  refine ⟨_, rfl, rfl, fun w hw => ?_⟩
  rw [List.eq_of_mem_replicate hw]
  exact ⟨7, rfl, by decide, by decide⟩

/-- A name that is not marked is written as the schema has it, and so is a sequence of names. -/
theorem plain_of_definite {x : Descriptor} (hoptional : x.optional = false)
    (hrange : ∀ range, x.shape ≠ .integer range) : x.Plain := by
  constructor
  · intro h
    rw [hoptional] at h
    cases h
  · intro least greatest h
    exact absurd h (hrange _)

/-- The definitions are written as the schema has them. -/
theorem plainType_of_headerModule {t : Descriptor} (ht : (k, t) ∈ headerModule.types) :
    t.PlainType := by
  rcases List.mem_cons.mp ht with heq | ht
  · cases heq
    refine ⟨rfl, plain_of_definite rfl (fun _ h => by cases h), fun x hx => ?_,
      (fun _ h => by cases h), (fun _ _ h => by cases h)⟩
    rcases List.mem_cons.mp hx with rfl | hx
    · exact plain_of_definite rfl (fun _ h => by cases h)
    · obtain rfl := List.mem_singleton.mp hx
      exact plain_of_definite rfl (fun _ h => by cases h)
  · cases List.mem_singleton.mp ht
    exact ⟨rfl, plain_of_definite rfl (fun _ h => by cases h), (fun x hx => by cases hx),
      (fun _ h => by cases h), (fun _ _ h => by cases h)⟩

/-- A header of the schema is held by the generated struct. -/
theorem holds_of_conforms_header :
    ∃ decls, parseTypes (fun _ => ["Hash", "Header"]) "jam" headerModule 2 = .ok decls ∧
      HoldsName decls (fun _ => 0) (fun _ => Value.IsByte) 5 "Header" someHeader := by
  have hdeps : headerModule.asnDeps 2 = .ok [("Header", ["Hash"]), ("Hash", [])] := by decide
  have hparse : parseTypes (fun _ => ["Hash", "Header"]) "jam" headerModule 2 = .ok _ := rfl
  have hv : Conforms headerModule (fun _ => 0) (fun _ => Value.IsByte) 5 (.named "Header")
      someHeader :=
    ⟨_, rfl, .cons (conforms_someHash 1) (.cons ⟨_, rfl, trivial, fun w hw =>
      List.mem_singleton.mp hw ▸ conforms_someHash 0⟩ .nil)⟩
  refine ⟨_, hparse, holds_of_conforms hdeps (List.Perm.swap _ _ _) hparse
    (fun _ _ => plainType_of_headerModule) (fun _ => rfl) ?_ (fun _ _ _ hv => hv) rfl hv⟩
  intro depth v hv
  obtain ⟨e, rfl, hv⟩ := hv.has
  exact hv

/-- The types of numbers, booleans and octet strings do not hold an absent value. -/
theorem not_holds_absent {x : Descriptor} {r : CType} (hprimitive : x.shape.isPrimitive = true)
    (h : asnMember m x = .ok r) : ¬r.Holds fields P .absent := by
  unfold asnMember at h
  cases hshape : x.shape with
  | integer range =>
    simp only [hshape] at h
    cases range with
    | none => cases h
    | some range =>
      simp only at h
      split at h
      · cases h
        rintro ⟨z, hz, _⟩
        cases hz
      · cases h
  | boolean =>
    simp only [hshape] at h
    cases h
    rintro ⟨b, hb⟩
    cases hb
  | octetString size =>
    simp only [hshape, asnSequenceOf, if_true] at h
    split_ifs at h
    split at h <;> cases h <;> rintro ⟨vs, hvs, _⟩ <;> cases hvs
  | null | sequenceOf | choice | enumerated | sequence | named =>
    rw [hshape] at hprimitive
    cases hprimitive

/-- A related pair may be put at a position. -/
theorem forall₂_set {α β : Type} {R : α → β → Prop} {l : List α} {l' : List β} {i : ℕ} {a : α}
    {b : β} (h : List.Forall₂ R l l') (ha : l[i]? = some a) (hab : R a b) :
    List.Forall₂ R l (l'.set i b) := by
  induction h generalizing i with
  | nil => cases ha
  | cons hhead htail ih =>
    cases i with
    | zero =>
      obtain rfl := Option.some.inj ha
      exact .cons hab htail
    | succ i => exact .cons hhead (ih ha)

/-- A struct holds the values that its members hold. -/
theorem HoldsName.members {outer' : String → Value → Prop} {d : CDecl}
    {types : List (String × CType)} {vs : List Value} (hbody : d.body = .struct types)
    (hfind : decls.find? (fun d => d.name = k) = some d)
    (h : HoldsName decls fields outer' depth k (.record vs)) :
    ∃ P, List.Forall₂ (fun x w => x.2.Holds fields P w) types vs := by
  cases depth with
  | zero => exact h.elim
  | succ depth =>
    rw [HoldsName, nameHolds_of_find hfind, hbody] at h
    obtain ⟨_, hvs, hmembers⟩ := h
    cases hvs
    exact ⟨_, hmembers⟩

/-- A number, boolean or octet string that is `OPTIONAL` may be absent in every value of the
schema, and then the generated type does not hold the value. -/
theorem not_holds_of_absent {outer' : String → Value → Prop} {t x : Descriptor}
    {members : List Descriptor} {i : ℕ} (hdeps : m.asnDeps limit = .ok deps)
    (hsort : (sort deps).Perm (deps.map Prod.fst))
    (h : parseTypes sort cppNamespace m limit = .ok decls) (ht : (k, t) ∈ m.types)
    (hshape : t.shape = .sequence members) (hx : members[i]? = some x)
    (hoptional : x.optional = true) (hprimitive : x.shape.isPrimitive = true) {vs : List Value}
    (hv : Conforms m constants outer depth (.named k) (.record vs)) :
    Conforms m constants outer depth (.named k) (.record (vs.set i .absent)) ∧
      ∀ depth', ¬HoldsName decls fields outer' depth' k (.record (vs.set i .absent)) := by
  obtain ⟨depth, rfl, _⟩ := hv.has
  rw [conforms_named ht, hshape] at hv ⊢
  obtain ⟨e, rfl, _, hvs, hmembers⟩ := hv.has
  cases hvs
  constructor
  · have habsent : x.Has (Conforms m constants outer e) .absent := by
      rw [Descriptor.Has, if_pos hoptional]
      exact Or.inl rfl
    exact ⟨_, rfl, forall₂_set hmembers hx habsent⟩
  · intro depth' hholds
    obtain ⟨d, hfind, hdeclare⟩ := find_declaration hdeps hsort h ht
    simp only [declare, hshape, bind_eq_ok, pure_eq_ok] at hdeclare
    obtain ⟨types, htypes, hbody⟩ := hdeclare
    obtain ⟨P, hheld⟩ := hholds.members hbody.symm hfind
    obtain ⟨y, hy, hxy⟩ := mapM_getElem? htypes hx
    obtain ⟨r, hr, rfl⟩ := map_eq_ok.mp hxy
    obtain ⟨hi, hy⟩ := List.getElem?_eq_some_iff.mp hy
    have hat := hheld.get hi (hheld.length_eq ▸ hi)
    simp only [List.get_eq_getElem, hy, List.getElem_set_self] at hat
    exact not_holds_absent hprimitive hr hat

end Declared

/-- A module with an optional number. -/
def ticketModule : Module where
  types := [("Ticket", .mk "Ticket" false none (.sequence [
    .mk "attempt" true none (.integer (some (0, 255)))]))]
  imports := []
  types_nodup := by decide

/-- A ticket without the number is not held. -/
theorem not_holds_of_absent_ticket :
    ∃ decls, parseTypes (fun _ => ["Ticket"]) "jam" ticketModule 1 = .ok decls ∧
      Conforms ticketModule (fun _ => 0) (fun _ _ => False) 3 (.named "Ticket")
        (.record [.absent]) ∧
      ∀ depth, ¬HoldsName decls (fun _ => 0) (fun _ _ => False) depth "Ticket"
        (.record [.absent]) := by
  have hdeps : ticketModule.asnDeps 1 = .ok [("Ticket", [])] := by decide
  have hparse : parseTypes (fun _ => ["Ticket"]) "jam" ticketModule 1 = .ok _ := rfl
  have hv : Conforms ticketModule (fun _ => 0) (fun _ _ => False) 3 (.named "Ticket")
      (.record [.choice 1 (.int 3)]) :=
    ⟨_, rfl, .cons (Or.inr ⟨_, rfl, 3, rfl, by decide, by decide⟩) .nil⟩
  exact ⟨_, hparse, not_holds_of_absent (i := 0) hdeps (List.Perm.refl _) hparse
    List.mem_cons_self rfl rfl rfl rfl hv⟩

end CppJam.Asn1
