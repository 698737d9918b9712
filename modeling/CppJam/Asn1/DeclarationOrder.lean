import CppJam.Asn1.ParseTypes

/-!
# Types are declared before they are used

Whatever order of the dependencies the library returns, the header declares every type of the
module once, and every type that a declaration names is imported or declared in an earlier line.
-/

namespace CppJam.Asn1

open Checks

variable {m : Module} {t : Descriptor} {u : String}

/-- An order of the types in which the dependencies of each come before it. -/
structure Topological (deps : List (String × List String)) (order : List String) : Prop where
  /-- Every type is in the order once. -/
  perm : order.Perm (deps.map Prod.fst)
  /-- Dependencies come first. -/
  before : ∀ front k back, order = front ++ k :: back → ∀ ds, (k, ds) ∈ deps → ∀ d ∈ ds, d ∈ front

/-- The names that a dictionary and what is below it have as types. -/
def Descriptor.typeNames (t : Descriptor) : List String :=
  (asnRecurse t).filterMap fun x => x.shape.typeName

/-- A name that the definition of a type has, and the module knows. -/
def Named (m : Module) (t : Descriptor) (u : String) : Prop := m.knows u = true ∧ u ∈ t.typeNames

/-- A dictionary is visited itself. -/
theorem mem_typeNames_self (h : t.shape.typeName = some u) : u ∈ t.typeNames := by
  cases t with
  | mk name optional tag shape =>
    rw [Descriptor.typeNames, asnRecurse]
    exact List.mem_filterMap.mpr ⟨_, List.mem_cons_self, h⟩

/-- An element is visited. -/
theorem mem_typeNames_element {element : Descriptor} {size : Option Size}
    (hshape : t.shape = .sequenceOf element size) (h : u ∈ element.typeNames) :
    u ∈ t.typeNames := by
  cases t with
  | mk name optional tag shape =>
    cases hshape
    obtain ⟨x, hx, hu⟩ := List.mem_filterMap.mp h
    rw [Descriptor.typeNames, asnRecurse, recurseShape]
    exact List.mem_filterMap.mpr ⟨x, List.mem_cons_of_mem _ hx, hu⟩

/-- Members are visited. -/
theorem mem_recurseMembers {members : List Descriptor} {x y : Descriptor} (hx : x ∈ members)
    (hy : y ∈ asnRecurse x) : y ∈ recurseMembers members := by
  induction members with
  | nil => cases hx
  | cons z members ih =>
    rw [recurseMembers, List.mem_append]
    rcases List.mem_cons.mp hx with rfl | hx
    · exact Or.inl hy
    · exact Or.inr (ih hx)

/-- Members of a choice or a sequence are visited. -/
theorem mem_typeNames_member {members : List Descriptor} {x : Descriptor}
    (hshape : t.shape = .choice members ∨ t.shape = .sequence members) (hx : x ∈ members)
    (h : u ∈ x.typeNames) : u ∈ t.typeNames := by
  cases t with
  | mk name optional tag shape =>
    obtain ⟨y, hy, hu⟩ := List.mem_filterMap.mp h
    have hbelow := mem_recurseMembers hx hy
    rw [Descriptor.typeNames, asnRecurse]
    refine List.mem_filterMap.mpr ⟨y, List.mem_cons_of_mem _ ?_, hu⟩
    rcases hshape with hshape | hshape
    · cases hshape
      exact hbelow
    · cases hshape
      exact hbelow

/-- The mark and the tag name no types. -/
@[simp] theorem uses_asnMark (optional : Bool) (tag : Option Tag) (r : CType) :
    (asnMark optional tag r).uses = r.uses := by
  unfold asnMark
  split_ifs
  · rfl
  · cases tag <;> rfl

/-- A sequence names the type of its elements, but for bytes. -/
theorem uses_asnSequenceOf {element : Option String} {size : Option Size} {r : CType}
    (h : asnSequenceOf m element size = .ok r) (hu : u ∈ r.uses) :
    element = some u ∧ u ≠ "U8" ∧ m.knows u = true := by
  unfold asnSequenceOf at h
  cases element with
  | none => cases h
  | some name =>
    simp only at h
    split_ifs at h with hknown hbytes
    · split at h <;> cases h <;> cases hu
    · have hname : u = name := by
        split at h <;> cases h <;> exact List.mem_singleton.mp hu
      subst hname
      exact ⟨rfl, hbytes, by simpa using hknown⟩

/-- The type of a member names types that the member has. -/
theorem named_of_asnMember {r : CType} (h : asnMember m t = .ok r) (hu : u ∈ r.uses) :
    Named m t u := by
  unfold asnMember at h
  cases hshape : t.shape with
  | integer range =>
    simp only [hshape] at h
    cases range with
    | none => cases h
    | some range =>
      simp only at h
      split at h
      · cases h
        cases hu
      · cases h
  | boolean =>
    simp only [hshape] at h
    cases h
    cases hu
  | octetString size =>
    simp only [hshape] at h
    obtain ⟨helement, hbytes, _⟩ := uses_asnSequenceOf h hu
    exact absurd (Option.some.inj helement).symm hbytes
  | null =>
    simp only [hshape] at h
    cases h
    rw [uses_asnMark] at hu
    cases hu
  | sequenceOf element size =>
    simp only [hshape, bind_eq_ok, pure_eq_ok] at h
    obtain ⟨r', hr', rfl⟩ := h
    rw [uses_asnMark] at hu
    obtain ⟨helement, _, hknown⟩ := uses_asnSequenceOf hr' hu
    exact ⟨hknown, mem_typeNames_element hshape (mem_typeNames_self helement)⟩
  | named name =>
    simp only [hshape] at h
    split_ifs at h with hknown
    cases h
    rw [uses_asnMark] at hu
    cases List.mem_singleton.mp hu
    exact ⟨hknown, mem_typeNames_self (by rw [hshape]; rfl)⟩
  | choice | enumerated | sequence =>
    simp only [hshape] at h
    cases h

/-- The types of members name types that the definition has. -/
theorem named_of_members {members : List Descriptor} {α : Type} {f : Descriptor → CType → α}
    {types : List α} (type : α → CType) (htype : ∀ x r, type (f x r) = r)
    (hshape : t.shape = .choice members ∨ t.shape = .sequence members)
    (h : (members.mapM fun x => f x <$> asnMember m x) = .ok types)
    (hu : u ∈ types.flatMap fun x => (type x).uses) : Named m t u := by
  obtain ⟨a, ha, hu⟩ := List.mem_flatMap.mp hu
  obtain ⟨x, hx, hfx⟩ := exists_of_mem_mapM h ha
  obtain ⟨r, hr, rfl⟩ := map_eq_ok.mp hfx
  rw [htype] at hu
  obtain ⟨hknown, hname⟩ := named_of_asnMember hr hu
  exact ⟨hknown, mem_typeNames_member hshape hx hname⟩

/-- A declaration names types that the definition has. -/
theorem named_of_declare {body : Body} (h : declare m t = .ok body) (hu : u ∈ body.uses) :
    Named m t u := by
  unfold declare at h
  cases hshape : t.shape with
  | choice members =>
    simp only [hshape, bind_eq_ok] at h
    obtain ⟨isOptional, _, h⟩ := h
    split_ifs at h
    · split at h
      · rename_i first x _
        simp only [bind_eq_ok, pure_eq_ok] at h
        obtain ⟨r, hr, rfl⟩ := h
        obtain ⟨hknown, hname⟩ := named_of_asnMember hr hu
        have hx : x ∈ [first, x] := List.mem_cons_of_mem first List.mem_cons_self
        exact ⟨hknown, mem_typeNames_member (Or.inl hshape) hx hname⟩
      · cases h
    · simp only [bind_eq_ok, pure_eq_ok] at h
      obtain ⟨types, htypes, rfl⟩ := h
      exact named_of_members Prod.fst (fun _ _ => rfl) (Or.inl hshape) htypes hu
  | enumerated values =>
    simp only [hshape] at h
    split at h
    · cases h
      cases hu
    · cases h
  | sequence members =>
    simp only [hshape, bind_eq_ok, pure_eq_ok] at h
    obtain ⟨types, htypes, rfl⟩ := h
    exact named_of_members Prod.snd (fun _ _ => rfl) (Or.inr hshape) htypes hu
  | null =>
    simp only [hshape] at h
    cases h
    cases hu
  | integer | boolean | octetString | sequenceOf | named =>
    simp only [hshape, bind_eq_ok, pure_eq_ok] at h
    obtain ⟨r, hr, rfl⟩ := h
    exact named_of_asnMember hr hu

/-- The declarations before they are put in order. -/
theorem declareType_eq_ok {cppNamespace : String} {k : String × Descriptor} {d : CDecl}
    (h : declareType m cppNamespace k = .ok d) : d.name = k.1 ∧ declare m k.2 = .ok d.body := by
  simp only [declareType, bind_eq_ok, pure_eq_ok] at h
  obtain ⟨body, hbody, rfl⟩ := h
  exact ⟨rfl, hbody⟩

/-- The declaration that is found has the name. -/
theorem findType_eq_ok {decls : List CDecl} {k : String} {d : CDecl}
    (h : findType decls k = .ok d) : d.name = k ∧ d ∈ decls := by
  unfold findType at h
  split at h
  · rename_i hfind
    cases h
    exact ⟨by simpa using List.find?_some hfind, List.mem_of_find?_eq_some hfind⟩
  · cases h

/-- What is returned: declarations of the types of the module, in the order of the library. -/
theorem parseTypes_eq_ok {sort : List (String × List String) → List String}
    {cppNamespace : String} {limit : ℕ} {decls : List CDecl}
    (h : parseTypes sort cppNamespace m limit = .ok decls) :
    ∃ deps, m.asnDeps limit = .ok deps ∧ decls.map CDecl.name = sort deps ∧
      ∀ d ∈ decls, ∃ t, (d.name, t) ∈ m.types ∧ declare m t = .ok d.body := by
  simp only [parseTypes, bind_eq_ok] at h
  obtain ⟨deps, hdeps, all, hall, h⟩ := h
  refine ⟨deps, hdeps, ?_, ?_⟩
  · rw [mapM_eq_ok_iff] at h
    generalize sort deps = order at h
    induction h with
    | nil => rfl
    | cons hhead _ ih => rw [List.map_cons, ih, (findType_eq_ok hhead).1]
  · intro d hd
    obtain ⟨k, _, hk⟩ := exists_of_mem_mapM h hd
    obtain ⟨⟨name, t⟩, ht, hdeclare⟩ := exists_of_mem_mapM hall (findType_eq_ok hk).2
    obtain ⟨hname, hbody⟩ := declareType_eq_ok hdeclare
    exact ⟨t, hname ▸ ht, hbody⟩

/-- The definition of a type is found under its name. -/
theorem lookup_types {k : String} {t : Descriptor} (h : (k, t) ∈ m.types) :
    m.types.lookup k = some t := by
  have hnodup := m.types_nodup
  generalize m.types = types at h hnodup
  induction types with
  | nil => cases h
  | cons entry types ih =>
    obtain ⟨hnot, hnodup⟩ := List.nodup_cons.mp hnodup
    rw [List.lookup_cons]
    rcases List.mem_cons.mp h with rfl | h
    · rw [beq_self_eq_true]
    · have hne : k ≠ entry.1 := fun heq => hnot (heq ▸ List.mem_map_of_mem (f := Prod.fst) h)
      rw [beq_eq_false_iff_ne.mpr hne]
      exact ih h hnodup

/-- The declarations are those of the types of the module, in another order. -/
theorem perm_names {deps : List (String × List String)} {limit : ℕ} {order : List String}
    {decls : List CDecl} (hdeps : m.asnDeps limit = .ok deps)
    (hsort : order.Perm (deps.map Prod.fst)) (hnames : decls.map CDecl.name = order) :
    (decls.map CDecl.name).Perm m.names := by
  rw [hnames, ← Module.map_fst_asnDeps hdeps]
  exact hsort

/-- Whatever order of the dependencies the library returns, every type of the module is declared
once, and every type that a declaration names is imported or declared before it. -/
theorem declared_before_use {sort : List (String × List String) → List String}
    {cppNamespace : String} {limit : ℕ} {decls : List CDecl} {deps : List (String × List String)}
    (hdeps : m.asnDeps limit = .ok deps) (hsort : Topological deps (sort deps))
    (h : parseTypes sort cppNamespace m limit = .ok decls) :
    (decls.map CDecl.name).Perm m.names ∧
      ∀ front d back, decls = front ++ d :: back → ∀ u ∈ d.body.uses,
        u ∈ m.imports ∨ u ∈ front.map CDecl.name := by
  obtain ⟨deps', hdeps', hnames, hdecls⟩ := parseTypes_eq_ok h
  obtain rfl : deps = deps' := Except.ok.inj (hdeps.symm.trans hdeps')
  refine ⟨perm_names hdeps hsort.perm hnames, ?_⟩
  rintro front d back rfl u hu
  obtain ⟨t, ht, hdeclare⟩ := hdecls d (List.mem_append_right _ List.mem_cons_self)
  obtain ⟨hknown, hname⟩ := named_of_declare hdeclare hu
  by_cases hown : u ∈ m.names
  · -- The definition mentions a type of the module, which the order puts in front.
    have hmentions : Graphs.Edge m.mentions d.name u := by
      unfold Graphs.Edge Module.mentions
      rw [lookup_types ht]
      exact List.mem_dedup.mpr (List.mem_filter.mpr ⟨hname, by simpa using hown⟩)
    obtain ⟨ds, hds⟩ := Module.exists_mem_asnDeps hdeps (List.mem_map_of_mem (f := Prod.fst) ht)
    have hdep : u ∈ ds := (Module.mem_asnDeps_iff hdeps hds).mpr (.single hmentions)
    rw [List.map_append, List.map_cons] at hnames
    exact Or.inr (hsort.before _ _ _ hnames.symm ds hds u hdep)
  · have hknows : u ∈ m.names ∨ u ∈ m.imports := by simpa [Module.knows] using hknown
    exact Or.inl (hknows.resolve_left hown)

/-- A module whose first type depends on the second. -/
def headerModule : Module where
  types := [
    ("Header", .mk "Header" false none (.sequence [
      .mk "parent-hash" false none (.named "Hash"),
      .mk "ancestors" false none (.sequenceOf (.mk "" false none (.named "Hash")) none)])),
    ("Hash", .mk "Hash" false none (.octetString (some (.exactly (.number 32)))))]
  imports := ["U8"]
  types_nodup := by decide

/-- The second type is declared first. -/
theorem declared_before_use_header :
    ∃ decls, parseTypes (fun _ => ["Hash", "Header"]) "jam" headerModule 2 = .ok decls ∧
      decls.map CDecl.name = ["Hash", "Header"] ∧
      ∀ front d back, decls = front ++ d :: back → ∀ u ∈ d.body.uses,
        u ∈ headerModule.imports ∨ u ∈ front.map CDecl.name := by
  have hdeps : headerModule.asnDeps 2 = .ok [("Header", ["Hash"]), ("Hash", [])] := by decide
  have hsort : Topological [("Header", ["Hash"]), ("Hash", [])] ["Hash", "Header"] := by
    refine ⟨List.Perm.swap _ _ _, fun front k back horder ds hk d hd => ?_⟩
    rcases List.mem_cons.mp hk with hk | hk
    · obtain ⟨rfl, rfl⟩ := Prod.mk.inj hk
      cases front with
      | nil => exact absurd (List.cons.inj horder).1 (by decide)
      | cons first front =>
        obtain ⟨rfl, _⟩ := List.cons.inj horder
        exact List.mem_singleton.mp hd ▸ List.mem_cons_self
    · obtain ⟨rfl, rfl⟩ := Prod.mk.inj (List.mem_singleton.mp hk)
      cases hd
  have hparse : parseTypes (fun _ => ["Hash", "Header"]) "jam" headerModule 2 = .ok _ := rfl
  exact ⟨_, hparse, rfl, (declared_before_use hdeps hsort hparse).2⟩

end CppJam.Asn1
