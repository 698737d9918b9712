import CppJam.Checks

/-!
# Codecs that read a stream

A decoder takes a value from the front of a stream and leaves the rest. It inverts
its encoder when a value that it reads encodes to exactly the symbols that it took.
It reads a value back when it takes it from any stream that starts with the symbols of
the value. Both properties are kept when codecs are put in sequence, when values are
renamed, and when a fixed number of items is read one after the other.
-/

namespace Codecs

open Checks

/-- An encoder and a decoder of values of type `T` as symbols `σ`, both with access
to a configuration, both with errors in `ε`. -/
structure Codec (C σ ε T : Type) where
  /-- The symbols of a value. -/
  encode : C → T → Except ε (List σ)
  /-- A value from the front of the stream, and the rest of the stream. -/
  decode : C → List σ → Except ε (T × List σ)

variable {C σ ε S T : Type}

/-- A value that is read encodes to exactly the symbols taken. -/
def Codec.Inverts (c : Codec C σ ε T) : Prop :=
  ∀ config stream v rest, c.decode config stream = .ok (v, rest) →
    ∃ taken, c.encode config v = .ok taken ∧ taken ++ rest = stream

/-- One value after another. -/
def Codec.pair (c : Codec C σ ε S) (d : Codec C σ ε T) : Codec C σ ε (S × T) where
  encode config v := do
    let first ← c.encode config v.1
    let second ← d.encode config v.2
    return first ++ second
  decode config stream := do
    let (v, stream) ← c.decode config stream
    let (w, stream) ← d.decode config stream
    return ((v, w), stream)

/-- A sequence of inverting codecs inverts. -/
theorem Codec.Inverts.pair {c : Codec C σ ε S} {d : Codec C σ ε T} (hc : c.Inverts)
    (hd : d.Inverts) : (c.pair d).Inverts := by
  intro config stream v rest hdecode
  simp only [Codec.pair, bind_eq_ok, pure_eq_ok] at hdecode
  obtain ⟨⟨v₁, mid⟩, hfirst, ⟨v₂, rest'⟩, hsecond, hresult⟩ := hdecode
  cases hresult
  obtain ⟨first, hencode₁, rfl⟩ := hc config _ _ _ hfirst
  obtain ⟨second, hencode₂, rfl⟩ := hd config _ _ _ hsecond
  refine ⟨first ++ second, ?_, List.append_assoc _ _ _⟩
  simp [Codec.pair, hencode₁, hencode₂, Bind.bind, Except.bind, Pure.pure, Except.pure]

/-- The same symbols for values under other names. -/
def Codec.rename (c : Codec C σ ε S) (e : S ≃ T) : Codec C σ ε T where
  encode config v := c.encode config (e.symm v)
  decode config stream := do
    let (v, rest) ← c.decode config stream
    return (e v, rest)

/-- Renaming values keeps a codec inverting. -/
theorem Codec.Inverts.rename {c : Codec C σ ε S} (hc : c.Inverts) (e : S ≃ T) :
    (c.rename e).Inverts := by
  intro config stream v rest hdecode
  simp only [Codec.rename, bind_eq_ok, pure_eq_ok] at hdecode
  obtain ⟨⟨w, rest'⟩, hread, hresult⟩ := hdecode
  cases hresult
  obtain ⟨taken, hencode, htaken⟩ := hc config _ _ _ hread
  refine ⟨taken, ?_, htaken⟩
  simp only [Codec.rename, Equiv.symm_apply_apply]
  exact hencode

/-- Write the items of a list one after the other. -/
def Codec.encodeItems (c : Codec C σ ε T) (config : C) : List T → Except ε (List σ)
  | [] => .ok []
  | v :: vs => do
    let first ← c.encode config v
    let others ← c.encodeItems config vs
    return first ++ others

/-- Read a fixed number of items one after the other. -/
def Codec.decodeItems (c : Codec C σ ε T) (config : C) :
    ℕ → List σ → Except ε (List T × List σ)
  | 0, stream => .ok ([], stream)
  | n + 1, stream => do
    let (v, stream) ← c.decode config stream
    let (vs, stream) ← c.decodeItems config n stream
    return (v :: vs, stream)

/-- The items that an inverting codec reads are as many as asked for and encode to
exactly the symbols taken. -/
theorem Codec.Inverts.items {c : Codec C σ ε T} (hc : c.Inverts) {config : C} {n : ℕ}
    {stream rest : List σ} {vs : List T}
    (hdecode : c.decodeItems config n stream = .ok (vs, rest)) :
    vs.length = n ∧ ∃ taken, c.encodeItems config vs = .ok taken ∧ taken ++ rest = stream := by
  induction n generalizing stream vs with
  | zero =>
    cases hdecode
    exact ⟨rfl, [], rfl, rfl⟩
  | succ n ih =>
    simp only [Codec.decodeItems, bind_eq_ok, pure_eq_ok] at hdecode
    obtain ⟨⟨v, mid⟩, hfirst, ⟨vs', rest'⟩, hothers, hresult⟩ := hdecode
    cases hresult
    obtain ⟨hlength, others, hencode', rfl⟩ := ih hothers
    obtain ⟨first, hencode, rfl⟩ := hc config _ _ _ hfirst
    refine ⟨congrArg (· + 1) hlength, first ++ others, ?_, List.append_assoc _ _ _⟩
    simp [Codec.encodeItems, hencode, hencode', Bind.bind, Except.bind, Pure.pure, Except.pure]

/-! ## Reading values back -/

/-- The value is taken from every stream that starts with its symbols. -/
def Codec.ReadsBack (c : Codec C σ ε T) (config : C) (v : T) : Prop :=
  ∃ symbols, c.encode config v = .ok symbols ∧
    ∀ rest, c.decode config (symbols ++ rest) = .ok (v, rest)

/-- A sequence of two values is read back when both are. -/
theorem Codec.ReadsBack.pair {c : Codec C σ ε S} {d : Codec C σ ε T} {config : C} {v : S} {w : T}
    (hv : c.ReadsBack config v) (hw : d.ReadsBack config w) :
    (c.pair d).ReadsBack config (v, w) := by
  obtain ⟨first, hencode₁, hdecode₁⟩ := hv
  obtain ⟨second, hencode₂, hdecode₂⟩ := hw
  refine ⟨first ++ second, ?_, ?_⟩
  · simp [Codec.pair, hencode₁, hencode₂, Bind.bind, Except.bind, Pure.pure, Except.pure]
  · intro rest
    simp [Codec.pair, hdecode₁, hdecode₂, Bind.bind, Except.bind, Pure.pure, Except.pure]

/-- A renamed value is read back when the value is. -/
theorem Codec.ReadsBack.rename {c : Codec C σ ε S} {config : C} {e : S ≃ T} {v : T}
    (hv : c.ReadsBack config (e.symm v)) : (c.rename e).ReadsBack config v := by
  obtain ⟨symbols, hencode, hdecode⟩ := hv
  refine ⟨symbols, hencode, ?_⟩
  intro rest
  simp [Codec.rename, hdecode, Bind.bind, Except.bind, Pure.pure, Except.pure]

/-- Items that are read back one by one are read back in sequence: as many items are
read as were written, and nothing of the rest is taken. -/
theorem Codec.ReadsBack.items {c : Codec C σ ε T} {config : C} {vs : List T}
    (hvs : ∀ v ∈ vs, c.ReadsBack config v) :
    ∃ symbols, c.encodeItems config vs = .ok symbols ∧
      ∀ rest, c.decodeItems config vs.length (symbols ++ rest) = .ok (vs, rest) := by
  induction vs with
  | nil => exact ⟨[], rfl, fun rest => rfl⟩
  | cons v vs ih =>
    obtain ⟨hv, hvs⟩ := List.forall_mem_cons.mp hvs
    obtain ⟨first, hencode, hdecode⟩ := hv
    obtain ⟨others, hencode', hdecode'⟩ := ih hvs
    refine ⟨first ++ others, ?_, ?_⟩
    · simp [Codec.encodeItems, hencode, hencode', Bind.bind, Except.bind, Pure.pure, Except.pure]
    · intro rest
      simp [Codec.decodeItems, hdecode, hdecode', Bind.bind, Except.bind, Pure.pure, Except.pure]

end Codecs
