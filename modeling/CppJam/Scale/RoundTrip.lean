import CppJam.Scale.ConfigVec

/-!
# Reading back sequences of a configured length

`config-types.hpp` writes no length for a `ConfigVec`, so the decoder has to know from the
constants how many items follow. It reads back every value whose sequences have their
configured sizes, at every level of nesting, and takes nothing of what follows.
-/

namespace CppJam.Scale

open Bytes Checks Codecs

variable {Code S T : Type} {config : Config}

/-- A 32-bit constant never asks for the form with a length in front. -/
theorem configSize_ne_sizeMax (field : Config → UInt32) (config : Config) :
    configSize field config ≠ sizeMax := by
  intro hmax
  have hvalue := congrArg UInt64.toNat hmax
  have hmaxValue : sizeMax.toNat = 18446744073709551615 := rfl
  have hlt := (field config).toNat_lt
  rw [configSize, UInt32.toNat_toUInt64] at hvalue
  omega

/-- The configured size of a sequence. -/
theorem toNat_configSize (field : Config → UInt32) (config : Config) :
    (configSize field config).toNat = (field config).toNat :=
  UInt32.toNat_toUInt64 _

/-- A sequence of the configured length is read back when its items are. -/
theorem configVec_readsBack (field : Config → UInt32) {item : ScaleCodec Code T}
    {vector : ScaleCodec Code (List T)} {v : List T}
    (hsize : v.length = (field config).toNat) (hitems : ∀ x ∈ v, item.ReadsBack config x) :
    (configVec field item vector).ReadsBack config v := by
  have hmax : ¬configSize field config = sizeMax := configSize_ne_sizeMax field config
  have hlength : v.length = (configSize field config).toNat := by
    rw [hsize, toNat_configSize]
  obtain ⟨bytes, hencode, hdecode⟩ := Codec.ReadsBack.items hitems
  refine ⟨bytes, ?_, ?_⟩
  · simp only [configVec, if_neg hmax]
    simp [failIf, hlength, hencode, Bind.bind, Except.bind]
  · intro rest
    simp only [configVec, if_neg hmax]
    rw [← hlength, hdecode]

/-- The codecs that are built from sequences of a configured length over codecs that read
every value back, with the values whose sequences all have their configured sizes. -/
inductive Nested (config : Config) : {T : Type} → ScaleCodec Code T → (T → Prop) → Prop
  | item {T : Type} {c : ScaleCodec Code T} (hc : ∀ v, c.ReadsBack config v) :
      Nested config c (fun _ => True)
  | fields {S T : Type} {c : ScaleCodec Code S} {d : ScaleCodec Code T} {P : S → Prop}
      {Q : T → Prop} (hc : Nested config c P) (hd : Nested config d Q) :
      Nested config (c.pair d) (fun v => P v.1 ∧ Q v.2)
  | record {S T : Type} {c : ScaleCodec Code S} {P : S → Prop} (hc : Nested config c P)
      (e : S ≃ T) : Nested config (c.rename e) (fun v => P (e.symm v))
  | configVec {T : Type} (field : Config → UInt32) {item : ScaleCodec Code T} {P : T → Prop}
      (vector : ScaleCodec Code (List T)) (hitem : Nested config item P) :
      Nested config (configVec field item vector)
        (fun v => v.length = (field config).toNat ∧ ∀ x ∈ v, P x)

/-- Every value with the configured sizes is read back. -/
theorem Nested.readsBack {c : ScaleCodec Code T} {P : T → Prop} (hc : Nested config c P) :
    ∀ v, P v → c.ReadsBack config v := by
  induction hc with
  | item hc => exact fun v _ => hc v
  | fields _ _ ihc ihd => exact fun v hv => (ihc v.1 hv.1).pair (ihd v.2 hv.2)
  | record _ e ihc => exact fun v hv => (ihc (e.symm v) hv).rename
  | configVec field vector _ ihitem =>
    exact fun v hv => configVec_readsBack field hv.1 fun x hx => ihitem x (hv.2 x hx)

/-- **Round trip.** A sequence whose size is the configured one, and whose items have their
configured sizes too, is encoded, and the decoder with the same constants takes it from the
front of every byte string that starts with its encoding and leaves exactly what follows. -/
theorem configVec_roundTrip (field : Config → UInt32) {item : ScaleCodec Code T} {P : T → Prop}
    (vector : ScaleCodec Code (List T)) (hitem : Nested config item P) {v : List T}
    (hsize : v.length = (field config).toNat) (hitems : ∀ x ∈ v, P x) :
    ∃ bytes, (configVec field item vector).encode config v = .ok bytes ∧
      encodeWithConfig (configVec field item vector) v config = .ok (.ok bytes) ∧
      ∀ rest, (configVec field item vector).decode config (bytes ++ rest) = .ok (v, rest) ∧
        decodeWithConfig (configVec field item vector) (bytes ++ rest) config = .ok (.ok v) := by
  have hnested := Nested.configVec field vector hitem
  obtain ⟨bytes, hencode, hdecode⟩ := hnested.readsBack v ⟨hsize, hitems⟩
  refine ⟨bytes, hencode, caught_eq_ok.mpr hencode, ?_⟩
  intro rest
  exact ⟨hdecode rest, decodeWithConfig_eq_ok.mpr ⟨rest, hdecode rest⟩⟩

namespace Scenario

/-- The codec of one octet reads every octet back. -/
theorem octet_readsBack (config : Config) (v : Byte) : octet.ReadsBack config v :=
  ⟨[v], rfl, fun _ => rfl⟩

/-- The library's codec of vectors, which is not reached. -/
def unreached (T : Type) : ScaleCodec Unit (List T) :=
  ⟨fun _ _ => .error (.systemError ()), fun _ _ => .error (.systemError ())⟩

/-- Three octets for each core. -/
def threePerCore : ScaleCodec Unit (List (List Byte)) :=
  configVec Config.coresCount (configVec Config.ticketsPerValidator octet (unreached Byte))
    (unreached (List Byte))

end Scenario

/-- Three octets for each of two cores are read back, and an octet behind them is left. -/
theorem configVec_roundTrip_threePerCore :
    ∃ bytes, Scenario.threePerCore.encode Scenario.config [[1, 2, 3], [4, 5, 6]] = .ok bytes ∧
      encodeWithConfig Scenario.threePerCore [[1, 2, 3], [4, 5, 6]] Scenario.config =
        .ok (.ok bytes) ∧
      ∀ rest, Scenario.threePerCore.decode Scenario.config (bytes ++ rest) =
          .ok ([[1, 2, 3], [4, 5, 6]], rest) ∧
        decodeWithConfig Scenario.threePerCore (bytes ++ rest) Scenario.config =
          .ok (.ok [[1, 2, 3], [4, 5, 6]]) :=
  configVec_roundTrip Config.coresCount (Scenario.unreached (List Byte))
    (.configVec Config.ticketsPerValidator (Scenario.unreached Byte)
      (.item (Scenario.octet_readsBack Scenario.config)))
    (v := [[1, 2, 3], [4, 5, 6]]) rfl
    (List.forall_mem_cons.mpr
      ⟨⟨rfl, fun _ _ => trivial⟩, List.forall_mem_singleton.mpr ⟨rfl, fun _ _ => trivial⟩⟩)

end CppJam.Scale
