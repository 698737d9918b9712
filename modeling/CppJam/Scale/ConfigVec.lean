import CppJam.Codecs
import CppJam.Types

/-!
# Encoding and decoding with a configuration

`jam_scale.hpp` and `config-types.hpp`: the two entry points that run an encoder or
a decoder over a byte string, and `ConfigVec`, a sequence whose length is a protocol
constant and is not written. The codecs of the SCALE library and of the generated
records are assumed to invert; every type built from them then inverts too. The
entry point for decoding does not ask whether bytes are left over, so a value
encodes to the part of the input that was read.
-/

namespace CppJam.Scale

open Bytes Checks Codecs

/-- How an encoder or a decoder is left early. -/
inductive Thrown (Code : Type) where
  /-- `std::system_error`, which the entry points turn into a failure. -/
  | systemError (code : Code)
  /-- Anything else, which leaves the entry points too. -/
  | abort (cause : Abort)

/-- A codec for values of type `T` with access to the protocol constants. -/
abbrev ScaleCodec (Code T : Type) := Codec Config Byte (Thrown Code) T

variable {Code S T : Type}

/-- What the entry points return for what their `try` block computes. -/
def caught {α : Type} : Except (Thrown Code) α → Except Abort (Except Code α)
  | .ok value => .ok (.ok value)
  | .error (.systemError code) => .ok (.error code)
  | .error (.abort cause) => .error cause

/-- `encode_with_config`. -/
def encodeWithConfig (c : ScaleCodec Code T) (value : T) (config : Config) :
    Except Abort (Except Code (List Byte)) :=
  caught (c.encode config value)

/-- `decode_with_config`: what the decoder leaves unread is dropped. -/
def decodeWithConfig (c : ScaleCodec Code T) (bytes : List Byte) (config : Config) :
    Except Abort (Except Code T) :=
  caught (Prod.fst <$> c.decode config bytes)

/-- The entry points succeed when their `try` block does. -/
@[simp] theorem caught_eq_ok {α : Type} {x : Except (Thrown Code) α} {value : α} :
    caught x = .ok (.ok value) ↔ x = .ok value := by
  match x with
  | .ok _ => simp [caught]
  | .error (.systemError _) => simp [caught]
  | .error (.abort _) => simp [caught]

/-- `ConfigVec::configSize`: a 32-bit protocol constant as a `size_t`. -/
def configSize (field : Config → UInt32) (config : Config) : UInt64 := (field config).toUInt64

/-- `std::numeric_limits<size_t>::max()`. -/
def sizeMax : UInt64 := 18446744073709551615

/-- `encode` and `decode` of `ConfigVec<T, ConfigField>`, with the codec of the items
and the library's codec of `std::vector<T>`. -/
def configVec (field : Config → UInt32) (item : ScaleCodec Code T)
    (vector : ScaleCodec Code (List T)) : ScaleCodec Code (List T) where
  encode config v :=
    if configSize field config = sizeMax then vector.encode config v
    else do
      failIf (v.length ≠ (configSize field config).toNat) (.abort .assertion)
      item.encodeItems config v
  decode config stream :=
    if configSize field config = sizeMax then vector.decode config stream
    else item.decodeItems config (configSize field config).toNat stream

/-- A sequence of a configured length inverts when its items and the library's
vectors do: what was read has the length that the encoder asserts. -/
theorem configVec_inverts (field : Config → UInt32) {item : ScaleCodec Code T}
    {vector : ScaleCodec Code (List T)} (hitem : item.Inverts) (hvector : vector.Inverts) :
    (configVec field item vector).Inverts := by
  intro config stream v rest hdecode
  simp only [configVec] at hdecode ⊢
  split_ifs at hdecode ⊢ with hmax
  · exact hvector config stream v rest hdecode
  · obtain ⟨hlength, taken, hencode, htaken⟩ := hitem.items hdecode
    refine ⟨taken, ?_, htaken⟩
    simp [failIf, hlength, hencode, Bind.bind, Except.bind]

/-- The codecs of the types of the test vectors: the inverting codecs of the library
and of the generated enumerations, choices and optional values, records of fields in
sequence, and sequences of a configured length. -/
inductive Built : {T : Type} → ScaleCodec Code T → Prop
  | library {T : Type} {c : ScaleCodec Code T} (hc : c.Inverts) : Built c
  | fields {S T : Type} {c : ScaleCodec Code S} {d : ScaleCodec Code T} (hc : Built c)
      (hd : Built d) : Built (c.pair d)
  | record {S T : Type} {c : ScaleCodec Code S} (hc : Built c) (e : S ≃ T) : Built (c.rename e)
  | configVec {T : Type} (field : Config → UInt32) {item : ScaleCodec Code T}
      {vector : ScaleCodec Code (List T)} (hitem : Built item) (hvector : Built vector) :
      Built (configVec field item vector)

/-- Every built codec inverts. -/
theorem Built.inverts {c : ScaleCodec Code T} (hc : Built c) : c.Inverts := by
  induction hc with
  | library hc => exact hc
  | fields _ _ ihc ihd => exact ihc.pair ihd
  | record _ e ihc => exact ihc.rename e
  | configVec field _ _ ihitem ihvector => exact configVec_inverts field ihitem ihvector

/-- Decoding succeeds when the decoder reads a value from the front of the input. -/
theorem decodeWithConfig_eq_ok {c : ScaleCodec Code T} {bytes : List Byte} {config : Config}
    {v : T} : decodeWithConfig c bytes config = .ok (.ok v) ↔
      ∃ rest, c.decode config bytes = .ok (v, rest) := by
  simp [decodeWithConfig]

/-- A decoded value encodes to the bytes that the decoder read. -/
theorem encodeWithConfig_of_decode {c : ScaleCodec Code T} (hc : Built c) {config : Config}
    {bytes rest : List Byte} {v : T} (hdecode : c.decode config bytes = .ok (v, rest)) :
    ∃ taken, encodeWithConfig c v config = .ok (.ok taken) ∧ taken ++ rest = bytes := by
  obtain ⟨taken, hencode, htaken⟩ := hc.inverts config bytes v rest hdecode
  exact ⟨taken, caught_eq_ok.mpr hencode, htaken⟩

/-- A value decoded from a byte string encodes to the part of the string that was
read: to the whole string exactly when nothing was left over, and to the front of
every other string that decodes to the same value. -/
theorem decodeWithConfig_reencode {c : ScaleCodec Code T} (hc : Built c) {config : Config}
    {bytes : List Byte} {v : T} (hdecode : decodeWithConfig c bytes config = .ok (.ok v)) :
    ∃ taken rest, c.decode config bytes = .ok (v, rest) ∧
      encodeWithConfig c v config = .ok (.ok taken) ∧ taken ++ rest = bytes ∧
      (taken = bytes ↔ rest = []) ∧
      ∀ bytes', decodeWithConfig c bytes' config = .ok (.ok v) → taken <+: bytes' := by
  obtain ⟨rest, hread⟩ := decodeWithConfig_eq_ok.mp hdecode
  obtain ⟨taken, hencode, htaken⟩ := encodeWithConfig_of_decode hc hread
  refine ⟨taken, rest, hread, hencode, htaken, ?_, ?_⟩
  · rw [← htaken, List.self_eq_append_right]
  · intro bytes' hdecode'
    obtain ⟨rest', hread'⟩ := decodeWithConfig_eq_ok.mp hdecode'
    obtain ⟨taken', hencode', htaken'⟩ := encodeWithConfig_of_decode hc hread'
    rw [hencode] at hencode'
    cases hencode'
    exact ⟨rest', htaken'⟩

namespace Scenario

/-- Constants of a network with two cores. -/
def config : Config := ⟨6, 5, 12, 3, 2, 8, 80⟩

/-- The library's codec of one octet; an empty stream is an error. -/
def octet : ScaleCodec Unit Byte where
  encode _ v := .ok [v]
  decode
    | _, [] => .error (.systemError ())
    | _, b :: stream => .ok (b, stream)

/-- The codec of one octet inverts. -/
theorem octet_inverts : octet.Inverts := by
  intro config stream v rest hdecode
  cases stream with
  | nil => cases hdecode
  | cons b stream =>
    cases hdecode
    exact ⟨[v], rfl, rfl⟩

/-- One octet for each core. The codec of vectors is not reached, since the number
of cores is not `sizeMax`. -/
def perCore : ScaleCodec Unit (List Byte) :=
  configVec Config.coresCount octet ⟨fun _ _ => .error (.systemError ()),
    fun _ _ => .error (.systemError ())⟩

/-- One octet for each core is a built codec. -/
theorem perCore_built : Built perCore :=
  .configVec _ (.library octet_inverts) (.library fun _ _ _ _ hdecode => nomatch hdecode)

end Scenario

/-- Two octets for two cores are read back whole. -/
theorem decodeWithConfig_reencode_perCore :
    ∃ taken rest, Scenario.perCore.decode Scenario.config [1, 2] = .ok ([1, 2], rest) ∧
      encodeWithConfig Scenario.perCore [1, 2] Scenario.config = .ok (.ok taken) ∧
      taken ++ rest = [1, 2] ∧ (taken = [1, 2] ↔ rest = []) ∧
      ∀ bytes', decodeWithConfig Scenario.perCore bytes' Scenario.config = .ok (.ok [1, 2]) →
        taken <+: bytes' :=
  decodeWithConfig_reencode Scenario.perCore_built rfl

/-- A third octet is ignored: two different byte strings decode to one value, and
the longer one is not its encoding. -/
theorem decodeWithConfig_trailing_octet :
    Built Scenario.perCore ∧
      decodeWithConfig Scenario.perCore [1, 2, 3] Scenario.config = .ok (.ok [1, 2]) ∧
      decodeWithConfig Scenario.perCore [1, 2] Scenario.config = .ok (.ok [1, 2]) ∧
      encodeWithConfig Scenario.perCore [1, 2] Scenario.config ≠ .ok (.ok [1, 2, 3]) :=
  ⟨Scenario.perCore_built, rfl, rfl, by decide⟩

end CppJam.Scale
