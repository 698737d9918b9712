import Mathlib.Algebra.Group.Basic
import Mathlib.Algebra.Group.Prod
import Mathlib.Tactic.Abel

/-!
# Bits that are mixed with two others

Bits indexed by a commutative group, where every bit is added to the bits at two distances.
Mixing twice doubles both distances, as the mixed terms cancel, and this is how mixing can be
undone when the distances have finite order.
-/

namespace Mixing

variable {G : Type} [AddCommGroup G]

/-- Add the bits at two distances to every bit. -/
def mix (u v : G) (c : G → Bool) : G → Bool := fun p => c p ^^ (c (p + u) ^^ c (p + v))

/-- Mixing twice doubles the distances. -/
theorem mix_mix (u v : G) (c : G → Bool) : mix u v (mix u v c) = mix (2 • u) (2 • v) c := by
  funext p
  have huu : p + u + u = p + 2 • u := by abel
  have hvv : p + v + v = p + 2 • v := by abel
  have hcross : p + v + u = p + u + v := by abel
  simp only [mix, huu, hvv, hcross]
  generalize c p = a, c (p + u) = b, c (p + v) = d, c (p + 2 • u) = e, c (p + 2 • v) = f,
    c (p + u + v) = g
  revert a b d e f g
  decide

/-- Mixing a power of two times multiplies the distances. -/
theorem mix_iterate (u v : G) (k : ℕ) (c : G → Bool) :
    (mix u v)^[2 ^ k] c = mix (2 ^ k • u) (2 ^ k • v) c := by
  induction k generalizing u v with
  | zero => rw [pow_zero, one_nsmul, one_nsmul, Function.iterate_one]
  | succ k ih =>
    have htwice : (mix u v)^[2] = mix (2 • u) (2 • v) := funext (mix_mix u v)
    rw [Nat.pow_succ', Function.iterate_mul, htwice, ih, mul_comm, mul_nsmul', mul_nsmul']

/-- At a distance of order five and its opposite, mixing three times changes nothing. -/
theorem mix_three {w : G} (hw : 5 • w = 0) (c : G → Bool) :
    (mix w (4 • w))^[3] c = c := by
  have h1 : 4 • w + 2 • w = w := by
    calc 4 • w + 2 • w = w + 5 • w := by abel
      _ = w := by rw [hw, add_zero]
  have h2 : 4 • w + 2 • 4 • w = 2 • w := by
    calc 4 • w + 2 • 4 • w = 2 • w + (5 • w + 5 • w) := by abel
      _ = 2 • w := by rw [hw, add_zero, add_zero]
  have h3 : 2 • 4 • w = 3 • w := by
    calc 2 • 4 • w = 3 • w + 5 • w := by abel
      _ = 3 • w := by rw [hw, add_zero]
  have h4 : w + 2 • 4 • w = 4 • w := by
    calc w + 2 • 4 • w = 4 • w + 5 • w := by abel
      _ = 4 • w := by rw [hw, add_zero]
  have h5 : w + 2 • w = 3 • w := by abel
  have hiter : (mix w (4 • w))^[3] c = mix w (4 • w) (mix (2 • w) (2 • 4 • w) c) := by
    rw [← mix_mix]
    rfl
  rw [hiter]
  funext p
  simp only [mix, add_assoc, h1, h2, h4, h5]
  rw [h3]
  generalize c p = a, c (p + w) = b, c (p + 2 • w) = d, c (p + 3 • w) = e, c (p + 4 • w) = f
  revert a b d e f
  decide

/-- Mixing at distances that a power of two turns into a distance of order five and its opposite
loses nothing. -/
theorem mix_injective {u v w : G} {k : ℕ} (hu : 2 ^ k • u = w) (hv : 2 ^ k • v = 4 • w)
    (hw : 5 • w = 0) : Function.Injective (mix u v) := by
  have hback : Function.LeftInverse (mix u v)^[2 ^ k * 3 - 1] (mix u v) := by
    intro c
    have hpos : 0 < 2 ^ k := Nat.two_pow_pos k
    have hsucc : (2 ^ k * 3 - 1).succ = 2 ^ k * 3 := by omega
    rw [← Function.iterate_succ_apply, hsucc, Function.iterate_mul, funext (mix_iterate u v k), hu,
      hv, mix_three hw]
  exact hback.injective

end Mixing
