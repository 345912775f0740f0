import DocGraph.Number.Double
import Mathlib.Order.Monotone.Basic
import Mathlib.Tactic.Ring

namespace DocGraph.Double

/-- The number that a double stands for, in units of `2 ^ -1074`. -/
def signedUnits (value : Double) : Int :=
  if value.negative then -(value.units : Int) else value.units

/-- The total order of finite doubles. -/
def Precedes (left right : Double) : Prop :=
  left.signedUnits < right.signedUnits ∨
    left.signedUnits = right.signedUnits ∧ left.negative = true ∧ right.negative = false

/-- Below the first exponent that scales, magnitudes count units. -/
theorem unitsOf_of_lt {magnitude : Nat} (small : magnitude < 2 * Nat.pow 2 52) :
    unitsOf magnitude = magnitude := by
  have unscaled : magnitude / Nat.pow 2 52 - 1 = 0 := by
    have below := Nat.div_lt_of_lt_mul (Nat.mul_comm 2 _ ▸ small)
    omega
  simp [unitsOf, unscaled]

theorem unitsOf_scaled {exponent fraction : Nat} (fits : fraction < Nat.pow 2 52) :
    unitsOf ((exponent + 1) * Nat.pow 2 52 + fraction) =
      (Nat.pow 2 52 + fraction) * Nat.pow 2 exponent := by
  have scale : ((exponent + 1) * Nat.pow 2 52 + fraction) / Nat.pow 2 52 - 1 = exponent := by
    rw [Nat.mul_comm, Nat.mul_add_div (by decide), Nat.div_eq_of_lt fits]
    rfl
  have rest : (exponent + 1) * Nat.pow 2 52 + fraction - exponent * Nat.pow 2 52 =
      Nat.pow 2 52 + fraction := by
    rw [Nat.succ_mul]
    omega
  simp only [unitsOf, scale, rest]

/-- From one magnitude to the next the units grow, also where the exponent does. -/
theorem unitsOf_lt_succ (magnitude : Nat) : unitsOf magnitude < unitsOf (magnitude + 1) := by
  by_cases small : magnitude < Nat.pow 2 52
  · rw [unitsOf_of_lt (by omega), unitsOf_of_lt (by omega)]
    omega
  · obtain ⟨exponent, scaled⟩ : ∃ exponent, magnitude / Nat.pow 2 52 = exponent + 1 :=
      Nat.exists_eq_add_one.mpr (Nat.div_pos (by omega) (by decide))
    have whole := Nat.div_add_mod' magnitude (Nat.pow 2 52)
    have fits : magnitude % Nat.pow 2 52 < Nat.pow 2 52 := Nat.mod_lt _ (by decide)
    rw [scaled] at whole
    generalize magnitude % Nat.pow 2 52 = fraction at whole fits
    have positive : 0 < Nat.pow 2 exponent := Nat.pow_pos (by decide)
    rw [← whole, unitsOf_scaled fits]
    by_cases last : fraction + 1 < Nat.pow 2 52
    · rw [Nat.add_assoc, unitsOf_scaled last]
      exact Nat.mul_lt_mul_of_pos_right (by omega) positive
    · have carried : (exponent + 1) * Nat.pow 2 52 + fraction + 1 =
          (exponent + 1 + 1) * Nat.pow 2 52 + 0 := by
        have full : fraction + 1 = Nat.pow 2 52 := Nat.le_antisymm fits (Nat.not_lt.mp last)
        rw [Nat.add_assoc, full, Nat.succ_mul (exponent + 1), Nat.add_zero]
      rw [carried, unitsOf_scaled (by decide)]
      have doubled : (Nat.pow 2 52 + 0) * Nat.pow 2 (exponent + 1) =
          (Nat.pow 2 52 + Nat.pow 2 52) * Nat.pow 2 exponent := by
        rw [Nat.pow_eq, Nat.pow_eq, Nat.pow_eq, Nat.pow_succ]
        ring
      rw [doubled]
      exact Nat.mul_lt_mul_of_pos_right (Nat.add_lt_add_left fits _) positive

theorem strictMono_unitsOf : StrictMono unitsOf := strictMono_nat_of_lt_succ unitsOf_lt_succ

theorem orderKey_lt_iff {left right : Double} :
    left.orderKey < right.orderKey ↔ left.Precedes right := by
  obtain ⟨negative, magnitude, _⟩ := left
  obtain ⟨negative', magnitude', _⟩ := right
  have below : magnitude < magnitude' ↔ unitsOf magnitude < unitsOf magnitude' :=
    strictMono_unitsOf.lt_iff_lt.symm
  have above : magnitude' < magnitude ↔ unitsOf magnitude' < unitsOf magnitude :=
    strictMono_unitsOf.lt_iff_lt.symm
  cases negative <;> cases negative' <;> simp [orderKey, Precedes, signedUnits, units] <;> omega

/-- Doubles with one key are the same, the sign of a zero included. -/
theorem orderKey_inj {left right : Double} : left.orderKey = right.orderKey ↔ left = right := by
  obtain ⟨negative, magnitude, _⟩ := left
  obtain ⟨negative', magnitude', _⟩ := right
  cases negative <;> cases negative' <;> simp [orderKey] <;> omega

end DocGraph.Double
