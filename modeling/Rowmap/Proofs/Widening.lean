import Rowmap.Number.Double

/-! A 32-bit float that is widened to 64 bits and narrowed again. No bits are lost: a normal value keeps its
fraction, with zeros behind it, and a subnormal one, which gets a leading one and an exponent of its own,
is divided by what it was multiplied with. So every finite value comes back as it was. -/

namespace Rowmap

theorem roundDiv_zero (d : Nat) : roundDiv 0 d = 0 := by simp [roundDiv]

namespace Single

def zero : Single := ⟨false, 0⟩

def isFinite (x : Single) : Bool := x.magnitude.val < infinity

/-- A subnormal magnitude, shifted until its leading bit stands where the fraction ends. -/
def shifted (m : Nat) : Nat := m * Nat.pow 2 (52 - m.log2)

theorem binade_le_shifted {m : Nat} (h0 : m ≠ 0) (h : m < binade) : Double.binade ≤ shifted m := by
  have hl : m.log2 < 23 := (Nat.log2_lt h0).2 h
  calc Double.binade = Nat.pow 2 (m.log2 + (52 - m.log2)) := by
        have : m.log2 + (52 - m.log2) = 52 := by omega
        rw [this]; rfl
    _ = Nat.pow 2 m.log2 * Nat.pow 2 (52 - m.log2) := Nat.pow_add 2 _ _
    _ ≤ shifted m := Nat.mul_le_mul_right _ (Nat.log2_self_le h0)

theorem shifted_lt {m : Nat} (h0 : m ≠ 0) (h : m < binade) : shifted m < 2 * Double.binade := by
  have hl : m.log2 < 23 := (Nat.log2_lt h0).2 h
  calc shifted m < Nat.pow 2 (m.log2 + 1) * Nat.pow 2 (52 - m.log2) :=
        Nat.mul_lt_mul_of_pos_right Nat.lt_log2_self (Nat.two_pow_pos _)
    _ = Nat.pow 2 (m.log2 + 1 + (52 - m.log2)) := (Nat.pow_add 2 _ _).symm
    _ = 2 * Double.binade := by
        have : m.log2 + 1 + (52 - m.log2) = 53 := by omega
        rw [this]; rfl

theorem widenMagnitude_subnormal {m : Nat} (h0 : m ≠ 0) (h : m < binade) :
    widenMagnitude m = (m.log2 + 873) * Double.binade + shifted m := by
  have hi : ¬ infinity ≤ m := by simp only [infinity, binade] at h ⊢; omega
  rw [widenMagnitude, if_neg hi, if_neg (by omega), if_neg h0, shifted]

theorem widenMagnitude_normal {m : Nat} (h : binade ≤ m) (hi : m < infinity) :
    widenMagnitude m = m * ratio + rebias := by
  rw [widenMagnitude, if_neg (by omega), if_pos h]

theorem widenMagnitude_lt_infinity_iff {m : Nat} : widenMagnitude m < Double.infinity ↔ m < infinity := by
  by_cases hi : infinity ≤ m
  · rw [widenMagnitude, if_pos hi]
    omega
  by_cases hn : binade ≤ m
  · rw [widenMagnitude_normal hn (by omega)]
    simp only [infinity, Double.infinity, ratio, rebias, Double.binade] at *
    omega
  by_cases h0 : m = 0
  · subst h0
    decide
  have hl : m.log2 < 23 := (Nat.log2_lt h0).2 (Nat.not_le.1 hn)
  have hs := shifted_lt h0 (Nat.not_le.1 hn)
  rw [widenMagnitude_subnormal h0 (Nat.not_le.1 hn)]
  simp only [infinity, Double.infinity, binade, Double.binade] at *
  omega

theorem isFinite_toDouble (x : Single) : x.toDouble.isFinite = x.isFinite :=
  decide_eq_decide.2 widenMagnitude_lt_infinity_iff

theorem narrowMagnitude_normal {x : Double} (h : rebias + Double.binade ≤ x.magnitude.val)
    (hi : x.magnitude.val ≤ Double.infinity) :
    narrowMagnitude x = min (roundDiv (x.magnitude.val - rebias) ratio) infinity := by
  rw [narrowMagnitude, if_neg (by omega), if_neg (by omega)]

theorem narrowMagnitude_subnormal {x : Double} (h : x.magnitude.val < rebias + Double.binade) :
    narrowMagnitude x = roundDiv x.significand (Nat.pow 2 (926 - x.magnitude.val / Double.binade)) := by
  have hi : ¬ Double.infinity < x.magnitude.val := by
    simp only [rebias, Double.binade, Double.infinity] at h ⊢; omega
  rw [narrowMagnitude, if_neg hi, if_pos h]

/-- A wide magnitude by exponent and fraction, where the exponent is not zero. -/
theorem significand_of_eq {x : Double} {e f : Nat} (h : x.magnitude.val = (e + 1) * Double.binade + f)
    (hf : f < Double.binade) : x.significand = Double.binade + f := by
  have hle : Double.binade ≤ x.magnitude.val := by
    rw [h, Nat.add_mul]
    omega
  rw [Double.significand, if_neg (by omega), h, Nat.mul_add_mod_self_right,
    Nat.mod_eq_of_lt hf]

theorem narrowMagnitude_toDouble {x : Single} (h : x.magnitude.val < infinity) :
    narrowMagnitude x.toDouble = x.magnitude.val := by
  obtain ⟨s, m, hm⟩ := x
  have hw : (toDouble ⟨s, m, hm⟩).magnitude.val = widenMagnitude m := rfl
  simp only at h ⊢
  by_cases hn : binade ≤ m
  · rw [widenMagnitude_normal hn h] at hw
    have hlo : rebias + Double.binade ≤ (toDouble ⟨s, m, hm⟩).magnitude.val := by
      simp only [hw, binade, ratio, Double.binade] at *; omega
    have hhi : (toDouble ⟨s, m, hm⟩).magnitude.val ≤ Double.infinity := by
      simp only [hw, infinity, ratio, rebias, Double.binade, Double.infinity] at *; omega
    rw [narrowMagnitude_normal hlo hhi, hw, Nat.add_sub_cancel, roundDiv_mul m (by decide)]
    exact Nat.min_eq_left (Nat.le_of_lt h)
  by_cases h0 : m = 0
  · subst h0
    have hz : (toDouble ⟨s, 0, hm⟩).magnitude.val = 0 := rfl
    rw [narrowMagnitude_subnormal (by rw [hz]; decide), Double.significand, hz, if_pos (by decide),
      roundDiv_zero]
  · have hlow := binade_le_shifted h0 (Nat.not_le.1 hn)
    have hhigh := shifted_lt h0 (Nat.not_le.1 hn)
    have hl : m.log2 < 23 := (Nat.log2_lt h0).2 (Nat.not_le.1 hn)
    rw [widenMagnitude_subnormal h0 (Nat.not_le.1 hn)] at hw
    -- the leading one of the shifted magnitude counts as one more of the exponent
    have hexp : (toDouble ⟨s, m, hm⟩).magnitude.val =
        (m.log2 + 873 + 1) * Double.binade + (shifted m - Double.binade) := by
      rw [hw, Nat.add_mul (m.log2 + 873) 1]
      omega
    have hsig := significand_of_eq hexp (by omega)
    have hdiv : (toDouble ⟨s, m, hm⟩).magnitude.val / Double.binade = m.log2 + 874 := by
      rw [hw]
      simp only [Double.binade] at *
      omega
    have hsub : (toDouble ⟨s, m, hm⟩).magnitude.val < rebias + Double.binade := by
      rw [hw]
      simp only [rebias, Double.binade] at *
      omega
    have hk : 926 - (m.log2 + 874) = 52 - m.log2 := by omega
    rw [narrowMagnitude_subnormal hsub, hsig, hdiv, hk, Nat.add_sub_cancel' hlow]
    exact roundDiv_mul m (Nat.two_pow_pos _)

theorem ofDouble_toDouble {x : Single} (h : x.isFinite = true) : ofDouble x.toDouble = x := by
  have hm := narrowMagnitude_toDouble (of_decide_eq_true h)
  simp only [ofDouble, hm]
  rfl

theorem ofDouble_zero : ofDouble .zero = zero := by
  have hz : Double.zero = toDouble zero := rfl
  rw [hz, ofDouble_toDouble rfl]

end Single
end Rowmap
