import Rowmap.Database.Selection

/-! Integers that are too wide for a word. A database rounds one that is bound to it in a single step; one that is
written in a text it takes in digit by digit, by way of a significand of 64 bits and a power of ten. Up to 64 bits
without a sign both come to the same float, although the last few of them have a digit more than is taken in. -/

namespace Rowmap

namespace Decimal

theorem le_natOf (m : Nat) (ds : List Char) : m ≤ natOf m ds := by
  induction ds generalizing m with
  | nil => exact Nat.le_refl m
  | cons c ds ih =>
    have hrest : 10 * m + (c.toNat - 48) ≤ natOf m (c :: ds) := ih _
    omega

/-- Short of the last digit that can be taken in, none is left out. -/
theorem foldl_takeWhole {m : Nat} {ds : List Char} (h : natOf m ds < 10 * full) :
    ds.foldl takeWhole ⟨m, 0⟩ = ⟨natOf m ds, 0⟩ := by
  induction ds generalizing m with
  | nil => rfl
  | cons c ds ih =>
    have hrest : 10 * m + (c.toNat - 48) ≤ natOf m (c :: ds) := le_natOf _ ds
    have hm : m < full := by omega
    rw [List.foldl_cons, takeWhole, if_pos hm]
    exact ih h

theorem toDouble_whole {n : Nat} (hn : n ≠ 0) (negative : Bool) :
    toDouble negative ⟨n, 0⟩ = (Extended.ofNat n 0).toDouble negative := by
  have hexpand : expand 20 ⟨n, 0⟩ = ⟨n, 0⟩ := rfl
  have hreduce : reduce 20 ⟨n, 0⟩ = ⟨n, 0⟩ := rfl
  simp only [toDouble, if_neg hn, hexpand, hreduce]
  rfl

end Decimal

namespace Double

theorem log2_wide {n : Nat} (hl : 0x8000000000000000 ≤ n) (hg : n < 0x10000000000000000) : n.log2 = 63 := by
  have hne : n ≠ 0 := by omega
  have hlt : n.log2 < 64 := (Nat.log2_lt hne).2 hg
  have hle : 63 ≤ n.log2 := (Nat.le_log2 hne).2 hl
  omega

theorem ratioMagnitude_one {n : Nat} (hl : 0x8000000000000000 ≤ n) (hg : n < 0x10000000000000000) :
    ratioMagnitude n 1 = natMagnitude n := by
  have hlog := log2_wide hl hg
  have hone : Nat.log2 1 = 0 := by decide
  have hbelow : ¬ n * Nat.pow 2 (-((63 : Nat) - (0 : Nat) : Int)).toNat <
      1 * Nat.pow 2 ((63 : Nat) - (0 : Nat) : Int).toNat := by
    show ¬ n * 1 < 1 * 0x8000000000000000
    omega
  have hunit : max (((63 : Nat) - (0 : Nat) : Int) - 52) (-1074) = 11 := by decide
  rw [ratioMagnitude, if_neg (by omega), natMagnitude, if_neg (by omega), if_neg (by omega)]
  simp only [hlog, hone, if_neg hbelow, hunit]
  show _ + roundDiv (n * 1) (1 * 2048) = _ + roundDiv n 2048
  rw [Nat.mul_one]
  rfl

end Double

namespace Extended

theorem toDouble_wide {n : Nat} (hl : 0x8000000000000000 ≤ n) (hg : n < 0x10000000000000000) :
    (ofNat n 0).toDouble false = .ofInt n := by
  have hlog := Double.log2_wide hl hg
  have hof : ofNat n 0 = ⟨n, 0⟩ := by
    rw [ofNat, if_pos (by omega), hlog]
    exact congrArg (Extended.mk · 0) (Nat.mul_one n)
  have hfinite : greatest.lt ⟨n, 0⟩ = false := by
    have hexponent : greatest.exponent = 960 := by decide +kernel
    simp [lt, hexponent]
  have hratio : Double.ratioMagnitude (n * Nat.pow 2 0) (Nat.pow 2 0) = Double.natMagnitude n := by
    rw [← Double.ratioMagnitude_one hl hg]
    exact congrArg (Double.ratioMagnitude · 1) (Nat.mul_one n)
  have hsign : decide ((n : Int) < 0) = false := decide_eq_false (by omega)
  rw [hof, toDouble, hfinite, Double.ofInt, hsign, Int.natAbs_natCast]
  exact congrArg (Double.ofMagnitude false) hratio

end Extended

namespace Numeral

theorem ofInt_word {n : Int} (h : fitsWord n = true) : ofInt n = .integer n := by
  have hsign : (if n < 0 then -(n.natAbs : Int) else n.natAbs) = n := by split <;> omega
  simp only [ofInt, ofDigits, Decimal.natOf_natText, decide_eq_true_eq, hsign, h, if_true]

/-- The numbers whose last digit is left out. -/
theorem ofDigits_last : ∀ i < 16,
    Parts.toDouble ⟨false, Decimal.natText (18446744073709551600 + i), [], 0⟩ =
      .ofInt (18446744073709551600 + i : Nat) := by
  decide +kernel

theorem toDouble_wide {n : Nat} (hl : 0x8000000000000000 ≤ n) (hg : n < 0x10000000000000000) :
    Parts.toDouble ⟨false, Decimal.natText n, [], 0⟩ = .ofInt n := by
  by_cases hlast : n < 10 * Decimal.full
  · have hall : (Decimal.natText n).foldl Decimal.takeWhole ⟨0, 0⟩ = ⟨n, 0⟩ := by
      rw [Decimal.foldl_takeWhole (by rwa [Decimal.natOf_natText]), Decimal.natOf_natText]
    have hne : n ≠ 0 := by omega
    simp only [Parts.toDouble, List.foldl_nil, hall]
    exact (Decimal.toDouble_whole hne false).trans (Extended.toDouble_wide hl hg)
  · have hfull : 18446744073709551600 ≤ n := by
      simp only [Decimal.full] at hlast
      omega
    have hlt : n - 18446744073709551600 < 16 := by omega
    have heq : 18446744073709551600 + (n - 18446744073709551600) = n := by omega
    have hvalue := ofDigits_last _ hlt
    rwa [heq] at hvalue

theorem ofInt_wide {n : Int} (hl : 0x8000000000000000 ≤ n) (hg : n < 0x10000000000000000) :
    ofInt n = .real (.ofInt n) := by
  have hword : fitsWord n = false := by simp [fitsWord]; omega
  have hsign : decide (n < 0) = false := decide_eq_false (by omega)
  have habs : (n.natAbs : Int) = n := by omega
  have hvalue := toDouble_wide (n := n.natAbs) (by omega) (by omega)
  rw [habs] at hvalue
  simp only [ofInt, ofDigits, Decimal.natOf_natText, hsign, habs, hword, hvalue, Bool.false_eq_true, if_false]

end Numeral

/-- An integer of 64 bits, with a sign or without one, is the same written as bound. -/
theorem Operand.cell_integer {n : Int} (hl : -0x8000000000000000 ≤ n) (hg : n < 0x10000000000000000) :
    (Operand.integer n).cell = Cell.ofValue (.integer n) := by
  cases hw : fitsWord n with
  | true => simp only [cell, Numeral.ofInt_word hw, Cell.ofValue, hw, if_true]
  | false =>
    have hwide : 0x8000000000000000 ≤ n := by
      simp only [fitsWord, Bool.and_eq_false_iff, decide_eq_false_iff_not] at hw
      omega
    simp only [cell, Numeral.ofInt_wide hwide hg, Cell.ofValue, hw, Bool.false_eq_true, if_false]

end Rowmap
