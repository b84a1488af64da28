/-! Floating-point numbers in the two widths of IEEE 754, kept as a sign and a magnitude.

The magnitude is the exponent field followed by the fraction field, read as one number. The order
of the magnitudes is the order of the values, and a carry out of the fraction lands in the exponent
by itself, so rounding is a single division. All arithmetic is on naturals and exact. -/

namespace Rowmap

/-- The quotient of two naturals, to the nearest, an exact tie to the even neighbour. -/
def roundDiv (n d : Nat) : Nat :=
  let q := n / d
  let r := n % d
  if 2 * r < d then q else if d < 2 * r then q + 1 else q + q % 2

theorem roundDiv_mul {d : Nat} (n : Nat) (h : 0 < d) : roundDiv (n * d) d = n := by
  simp [roundDiv, h]

/-- The remainder decides: less than half is dropped, more counts as one, and half goes to the even side. -/
theorem roundDiv_cases (n d : Nat) :
    (2 * (n % d) < d ∧ roundDiv n d = n / d) ∨ (d < 2 * (n % d) ∧ roundDiv n d = n / d + 1) ∨
      (2 * (n % d) = d ∧ roundDiv n d = n / d + n / d % 2) := by
  simp only [roundDiv]
  split
  · next h => exact Or.inl ⟨h, rfl⟩
  · split
    · next h => exact Or.inr (Or.inl ⟨h, rfl⟩)
    · exact Or.inr (Or.inr ⟨by omega, rfl⟩)

theorem roundDiv_le {n d b : Nat} (h : n ≤ b * d) : roundDiv n d ≤ b + 1 := by
  have hq : n / d ≤ b := by
    rcases Nat.eq_zero_or_pos d with rfl | hd
    · rw [Nat.div_zero]
      exact Nat.zero_le b
    · exact Nat.div_le_of_le_mul (by rwa [Nat.mul_comm])
  rcases roundDiv_cases n d with ⟨-, hr⟩ | ⟨-, hr⟩ | ⟨-, hr⟩ <;> omega

structure Double where
  negative : Bool
  magnitude : Fin 0x8000000000000000
deriving DecidableEq, Repr

structure Single where
  negative : Bool
  magnitude : Fin 0x80000000
deriving DecidableEq, Repr

namespace Double

/-- How many magnitudes share an exponent: two to the power 52. -/
def binade : Nat := 0x10000000000000

/-- The magnitude of infinity; those above it are not numbers. -/
def infinity : Nat := 0x7FF0000000000000

def ofMagnitude (negative : Bool) (m : Nat) : Double :=
  ⟨negative, ⟨min m infinity, by simp only [infinity]; omega⟩⟩

def zero : Double := ⟨false, 0⟩

def isFinite (x : Double) : Bool := x.magnitude.val < infinity

def isZero (x : Double) : Bool := x.magnitude.val = 0

def ofBits (b : UInt64) : Double where
  negative := 0x8000000000000000 ≤ b.toNat
  magnitude := ⟨b.toNat % 0x8000000000000000, Nat.mod_lt _ (by decide)⟩

def toBits (x : Double) : UInt64 :=
  UInt64.ofNat ((if x.negative then 0x8000000000000000 else 0) + x.magnitude.val)

/-- The significand of a finite value: its absolute value is this times two to `scale`. -/
def significand (x : Double) : Nat :=
  if x.magnitude.val < binade then x.magnitude.val else binade + x.magnitude.val % binade

def scale (x : Double) : Int :=
  if x.magnitude.val < binade then -1074 else (x.magnitude.val / binade : Nat) - 1075

def natMagnitude (n : Nat) : Nat :=
  if n = 0 then 0
  else if n.log2 ≤ 52 then (1022 + n.log2) * binade + n * Nat.pow 2 (52 - n.log2)
  else (1022 + n.log2) * binade + roundDiv n (Nat.pow 2 (n.log2 - 52))

def ofInt (n : Int) : Double := ofMagnitude (n < 0) (natMagnitude n.natAbs)

def ratioMagnitude (num den : Nat) : Nat :=
  if num = 0 ∨ den = 0 then 0
  else
    -- the exponent of the leading bit, or one more
    let e : Int := (num.log2 : Int) - den.log2
    let e := if num * Nat.pow 2 (-e).toNat < den * Nat.pow 2 e.toNat then e - 1 else e
    -- one unit of the last place is two to `u`; subnormal values share the last unit
    let u : Int := max (e - 52) (-1074)
    (u + 1074).toNat * binade + roundDiv (num * Nat.pow 2 (-u).toNat) (den * Nat.pow 2 u.toNat)

def ratio (x : Double) : Nat × Nat :=
  (x.significand * Nat.pow 2 x.scale.toNat, Nat.pow 2 (-x.scale).toNat)

def toInt? (x : Double) : Option Int :=
  if x.isFinite ∧ x.ratio.1 % x.ratio.2 = 0 then
    some (if x.negative then -(x.ratio.1 / x.ratio.2 : Nat) else (x.ratio.1 / x.ratio.2 : Nat))
  else none

/-- The order of two values that are numbers; the two zeros are equal. -/
def order (x y : Double) : Ordering :=
  let signed (z : Double) : Int := if z.negative then -z.magnitude.val else z.magnitude.val
  compare (signed x) (signed y)

def orderInt (n : Int) (x : Double) : Ordering :=
  if x.isFinite then
    compare (n * x.ratio.2) (if x.negative then -(x.ratio.1 : Int) else x.ratio.1)
  else if x.negative then .gt else .lt

theorem isFinite_ofMagnitude {s : Bool} {m : Nat} :
    (ofMagnitude s m).isFinite = decide (m < infinity) := by
  simp only [isFinite, ofMagnitude]
  exact decide_eq_decide.2 (by omega)

end Double

abbrev FiniteDouble : Type := { x : Double // x.isFinite = true }

namespace Single

/-- How many magnitudes share an exponent: two to the power 23. -/
def binade : Nat := 0x800000

def infinity : Nat := 0x7F800000

/-- The mark of the values that are not numbers and raise no signal. -/
def quiet : Nat := 0x400000

def ratio : Nat := 0x20000000

/-- The distance between the exponents of the two widths, in place in a 64-bit magnitude. -/
def rebias : Nat := 896 * Double.binade

/-- The magnitude of the nearest 32-bit value. What is not a number keeps its leading bits. -/
def narrowMagnitude (x : Double) : Nat :=
  let m := x.magnitude.val
  if Double.infinity < m then infinity + ((m % Double.binade / ratio) ||| quiet)
  else if m < rebias + Double.binade then
    roundDiv x.significand (Nat.pow 2 (926 - m / Double.binade))
  else min (roundDiv (m - rebias) ratio) infinity

theorem significand_lt (x : Double) : x.significand < 2 * Double.binade := by
  unfold Double.significand
  by_cases h : x.magnitude.val < Double.binade
  · rw [if_pos h]; omega
  · rw [if_neg h]
    have := Nat.mod_lt x.magnitude.val (show 0 < Double.binade by decide)
    omega

/-- What is rounded to the last unit of the subnormal values goes no further than the first normal ones. -/
theorem roundDiv_significand_le {x : Double} (h : x.magnitude.val < rebias + Double.binade) :
    roundDiv x.significand (Nat.pow 2 (926 - x.magnitude.val / Double.binade)) ≤ binade + 1 := by
  have hs := significand_lt x
  have he : 30 ≤ 926 - x.magnitude.val / Double.binade := by
    simp only [rebias, Double.binade] at h ⊢; omega
  have hk : 0x40000000 ≤ Nat.pow 2 (926 - x.magnitude.val / Double.binade) :=
    Nat.pow_le_pow_right (n := 2) (by decide) he
  apply roundDiv_le
  calc x.significand ≤ binade * 0x40000000 := by simp only [binade, Double.binade] at *; omega
    _ ≤ _ := Nat.mul_le_mul_left _ hk

theorem narrowMagnitude_lt (x : Double) : narrowMagnitude x < 0x80000000 := by
  have hx := x.magnitude.isLt
  simp only [narrowMagnitude]
  split
  · have h : (x.magnitude.val % Double.binade / ratio) ||| quiet < binade :=
      Nat.or_lt_two_pow (n := 23) (by simp only [Double.binade, ratio]; omega) (by decide)
    simp only [infinity, binade] at *; omega
  · split
    · rename_i h
      have hr := roundDiv_significand_le h
      simp only [binade] at hr; omega
    · simp only [infinity]; omega

def ofDouble (x : Double) : Single := ⟨x.negative, ⟨narrowMagnitude x, narrowMagnitude_lt x⟩⟩

def widenMagnitude (m : Nat) : Nat :=
  if infinity ≤ m then Double.infinity + (m - infinity) * ratio
  else if binade ≤ m then m * ratio + rebias
  else if m = 0 then 0
  else (m.log2 + 873) * Double.binade + m * Nat.pow 2 (52 - m.log2)

theorem widenMagnitude_lt {m : Nat} (h : m < 0x80000000) : widenMagnitude m < 0x8000000000000000 := by
  unfold widenMagnitude
  by_cases h1 : infinity ≤ m
  · rw [if_pos h1]; simp only [infinity, Double.infinity, ratio] at *; omega
  rw [if_neg h1]
  by_cases h2 : binade ≤ m
  · rw [if_pos h2]; simp only [rebias, ratio, Double.binade]; omega
  rw [if_neg h2]
  by_cases h3 : m = 0
  · rw [if_pos h3]; omega
  rw [if_neg h3]
  have hl : m.log2 < 23 := (Nat.log2_lt h3).2 (by simp only [binade] at h2; omega)
  have hm : m * Nat.pow 2 (52 - m.log2) < 0x20000000000000 :=
    calc m * Nat.pow 2 (52 - m.log2) < Nat.pow 2 (m.log2 + 1) * Nat.pow 2 (52 - m.log2) :=
          Nat.mul_lt_mul_of_pos_right Nat.lt_log2_self (Nat.two_pow_pos _)
      _ = Nat.pow 2 (m.log2 + 1 + (52 - m.log2)) := (Nat.pow_add 2 _ _).symm
      _ = 0x20000000000000 := by
          have : m.log2 + 1 + (52 - m.log2) = 53 := by omega
          rw [this]
  simp only [Double.binade]; omega

def toDouble (x : Single) : Double :=
  ⟨x.negative, ⟨widenMagnitude x.magnitude.val, widenMagnitude_lt x.magnitude.isLt⟩⟩

end Single

end Rowmap
