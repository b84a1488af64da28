import Rowmap.Proofs.Boundary
import Rowmap.Proofs.Recovery

/-! A column that is read, written, and read again. Every reading loses something: null becomes the empty value,
numbers become texts or are narrowed, texts are cut. What is written then has the form that the type itself
writes, and `rewritten_settles` says that it is never refused and never changes again. There is one exception.
A number can be too large for a float of 32 bits; it is read as infinite, bound as null, and null is read as
zero. Integers that are too large for their type are refused instead, and where a float may be missing, null
stays null. -/

namespace Rowmap

namespace Single

/-- The wide magnitude halfway between the greatest finite value and the next power of two. The nearest value is
infinite from there on. -/
def overflow : Nat := 0x47EFFFFFF0000000

/-- A tie at the very end of the range goes to the even side, which is infinite. -/
theorem roundDiv_ratio_lt_infinity_iff {m : Nat} : roundDiv m ratio < infinity ↔ m + rebias < overflow := by
  have hrebias : rebias = 0x3800000000000000 := rfl
  rw [infinity, overflow, ratio, hrebias]
  rcases roundDiv_cases m 0x20000000 with ⟨h, hr⟩ | ⟨h, hr⟩ | ⟨h, hr⟩ <;> omega

theorem isFinite_ofDouble (x : Double) : (ofDouble x).isFinite = decide (x.magnitude.val < overflow) := by
  refine decide_eq_decide.2 ?_
  show narrowMagnitude x < infinity ↔ _
  -- what is not a number stays none, and what becomes subnormal is small; between them the division decides
  by_cases hnan : Double.infinity < x.magnitude.val
  · have hn : infinity ≤ narrowMagnitude x := by
      rw [narrowMagnitude, if_pos hnan]
      exact Nat.le_add_right _ _
    simp only [Double.infinity, overflow] at *
    omega
  by_cases hsub : x.magnitude.val < rebias + Double.binade
  · have hr := roundDiv_significand_le hsub
    rw [narrowMagnitude_subnormal hsub]
    simp only [binade, infinity, rebias, overflow, Double.binade] at *
    omega
  · have hr := roundDiv_ratio_lt_infinity_iff (m := x.magnitude.val - rebias)
    rw [Nat.sub_add_cancel (by omega)] at hr
    rw [narrowMagnitude_normal (Nat.not_lt.1 hsub) (Nat.not_lt.1 hnan)]
    omega

end Single

/-- Whether a number is one that a row can hold: an integer of 64 bits, with a sign or without, or a float. -/
def Value.inRange : Value → Bool
  | integer n => -0x8000000000000000 ≤ n && n < 0x10000000000000000
  | _ => true

theorem Double.isFinite_of_inRange {n : Int} (h : (Value.integer n).inRange = true) :
    (ofInt n).isFinite = true := by
  rw [Value.inRange, Bool.and_eq_true, decide_eq_true_eq, decide_eq_true_eq] at h
  exact isFinite_ofInt (by omega)

namespace FieldType

/-- What is written of a column after it has been read. -/
def rewritten (t : FieldType) (w : Value) : Except Error Value := (t.ofValue w).map t.toValue

/-- What is in a column after it has been read and written so many times. -/
def rewrittenTimes (t : FieldType) : Nat → Value → Except Error Value
  | 0, w => .ok w
  | k + 1, w => (t.rewritten w).bind (t.rewrittenTimes k)

theorem rewrittenTimes_of_fixed {t : FieldType} {w : Value} (h : t.rewritten w = .ok w) (k : Nat) :
    t.rewrittenTimes k w = .ok w := by
  induction k with
  | zero => rfl
  | succ k ih =>
    rw [rewrittenTimes, h]
    exact ih

/-- Whether a number is read into a narrow float that is always there, and too large for it. -/
def overflows : FieldType → Value → Bool
  | single, w => w.double?.any (Single.overflow ≤ ·.magnitude.val)
  | _, _ => false

/-- The values of which nothing is left once they have been bound: null stands for zero in a column of floats
that is never without a value. -/
def isLost : (t : FieldType) → t.Val → Bool
  | double, x => !x.isFinite
  | single, x => !x.isFinite
  | _, _ => false

theorem fitsSigned_of_ofValue_integer {t : IntegerType} {w : Value} {n : t.Val}
    (h : (integer t).ofValue w = .ok n) : (integer t).fitsSigned n = true := by
  rw [← fitsWord_eq_fitsSigned]
  cases w with
  | null =>
    cases h
    rfl
  | bool b =>
    cases h
    cases b <;> rfl
  | integer m =>
    cases hw : fitsWord m with
    | false =>
      rw [ofValue_integer_of_wide hw] at h
      cases h
    | true =>
      simp only [ofValue, Value.word?_integer, hw, if_true, Option.bind_some] at h
      split at h
      · next hv =>
        cases h
        rwa [IntegerType.val?_eq_some_iff.1 hv]
      · cases h
  | _ => cases h

/-- What is read where a value may be missing is either that it is, or what the type itself reads. -/
theorem optional_cases {t : FieldType} {w : Value} {x : Option t.Val} (h : (optional t).ofValue w = .ok x) :
    x = none ∨ ∃ v, x = some v ∧ t.ofValue w = .ok v := by
  by_cases hnull : w = .null
  · subst hnull
    exact Or.inl (Except.ok.inj h).symm
  · rw [ofValue_optional t hnull] at h
    obtain ⟨v, hv, hx⟩ := map_eq_ok.1 h
    exact Or.inr ⟨v, hx.symm, hv⟩

theorem fitsSigned_of_ofValue (t : FieldType) {w : Value} {x : t.Val} (h : t.ofValue w = .ok x) :
    t.fitsSigned x = true := by
  induction t with
  | integer t => exact fitsSigned_of_ofValue_integer h
  | optional t ih =>
    obtain rfl | ⟨v, rfl, hv⟩ := optional_cases h
    · rfl
    · exact ih hv
  | _ => rfl

theorem isMade_of_ofValue (t : FieldType) {w : Value} {x : t.Val} (h : t.ofValue w = .ok x) : t.IsMade x := by
  induction t with
  | fixedText n => exact FixedText.isMade_of_ofValue h
  | optional t ih =>
    obtain rfl | ⟨v, rfl, hv⟩ := optional_cases h
    · trivial
    · exact ih hv
  | _ => trivial

theorem isLost_ofDouble (y : Double) :
    single.isLost (.ofDouble y) = decide (Single.overflow ≤ y.magnitude.val) := by
  rw [isLost, Single.isFinite_ofDouble, ← decide_not]
  exact decide_eq_decide.2 Nat.not_lt

/-- Reading makes an infinite float of a number in no other way than by narrowing it. -/
theorem isLost_of_ofValue {t : FieldType} {w : Value} (hw : w.inRange = true) {x : t.Val}
    (h : t.ofValue w = .ok x) : t.isLost x = t.overflows w := by
  cases t with
  | double =>
    cases w with
    | null =>
      cases h
      rfl
    | integer n =>
      cases h
      rw [isLost, Double.isFinite_of_inRange hw]
      rfl
    | real y =>
      cases h
      rw [isLost, y.property]
      rfl
    | _ => cases h
  | single =>
    cases w with
    | null =>
      cases h
      exact isLost_ofDouble .zero
    | integer n =>
      cases h
      exact isLost_ofDouble (.ofInt n)
    | real y =>
      cases h
      exact isLost_ofDouble y.val
    | _ => cases h
  | _ => rfl

theorem bindsNull_of_isLost {t : FieldType} {v : t.Val} (h : t.isLost v = true) : t.bindsNull v = true := by
  cases t with
  | double => exact h
  | single => exact h
  | _ => cases h

/-- What is left of a value is bound as the value is. -/
theorem toValue_recovered (t : FieldType) {v : t.Val} (h : t.isLost v = false) :
    t.toValue (t.recovered v) = t.toValue v := by
  induction t with
  | double => rw [recovered, if_pos (by simpa [isLost] using h)]
  | single => rw [recovered, if_pos (by simpa [isLost] using h)]
  | fixedText n => exact congrArg Value.text (FixedText.text_cut v)
  | optional t ih =>
    cases v with
    | none => rfl
    | some v =>
      rw [recovered]
      cases hn : t.bindsNull v with
      | true => exact ((toValue_eq_null_iff t v).2 hn).symm
      | false =>
        refine ih (Bool.eq_false_iff.2 fun hl => ?_)
        rw [bindsNull_of_isLost hl] at hn
        cases hn
  | _ => rfl

theorem ofValue_stored {t : FieldType} {v x : t.Val} (h : t.ofValue (t.toValue v) = .ok x) :
    t.ofValue (t.toValue v).stored = .ok x := by
  have hs := sameReading_stored t v
  rw [h] at hs
  generalize t.ofValue (t.toValue v).stored = r at hs
  cases hs
  rfl

theorem rewritten_single_null : single.rewritten .null = .ok (.ofDouble .zero) := by
  rw [rewritten, ofValue, Single.ofDouble_zero]
  rfl

theorem rewritten_single_zero : single.rewritten (.ofDouble .zero) = .ok (.ofDouble .zero) := by
  have hr : single.ofValue (.ofDouble .zero) = .ok (.ofDouble .zero) := rfl
  rw [rewritten, hr, Single.ofDouble_zero]
  rfl

/-- A value that is read from a column, written back and read again is written as the same ever after. Only a number
that is too large for a narrow float is written as null first and as zero from then on. -/
theorem rewritten_settles (t : FieldType) {w : Value} (hw : w.inRange = true) {x : t.Val}
    (h : t.ofValue w = .ok x) :
    (t.overflows w = false → ∃ x₁, t.ofValue (t.toValue x) = .ok x₁ ∧ t.toValue x₁ = t.toValue x ∧
      t.ofValue (t.toValue x).stored = .ok x₁ ∧ ∀ k, t.rewrittenTimes k (t.toValue x) = .ok (t.toValue x)) ∧
    (t.overflows w = true → t = single ∧ t.toValue x = .null ∧
      ∀ k, t.rewrittenTimes (k + 1) (t.toValue x) = .ok (.ofDouble .zero)) := by
  have hlost := isLost_of_ofValue hw h
  refine ⟨fun ho => ?_, fun ho => ?_⟩
  · -- what was read is a signed word, or made from a text, so nothing that is bound of it is refused
    have hread := ofValue_toValue t x (fitsSigned_of_ofValue t h) (isMade_of_ofValue t h)
    have hwrite := toValue_recovered t (hlost.trans ho)
    have hfixed : t.rewritten (t.toValue x) = .ok (t.toValue x) := by
      rw [rewritten, hread]
      exact congrArg Except.ok hwrite
    exact ⟨t.recovered x, hread, hwrite, ofValue_stored hread, rewrittenTimes_of_fixed hfixed⟩
  · have hnull := (toValue_eq_null_iff t x).2 (bindsNull_of_isLost (hlost.trans ho))
    cases t with
    | single =>
      refine ⟨rfl, hnull, fun k => ?_⟩
      rw [hnull, rewrittenTimes, rewritten_single_null]
      exact rewrittenTimes_of_fixed rewritten_single_zero k
    | _ => cases ho

def lastKept : Value := .real ⟨⟨false, ⟨0x47EFFFFFEFFFFFFF, by decide⟩⟩, by decide⟩

def firstLost : Value := .real ⟨⟨false, ⟨0x47EFFFFFF0000000, by decide⟩⟩, by decide⟩

theorem rewritten_settles_limit :
    (∃ x : Single, single.ofValue lastKept = .ok x ∧
      ∀ k, single.rewrittenTimes k (single.toValue x) = .ok (single.toValue x)) ∧
    (∃ x : Single, single.ofValue firstLost = .ok x ∧
      ∀ k, single.rewrittenTimes (k + 1) (single.toValue x) = .ok (.ofDouble .zero)) := by
  have hkept : single.ofValue lastKept = .ok ⟨false, ⟨0x7F7FFFFF, by decide⟩⟩ := by rfl
  have hlost : single.ofValue firstLost = .ok ⟨false, ⟨0x7F800000, by decide⟩⟩ := by rfl
  obtain ⟨x₁, -, -, -, hfixed⟩ := (rewritten_settles single rfl hkept).1 rfl
  obtain ⟨-, -, hzero⟩ := (rewritten_settles single rfl hlost).2 rfl
  exact ⟨⟨_, hkept, hfixed⟩, ⟨_, hlost, hzero⟩⟩

/-- Null is bound in place of a number that is too large, and read as zero, which is not bound as null. An integer
that is too large is refused, and a float that may be missing stays null. -/
theorem firstLost_unsettled :
    (∃ x : Single, single.ofValue firstLost = .ok x ∧ single.toValue x = .null ∧
      ¬ ∃ x₁, single.ofValue (single.toValue x) = .ok x₁ ∧ single.toValue x₁ = single.toValue x) ∧
    (integer .int8).ofValue (.integer 0x80) = .error (.mismatch (.integer 0x80) "i8") ∧
    (optional single).rewritten firstLost = .ok .null ∧ (optional single).rewritten .null = .ok .null := by
  have hlost : single.ofValue firstLost = .ok ⟨false, ⟨0x7F800000, by decide⟩⟩ := by rfl
  refine ⟨⟨_, hlost, rfl, ?_⟩, rfl, rfl, rfl⟩
  rintro ⟨x₁, hread, hwrite⟩
  have hnull : single.ofValue .null = .ok Single.zero := congrArg Except.ok Single.ofDouble_zero
  cases hnull.symm.trans hread
  cases hwrite

end FieldType
end Rowmap
