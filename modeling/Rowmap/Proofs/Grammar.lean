import Rowmap.Expr.Grammar

/-! The trees that each grammar admits, by their shape. -/

namespace Rowmap

def Constraint.resolved : Constraint → Bool
  | .foreignKey r => r.column.isSome
  | _ => true

namespace Expr

theorem checkField_eq_ok_iff {n : Nat} {e : Expr} : e.checkField n = .ok () ↔ ∃ i, e = .field i ∧ i < n := by
  cases e with
  | field i =>
    simp only [checkField, invalid]
    split
    · next h => exact ⟨fun _ => ⟨i, rfl, h⟩, fun _ => rfl⟩
    · next h =>
      refine ⟨fun he => (by cases he), ?_⟩
      rintro ⟨j, hj, hjn⟩
      cases hj
      exact absurd hjn h
  | literal l => simp [checkField, invalid]
  | constraint c => simp [checkField, invalid]
  | binary op l r => simp [checkField, invalid]

theorem checkConstraint_eq_ok_iff {e : Expr} :
    e.checkConstraint = .ok () ↔ ∃ c, e = .constraint c ∧ c.resolved = true := by
  cases e with
  | constraint c =>
    cases c <;> simp [checkConstraint, invalid, Constraint.resolved, Option.isSome_iff_ne_none]
  | field i => simp [checkConstraint, invalid]
  | literal l => simp [checkConstraint, invalid]
  | binary op l r => simp [checkConstraint, invalid]

theorem checkConfiguration_eq_ok_iff {n : Nat} {e : Expr} :
    e.checkConfiguration n = .ok () ↔
      ∃ i c, e = .binary .assign (.field i) (.constraint c) ∧ i < n ∧ c.resolved = true := by
  constructor
  · intro h
    unfold checkConfiguration at h
    split at h
    · next l r =>
      obtain ⟨_, hl, hr⟩ := bind_eq_ok.1 h
      obtain ⟨i, rfl, hi⟩ := checkField_eq_ok_iff.1 hl
      obtain ⟨c, rfl, hc⟩ := checkConstraint_eq_ok_iff.1 hr
      exact ⟨i, c, rfl, hi, hc⟩
    · cases h
  · rintro ⟨i, c, rfl, hi, hc⟩
    have hf : (Expr.field i).checkField n = .ok () := checkField_eq_ok_iff.2 ⟨i, rfl, hi⟩
    have hk : (Expr.constraint c).checkConstraint = .ok () := checkConstraint_eq_ok_iff.2 ⟨c, rfl, hc⟩
    simp only [checkConfiguration, hf]
    exact hk

/-- An assignment to a declared field of a constraint that refers to something, if it refers at all. -/
inductive IsConfiguration (declared : Nat) : Expr → Prop where
  | assignment {i : Nat} {c : Constraint} (hi : i < declared) (hc : c.resolved = true) :
    IsConfiguration declared (.binary .assign (.field i) (.constraint c))

theorem check_configuration_eq_ok_iff {n : Nat} {e : Expr} :
    e.check .configuration n = .ok () ↔ IsConfiguration n e := by
  rw [check, checkConfiguration_eq_ok_iff]
  constructor
  · rintro ⟨i, c, rfl, hi, hc⟩
    exact .assignment hi hc
  · rintro ⟨hi, hc⟩
    exact ⟨_, _, rfl, hi, hc⟩

theorem checkLiteral_eq_ok_iff {e : Expr} : e.checkLiteral = .ok () ↔ ∃ l, e = .literal l := by
  cases e <;> simp [checkLiteral, invalid]

/-- A comparison of a declared field with a literal, or a conjunction of such. -/
inductive IsQuery (declared : Nat) : Expr → Prop where
  | comparison {op : Operator} {i : Nat} (l : Literal) (hop : op.isComparison = true) (hi : i < declared) :
    IsQuery declared (.binary op (.field i) (.literal l))
  | and {l r : Expr} (hl : IsQuery declared l) (hr : IsQuery declared r) : IsQuery declared (.binary .and l r)

theorem isQuery_of_checkQuery {n : Nat} {e : Expr} (h : e.checkQuery n = .ok ()) : IsQuery n e := by
  induction e with
  | binary op l r ihl ihr =>
    rw [checkQuery] at h
    split at h
    · next hop =>
      obtain ⟨_, hl, hr⟩ := bind_eq_ok.1 h
      obtain ⟨i, rfl, hi⟩ := checkField_eq_ok_iff.1 hl
      obtain ⟨k, rfl⟩ := checkLiteral_eq_ok_iff.1 hr
      exact .comparison k hop hi
    · split at h
      · next hop =>
        subst hop
        obtain ⟨_, hl, hr⟩ := bind_eq_ok.1 h
        exact .and (ihl hl) (ihr hr)
      · cases h
  | field i => cases h
  | literal l => cases h
  | constraint c => cases h

theorem checkQuery_of_isQuery {n : Nat} {e : Expr} (h : IsQuery n e) : e.checkQuery n = .ok () := by
  induction h with
  | comparison l hop hi =>
    rw [checkQuery, if_pos hop, checkField_eq_ok_iff.2 ⟨_, rfl, hi⟩]
    rfl
  | and hl hr ihl ihr =>
    rw [checkQuery, if_neg (by decide), if_pos rfl, ihl]
    exact ihr

theorem checkQuery_eq_ok_iff {n : Nat} {e : Expr} : e.checkQuery n = .ok () ↔ IsQuery n e :=
  ⟨isQuery_of_checkQuery, checkQuery_of_isQuery⟩

end Expr
end Rowmap
