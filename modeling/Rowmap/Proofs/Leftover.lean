import Rowmap.Proofs.Batch

/-! Configurations one after another on one assignment, each meeting the target that the one before it has left.
None of them looks at it: a configuration names its field before its constraint. So they do what they do each with
no target to begin with, and the store gets from each of them what it registers for its own field. -/

namespace Rowmap

open ConstraintStore

namespace Expr

open Rowmap.Action

variable {t : RecordType}

theorem outcome_assignOn (e : Expr) (s : ConstraintStore) :
    outcome (e.assignOn t s) = outcome (e.assign t ⟨none, s⟩) := by
  unfold assignOn
  split <;> simp_all [outcome]

theorem after_assignOn (e : Expr) (s : ConstraintStore) :
    after (e.assignOn t s) = (after (e.assign t ⟨none, s⟩)).store := by
  unfold assignOn
  split <;> simp_all [after]

/-- A configuration makes its own field the target and adds what it registers, or it fails before it has changed
anything. Neither depends on the target it meets. -/
theorem assign_checked_cases {e : Expr} (h : e.check .configuration t.declared = .ok ()) :
    (∃ x f, e.registration? t = some x ∧ ∀ a, e.assign t a = .ok true ⟨some f, a.store.add x⟩) ∨
      ∃ why, e.registration? t = none ∧ ∀ a, e.assign t a = .error why a := by
  obtain ⟨i, c, rfl, -, hc⟩ := checkConfiguration_eq_ok_iff.1 h
  cases hf : t.fieldName? i with
  | none =>
    refine Or.inr ⟨.invalidExpression (.unregisteredField i t.tableName), by simp [registration?, hf], fun a => ?_⟩
    rw [assign, if_pos rfl, bind_of_error (assign_field_unregistered hf a)]
  | some f =>
    obtain ⟨x, hx⟩ := Option.isSome_iff_exists.1 (additionOf_isSome (f := f) hc)
    refine Or.inl ⟨x, f, by simp [registration?, hf, hx], fun a => ?_⟩
    have hr := assign_constraint (t := t) (a := { a with target := some f }) rfl (addition_of_additionOf hx)
    rw [assign, if_pos rfl, bind_of_ok (assign_field hf a), bind_of_ok hr]
    rfl

theorem store_after_assign {e : Expr} (h : e.check .configuration t.declared = .ok ()) (a : Assignment) :
    (after (e.assign t a)).store = a.store.addAll (e.registration? t).toList := by
  rcases assign_checked_cases h with ⟨x, f, hx, hrun⟩ | ⟨why, hnone, hrun⟩
  · rw [hrun, hx]
    rfl
  · rw [hrun, hnone]
    rfl

theorem outcome_assign_eq {e : Expr} (h : e.check .configuration t.declared = .ok ()) (a b : Assignment) :
    outcome (e.assign t a) = outcome (e.assign t b) := by
  rcases assign_checked_cases h with ⟨x, f, -, hrun⟩ | ⟨why, -, hrun⟩
  · rw [hrun, hrun]
    rfl
  · rw [hrun, hrun]
    rfl

theorem store_inTurn_assign {es : List Expr} (h : ∀ e ∈ es, e.check .configuration t.declared = .ok ())
    (a : Assignment) : (inTurn (assign t) es a).2.store = a.store.addAll (es.filterMap (registration? t)) := by
  induction es generalizing a with
  | nil => rfl
  | cons e es ih =>
    rw [List.forall_mem_cons] at h
    rw [inTurn, ih h.2, store_after_assign h.1, ← addAll_append, List.filterMap_cons]
    cases e.registration? t <;> rfl

theorem eq_true_of_mem_inTurn (hd : t.declared ≤ t.fields.length) {es : List Expr}
    (h : ∀ e ∈ es, e.check .configuration t.declared = .ok ()) {a : Assignment} {r : Except Error Bool}
    (hr : r ∈ (inTurn (assign t) es a).1) : r = .ok true := by
  induction es generalizing a with
  | nil => cases hr
  | cons e es ih =>
    rw [List.forall_mem_cons] at h
    rw [inTurn] at hr
    rcases List.mem_cons.1 hr with rfl | hr
    · obtain ⟨x, hx⟩ := registration_of_isConfiguration (check_configuration_eq_ok_iff.1 h.1) hd
      rcases assign_checked_cases h.1 with ⟨_, f, -, hrun⟩ | ⟨_, hnone, -⟩
      · rw [hrun]
        rfl
      · rw [hx] at hnone
        cases hnone
    · exact ih h.2 hr

/-- Configurations on one assignment, whatever its target is to begin with, come to what they come to each with no
target, and to the same store. -/
theorem assign_ignores_leftover (t : RecordType) (es : List Expr)
    (h : ∀ e ∈ es, e.check .configuration t.declared = .ok ()) (target : Option String) (s : ConstraintStore) :
    (inTurn (assign t) es ⟨target, s⟩).1 = (inTurn (assignOn t) es s).1 ∧
    (inTurn (assign t) es ⟨target, s⟩).2.store = (inTurn (assignOn t) es s).2 ∧
    (inTurn (assign t) es ⟨target, s⟩).2.store = s.addAll (es.filterMap (registration? t)) ∧
    (t.declared ≤ t.fields.length →
      (∀ r ∈ (inTurn (assign t) es ⟨target, s⟩).1, r = .ok true) ∧ ∀ e ∈ es, ∃ x, e.registration? t = some x) := by
  have hrelated : (inTurn (assign t) es ⟨target, s⟩).1 = (inTurn (assignOn t) es s).1 ∧
      (inTurn (assign t) es ⟨target, s⟩).2.store = (inTurn (assignOn t) es s).2 := by
    -- what the two runs share at every point is the store, and not the target
    refine inTurn_related (R := fun (a : Assignment) (s : ConstraintStore) => a.store = s) ?_ rfl
    rintro e he a _ rfl
    rw [outcome_assignOn, after_assignOn, store_after_assign (h e he), store_after_assign (h e he)]
    exact ⟨outcome_assign_eq (h e he) a _, rfl⟩
  refine ⟨hrelated.1, hrelated.2, store_inTurn_assign h _, fun hd => ⟨fun r => eq_true_of_mem_inTurn hd h, ?_⟩⟩
  intro e he
  exact registration_of_isConfiguration (check_configuration_eq_ok_iff.1 (h e he)) hd

def roster : List Expr :=
  [.binary .assign (.field 1) (.constraint .unique), .binary .assign (.field 0) (.constraint .primaryKey),
    .binary .assign (.field 1) (.constraint .notNull)]

theorem assign_ignores_leftover_roster :
    (∀ e ∈ roster, e.check .configuration Registry.player.declared = .ok ()) ∧
    Registry.player.declared ≤ Registry.player.fields.length ∧
    (inTurn (assign Registry.player) roster ⟨some "team", .empty⟩).1 = [.ok true, .ok true, .ok true] ∧
    (inTurn (assign Registry.player) roster ⟨some "team", .empty⟩).2.store =
      { notNull := ["name"], unique := ["name"], primaryKey := ["id"] } ∧
    (∀ r ∈ (inTurn (assign Registry.player) roster ⟨some "team", .empty⟩).1, r = .ok true) := by
  have hall : ∀ e ∈ roster, e.check .configuration Registry.player.declared = .ok () :=
    Registry.checkAll_eq_ok_iff.1 rfl
  have hd : Registry.player.declared ≤ Registry.player.fields.length := by decide
  obtain ⟨hsame, -, hstore, hregistered⟩ := assign_ignores_leftover Registry.player roster hall (some "team") .empty
  exact ⟨hall, hd, hsame.trans rfl, hstore.trans rfl, (hregistered hd).1⟩

/-- The grammar is what keeps them apart: a constraint by itself is added for the field that is left over. -/
example : (inTurn (assign Registry.player) [roster[0], .constraint .notNull] ⟨none, .empty⟩).2.store =
      { notNull := ["name"], unique := ["name"] } ∧
    (inTurn (assignOn Registry.player) [roster[0], .constraint .notNull] .empty).2 = { unique := ["name"] } :=
  ⟨rfl, rfl⟩

end Expr
end Rowmap
