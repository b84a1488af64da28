import Rowmap.Proofs.Batch
import Rowmap.Query

/-! What has been checked can be put to work. The grammar holds a placeholder against the number of declared
fields; predicates are written and configurations are run by walks of their own, which take names from the
registered fields. Where the declared fields are all there, neither walk fails on a tree that its grammar
admits. Whatever the tree, a run that succeeds comes to true, so a batch never ends as not applied. -/

namespace Rowmap

theorem RecordType.exists_fieldNameAt {t : RecordType} {i : Nat} (h : i < t.fields.length) :
    ∃ n, t.fieldNameAt i = .ok n := by
  refine ⟨t.fields[i].name, ?_⟩
  simp [fieldNameAt, fieldName?, h]

namespace Expr

variable {t : RecordType}

theorem condition_binary_of_ok {op : Operator} {l r : Expr} {a b : String} (hop : op ≠ .assign)
    (hl : l.condition t = .ok a) (hr : r.condition t = .ok b) :
    condition t (.binary op l r) = .ok (a ++ " " ++ op.symbol ++ " " ++ b) := by
  rw [condition, if_neg hop, hl, hr]
  rfl

theorem condition_of_isQuery (hd : t.declared ≤ t.fields.length) {e : Expr} (h : IsQuery t.declared e) :
    ∃ c, e.condition t = .ok c := by
  induction h with
  | @comparison op i l hop hi =>
    obtain ⟨n, hn⟩ := RecordType.exists_fieldNameAt (Nat.lt_of_lt_of_le hi hd)
    have hassign : op ≠ .assign := by
      rintro rfl
      cases hop
    exact ⟨_, condition_binary_of_ok hassign (l := .field i) hn (r := .literal l) rfl⟩
  | and hl hr ihl ihr =>
    obtain ⟨a, ha⟩ := ihl
    obtain ⟨b, hb⟩ := ihr
    exact ⟨_, condition_binary_of_ok (by decide) ha hb⟩

theorem assignOn_of_isConfiguration (hd : t.declared ≤ t.fields.length) {e : Expr}
    (h : IsConfiguration t.declared e) (s : ConstraintStore) :
    ∃ x, e.registration? t = some x ∧ e.assignOn t s = .ok true (s.add x) := by
  obtain ⟨x, hx⟩ := registration_of_isConfiguration h hd
  exact ⟨x, hx, assignOn_of_registration hx s⟩

/-- Both sides of an assignment come to true or fail, and so does the assignment. -/
theorem eq_true_of_assign {e : Expr} {a a' : Assignment} {b : Bool} (h : e.assign t a = .ok b a') :
    b = true := by
  induction e generalizing a a' b with
  | field i =>
    rw [assign] at h
    obtain ⟨n, _, -, h⟩ := Action.ok_of_bind h
    cases h
    rfl
  | literal l => cases h
  | constraint c =>
    rw [assign, Action.get_bind] at h
    obtain ⟨f, _, -, h⟩ := Action.ok_of_bind h
    obtain ⟨x, _, -, h⟩ := Action.ok_of_bind h
    cases h
    rfl
  | binary op l r ihl ihr =>
    rw [assign] at h
    split at h
    · obtain ⟨x, a₁, hx, h⟩ := Action.ok_of_bind h
      obtain ⟨y, a₂, hy, h⟩ := Action.ok_of_bind h
      cases h
      rw [ihl hx, ihr hy]
      rfl
    · cases h

theorem eq_true_of_assignOn {e : Expr} {s s' : ConstraintStore} {b : Bool} (h : e.assignOn t s = .ok b s') :
    b = true := by
  unfold assignOn at h
  split at h
  · next hrun =>
    cases h
    exact eq_true_of_assign hrun
  · cases h

end Expr

namespace Registry

theorem assignAll_cons_eq (t : RecordType) (e : Expr) (es : List Expr) (s : ConstraintStore) :
    assignAll t (e :: es) s = (e.assignOn t >>= fun _ => assignAll t es) s := by
  rw [assignAll]
  cases h : e.assignOn t s with
  | error x s' => rw [Action.bind_of_error h, Action.bind_of_error h]
  | ok b s' =>
    rw [Action.bind_of_ok h, Action.bind_of_ok h, Expr.eq_true_of_assignOn h]
    rfl

/-- What a batch comes to is settled before any of it is put to work. -/
theorem outcome_configure {t : RecordType} (hd : t.declared ≤ t.fields.length) (es : List Expr) (r : Registry) :
    Action.outcome (configure t es r) = checkAll t es := by
  cases h : checkAll t es with
  | error x =>
    rw [configure_rejected h]
    rfl
  | ok =>
    rw [configure_ok h hd]
    rfl

end Registry

namespace Query

/-- Filters that cannot be written hold one that is outside the grammar. -/
theorem rejected_of_conditions {t : RecordType} (hd : t.declared ≤ t.fields.length) {fs : List Filter} {x : Error}
    (h : conditions t fs = .error x) : ∃ f ∈ fs, f.predicate.check .query t.declared = .error x := by
  induction fs with
  | nil => cases h
  | cons f fs ih =>
    rcases bind_eq_error.1 h with hf | ⟨_, hf, h⟩
    · exact ⟨f, List.mem_cons_self .., hf⟩
    obtain ⟨c, hc⟩ := Expr.condition_of_isQuery hd (Expr.checkQuery_eq_ok_iff.1 hf)
    rcases bind_eq_error.1 h with hc' | ⟨_, -, h⟩
    · cases hc.symm.trans hc'
    rcases bind_eq_error.1 h with hfs | ⟨_, -, hend⟩
    · obtain ⟨g, hg, hcheck⟩ := ih hfs
      exact ⟨g, List.mem_cons_of_mem _ hg, hcheck⟩
    · cases hend

end Query

open Registry

/-- Where the declared fields are all there, what the grammar admits can be evaluated, so filters and batches fail
only by the check. No tree comes to false. -/
theorem Expr.checked_evaluates (t : RecordType) (hd : t.declared ≤ t.fields.length) :
    (∀ e : Expr, e.check .query t.declared = .ok () → ∃ c, e.condition t = .ok c) ∧
    (∀ e : Expr, e.check .configuration t.declared = .ok () → ∀ s,
      ∃ x, e.registration? t = some x ∧ e.assignOn t s = .ok true (s.add x)) ∧
    (∀ fs x, Query.conditions t fs = .error x →
      ∃ f ∈ fs, f.predicate.check .query t.declared = .error x) ∧
    (∀ es r, Action.outcome (configure t es r) = checkAll t es) ∧
    ∀ (u : RecordType) (e : Expr), (∀ a, Action.outcome (e.assign u a) ≠ .ok false) ∧
      ∀ es s, assignAll u (e :: es) s = (e.assignOn u >>= fun _ => assignAll u es) s := by
  refine ⟨?_, ?_, ?_, ?_, ?_⟩
  · intro e h
    exact condition_of_isQuery hd (checkQuery_eq_ok_iff.1 h)
  · intro e h s
    exact assignOn_of_isConfiguration hd (check_configuration_eq_ok_iff.1 h) s
  · intro fs x h
    exact Query.rejected_of_conditions hd h
  · intro es r
    exact outcome_configure hd es r
  · intro u e
    refine ⟨fun a h => ?_, assignAll_cons_eq u e⟩
    cases hrun : e.assign u a with
    | error x a' =>
      rw [hrun] at h
      cases h
    | ok b a' =>
      rw [hrun, eq_true_of_assign hrun] at h
      cases h

def surplus : RecordType :=
  ⟨0, "Surplus", 2, [⟨"a", .integer .int32, 0⟩, ⟨"b", .text, 0⟩, ⟨"c", .bool, 0⟩]⟩

def nested : Expr :=
  .binary .and
    (.binary .and (.binary .ge (.field 0) (.literal (.integer (-1))))
      (.binary .ne (.field 1) (.literal (.text "it's"))))
    (.binary .lt (.field 0) (.literal (.unsigned 9)))

/-- The reference is to the field that is not declared. -/
def selfReference : Expr := .binary .assign (.field 1) (.constraint (.foreignKey (.ofField surplus 2)))

theorem Expr.checked_evaluates_surplus :
    surplus.declared ≤ surplus.fields.length ∧
    nested.check .query surplus.declared = .ok () ∧ (∃ c, nested.condition surplus = .ok c) ∧
    (∀ s, selfReference.assignOn surplus s = .ok true (s.add (.foreignKey "b" ⟨"Surplus", "c"⟩))) ∧
    ∀ r, Action.outcome (configure surplus [selfReference, nested] r) =
      .error (.invalidExpression (.notAssignment nested)) := by
  have hd : surplus.declared ≤ surplus.fields.length := by decide
  obtain ⟨hquery, hconfiguration, -, hbatch, -⟩ := checked_evaluates surplus hd
  refine ⟨hd, rfl, hquery nested rfl, fun s => ?_, fun r => hbatch _ r⟩
  obtain ⟨x, hx, hrun⟩ := hconfiguration selfReference rfl s
  cases hx
  exact hrun

end Rowmap
