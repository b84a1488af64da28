import Rowmap.Proofs.Grammar
import Rowmap.Proofs.Growth
import Rowmap.Schema.Registry

/-! What a batch of configurations does to the registry. The batch is held against the number of
declared fields before any of it is put to work, and then names are taken from the registered fields. So
a type that declares more fields than it has can fail late, with the first part of the batch in the store;
`failed_configure_unchanged_iff` says exactly when a failure leaves the registry as it was. -/

namespace Rowmap

namespace Expr

def additionOf (field : String) : Constraint → Option ConstraintStore.Addition
  | .notNull => some (.notNull field)
  | .unique => some (.unique field)
  | .primaryKey => some (.primaryKey field)
  | .foreignKey r => r.column.map fun c => .foreignKey field ⟨r.table, c⟩

theorem addition_of_additionOf {f : String} {c : Constraint} {x : ConstraintStore.Addition}
    (h : additionOf f c = some x) : addition f c = .ok x := by
  cases c with
  | foreignKey r =>
    cases hr : r.column with
    | none => simp [additionOf, hr] at h
    | some k =>
      simp only [additionOf, hr, Option.map_some, Option.some.injEq] at h
      simp [addition, hr, h]
  | notNull => cases h; rfl
  | unique => cases h; rfl
  | primaryKey => cases h; rfl

theorem additionOf_isSome {f : String} {c : Constraint} (h : c.resolved = true) :
    (additionOf f c).isSome = true := by
  cases c <;> simp_all [additionOf, Constraint.resolved]

/-- What a configuration registers: a constraint for a field that the type has. -/
def registration? (t : RecordType) : Expr → Option ConstraintStore.Addition
  | .binary .assign (.field i) (.constraint c) => (t.fieldName? i).bind (additionOf · c)
  | _ => none

theorem assign_field {t : RecordType} {i : Nat} {f : String} (h : t.fieldName? i = some f)
    (a : Assignment) : (field i).assign t a = .ok true { a with target := some f } := by
  have hn : t.fieldNameAt i = .ok f := by simp [RecordType.fieldNameAt, h]
  unfold assign
  rw [Action.bind_of_ok (Action.lift_of_ok hn a)]
  rfl

theorem assign_field_unregistered {t : RecordType} {i : Nat} (h : t.fieldName? i = none)
    (a : Assignment) :
    (field i).assign t a = .error (.invalidExpression (.unregisteredField i t.tableName)) a := by
  have hn : t.fieldNameAt i = .error (.invalidExpression (.unregisteredField i t.tableName)) := by
    simp [RecordType.fieldNameAt, h]
  unfold assign
  rw [Action.bind_of_error (Action.lift_of_error hn a)]

theorem assign_constraint {t : RecordType} {c : Constraint} {a : Assignment} {f : String}
    {x : ConstraintStore.Addition} (hf : a.target = some f) (hx : addition f c = .ok x) :
    (constraint c).assign t a = .ok true { a with store := a.store.add x } := by
  have ht : currentTarget a = .ok f := by simp [currentTarget, hf]
  unfold assign
  rw [Action.get_bind, Action.bind_of_ok (Action.lift_of_ok ht a),
    Action.bind_of_ok (Action.lift_of_ok hx a)]
  rfl

theorem assignOn_of_registration {t : RecordType} {e : Expr} {x : ConstraintStore.Addition}
    (h : e.registration? t = some x) (s : ConstraintStore) : e.assignOn t s = .ok true (s.add x) := by
  unfold registration? at h
  split at h
  · next i c =>
    obtain ⟨f, hf, hx⟩ := Option.bind_eq_some_iff.1 h
    have hl := assign_field hf ⟨none, s⟩
    have hr := assign_constraint (t := t) (a := ⟨some f, s⟩) rfl (addition_of_additionOf hx)
    have hb : (binary .assign (field i) (constraint c)).assign t ⟨none, s⟩ = .ok true ⟨some f, s.add x⟩ := by
      rw [assign, if_pos rfl, Action.bind_of_ok hl, Action.bind_of_ok hr]
      rfl
    rw [assignOn, hb]
  · cases h

theorem assignOn_unregistered {t : RecordType} {i : Nat} (h : t.fieldName? i = none) (c : Constraint)
    (s : ConstraintStore) : (binary .assign (field i) (constraint c)).assignOn t s =
      .error (.invalidExpression (.unregisteredField i t.tableName)) s := by
  rw [assignOn, assign, if_pos rfl, Action.bind_of_error (assign_field_unregistered h _)]

/-- What a checked configuration turns out to be: one that registers something, or one for a field that
is declared but not registered. -/
theorem registration_cases {t : RecordType} {e : Expr} (h : e.check .configuration t.declared = .ok ()) :
    (∃ x, e.registration? t = some x) ∨
      (e.registration? t = none ∧ ∃ i c, e = binary .assign (field i) (constraint c) ∧
        t.fieldName? i = none ∧ i < t.declared) := by
  obtain ⟨i, c, rfl, hi, hc⟩ := checkConfiguration_eq_ok_iff.1 h
  cases hf : t.fieldName? i with
  | none => exact Or.inr ⟨by simp [registration?, hf], i, c, rfl, hf, hi⟩
  | some f =>
    obtain ⟨x, hx⟩ := Option.isSome_iff_exists.1 (additionOf_isSome (f := f) hc)
    exact Or.inl ⟨x, by simp [registration?, hf, hx]⟩

end Expr

namespace Registry

/-- What a checked batch registers: the additions of its expressions, up to the first that names a
field the type does not have. -/
def registered (t : RecordType) : List Expr → List ConstraintStore.Addition
  | [] => []
  | e :: es =>
    match e.registration? t with
    | some x => x :: registered t es
    | none => []

theorem checkAll_eq_ok_iff {t : RecordType} {es : List Expr} :
    checkAll t es = .ok () ↔ ∀ e ∈ es, e.check .configuration t.declared = .ok () := by
  induction es with
  | nil => simp [checkAll]
  | cons e es ih =>
    rw [List.forall_mem_cons, ← ih, checkAll]
    cases e.check .configuration t.declared with
    | ok => exact Iff.intro (fun h => ⟨rfl, h⟩) (fun h => h.2)
    | error x => exact Iff.intro (fun h => nomatch h) (fun h => nomatch h.1)

theorem rejected_of_checkAll {t : RecordType} {es : List Expr} {x : Error}
    (h : checkAll t es = .error x) : ∃ e ∈ es, e.conforms .configuration t.declared = false := by
  apply Classical.byContradiction
  intro hno
  have hall : ∀ e ∈ es, e.check .configuration t.declared = .ok () := by
    intro e he
    cases hc : e.check .configuration t.declared with
    | ok => rfl
    | error y => exact absurd ⟨e, he, by simp [Expr.conforms, hc, Except.isOk, Except.toBool]⟩ hno
  rw [checkAll_eq_ok_iff.2 hall] at h
  cases h

theorem conforms_of_checkAll {t : RecordType} {es : List Expr} (h : checkAll t es = .ok ()) :
    ∀ e ∈ es, e.conforms .configuration t.declared = true := by
  intro e he
  rw [Expr.conforms, checkAll_eq_ok_iff.1 h e he]
  rfl

theorem assignAll_cons {t : RecordType} {e : Expr} {x : ConstraintStore.Addition}
    (h : e.registration? t = some x) (es : List Expr) (s : ConstraintStore) :
    assignAll t (e :: es) s = assignAll t es (s.add x) := by
  rw [assignAll, Action.bind_of_ok (Expr.assignOn_of_registration h s)]
  rfl

theorem assignAll_unregistered {t : RecordType} {i : Nat} (h : t.fieldName? i = none) (c : Constraint)
    (es : List Expr) (s : ConstraintStore) :
    assignAll t (.binary .assign (.field i) (.constraint c) :: es) s =
      .error (.invalidExpression (.unregisteredField i t.tableName)) s := by
  rw [assignAll, Action.bind_of_error (Expr.assignOn_unregistered h c s)]

/-- What a checked batch leaves, whether it succeeds or not. -/
theorem after_assignAll {t : RecordType} {es : List Expr} (h : checkAll t es = .ok ())
    (s : ConstraintStore) : Action.after (assignAll t es s) = s.addAll (registered t es) := by
  rw [checkAll_eq_ok_iff] at h
  induction es generalizing s with
  | nil => rfl
  | cons e es ih =>
    rw [List.forall_mem_cons] at h
    rcases Expr.registration_cases h.1 with ⟨x, hx⟩ | ⟨hn, i, c, rfl, hi, -⟩
    · rw [assignAll_cons hx, ih h.2]
      simp [registered, hx]
    · rw [assignAll_unregistered hi]
      simp [registered, hn, Action.after]

theorem assignAll_ok {t : RecordType} {es : List Expr} (h : checkAll t es = .ok ())
    (hd : t.declared ≤ t.fields.length) (s : ConstraintStore) :
    assignAll t es s = .ok () (s.addAll (registered t es)) := by
  rw [checkAll_eq_ok_iff] at h
  induction es generalizing s with
  | nil => rfl
  | cons e es ih =>
    rw [List.forall_mem_cons] at h
    rcases Expr.registration_cases h.1 with ⟨x, hx⟩ | ⟨-, i, c, rfl, hi, hlt⟩
    · rw [assignAll_cons hx, ih h.2]
      simp [registered, hx]
    · have : i < t.fields.length := by omega
      simp [RecordType.fieldName?, this] at hi

theorem configure_rejected {t : RecordType} {es : List Expr} {x : Error} (h : checkAll t es = .error x)
    (r : Registry) : configure t es r = .error x r := by
  rw [configure, Action.bind_of_error (Action.lift_of_error h r)]

theorem configure_checked {t : RecordType} {es : List Expr} (h : checkAll t es = .ok ()) (r : Registry) :
    configure t es r =
      Action.on (constraints · t) (fun s r => r.withStore t s) (assignAll t es) r := by
  rw [configure, Action.bind_of_ok (Action.lift_of_ok h r)]

theorem after_configure {t : RecordType} {es : List Expr} (h : checkAll t es = .ok ()) (r : Registry) :
    Action.after (configure t es r) = r.withStore t ((r.constraints t).addAll (registered t es)) := by
  rw [configure_checked h, Action.after_on, after_assignAll h]

theorem lookup_put (t u : RecordType) (s : ConstraintStore) (stores : List (RecordType × ConstraintStore)) :
    (put t s stores).lookup u = if u = t then some s else stores.lookup u := by
  induction stores with
  | nil =>
    by_cases h : u = t
    · simp [put, h]
    · simp [put, List.lookup_cons, h, beq_false_of_ne h]
  | cons p rest ih =>
    obtain ⟨v, w⟩ := p
    rw [put]
    split
    · next hv =>
      subst hv
      by_cases h : u = v
      · simp [h]
      · simp [List.lookup_cons, h, beq_false_of_ne h]
    · next hv =>
      rw [List.lookup_cons, List.lookup_cons, ih]
      by_cases h : u = t
      · simp [h, beq_false_of_ne (Ne.symm hv)]
      · simp [h]

theorem store?_withStore (r : Registry) (t u : RecordType) (s : ConstraintStore) :
    (r.withStore t s).store? u = if u = t then some s else r.store? u := lookup_put t u s r.stores

theorem constraints_withStore (r : Registry) (t u : RecordType) (s : ConstraintStore) :
    (r.withStore t s).constraints u = if u = t then s else r.constraints u := by
  rw [constraints, store?_withStore]
  split <;> rfl

theorem put_eq_self_iff {t : RecordType} {s : ConstraintStore}
    {stores : List (RecordType × ConstraintStore)} : put t s stores = stores ↔ stores.lookup t = some s := by
  induction stores with
  | nil => simp [put]
  | cons p rest ih =>
    obtain ⟨v, w⟩ := p
    rw [put, List.lookup_cons]
    split
    · next hv =>
      subst hv
      simp [eq_comm]
    · next hv =>
      simp [beq_false_of_ne (Ne.symm hv), ih]

theorem withStore_eq_self_iff {r : Registry} {t : RecordType} {s : ConstraintStore} :
    r.withStore t s = r ↔ r.store? t = some s := by
  obtain ⟨stores⟩ := r
  simp [withStore, store?, put_eq_self_iff]

/-- A failed batch touches no other type. It leaves the registry as it was exactly if the grammar refused it, or if
the type had a store that lacked nothing of what was registered before the failure. -/
theorem failed_configure_unchanged_iff (r : Registry) (t : RecordType) (es : List Expr) (x : Error)
    (h : Action.outcome (configure t es r) = .error x) :
    (∀ u, u ≠ t → (Action.after (configure t es r)).store? u = r.store? u) ∧
    (Action.after (configure t es r) = r ↔
      (∃ e ∈ es, e.conforms .configuration t.declared = false) ∨
        ∃ s, r.store? t = some s ∧ ∀ a ∈ registered t es, s.lacks a = false) ∧
    (t.declared ≤ t.fields.length → Action.after (configure t es r) = r) := by
  cases hc : checkAll t es with
  | error y =>
    have hr : Action.after (configure t es r) = r := by rw [configure_rejected hc]; rfl
    exact ⟨fun u _ => by rw [hr], ⟨fun _ => Or.inl (rejected_of_checkAll hc), fun _ => hr⟩, fun _ => hr⟩
  | ok =>
    have ha := after_configure hc r
    refine ⟨fun u hu => by rw [ha, store?_withStore, if_neg hu], ?_, ?_⟩
    · rw [ha, withStore_eq_self_iff]
      constructor
      · intro hs
        have hg : r.constraints t = (r.constraints t).addAll (registered t es) := by
          conv => lhs; rw [constraints, hs]
          rfl
        rw [← hg] at hs
        exact Or.inr ⟨_, hs, ConstraintStore.addAll_eq_self_iff.1 hg.symm⟩
      · rintro (⟨e, he, hf⟩ | ⟨s, hs, hl⟩)
        · rw [conforms_of_checkAll hc e he] at hf
          cases hf
        · have hcs : r.constraints t = s := by rw [constraints, hs]; rfl
          rw [hcs, ConstraintStore.addAll_eq_self_iff.2 hl, hs]
    · intro hd
      rw [configure_checked hc, Action.outcome_on, assignAll_ok hc hd] at h
      cases h

def halfRegistered : RecordType := ⟨0, "Half", 2, [⟨"a", .integer .int32, 0⟩]⟩

/-- Passes the grammar, as both fields are declared, and fails at the second. -/
def lateBatch : List Expr :=
  [.binary .assign (.field 0) (.constraint .notNull), .binary .assign (.field 1) (.constraint .unique)]

theorem late_failure_registers :
    Action.outcome (configure halfRegistered lateBatch .empty) =
        .error (.invalidExpression (.unregisteredField 1 "Half")) ∧
      Action.after (configure halfRegistered lateBatch .empty) =
        ⟨[(halfRegistered, { notNull := ["a"] })]⟩ :=
  ⟨rfl, rfl⟩

theorem late_failure_repeated :
    Action.outcome (configure halfRegistered lateBatch ⟨[(halfRegistered, { notNull := ["a"] })]⟩) =
        .error (.invalidExpression (.unregisteredField 1 "Half")) ∧
      Action.after (configure halfRegistered lateBatch ⟨[(halfRegistered, { notNull := ["a"] })]⟩) =
        ⟨[(halfRegistered, { notNull := ["a"] })]⟩ :=
  ⟨rfl, (failed_configure_unchanged_iff _ _ _ _ rfl).2.1.2 (Or.inr ⟨_, rfl, by decide⟩)⟩

end Registry
end Rowmap
