import Rowmap.Proofs.Registration
import Rowmap.Proofs.Traversal

/-! A configuration tree at work, node by node. To run the tree is to take its nodes one after another, each
before what stands below it, up to the first that has no meaning: assignments do nothing by themselves, a field
becomes the target, a constraint is added for the target. What is left behind, also by a failure, is the last
field that was met and what the constraints met so far have added. -/

namespace Rowmap

open ConstraintStore

/-- The reference of a constraint that refers to no column. -/
def Constraint.unresolved? : Constraint → Option Reference
  | .foreignKey r => if r.column = none then some r else none
  | _ => none

namespace Node

/-- Why a node has no meaning for an assignment as it stands. -/
def stop? (t : RecordType) (a : Assignment) : Node → Option ExprFault
  | field i => t.fieldFault? i
  | literal l => some (.literalInConfiguration l)
  | constraint c => if a.target = none then some .noTarget else c.unresolved?.map .unresolvedReference
  | operator op => if op = .assign then none else some (.operatorInConfiguration op)

/-- What a node that has a meaning does. -/
def effect (t : RecordType) (a : Assignment) : Node → Assignment
  | field i => { a with target := t.fieldName? i }
  | constraint c => { a with store := a.store.addAll (a.target.bind (Expr.additionOf · c)).toList }
  | literal _ => a
  | operator _ => a

/-- Takes nodes one after another, up to the first that has no meaning. -/
def run (t : RecordType) : List Node → Action Assignment Bool
  | [] => fun a => .ok true a
  | n :: ns => fun a =>
    match n.stop? t a with
    | some why => .error (.invalidExpression why) a
    | none => run t ns (n.effect t a)

/-- The field that a node names. -/
def fieldName? (t : RecordType) : Node → Option String
  | field i => t.fieldName? i
  | _ => none

/-- The target after some nodes: the last field among them, or the target from before if there is none. -/
def targetAfter (t : RecordType) (target : Option String) (ns : List Node) : Option String :=
  (ns.filterMap (fieldName? t)).getLast?.or target

def added (target : Option String) : Node → List Addition
  | constraint c => (target.bind (Expr.additionOf · c)).toList
  | _ => []

/-- What some nodes add, each for the target that the nodes before it leave. -/
def gathered (t : RecordType) (target : Option String) (ns : List Node) : List Addition :=
  ns.zipIdx.flatMap fun p => p.1.added (targetAfter t target (ns.take p.2))

/-- The assignment after some nodes that all have a meaning. -/
def reached (t : RecordType) (a : Assignment) (ns : List Node) : Assignment :=
  ⟨targetAfter t a.target ns, a.store.addAll (gathered t a.target ns)⟩

variable {t : RecordType}

theorem run_of_stop {n : Node} {a : Assignment} {why : ExprFault} (h : n.stop? t a = some why) (ns : List Node) :
    run t (n :: ns) a = .error (.invalidExpression why) a := by
  rw [run]
  simp only [h]

theorem run_of_none {n : Node} {a : Assignment} (h : n.stop? t a = none) (ns : List Node) :
    run t (n :: ns) a = run t ns (n.effect t a) := by
  rw [run]
  simp only [h]

theorem run_append (ns ms : List Node) (a : Assignment) :
    run t (ns ++ ms) a = (run t ns >>= fun _ => run t ms) a := by
  induction ns generalizing a with
  | nil => rfl
  | cons n ns ih =>
    rw [List.cons_append]
    cases h : n.stop? t a with
    | some why => rw [run_of_stop h, Action.bind_of_error (run_of_stop h ns)]
    | none =>
      rw [run_of_none h, ih]
      simp only [bind, EStateM.bind, run_of_none h]

theorem targetAfter_cons (n : Node) (target : Option String) (ns : List Node) :
    targetAfter t target (n :: ns) = targetAfter t ((n.fieldName? t).or target) ns := by
  rw [targetAfter, targetAfter, List.filterMap_cons]
  cases n.fieldName? t with
  | none => rfl
  | some f =>
    rw [List.getLast?_cons]
    cases (ns.filterMap (fieldName? t)).getLast? <;> rfl

theorem gathered_cons (n : Node) (target : Option String) (ns : List Node) :
    gathered t target (n :: ns) = n.added target ++ gathered t ((n.fieldName? t).or target) ns := by
  rw [gathered, List.zipIdx_cons', List.flatMap_cons, List.flatMap_map, gathered]
  congr 2
  funext p
  show p.1.added (targetAfter t target ((n :: ns).take (p.2 + 1))) = _
  rw [List.take_succ_cons, targetAfter_cons]

/-- A node that has a meaning brings an assignment where it is the first on the way. -/
theorem reached_cons {n : Node} {a : Assignment} (h : n.stop? t a = none) (ns : List Node) :
    reached t a (n :: ns) = reached t (n.effect t a) ns := by
  rw [reached, reached, targetAfter_cons, gathered_cons, addAll_append]
  cases n with
  | field i =>
    rcases t.fieldFault?_cases i with ⟨-, -, f, hf, -⟩ | ⟨-, hfault, -⟩
    · simp only [fieldName?, effect, added, hf, Option.some_or, addAll_nil]
    · cases hfault.symm.trans h
  | literal l => rfl
  | constraint c => rfl
  | operator op => rfl

/-- Nodes that all have a meaning come to true. -/
theorem eq_reached_of_run {ns : List Node} {a a' : Assignment} {b : Bool} (h : run t ns a = .ok b a') :
    b = true ∧ a' = reached t a ns := by
  induction ns generalizing a with
  | nil =>
    cases h
    exact ⟨rfl, rfl⟩
  | cons n ns ih =>
    cases hstop : n.stop? t a with
    | some why =>
      rw [run_of_stop hstop] at h
      cases h
    | none =>
      rw [run_of_none hstop] at h
      rw [reached_cons hstop]
      exact ih h

/-- A failure is that of the first node that has no meaning, and leaves what was reached before it. -/
theorem run_eq_error_iff {ns : List Node} {a a' : Assignment} {x : Error} :
    run t ns a = .error x a' ↔ ∃ before n after why, ns = before ++ n :: after ∧
      run t before a = .ok true a' ∧ n.stop? t a' = some why ∧ x = .invalidExpression why := by
  constructor
  · intro h
    induction ns generalizing a with
    | nil => cases h
    | cons n ns ih =>
      cases hstop : n.stop? t a with
      | some why =>
        rw [run_of_stop hstop] at h
        cases h
        exact ⟨[], n, ns, why, rfl, rfl, hstop, rfl⟩
      | none =>
        rw [run_of_none hstop] at h
        obtain ⟨before, m, after, why, rfl, hbefore, hm, hx⟩ := ih h
        exact ⟨n :: before, m, after, why, rfl, (run_of_none hstop before).trans hbefore, hm, hx⟩
  · rintro ⟨before, n, after, why, rfl, hbefore, hstop, rfl⟩
    rw [run_append, Action.bind_of_ok hbefore, run_of_stop hstop]

end Node

namespace Expr

variable {t : RecordType}

theorem assign_field_eq_run (i : Nat) (a : Assignment) : (field i).assign t a = Node.run t [.field i] a := by
  rcases t.fieldFault?_cases i with ⟨-, hfault, f, hf, -⟩ | ⟨-, hfault, hnone, -⟩
  · rw [assign_field hf, Node.run_of_none (n := .field i) hfault, Node.effect, hf]
    rfl
  · rw [assign_field_unregistered hnone, Node.run_of_stop (n := .field i) hfault]

theorem assign_constraint_noTarget {c : Constraint} {a : Assignment} (h : a.target = none) :
    (constraint c).assign t a = .error (.invalidExpression .noTarget) a := by
  have hnone : currentTarget a = .error (.invalidExpression .noTarget) := by simp [currentTarget, h, invalid]
  unfold assign
  rw [Action.get_bind, Action.bind_of_error (Action.lift_of_error hnone a)]

theorem assign_constraint_of_error {c : Constraint} {a : Assignment} {f : String} {x : Error}
    (hf : a.target = some f) (hx : addition f c = .error x) : (constraint c).assign t a = .error x a := by
  have htarget : currentTarget a = .ok f := by simp [currentTarget, hf]
  unfold assign
  rw [Action.get_bind, Action.bind_of_ok (Action.lift_of_ok htarget a),
    Action.bind_of_error (Action.lift_of_error hx a)]

theorem addition_cases (f : String) (c : Constraint) :
    (c.unresolved? = none ∧ ∃ x, additionOf f c = some x ∧ addition f c = .ok x) ∨
      ∃ r, c.unresolved? = some r ∧ addition f c = .error (.invalidExpression (.unresolvedReference r)) := by
  cases c with
  | foreignKey r =>
    cases h : r.column with
    | none => exact Or.inr ⟨r, by simp [Constraint.unresolved?, h], by simp [addition, h, invalid]⟩
    | some k =>
      have hx : additionOf f (.foreignKey r) = some (.foreignKey f ⟨r.table, k⟩) := by simp [additionOf, h]
      exact Or.inl ⟨by simp [Constraint.unresolved?, h], _, hx, addition_of_additionOf hx⟩
  | notNull => exact Or.inl ⟨rfl, _, rfl, rfl⟩
  | unique => exact Or.inl ⟨rfl, _, rfl, rfl⟩
  | primaryKey => exact Or.inl ⟨rfl, _, rfl, rfl⟩

theorem assign_constraint_eq_run (c : Constraint) (a : Assignment) :
    (constraint c).assign t a = Node.run t [.constraint c] a := by
  cases htarget : a.target with
  | none =>
    have hstop : Node.stop? t a (.constraint c) = some .noTarget := by simp [Node.stop?, htarget]
    rw [assign_constraint_noTarget htarget, Node.run_of_stop hstop]
  | some f =>
    rcases addition_cases f c with ⟨hresolved, x, hof, hx⟩ | ⟨r, hunresolved, hx⟩
    · have hstop : Node.stop? t a (.constraint c) = none := by simp [Node.stop?, htarget, hresolved]
      rw [assign_constraint htarget hx, Node.run_of_none hstop, Node.effect, htarget, Option.bind_some, hof]
      rfl
    · have hstop : Node.stop? t a (.constraint c) = some (.unresolvedReference r) := by
        simp [Node.stop?, htarget, hunresolved]
      rw [assign_constraint_of_error htarget hx, Node.run_of_stop hstop]

/-- To run a tree is to take its nodes in order, a node before what stands below it. -/
theorem assign_eq_run (e : Expr) (a : Assignment) : e.assign t a = Node.run t e.preorder a := by
  induction e generalizing a with
  | field i => exact assign_field_eq_run i a
  | literal l => rfl
  | constraint c => exact assign_constraint_eq_run c a
  | binary op l r ihl ihr =>
    rw [assign, preorder]
    by_cases hop : op = .assign
    · have hstop : Node.stop? t a (.operator op) = none := by simp [Node.stop?, hop]
      rw [if_pos hop, Node.run_of_none hstop, Node.effect, Node.run_append]
      cases hl : l.assign t a with
      | error x a₁ => rw [Action.bind_of_error hl, Action.bind_of_error ((ihl a).symm.trans hl)]
      | ok b a₁ =>
        have hlrun : Node.run t l.preorder a = .ok b a₁ := (ihl a).symm.trans hl
        rw [Action.bind_of_ok hl, Action.bind_of_ok hlrun, ← ihr a₁]
        cases hr : r.assign t a₁ with
        | error x a₂ => rw [Action.bind_of_error hr]
        | ok b' a₂ =>
          -- either side comes to true if it comes to anything, so the two of them do
          have hrrun : Node.run t r.preorder a₁ = .ok b' a₂ := (ihr a₁).symm.trans hr
          rw [Action.bind_of_ok hr, (Node.eq_reached_of_run hlrun).1, (Node.eq_reached_of_run hrrun).1]
          rfl
    · have hstop : Node.stop? t a (.operator op) = some (.operatorInConfiguration op) := by simp [Node.stop?, hop]
      rw [if_neg hop, Node.run_of_stop hstop]
      rfl

/-- Any tree, from any store and any target, does what its nodes do one after another. It comes to true if they all
have a meaning; otherwise it fails as the first that has none. -/
theorem assign_node_by_node (t : RecordType) (e : Expr) (a : Assignment) :
    e.assign t a = Node.run t e.preorder a ∧
    (∀ b a', e.assign t a = .ok b a' → b = true ∧ a' = Node.reached t a e.preorder) ∧
    ∀ x a', e.assign t a = .error x a' ↔ ∃ before n after why, e.preorder = before ++ n :: after ∧
      Node.run t before a = .ok true (Node.reached t a before) ∧ a' = Node.reached t a before ∧
        n.stop? t a' = some why ∧ x = .invalidExpression why := by
  refine ⟨assign_eq_run e a, ?_, ?_⟩
  · intro b a' h
    rw [assign_eq_run] at h
    exact Node.eq_reached_of_run h
  · intro x a'
    rw [assign_eq_run, Node.run_eq_error_iff]
    constructor
    · rintro ⟨before, n, after, why, heq, hbefore, hstop, hx⟩
      have ha' : a' = Node.reached t a before := (Node.eq_reached_of_run hbefore).2
      exact ⟨before, n, after, why, heq, ha' ▸ hbefore, ha', hstop, hx⟩
    · rintro ⟨before, n, after, why, heq, hbefore, rfl, hstop, hx⟩
      exact ⟨before, n, after, why, heq, hbefore, hstop, hx⟩

/-- No configuration, and still at work until it meets a reference to no column: its first constraint is for
the target that is left over, its second for a field from another branch. -/
def tangled : Expr :=
  .binary .assign (.binary .assign (.constraint .primaryKey) (.field 1))
    (.binary .assign (.constraint .unique)
      (.binary .assign (.field 0) (.constraint (.foreignKey (.ofField remark 9)))))

theorem assign_node_by_node_tangled :
    tangled.assign remark ⟨some "line", { notNull := ["line"] }⟩ =
      .error (.invalidExpression (.unresolvedReference ⟨"Remark", none, 9⟩))
        ⟨some "line", { notNull := ["line"], unique := ["body"], primaryKey := ["line"] }⟩ ∧
    (∀ b a', (field 1).assign remark ⟨none, .empty⟩ = .ok b a' → b = true ∧ a' = ⟨some "body", .empty⟩) ∧
    (field 1).assign remark ⟨none, .empty⟩ = .ok true ⟨some "body", .empty⟩ := by
  obtain ⟨-, -, hfail⟩ := assign_node_by_node remark tangled ⟨some "line", { notNull := ["line"] }⟩
  obtain ⟨hrun, hok, -⟩ := assign_node_by_node remark (field 1) ⟨none, .empty⟩
  refine ⟨(hfail _ _).2 ⟨tangled.preorder.dropLast, .constraint (.foreignKey (.ofField remark 9)), [],
    .unresolvedReference ⟨"Remark", none, 9⟩, rfl, rfl, rfl, rfl, rfl⟩, hok, hrun.trans rfl⟩

end Expr
end Rowmap
