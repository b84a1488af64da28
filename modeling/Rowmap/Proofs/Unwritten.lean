import Rowmap.Proofs.Members
import Rowmap.Proofs.Registration
import Rowmap.Session.Request

/-! Why a statement cannot be written. All that can be wrong with a batch, a query or the members of a type is
the caller's; no such error tells of a database that has failed. -/

namespace Rowmap

variable {α β : Type}

/-- What goes wrong, if anything does, is none of the database's. -/
def OnCaller (x : Except Error α) : Prop := ∀ e, x = .error e → e.isExecution = false

namespace OnCaller

theorem ok (a : α) : OnCaller (.ok a : Except Error α) := nofun

theorem invalid (why : ExprFault) : OnCaller (Expr.invalid why : Except Error α) := by
  intro e h
  cases h
  rfl

theorem bind {x : Except Error α} {f : α → Except Error β} (hx : OnCaller x) (hf : ∀ a, OnCaller (f a)) :
    OnCaller (x >>= f) := by
  cases x with
  | ok a => exact hf a
  | error e =>
    intro e' h
    cases h
    exact hx e rfl

theorem map {x : Except Error α} (hx : OnCaller x) (f : α → β) : OnCaller (x.map f) := by
  cases x with
  | ok a => exact ok _
  | error e =>
    intro e' h
    cases h
    exact hx e rfl

end OnCaller

namespace Expr

theorem onCaller_checkField (n : Nat) (e : Expr) : OnCaller (e.checkField n) := by
  unfold checkField
  split
  · split
    · exact .ok _
    · exact .invalid _
  · exact .invalid _

theorem onCaller_checkLiteral (e : Expr) : OnCaller e.checkLiteral := by
  cases e with
  | literal l => exact .ok _
  | _ => exact .invalid _

theorem onCaller_checkConstraint (e : Expr) : OnCaller e.checkConstraint := by
  unfold checkConstraint
  split
  · split
    · exact .ok _
    · exact .invalid _
  · exact .ok _
  · exact .invalid _

theorem onCaller_checkQuery (n : Nat) (e : Expr) : OnCaller (e.checkQuery n) := by
  induction e with
  | binary op l r hl hr =>
    unfold checkQuery
    split
    · exact (onCaller_checkField n l).bind fun _ => onCaller_checkLiteral r
    · split
      · exact hl.bind fun _ => hr
      · exact .invalid _
  | _ => exact .invalid _

theorem onCaller_checkConfiguration (n : Nat) (e : Expr) : OnCaller (e.checkConfiguration n) := by
  unfold checkConfiguration
  split
  · exact (onCaller_checkField n _).bind fun _ => onCaller_checkConstraint _
  · exact .invalid _

theorem onCaller_check (g : Grammar) (n : Nat) (e : Expr) : OnCaller (e.check g n) := by
  cases g with
  | query => exact onCaller_checkQuery n e
  | configuration => exact onCaller_checkConfiguration n e

theorem onCaller_fieldNameAt (t : RecordType) (i : Nat) : OnCaller (t.fieldNameAt i) := by
  unfold RecordType.fieldNameAt
  split
  · exact .ok _
  · exact .invalid _

theorem onCaller_condition (t : RecordType) (e : Expr) : OnCaller (e.condition t) := by
  induction e with
  | field i => exact onCaller_fieldNameAt t i
  | literal l => exact .ok _
  | constraint c => exact .invalid _
  | binary op l r hl hr =>
    unfold condition
    split
    · exact .invalid _
    · exact hl.bind fun _ => hr.bind fun _ => .ok _

end Expr

namespace Query

theorem onCaller_conditions (t : RecordType) (fs : List Filter) : OnCaller (conditions t fs) := by
  induction fs with
  | nil => exact .ok _
  | cons f fs ih =>
    exact (Expr.onCaller_check .query _ _).bind fun _ =>
      (Expr.onCaller_condition t _).bind fun _ => ih.bind fun _ => .ok _

theorem onCaller_sortKeys (t : RecordType) (ks : List SortKey) : OnCaller (sortKeys t ks) := by
  induction ks with
  | nil => exact .ok _
  | cons k ks ih => exact (Expr.onCaller_fieldNameAt t _).bind fun _ => ih.bind fun _ => .ok _

theorem onCaller_select (t : RecordType) (q : Query) : OnCaller (q.select t) := by
  refine (onCaller_conditions t _).bind fun _ => OnCaller.bind ?_ fun _ => .ok _
  unfold orderClause
  split
  · exact .ok _
  · exact (onCaller_sortKeys t _).map _

theorem onCaller_count (t : RecordType) (q : Query) : OnCaller (q.count t) :=
  (onCaller_conditions t _).bind fun _ => .ok _

end Query

theorem RecordType.onCaller_createSql (t : RecordType) (s : ConstraintStore) (columnType : Kind → ColumnType) :
    OnCaller (t.createSql s columnType) := by
  intro e h
  obtain ⟨why, rfl⟩ := createSql_eq_error h
  rfl

namespace Registry

theorem onCaller_checkAll (t : RecordType) (es : List Expr) : OnCaller (checkAll t es) := by
  induction es with
  | nil => exact .ok _
  | cons e es ih => exact (Expr.onCaller_check .configuration _ e).bind fun _ => ih

theorem onCaller_assignAll {t : RecordType} {es : List Expr} (h : checkAll t es = .ok ())
    (s : ConstraintStore) : OnCaller (Action.outcome (assignAll t es s)) := by
  rw [checkAll_eq_ok_iff] at h
  induction es generalizing s with
  | nil => exact .ok _
  | cons e es ih =>
    rw [List.forall_mem_cons] at h
    rcases Expr.registration_cases h.1 with ⟨x, hx⟩ | ⟨-, i, c, rfl, hi, -⟩
    · rw [assignAll_cons hx]
      exact ih h.2 _
    · rw [assignAll_unregistered hi]
      exact .invalid _

theorem onCaller_configure (t : RecordType) (es : List Expr) (r : Registry) :
    OnCaller (Action.outcome (configure t es r)) := by
  cases h : checkAll t es with
  | error x =>
    rw [configure_rejected h]
    intro e he
    cases he
    exact onCaller_checkAll t es x h
  | ok =>
    rw [configure_checked h, Action.outcome_on]
    exact onCaller_assignAll h _

end Registry

/-- Whatever keeps the requests of an operation from being written, it is no error of execution. -/
theorem Operation.onCaller_requests (op : Operation) (r : Registry) (marker : Nat → Kind → String)
    (columnType : Kind → ColumnType) : OnCaller (op.requests r marker columnType) := by
  cases op with
  | configure t es => exact (Registry.onCaller_configure t es r).bind fun _ => .ok _
  | createTable t => exact (t.onCaller_createSql _ _).bind fun _ => .ok _
  | createTableWith t es =>
    exact (Registry.onCaller_configure t es r).bind fun _ => (t.onCaller_createSql _ _).bind fun _ => .ok _
  | objects t q => exact (Query.onCaller_select t q).bind fun _ => .ok _
  | object t q => exact (Query.onCaller_select t _).bind fun _ => .ok _
  | count t q => exact (Query.onCaller_count t q).bind fun _ => .ok _
  | _ => exact .ok _

end Rowmap
