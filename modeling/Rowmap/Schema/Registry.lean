import Rowmap.Expr.Evaluation
import Rowmap.Schema.Table
/-! The constraint stores of all configured record types. A batch of configurations is checked as a
whole before any of it is put to work. -/

namespace Rowmap

structure Registry where
  /-- One store for each configured type, in the order in which they were first configured. -/
  stores : List (RecordType × ConstraintStore)

namespace Registry

def empty : Registry := ⟨[]⟩

def store? (r : Registry) (t : RecordType) : Option ConstraintStore := r.stores.lookup t

def constraints (r : Registry) (t : RecordType) : ConstraintStore := (r.store? t).getD .empty

def size (r : Registry) : Nat := r.stores.length

def put (t : RecordType) (s : ConstraintStore) :
    List (RecordType × ConstraintStore) → List (RecordType × ConstraintStore)
  | [] => [(t, s)]
  | (u, w) :: rest => if u = t then (t, s) :: rest else (u, w) :: put t s rest

def withStore (r : Registry) (t : RecordType) (s : ConstraintStore) : Registry := ⟨put t s r.stores⟩

/-- Runs the configurations of a batch one after another, each with no target to begin with. -/
def assignAll (t : RecordType) : List Expr → Action ConstraintStore Unit
  | [] => pure ()
  | e :: es => do
    if ← e.assignOn t then assignAll t es
    else throw (.invalidExpression (.notApplied t.tableName))

def checkAll (t : RecordType) : List Expr → Except Error Unit
  | [] => .ok ()
  | e :: es => do
    e.check .configuration t.declared
    checkAll t es

/-- Registers a batch for a type. A batch with an expression outside the grammar changes nothing. -/
def configure (t : RecordType) (es : List Expr) : Action Registry Unit := do
  checkAll t es
  Action.on (constraints · t) (fun s r => r.withStore t s) (assignAll t es)

def tableOf (r : Registry) (t : RecordType) : Table :=
  Table.ofRecordType t (r.constraints t) ColumnType.ofKind

def createSql (r : Registry) (t : RecordType) (columnType : Kind → ColumnType) :
    Except Error String :=
  t.createSql (r.constraints t) columnType

def inspect (r : Registry) : String :=
  "SchemaRegistry \x7b configured_tables: " ++ toString r.size ++ " \x7d"

end Registry

end Rowmap
