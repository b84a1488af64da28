import Rowmap.Action
import Rowmap.Constraint.Store
import Rowmap.Expr.Grammar
import Rowmap.Record.Basic
import Rowmap.Text.Basic
/-! What a tree does: a predicate is the condition of a statement, and a configuration works on a constraint store.

The parts of a condition stand in order, one blank between them and no parentheses, so trees with the same leaves and
operators in order have the same text. In a configuration a field on the left becomes the target, and a constraint on
the right is added to the target. The target outlives the tree that set it, so one that is left over can be met by the
next tree. -/

namespace Rowmap

def Literal.condition : Literal → String
  | integer n => String.ofList (Decimal.intText n)
  | unsigned n => String.ofList (Decimal.natText n)
  | text s => Text.quote s

namespace Expr

def condition (t : RecordType) : Expr → Except Error String
  | field i => t.fieldNameAt i
  | literal l => .ok l.condition
  | constraint c => invalid (.constraintInQuery c)
  | binary op l r =>
    if op = .assign then invalid .assignmentInQuery
    else do
      let a ← l.condition t
      let b ← r.condition t
      return a ++ " " ++ op.symbol ++ " " ++ b

end Expr

structure Assignment where
  target : Option String
  store : ConstraintStore

namespace Expr

def addition (field : String) : Constraint → Except Error ConstraintStore.Addition
  | .notNull => .ok (.notNull field)
  | .unique => .ok (.unique field)
  | .primaryKey => .ok (.primaryKey field)
  | .foreignKey r =>
    match r.column with
    | some c => .ok (.foreignKey field ⟨r.table, c⟩)
    | none => invalid (.unresolvedReference r)

def currentTarget (a : Assignment) : Except Error String :=
  match a.target with
  | some f => .ok f
  | none => invalid .noTarget

/-- Runs the tree, left before right. -/
def assign (t : RecordType) : Expr → Action Assignment Bool
  | field i => do
    let name ← t.fieldNameAt i
    modify fun a => { a with target := some name }
    return true
  | literal l => throw (.invalidExpression (.literalInConfiguration l))
  | constraint c => do
    let f ← currentTarget (← get)
    let x ← addition f c
    modify fun a => { a with store := a.store.add x }
    return true
  | binary op l r =>
    if op = .assign then do
      let a ← l.assign t
      let b ← r.assign t
      return a && b
    else throw (.invalidExpression (.operatorInConfiguration op))

def assignOn (t : RecordType) (e : Expr) : Action ConstraintStore Bool := fun s =>
  match e.assign t ⟨none, s⟩ with
  | .ok b a => .ok b a.store
  | .error x a => .error x a.store

end Expr

end Rowmap
