import Rowmap.Error
/-! Which trees have a meaning.

A query is a comparison of a field with a literal, or a conjunction of queries. A configuration
assigns a constraint to a field. Indices are held against the number of declared fields. -/

namespace Rowmap

inductive Grammar where
  | query
  | configuration
deriving DecidableEq, Repr

namespace Expr

def invalid {α : Type} (why : ExprFault) : Except Error α := .error (.invalidExpression why)

def checkField (declared : Nat) : Expr → Except Error Unit
  | field i => if i < declared then .ok () else invalid (.undeclaredField i declared)
  | e => invalid (.notField e)

def checkLiteral : Expr → Except Error Unit
  | literal _ => .ok ()
  | e => invalid (.comparisonRight e)

def checkConstraint : Expr → Except Error Unit
  | constraint (.foreignKey r) =>
    if r.column.isSome then .ok () else invalid (.unresolvedReference r)
  | constraint _ => .ok ()
  | e => invalid (.assignmentRight e)

def checkQuery (declared : Nat) : Expr → Except Error Unit
  | binary op l r =>
    if op.isComparison then do
      l.checkField declared
      r.checkLiteral
    else if op = .and then do
      l.checkQuery declared
      r.checkQuery declared
    else invalid (.operatorInQuery op)
  | e => invalid (.notPredicate e)

def checkConfiguration (declared : Nat) : Expr → Except Error Unit
  | binary .assign l r => do
    l.checkField declared
    r.checkConstraint
  | e => invalid (.notAssignment e)

/-- Reports the first offending part. -/
def check (g : Grammar) (declared : Nat) (e : Expr) : Except Error Unit :=
  match g with
  | .query => e.checkQuery declared
  | .configuration => e.checkConfiguration declared

def conforms (g : Grammar) (declared : Nat) (e : Expr) : Bool := (e.check g declared).isOk

end Expr

end Rowmap
