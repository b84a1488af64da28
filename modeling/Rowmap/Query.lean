import Rowmap.Expr.Evaluation
import Rowmap.Schema.Table
/-! Queries over the table of a record type: filters, order, limit and offset, each built up on its
own. Filters are joined in the order in which they came, without parentheses. -/

namespace Rowmap

inductive Connective where
  | and
  | or
deriving DecidableEq, Repr

inductive Direction where
  | ascending
  | descending
deriving DecidableEq, Repr

def Connective.sql : Connective → String
  | and => "AND"
  | or => "OR"

def Connective.inspect : Connective → String
  | and => "And"
  | or => "Or"

def Direction.sql : Direction → String
  | ascending => "ASC"
  | descending => "DESC"

def Direction.inspect : Direction → String
  | ascending => "Asc"
  | descending => "Desc"

structure SortKey where
  field : Nat
  direction : Direction
deriving DecidableEq, Repr

/-- A predicate and how it is joined to those before it; the first one is not. -/
structure Filter where
  connective : Option Connective
  predicate : Expr
deriving DecidableEq, Repr

def Filter.inspect (f : Filter) : String :=
  "(" ++ Text.inspectOption (f.connective.map Connective.inspect) ++ ", " ++ f.predicate.inspect ++ ")"

def SortKey.inspect (k : SortKey) : String :=
  "OrderBy \x7b field: " ++ toString k.field ++ ", direction: " ++ k.direction.inspect ++ " \x7d"

structure Query where
  filters : List Filter := []
  order : List SortKey := []
  limit : Option Nat := none
  offset : Option Nat := none
deriving DecidableEq, Repr

namespace Query

/-- Begins the filters anew. -/
def filter (q : Query) (e : Expr) : Query := { q with filters := [⟨none, e⟩] }

def join (q : Query) (c : Connective) (e : Expr) : Query :=
  { q with filters := q.filters ++ [⟨if q.filters.isEmpty then none else some c, e⟩] }

def orderBy (q : Query) (d : Direction) (fields : List Nat) : Query :=
  { q with order := q.order ++ fields.map (⟨·, d⟩) }

inductive Step where
  | filter (e : Expr)
  | join (c : Connective) (e : Expr)
  | orderBy (d : Direction) (fields : List Nat)
  | limit (n : Nat)
  | offset (n : Nat)

def step (q : Query) : Step → Query
  | .filter e => q.filter e
  | .join c e => q.join c e
  | .orderBy d fs => q.orderBy d fs
  | .limit n => { q with limit := some n }
  | .offset n => { q with offset := some n }

def ofSteps (steps : List Step) : Query := steps.foldl step {}

/-- The conditions of the filters, each held against the grammar before it is written. -/
def conditions (t : RecordType) : List Filter → Except Error String
  | [] => .ok ""
  | f :: fs => do
    f.predicate.check .query t.declared
    let c ← f.predicate.condition t
    let rest ← conditions t fs
    let lead := match f.connective with
      | none => " WHERE "
      | some k => " " ++ k.sql ++ " "
    return lead ++ c ++ rest

def sortKeys (t : RecordType) : List SortKey → Except Error (List String)
  | [] => .ok []
  | k :: ks => do
    let n ← t.fieldNameAt k.field
    let rest ← sortKeys t ks
    return (n ++ " " ++ k.direction.sql) :: rest

def orderClause (t : RecordType) (ks : List SortKey) : Except Error String :=
  if ks.isEmpty then .ok "" else (sortKeys t ks).map fun cs => " ORDER BY " ++ Table.commas cs

def limitClause : Option Nat → String
  | none => ""
  | some n => " LIMIT " ++ toString n

def offsetClause : Option Nat → String
  | none => ""
  | some n => " OFFSET " ++ toString n

def selectHeader (t : RecordType) : String :=
  "SELECT " ++ Table.commas t.memberNames ++ " FROM " ++ t.tableName

def countHeader (t : RecordType) : String := "SELECT COUNT(*) FROM " ++ t.tableName

def select (t : RecordType) (q : Query) : Except Error String := do
  let w ← conditions t q.filters
  let o ← orderClause t q.order
  return selectHeader t ++ w ++ o ++ limitClause q.limit ++ offsetClause q.offset

/-- The statement that counts the matching rows; order, limit and offset do not matter to it. -/
def count (t : RecordType) (q : Query) : Except Error String := do
  let w ← conditions t q.filters
  return countHeader t ++ w

def inspect (q : Query) : String :=
  "QueryFrom \x7b filters: " ++ Text.inspectList (q.filters.map Filter.inspect) ++ ", order_by: " ++
    Text.inspectList (q.order.map SortKey.inspect) ++ ", limit: " ++
    Text.inspectOption (q.limit.map toString) ++ ", offset: " ++
    Text.inspectOption (q.offset.map toString) ++ " \x7d"

end Query

end Rowmap
