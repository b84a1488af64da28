import Rowmap.Query
/-! What a database is told to do, apart from its text. A condition is a list of alternatives, each
a list of comparisons that hold together, and one without any condition has a single alternative
with nothing in it. -/

namespace Rowmap

structure TableName where
  schema : Option String
  name : String
deriving DecidableEq, Repr

structure ColumnName where
  table : Option TableName
  name : String
  /-- In double quotes a name that no column has is a text. -/
  orText : Bool
deriving DecidableEq, Repr

inductive Operand where
  | null
  | integer (n : Int)
  | text (s : String)
deriving DecidableEq, Repr

inductive Scalar where
  | column (c : ColumnName)
  | literal (o : Operand)
deriving DecidableEq, Repr

structure Comparison where
  left : Scalar
  op : Operator
  right : Operand
deriving DecidableEq, Repr

abbrev Condition : Type := List (List Comparison)

/-- What a query shows, with its text where no name is given to it. -/
inductive Item where
  | all (table : Option TableName)
  | count (name : String)
  | value (s : Scalar) (label : Option String) (text : String)
deriving DecidableEq, Repr

structure Selection where
  items : List Item
  source : TableName
  label : Option String
  condition : Condition
  order : List (Scalar × Direction)
  limit : Option Nat
  offset : Option Nat
deriving DecidableEq, Repr

structure ColumnDefinition where
  name : String
  /-- The type as it is written, empty for a column without one. -/
  type : String
  notNull : Bool
  unique : Bool
deriving DecidableEq, Repr

structure Definition where
  name : String
  columns : List ColumnDefinition
  primaryKey : List String
  foreignKeys : List ForeignKey
  text : String
deriving DecidableEq, Repr

inductive Command where
  /-- A new table. If strict, one that is there already is refused. -/
  | create (schema : Option String) (d : Definition) (strict : Bool)
  | drop (table : TableName) (strict : Bool)
  | insert (table : TableName) (columns : List String)
  | select (s : Selection)
  | describe (table : String)
deriving DecidableEq, Repr

/-! How deep an expression is. Parts that stand side by side are nested to the left. -/

def ColumnName.depth (c : ColumnName) : Nat :=
  match c.table with
  | none => 1
  | some t => if t.schema.isSome then 3 else 2

def Operand.depth : Operand → Nat
  | integer n => if n < 0 then 2 else 1
  | _ => 1

def Scalar.depth : Scalar → Nat
  | column c => c.depth
  | literal o => o.depth

def Comparison.depth (c : Comparison) : Nat := max c.left.depth c.right.depth + 1

def nestedDepth : List Nat → Nat
  | [] => 0
  | d :: ds => ds.foldl (fun whole part => max whole part + 1) d

def Condition.depth (c : Condition) : Nat :=
  nestedDepth (c.map fun cs => nestedDepth (cs.map Comparison.depth))

end Rowmap
