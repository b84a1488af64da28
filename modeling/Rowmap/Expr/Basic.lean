import Rowmap.Record.Type
/-! Expression trees over the fields of a record type. Predicates compare a field with a literal and
are joined by conjunction; configurations assign a constraint to a field. The tree itself admits
every combination: which ones have a meaning is the grammar's business. -/

namespace Rowmap

inductive Literal where
  | integer (n : Int)
  | unsigned (n : Nat)
  | text (s : String)
deriving DecidableEq, Repr

/-- The column that a foreign key refers to. It is looked up when the key is written down, so a
placeholder outside the fields of the other type leaves no column. -/
structure Reference where
  table : String
  column : Option String
  index : Nat
deriving DecidableEq, Repr

inductive Constraint where
  | notNull
  | unique
  | primaryKey
  | foreignKey (r : Reference)
deriving DecidableEq, Repr

inductive Operator where
  | eq | ne | gt | lt | ge | le | and | assign
deriving DecidableEq, Repr

inductive Expr where
  | field (index : Nat)
  | literal (l : Literal)
  | constraint (c : Constraint)
  | binary (op : Operator) (left right : Expr)
deriving DecidableEq, Repr

namespace Literal

/-- The literal of a value: signed and narrow integers and truth values are signed, the widest
unsigned ones unsigned. Floats, texts of a set size and optional values have no literal. -/
def ofVal? : (t : FieldType) → t.Val → Option Literal
  | .integer .uint64, v => some (.unsigned v.val.toNat)
  | .integer .uintSize, v => some (.unsigned v.val.toNat)
  | .integer _, v => some (.integer v.val)
  | .bool, b => some (.integer (if b then 1 else 0))
  | .text, s => some (.text s)
  | _, _ => none

def inspect : Literal → String
  | integer n => "Integer(" ++ toString n ++ ")"
  | unsigned n => "Unsigned(" ++ toString n ++ ")"
  | text s => "Text(" ++ Text.inspect s ++ ")"

end Literal

namespace Reference

def ofField (t : RecordType) (index : Nat) : Reference where
  table := t.tableName
  column := t.fieldName? index
  index := index

def inspect (r : Reference) : String :=
  "Reference \x7b table: " ++ Text.inspect r.table ++ ", column: " ++
    Text.inspectOption (r.column.map Text.inspect) ++ ", index: " ++ toString r.index ++ " \x7d"

end Reference

namespace Constraint

def inspect : Constraint → String
  | notNull => "NotNull"
  | unique => "Unique"
  | primaryKey => "PrimaryKey"
  | foreignKey r => "ForeignKey(" ++ r.inspect ++ ")"

end Constraint

namespace Operator

def isComparison : Operator → Bool
  | and | assign => false
  | _ => true

def symbol : Operator → String
  | eq => "=" | ne => "<>" | gt => ">" | lt => "<" | ge => ">=" | le => "<="
  | and => "AND" | assign => ":="

def inspect : Operator → String
  | eq => "Eq" | ne => "Ne" | gt => "Gt" | lt => "Lt" | ge => "Ge" | le => "Le"
  | and => "And" | assign => "Assign"

end Operator

namespace Expr

def inspect : Expr → String
  | field i => "Field(" ++ toString i ++ ")"
  | literal l => "Literal(" ++ l.inspect ++ ")"
  | constraint c => "Constraint(" ++ c.inspect ++ ")"
  | binary op l r =>
    "Binary \x7b op: " ++ op.inspect ++ ", left: " ++ l.inspect ++ ", right: " ++ r.inspect ++ " \x7d"

def inspectWhole (e : Expr) : String := "Expr(" ++ e.inspect ++ ")"

def allLeft : Expr → List Expr → Expr := List.foldl (.binary .and)

def allRight (e : Expr) : List Expr → Expr
  | [] => e
  | f :: fs => .binary .and e (allRight f fs)

end Expr

end Rowmap
