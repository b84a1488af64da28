import Rowmap.Constraint.Store
import Rowmap.Field.Type
import Rowmap.Record.Basic
/-! Table definitions: the fields of a record type together with its constraints, and the statements that create and
drop the table. -/

namespace Rowmap

inductive ColumnType where
  | integer
  | real
  /-- A float of eight bytes, where `real` has four. -/
  | double
  | varchar
  | char (size : Nat)
deriving DecidableEq, Repr

namespace ColumnType

def ofKind : Kind → ColumnType
  | .integer => integer
  | .real => real
  | .text => varchar
  | .fixedText n => char n

/-- The types where a plain real is too narrow for a field of kind real. -/
def ofKindWide : Kind → ColumnType
  | .real => double
  | k => ofKind k

def sql : ColumnType → String
  | integer => "INTEGER"
  | real => "REAL"
  | double => "DOUBLE PRECISION"
  | varchar => "VARCHAR"
  | char n => "CHAR(" ++ toString n ++ ")"

end ColumnType

structure Column where
  name : String
  type : ColumnType
  notNull : Bool
  unique : Bool
deriving DecidableEq, Repr

def Column.sql (c : Column) : String :=
  c.name ++ " " ++ c.type.sql ++ (if c.notNull then " NOT NULL" else "") ++
    if c.unique then " UNIQUE" else ""

structure ForeignKey where
  column : String
  table : String
  target : String
deriving DecidableEq, Repr

def ForeignKey.sql (k : ForeignKey) : String :=
  "FOREIGN KEY (" ++ k.column ++ ") REFERENCES " ++ k.table ++ "(" ++ k.target ++ ")"

structure Table where
  name : String
  columns : List Column
  primaryKey : List String
  foreignKeys : List ForeignKey
deriving DecidableEq, Repr

namespace Table

def commas (items : List String) : String := ", ".intercalate items

def ofRecordType (t : RecordType) (s : ConstraintStore) (columnType : Kind → ColumnType) : Table where
  name := t.tableName
  columns := t.fields.map fun f =>
    ⟨f.name, columnType f.kind, s.isNotNull f.name, s.isUnique f.name⟩
  primaryKey := s.primaryKey
  foreignKeys := s.foreignKeys.map fun k => ⟨k.1, k.2.table, k.2.column⟩

/-- The columns, the primary key if there is one, and the foreign keys. -/
def clauses (t : Table) : List String :=
  t.columns.map Column.sql ++
    (if t.primaryKey.isEmpty then [] else ["PRIMARY KEY (" ++ commas t.primaryKey ++ ")"]) ++
    t.foreignKeys.map ForeignKey.sql

def sql (t : Table) : String :=
  "CREATE TABLE IF NOT EXISTS " ++ t.name ++ " (" ++ commas t.clauses ++ ")"

end Table

namespace RecordType

/-- The statement that creates the table, for a type whose fields are those declared. -/
def createSql (t : RecordType) (s : ConstraintStore) (columnType : Kind → ColumnType) :
    Except Error String := do
  t.checkMembers
  return (Table.ofRecordType t s columnType).sql

def dropSql (t : RecordType) : String := "DROP TABLE IF EXISTS " ++ t.tableName

end RecordType

end Rowmap
