import Rowmap.Action
import Rowmap.Record.Basic
import Rowmap.Schema.Table
/-! Statements with the values bound to them, the insertion of a record, and what a session needs of a database
connection. -/

namespace Rowmap

structure Statement where
  sql : String
  params : List Value

namespace Statement

def plain (sql : String) : Statement := ⟨sql, []⟩

def markers (marker : Nat → Kind → String) : Nat → List Field → List String
  | _, [] => []
  | i, f :: fs => marker i f.kind :: markers marker (i + 1) fs

end Statement

namespace RecordType

/-- The text of an insertion, the same for all records of the type. Positions count from one. -/
def insertSql (t : RecordType) (marker : Nat → Kind → String) : String :=
  "INSERT INTO " ++ t.tableName ++ " (" ++ Table.commas t.memberNames ++ ") VALUES (" ++
    Table.commas (Statement.markers marker 1 t.fields) ++ ")"

end RecordType

def Record.insertion {t : RecordType} (o : Record t) (marker : Nat → Kind → String) : Statement :=
  ⟨t.insertSql marker, o.values⟩

class Backend (β : Type) where
  /-- The mark that stands for a parameter, by its position from one and the kind of its column. -/
  marker : β → Nat → Kind → String
  columnType : β → Kind → ColumnType
  execute : Statement → Action β Nat
  query : String → Action β (List Row)
  scalar : String → Action β Int
  connected : β → Bool

namespace Backend

def questionMark (_ : Nat) (_ : Kind) : String := "?"

def typedMarker (columnType : Kind → ColumnType) (position : Nat) (k : Kind) : String :=
  "$" ++ toString position ++ "::" ++ (columnType k).sql

def firstWord (sql : String) (rows : List Row) : Except Error Int :=
  match (rows.head?.bind Row.first?).bind Value.word? with
  | some n => .ok n
  | none => .error (.noInteger sql)

/-- How connections behave that are opened without settings. -/
structure Settings where
  maxConnections : Nat := 5
  foreignKeys : Bool := true
  createIfMissing : Bool := true
  busyMilliseconds : Nat := 5000

end Backend

end Rowmap
