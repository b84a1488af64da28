import Rowmap.Backend.Basic
/-! Sessions on a server that answers every statement with rows set beforehand and writes down what it received.
Parameters are sent with their types. How the contents of a column are read is decided by the name that the driver
gives to the type of the column; the naming is the driver's own, so it is a part of the connection. -/

namespace Rowmap

inductive Parameter where
  | null
  | bool (b : Bool)
  | int8 (n : Int)
  | float8 (x : Double)
  | text (s : String)
deriving DecidableEq, Repr

/-- Integers beyond 64 bits with a sign are sent as floats, arrays and objects as their text. -/
def Parameter.ofValue : Value → Parameter
  | .null => null
  | .bool b => bool b
  | .integer n => if fitsWord n then int8 n else float8 (.ofInt n)
  | .real x => float8 x.val
  | .text s => text s
  | .array vs => text (Value.array vs).compact
  | .object ms => text (Value.object ms).compact

/-- Column types by their names in the catalogue of the server. -/
inductive RemoteType where
  | int2 | int4 | int8 | float4 | float8 | bool
  | bpchar | varchar | text | name | unknown
  | bytea | numeric | uuid | date | json
deriving DecidableEq, Repr

namespace RemoteType

@[reducible] def Val : RemoteType → Type
  | int2 => IntegerType.int16.Val
  | int4 => IntegerType.int32.Val
  | int8 => IntegerType.int64.Val
  | float4 => Single
  | float8 => Double
  | bool => Bool
  | _ => String

/-- The name that the driver gives a type, which need not be that of the catalogue. -/
def label : RemoteType → String
  | int2 => "INT2" | int4 => "INT4" | int8 => "INT8"
  | float4 => "FLOAT4" | float8 => "FLOAT8" | bool => "BOOL"
  | bpchar => "CHAR" | varchar => "VARCHAR" | text => "TEXT" | name => "NAME" | unknown => "UNKNOWN"
  | bytea => "BYTEA" | numeric => "NUMERIC" | uuid => "UUID" | date => "DATE" | json => "JSON"

/-- The contents as those of another type, which they are only if the types are one. -/
def as (t u : RemoteType) (v : t.Val) : Except Error u.Val :=
  if h : t = u then .ok (h ▸ v) else .error .driver

def asText : (t : RemoteType) → t.Val → Except Error String
  | bpchar, s | varchar, s | text, s | name, s | unknown, s => .ok s
  | _, _ => .error .driver

/-- The value that contents are read as, by the name of their type. The padding at the end of a text is taken off
under one name, and under all that are not known the text is taken whole. -/
def read (typeName : RemoteType → String) (t : RemoteType) (v : t.Val) : Except Error Value :=
  match typeName t with
  | "INT2" => (t.as int2 v).map fun n => .integer n.val
  | "INT4" => (t.as int4 v).map fun n => .integer n.val
  | "INT8" => (t.as int8 v).map fun n => .integer n.val
  | "FLOAT4" => (t.as float4 v).map fun x => .ofDouble x.toDouble
  | "FLOAT8" => (t.as float8 v).map .ofDouble
  | "BOOL" => (t.as bool v).map .bool
  | "BPCHAR" => (t.asText v).map fun s => .text (Text.stripped s)
  | _ => (t.asText v).map .text

end RemoteType

structure Datum where
  type : RemoteType
  content : Option type.Val

namespace Datum

def read (typeName : RemoteType → String) : Datum → Except Error Value
  | ⟨_, none⟩ => .ok .null
  | ⟨t, some v⟩ => t.read typeName v

def word? : Datum → Option Int
  | ⟨.int8, some n⟩ => some n.val
  | _ => none

end Datum

structure Remote where
  log : List (String × List Parameter) := []
  rows : List (List (String × Datum)) := []
  affected : Nat := 1
  refusing : Bool := false
  typeName : RemoteType → String := RemoteType.label

namespace Remote

/-- Sends a statement; also one that is refused is written down. -/
def send {α : Type} (s : Statement) (answer : Remote → Except Error α) : Action Remote α := fun r =>
  let after := { r with log := r.log ++ [(s.sql, s.params.map Parameter.ofValue)], refusing := false }
  if r.refusing then .error .driver after
  else
    match answer r with
    | .ok a => .ok a after
    | .error e => .error e after

theorem after_send {α : Type} (s : Statement) (answer : Remote → Except Error α) (r : Remote) :
    Action.after (send s answer r) =
      { r with log := r.log ++ [(s.sql, s.params.map Parameter.ofValue)], refusing := false } := by
  unfold send
  cases r.refusing with
  | true => rfl
  | false =>
    cases answer r with
    | ok a => rfl
    | error e => rfl

/-- Reads a row; of several columns of one name the last counts, but all have to be readable. -/
def readRow (typeName : RemoteType → String) (columns : List (String × Datum)) : Except Error Row := do
  return .ofList (← columns.mapM fun c => do return (c.1, ← c.2.read typeName))

def firstWord (r : Remote) : Except Error Int :=
  match (r.rows.head?).bind List.head? with
  | some (_, d) =>
    match d.word? with
    | some n => .ok n
    | none => .error .driver
  | none => .error .driver

instance : Backend Remote where
  marker _ := Backend.typedMarker ColumnType.ofKindWide
  columnType _ := ColumnType.ofKindWide
  execute s := send s fun r => .ok r.affected
  query sql := send (.plain sql) fun r => r.rows.mapM (readRow r.typeName)
  scalar sql := send (.plain sql) firstWord
  connected _ := true

end Remote

end Rowmap
