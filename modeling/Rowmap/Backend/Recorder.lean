import Rowmap.Backend.Basic
/-! A backend that writes down every statement it is given, answers queries with rows set
beforehand, and fails when it has been told to. -/

namespace Rowmap

structure Recorder where
  /-- Connections are numbered in the order in which they were opened. -/
  number : Nat
  /-- Whether markers carry a number and a type, and reals take eight bytes. -/
  typed : Bool
  log : List Statement := []
  rows : List Row := []
  connected : Bool := true
  /-- Failures to come: how many statements succeed before each, counted from the one before. -/
  failures : List (Nat × Error) := []

namespace Recorder

def foresee : List (Nat × Error) → Option Error × List (Nat × Error)
  | [] => (none, [])
  | (0, e) :: fs => (some e, fs)
  | (n + 1, e) :: fs => (none, (n, e) :: fs)

/-- Writes a statement down, also one that is about to fail. -/
def record {α : Type} (s : Statement) (answer : Recorder → α) : Action Recorder α := fun r =>
  let after := { r with log := r.log ++ [s], failures := (foresee r.failures).2 }
  match (foresee r.failures).1 with
  | none => .ok (answer r) after
  | some e => .error e after

def columnType (r : Recorder) : Kind → ColumnType :=
  if r.typed then ColumnType.ofKindWide else ColumnType.ofKind

def query (sql : String) : Action Recorder (List Row) := record (.plain sql) Recorder.rows

instance : Backend Recorder where
  marker r := if r.typed then Backend.typedMarker r.columnType else Backend.questionMark
  columnType := columnType
  execute s := record s fun _ => 1
  query := query
  scalar sql := do
    let rows ← query sql
    Backend.firstWord sql rows
  connected := Recorder.connected

/-- What the address asks of a connection: the most that may be opened, and typed markers. -/
structure Address where
  limit : Option Nat
  typed : Bool

def after? : List Char → List Char → Option (List Char)
  | [], s => some s
  | p :: ps, c :: s => if p = c then after? ps s else none
  | _ :: _, [] => none

def address? (url : String) : Option Address := do
  let path ← after? "mock://".toList url.toList
  let limit := do
    let digits ← after? "max/".toList path
    if digits ≠ [] ∧ digits.all Char.isDigit then some (Decimal.natOf 0 digits) else none
  return ⟨limit, (after? "numbered".toList path).isSome⟩

/-- Opens a connection; the state is the number of those opened before. -/
def connect (url : String) : Action Nat Recorder := fun opened =>
  match address? url with
  | none => .error (.connection (.unsupportedAddress url)) opened
  | some a =>
    if a.limit.any (· ≤ opened) then .error (.connection .tooMany) opened
    else .ok { number := opened, typed := a.typed } (opened + 1)

end Recorder

end Rowmap
