import Rowmap.Backend.Basic
import Rowmap.Database.Basic
/-! Sessions on a database in memory. Statements reach it as text, so one that cannot be read is
refused like one that cannot be carried out. The columns of an answer go by the names that they had
when the same text was first sent. -/

namespace Rowmap

structure Embedded where
  database : Database := {}
  /-- The names of the columns by the texts that were sent. -/
  names : List (String × List (List String)) := []

namespace Embedded

/-- A row of an answer; of several columns of one name the last counts. -/
def toRow (cells : List (String × Cell)) : Row := Row.ofList (cells.map fun c => (c.1, c.2.toValue))

def listings (os : List Database.Outcome) : List Listing :=
  os.filterMap fun
    | .listing l => some l
    | .changed _ => none

/-- Carries out the commands of a text as far as they come. -/
def advance (sql : String) (params : List Cell) (s : Embedded) : Database.Progress × Embedded :=
  let p := s.database.runAll params (Command.read sql)
  let names := if !p.completed || (s.names.lookup sql).isSome then s.names
    else (sql, (listings p.outcomes).map (·.names)) :: s.names
  (p, ⟨p.database, names⟩)

def perform (sql : String) (params : List Cell) : Action Embedded (List Database.Outcome) := fun s =>
  let (p, s) := advance sql params s
  if p.completed then .ok p.outcomes s else .error .driver s

/-- What has been carried out stays, also where the rest is refused. -/
theorem after_perform (sql : String) (params : List Cell) (s : Embedded) :
    Action.after (perform sql params s) = (advance sql params s).2 := by
  unfold perform
  split
  next p s' h =>
    rw [h]
    split <;> rfl

def rowsOf (names : List (List String)) (ls : List Listing) : List Row :=
  (names.zip ls).flatMap fun p => p.2.rows.map fun cells => toRow (p.1.zip cells)

def changes : List Database.Outcome → Nat
  | [] => 0
  | .changed n :: os => n + changes os
  | .listing _ :: os => changes os

def word? (ls : List Listing) : Option Int :=
  match (ls.flatMap Listing.rows).head?.bind List.head? with
  | some (.integer n) => some n
  | _ => none

def query (sql : String) : Action Embedded (List Row) := do
  let ls := listings (← perform sql [])
  return rowsOf (((← get).names.lookup sql).getD []) ls

def scalar (sql : String) : Action Embedded Int := fun s =>
  let (p, s) := advance sql [] s
  match word? (listings p.outcomes) with
  | some n => .ok n s
  | none => .error .driver s

instance : Backend Embedded where
  marker _ := Backend.questionMark
  columnType _ := ColumnType.ofKind
  execute s := do return changes (← perform s.sql (s.params.map Cell.ofValue))
  query := query
  scalar := scalar
  connected _ := true

theorem after_execute (s : Statement) (e : Embedded) :
    Action.after (Backend.execute s e) = (advance s.sql (s.params.map Cell.ofValue) e).2 := by
  rw [← after_perform]
  show Action.after ((perform s.sql (s.params.map Cell.ofValue) >>= fun os => pure (changes os)) e) = _
  cases h : perform s.sql (s.params.map Cell.ofValue) e with
  | ok os e' =>
    rw [Action.bind_of_ok h]
    rfl
  | error x e' =>
    rw [Action.bind_of_error h]
    rfl

end Embedded

end Rowmap
