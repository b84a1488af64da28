import Rowmap.Database.Definition
/-! A table with its rows, which stand in the order of their numbers. -/

namespace Rowmap

structure Entry where
  number : Int
  cells : List Cell
deriving DecidableEq, Repr

namespace Entry

def cell (e : Entry) (i : Nat) : Cell := e.cells[i]?.getD .null

def read (e : Entry) : Place → Cell
  | .number => .integer e.number
  | .column i => e.cell i

/-- Whether two rows agree in a group of columns. A null agrees with nothing. -/
def agrees (key : List Nat) (a b : Entry) : Bool :=
  key.all fun i => !(a.cell i).isNull && (a.cell i).order (b.cell i) = .eq

end Entry

structure Relation where
  definition : Definition
  /-- Whether it belongs to the part of the database that is gone with the connection. -/
  temporary : Bool
  rows : List Entry
deriving DecidableEq, Repr

namespace Relation

def nextNumber? (r : Relation) : Option Int :=
  match r.rows.getLast? with
  | some e => if fitsWord (e.number + 1) then some (e.number + 1) else none
  | none => some 1

/-- The number of a new row. Of several values for it the last counts. -/
def number? (r : Relation) (places : List Place) (params : List Cell) : Option Int :=
  match ((places.zip params).reverse.lookup .number).getD .null with
  | .null => r.nextNumber?
  | c =>
    match Affinity.numeric.store c with
    | .integer n => some n
    | _ => none

/-- The cells of a new row. Of several values for a column the first counts, and a column without
one is null. -/
def arrange (d : Definition) (number : Int) (places : List Place) (params : List Cell) : List Cell :=
  (List.range d.columns.length).map fun i =>
    if d.place i = .number then .integer number
    else (d.affinity (.column i)).store (((places.zip params).lookup (.column i)).getD .null)

def isFilled (d : Definition) (e : Entry) : Bool :=
  (d.columns.zip e.cells).all fun p => !p.1.notNull || !p.2.isNull

def placed (r : Relation) (e : Entry) : List Entry :=
  r.rows.takeWhile (·.number < e.number) ++ e :: r.rows.dropWhile (·.number < e.number)

/-- Adds a row by the values of some columns, and gives the row as it was stored. -/
def insert? (r : Relation) (columns : List String) (params : List Cell) :
    Option (Entry × Relation) := do
  let d := r.definition
  let places ← columns.mapM d.place?
  let n ← r.number? places params
  let e : Entry := ⟨n, arrange d n places params⟩
  if isFilled d e && !r.rows.any (·.number = n) &&
      d.indexes.all fun key => !r.rows.any (e.agrees key) then
    some (e, { r with rows := r.placed e })
  else none

end Relation

end Rowmap
