import Rowmap.Database.Plan
import Rowmap.Database.Relation
/-! The answer to a query over one table: its names are looked up first, and then the rows that
match are visited as planned, put into order, cut off and shown. -/

namespace Rowmap

def Operator.accepts : Operator → Ordering → Bool
  | eq, o => o = .eq
  | ne, o => o ≠ .eq
  | gt, o => o = .gt
  | lt, o => o = .lt
  | ge, o => o ≠ .lt
  | le, o => o ≠ .gt
  | and, _ => false
  | assign, _ => false

/-- A literal as a cell; an integer of more than 64 bits is a real. -/
def Operand.cell : Operand → Cell
  | .null => .null
  | .integer n => match Numeral.ofInt n with
    | .integer n => .integer n
    | .real x => .real x
  | .text s => .text s

inductive Meaning where
  | place (p : Place)
  | constant (o : Operand)
deriving DecidableEq, Repr

namespace Meaning

def place? : Meaning → Option Place
  | place p => some p
  | constant _ => none

def read (e : Entry) : Meaning → Cell
  | place p => e.read p
  | constant o => o.cell

end Meaning

structure Scope where
  definition : Definition
  /-- The names under which the part of the database with the table is known. -/
  schema : String
  names : List String

namespace Scope

def admits (s : Scope) : Option TableName → Bool
  | none => true
  | some t => t.schema.all (sameName s.schema) && s.names.any (sameName t.name)

/-- Words for the two truth values, where no column has the name. -/
def truth? (name : String) : Option Operand :=
  if sameName name "true" then some (.integer 1)
  else if sameName name "false" then some (.integer 0)
  else none

def column? (s : Scope) (c : ColumnName) : Option Meaning :=
  if !s.admits c.table then none
  else (s.definition.place? c.name).map .place

/-- What an expression stands for among items with names of their own. A name that is none of a
column is one of an item, or in double quotes a text. -/
def meaning? (s : Scope) (given : List (String × Meaning)) : Scalar → Option Meaning
  | .literal o => some (.constant o)
  | .column c =>
    s.column? c <|>
      if c.table.isSome then none
      else
        ((given.find? fun g => sameName g.1 c.name).map (·.2)) <|>
          if c.orText then some (.constant (.text c.name)) else (truth? c.name).map .constant

def nameOf (s : Scope) (label : Option String) (text : String) : Meaning → String
  | .place p => label.getD (s.definition.nameOf p)
  | .constant _ => label.getD text

def item? (s : Scope) : Item → Option (List (String × Meaning))
  | .all t =>
    if s.admits t then
      some (s.definition.columns.zipIdx.map fun c => (c.1.name, .place (s.definition.place c.2)))
    else none
  | .count _ => none
  | .value e label text => do
    let m ← s.meaning? [] e
    return [(s.nameOf label text m, m)]

def given (s : Scope) (items : List Item) : List (String × Meaning) :=
  items.filterMap fun
    | .value e (some label) _ => (s.meaning? [] e).map (label, ·)
    | _ => none

/-- What rows are put into order by: a name given to an item comes first, and an integer is the
position of an item. -/
def sortKey? (s : Scope) (given shown : List (String × Meaning)) : Scalar → Option Meaning
  | .literal (.integer n) => if 1 ≤ n then (shown[n.toNat - 1]?).map (·.2) else none
  | .literal o => some (.constant o)
  | .column c =>
    if c.table = none then
      ((given.find? fun g => sameName g.1 c.name).map (·.2)) <|> s.meaning? given (.column c)
    else s.meaning? given (.column c)

end Scope

structure Check where
  left : Meaning
  op : Operator
  right : Operand

namespace Check

def test (c : Check) : Test := ⟨c.left.place?, c.op, c.right, true⟩

/-- Whether the comparison holds for a row. With a null on either side it does not. -/
def holds (d : Definition) (e : Entry) (c : Check) : Bool :=
  let a := c.left.read e
  let b := match c.left with
    | .place p => (d.affinity p).literal c.right.cell
    | .constant _ => c.right.cell
  !a.isNull && !b.isNull && c.op.accepts (a.order b)

end Check

structure Resolution where
  shown : List (String × Meaning)
  alternatives : List (List Check)
  order : List (Meaning × Direction)
  limit : Option Nat
  offset : Option Nat

namespace Resolution

def inquiry (q : Resolution) : Inquiry where
  alternatives := q.alternatives.map fun a => a.map Check.test
  order := q.order.map fun k => (k.1.place?, k.2)
  columns :=
    let read := q.shown.map (·.2) ++ q.order.map (·.1) ++ q.alternatives.flatMap fun a => a.map (·.left)
    (read.filterMap fun
      | .place (.column i) => some i
      | _ => none).eraseDups
  width := q.shown.length
  limit := q.limit

def compareBy (key : List Place) (a b : Entry) : Ordering :=
  match key with
  | [] => compare a.number b.number
  | p :: ps => ((a.read p).order (b.read p)).then (compareBy ps a b)

def along (key : List Place) (rows : List Entry) : List Entry :=
  rows.mergeSort fun a b => compareBy key a b ≠ .gt

/-- The rows that match, as they are visited. -/
def visited (d : Definition) (q : Resolution) (rows : List Entry) : List Entry :=
  let matching (a : List Check) := rows.filter fun e => a.all (Check.holds d e)
  match Plan.choose d q.inquiry with
  | .along key reversed =>
    let rows := along key (rows.filter fun e => q.alternatives.any fun a => a.all (Check.holds d e))
    if reversed then rows.reverse else rows
  | .each keys => ((q.alternatives.zip keys).flatMap fun a => along a.2 (matching a.1)).eraseDups

def orderBy (keys : List (Meaning × Direction)) (a b : Entry) : Ordering :=
  match keys with
  | [] => .eq
  | (m, d) :: ks =>
    let o := (m.read a).order (m.read b)
    (match d with
      | .ascending => o
      | .descending => o.swap).then (orderBy ks a b)

end Resolution

/-- A limit or an offset is an integer of 64 bits. With a limit of zero there is no need to look at
the offset. -/
def cutOff? {α : Type} (limit offset : Option Nat) (rows : List α) : Option (List α) :=
  if limit = some 0 then some []
  else if fitsWord (limit.getD 0) ∧ fitsWord (offset.getD 0) then
    let rest := rows.drop (offset.getD 0)
    some (match limit with
      | some n => rest.take n
      | none => rest)
  else none

structure Listing where
  names : List String
  rows : List (List Cell)
deriving DecidableEq, Repr

namespace Selection

def checks? (s : Scope) (given : List (String × Meaning)) (c : Condition) :
    Option (List (List Check)) :=
  c.mapM fun a => a.mapM fun c => do return ⟨← s.meaning? given c.left, c.op, c.right⟩

def resolve? (q : Selection) (s : Scope) (items : List Item) : Option Resolution := do
  let shown ← items.mapM s.item?
  let given := s.given items
  let alternatives ← checks? s given q.condition
  let order ← q.order.mapM fun k => do return (← s.sortKey? given shown.flatten k.1, k.2)
  return ⟨shown.flatten, alternatives, order, q.limit, q.offset⟩

def count? (q : Selection) (s : Scope) (rows : List Entry) (name : String) : Option Listing := do
  let found ← q.resolve? s []
  let matching := rows.filter fun e => found.alternatives.any fun a => a.all (Check.holds s.definition e)
  return ⟨[name], ← cutOff? q.limit q.offset [[.integer matching.length]]⟩

def rows? (q : Selection) (s : Scope) (rows : List Entry) : Option Listing := do
  let found ← q.resolve? s q.items
  let sorted := (found.visited s.definition rows).mergeSort fun a b =>
    Resolution.orderBy found.order a b ≠ .gt
  let rows ← cutOff? q.limit q.offset sorted
  return ⟨found.shown.map (·.1), rows.map fun e => found.shown.map fun c => c.2.read e⟩

def listing? (q : Selection) (r : Relation) : Option Listing :=
  let s : Scope := ⟨r.definition, if r.temporary then "temp" else "main",
    [q.label.getD r.definition.name]⟩
  match q.items with
  | [.count name] => q.count? s r.rows name
  | _ => q.rows? s r.rows

end Selection

end Rowmap
