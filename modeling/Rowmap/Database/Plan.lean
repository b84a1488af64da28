import Rowmap.Database.Definition
import Rowmap.Query
/-! In which order the rows of a table are visited. A query that asks for no order, or for one that leaves rows level,
gives them as they are come by: by their numbers, by an index, or alternative by alternative. Of all ways to come by
the rows the one of the least estimated cost is taken. Sizes and costs are on a logarithmic scale, ten to a doubling,
as whole numbers; what rounding they bring along is part of them, as exactly these numbers are compared. -/

namespace Rowmap

abbrev Estimate : Type := Int

namespace Estimate

/-- What the three bits behind the leading one add. -/
def fraction : List Int := [0, 2, 3, 5, 6, 7, 8, 9]

/-- Ten times the logarithm of `n` in base two. -/
def ofNat (n : Nat) : Estimate :=
  if n < 2 then 0
  else
    let eighths := 8 * n / Nat.pow 2 n.log2
    10 * (n.log2 : Int) + fraction[eighths - 8]?.getD 0

/-- What a sum adds to the greater of two estimates, by how far they are apart. -/
def excess : List Int :=
  [10, 10, 9, 9, 8, 8, 7, 7, 7, 6, 6, 6, 5, 5, 5, 4, 4, 4, 4, 3, 3, 3, 3, 3, 3, 2, 2, 2, 2, 2, 2, 2]

def sum (a b : Estimate) : Estimate :=
  let apart := (max a b - min a b).toNat
  max a b + excess[apart]?.getD (if apart ≤ 49 then 1 else 0)

def logarithm (n : Estimate) : Estimate := if n ≤ 10 then 0 else ofNat n.toNat - 33

/-- The number of rows that a table is taken to have. -/
def rows : Estimate := 200

def seek : Estimate := logarithm rows

end Estimate

/-- A comparison of a place with a literal; one without a place compares two literals. -/
structure Test where
  place : Option Place
  op : Operator
  literal : Operand
  /-- Whether it is reckoned with; not so if a test of the same place for a value settles it. -/
  counts : Bool := true
deriving DecidableEq, Repr

structure Inquiry where
  alternatives : List (List Test)
  order : List (Option Place × Direction)
  columns : List Nat
  width : Nat
  limit : Option Nat
deriving DecidableEq, Repr

/-- How the rows are visited: in the order of some places and then of their numbers, or the rows of
each alternative in turn, every row once. -/
inductive Plan where
  | along (key : List Place) (reversed : Bool)
  | each (keys : List (List Place))
deriving DecidableEq, Repr

namespace Plan

/-- The row numbers, or an index that can be searched. -/
structure Path where
  key : List Place
  byNumber : Bool
  /-- How much fewer rows are left with each place held to a value. -/
  steps : List Estimate
  entry : Estimate
  /-- Whether every entry leads to a row that has to be read as well. -/
  indirect : Bool
  /-- Which of the paths that serve the order asked for it is; zero for one that does not. -/
  group : Nat
deriving DecidableEq, Repr

/-- Estimates of the rows that agree in a column, in two, and so on. -/
def agreeing : List Estimate := [33, 32, 30, 28, 26]

def steps (columns : Nat) : List Estimate :=
  let levels := Estimate.rows ::
    (List.range columns).map fun i => if i + 1 = columns then 0 else agreeing[i]?.getD 23
  (levels.zip (levels.drop 1)).map fun p => p.2 - p.1

/-- What a row of columns of some types takes, and one place for a number beside them. -/
def width (types : List String) (numbered : Bool) : Estimate :=
  .ofNat (4 * types.foldl (fun n t => n + Affinity.width t) (if numbered then 1 else 0))

def tableWidth (d : Definition) : Estimate :=
  width (d.columns.map (·.type)) d.numbering?.isNone

def indexWidth (d : Definition) (columns : List Nat) : Estimate :=
  width (columns.map d.type) true

def numberPath : Path where
  key := [.number]
  byNumber := true
  steps := [-Estimate.rows]
  entry := 16
  indirect := false
  group := 1

def indexPath (d : Definition) (q : Inquiry) (columns : List Nat) (position : Nat) : Path where
  key := columns.map d.place
  byNumber := false
  steps := steps columns.length
  entry := 1 + 15 * indexWidth d columns / tableWidth d
  indirect := !q.columns.all (· ∈ columns)
  group := position + 2

def serves (q : Inquiry) (p : Path) : Bool :=
  q.order.any fun k => k.1 = some .number || (!p.byNumber && k.1.any (· ∈ p.key))

/-- The row numbers, then the indexes, the latest first. -/
def paths (d : Definition) (q : Inquiry) : List Path :=
  let indexes := d.indexes.reverse.zipIdx.map fun c => indexPath d q c.1 c.2
  (numberPath :: indexes).map fun p => { p with group := if serves q p then p.group else 0 }

inductive Bound where
  | value
  | list (size : Nat)
  | lower
  | upper
deriving DecidableEq, Repr

/-- Conditions that hold together, as the estimates see them. -/
structure Clause where
  /-- What can be searched for, and whether it stands for a condition that need not be tested then. -/
  bounds : List (Place × Bound × Bool)
  tests : Nat
  cut : Estimate
  /-- The places that each condition reads, and whether it holds one to a value. -/
  readings : List (List Place × Bool)
deriving DecidableEq, Repr

def bound? : Operator → Option Bound
  | .eq => some .value
  | .lt => some .upper
  | .le => some .upper
  | .gt => some .lower
  | .ge => some .lower
  | _ => none

/-- Of the tests of a place that is held to a value, only the last that holds it counts. -/
def settle : List Test → List Test → List Test
  | _, [] => []
  | earlier, t :: ts =>
    let holds (u : Test) : Bool := u.place = t.place && u.op = .eq
    let settled := ts.any holds || (t.op ≠ .eq && earlier.any holds)
    { t with counts := t.place.isSome && !settled } :: settle (t :: earlier) ts

/-- By how much a test lets the rows become fewer; small numbers are taken to be frequent. -/
def Test.cut (t : Test) : Estimate :=
  match t.op, t.literal with
  | .eq, .integer n => if -1 ≤ n ∧ n ≤ 1 then 10 else 20
  | .eq, _ => 20
  | _, _ => 0

def reading (t : Test) : List Place × Bool := (t.place.toList, t.place.isSome && t.op = .eq)

def ofTests (ts : List Test) : Clause :=
  let counted := ts.filter fun t => t.counts && t.place.isSome
  { bounds := ts.filterMap fun t => do return (← t.place, ← bound? t.op, t.counts)
    tests := counted.length
    cut := (counted.map Test.cut).foldl max 0
    readings := ts.map reading }

def joint? (t u : Test) : Option (Place × Bound) := do
  let p ← t.place
  if t.place = u.place ∧ t.literal = u.literal then
    match ← bound? t.op, ← bound? u.op with
    | .value, b => some (p, b)
    | b, .value => some (p, b)
    | .lower, .lower => some (p, .lower)
    | .upper, .upper => some (p, .upper)
    | _, _ => none
  else none

def joints : List (List Test) → List (Place × Bound)
  | [ts, us] => ts.flatMap fun t => us.filterMap (joint? t)
  | _ => []

/-- The place that all alternatives hold to a value and to nothing else. -/
def listed? (as : List (List Test)) : Option Place :=
  match as with
  | [t] :: _ => t.place.filter fun p =>
      as.all fun a => (a.map fun u => (u.place, u.op)) = [(some p, .eq)]
  | _ => none

def isSearchable (as : List (List Test)) : Bool :=
  as.all fun a => a.any fun t => t.place.isSome && (bound? t.op).isSome

def ofAlternatives (as : List (List Test)) : Clause :=
  let places := as.flatMap fun a => a.flatMap fun t => t.place.toList
  let joints := if isSearchable as then joints as else []
  let list := (listed? as).toList
  { bounds := joints.map (fun j => (j.1, j.2, false)) ++ list.map (·, .list as.length, true)
    tests := if places = [] then 0 else 1
    cut := 0
    readings := (places, false) :: joints.map (fun j => ([j.1], j.2 = .value)) ++
      list.map fun p => ([p], false) }

def clause : List (List Test) → Clause
  | [ts] => ofTests ts
  | as => ofAlternatives as

inductive Access where
  /-- Along a path, whose first places are held to a value each, or to a list of values. -/
  | path (p : Path) (lists : List Bool)
  | alternatives
deriving DecidableEq, Repr

structure Way where
  access : Access
  cost : Estimate
  rows : Estimate
  group : Nat
deriving DecidableEq, Repr

def whole (c : Clause) (p : Path) : Way :=
  let read := c.readings.takeWhile fun r => r.1.all fun x => x = .number || x ∈ p.key
  let lookups := read.foldl (fun n r => n - if r.2 then 20 else 1) (Estimate.rows + 16)
  let cost := Estimate.rows + p.entry
  ⟨.path p [], if p.indirect then Estimate.sum cost lookups else cost,
    min (Estimate.rows - c.tests) (Estimate.rows - c.cut), p.group⟩

/-- A search as far as it has come: the rows it leaves for single values, how often it is repeated
for the values of lists, and how many conditions need not be tested any more. -/
structure Search where
  rows : Estimate := Estimate.rows
  repeats : Estimate := 0
  lists : List Bool := []
  used : Nat := 0
deriving DecidableEq, Repr

def Search.way (c : Clause) (p : Path) (s : Search) : Way :=
  let cost := Estimate.sum Estimate.seek (s.rows + p.entry)
  ⟨.path p s.lists, (if p.indirect then Estimate.sum cost (s.rows + 16) else cost) + s.repeats,
    s.rows + s.repeats - (c.tests - s.used : Nat), p.group⟩

/-- The first condition of a kind on a place, and how many it stands for. -/
def Clause.find? (c : Clause) (x : Place) (kind : Bound → Bool) : Option (Bound × Nat) :=
  (c.bounds.find? fun b => b.1 = x && kind b.2.1).map fun b => (b.2.1, if b.2.2 then 1 else 0)

def Search.between (s : Search) (n used : Nat) : Search :=
  let share := s.rows - 20 * n - (if n = 2 then 20 else 0)
  { s with rows := min (s.rows - n) (max 10 share), used := s.used + used }

def isList : Bound → Bool
  | .list _ => true
  | _ => false

def searches (c : Clause) (p : Path) : List (Place × Estimate) → Search → List Way
  | [], _ => []
  | (x, step) :: rest, s =>
    let held (b : Bound × Nat) : List Way :=
      let size := match b.1 with
        | .list n => Estimate.ofNat n
        | _ => 0
      let s : Search := ⟨s.rows + step, s.repeats + size, s.lists ++ [isList b.1], s.used + b.2⟩
      s.way c p :: searches c p rest s
    let lower := c.find? x (· = .lower)
    let upper := c.find? x (· = .upper)
    (c.find? x (· = .value)).toList.flatMap held ++ (c.find? x isList).toList.flatMap held ++
      (lower.toList.map fun l => (s.between 1 l.2).way c p) ++
      (lower.toList.flatMap fun l => upper.toList.map fun u => (s.between 2 (l.2 + u.2)).way c p) ++
      upper.toList.map fun u => (s.between 1 u.2).way c p

def searchesOf (c : Clause) (p : Path) : List Way := searches c p (p.key.zip p.steps) {}

/-- Whether a whole path may be taken: the row numbers always, an index if it serves the order, or
if it is enough by itself and smaller than the table. -/
def isOpen (p : Path) : Bool :=
  p.byNumber || p.group ≠ 0 || (!p.indirect && p.entry < 16)

def least : List Way → Option (Estimate × Estimate)
  | [] => none
  | w :: ws => some <| ws.foldl
      (fun best v => if v.cost ≤ best.1 then (v.cost, min best.2 v.rows) else best) (w.cost, w.rows)

def inTurn? (ps : List Path) (as : List (List Test)) : Option Way := do
  if as.length < 2 ∨ !isSearchable as then none
  else
    let parts ← as.mapM fun a => least (ps.flatMap (searchesOf (ofTests a)))
    match parts with
    | [] => none
    | first :: rest =>
      let (cost, rows) := rest.foldl (fun s t => (Estimate.sum s.1 t.1, Estimate.sum s.2 t.2)) first
      some ⟨.alternatives, cost + 1, rows, 0⟩

/-- Adds a way unless one of the same group is as good; it takes the place of those that are not
better in anything. -/
def add (w : Way) : List Way → List Way
  | [] => [w]
  | v :: vs =>
    if v.group = w.group ∧ v.cost ≤ w.cost ∧ v.rows ≤ w.rows then v :: vs
    else if v.group = w.group ∧ w.cost ≤ v.cost ∧ w.rows ≤ v.rows then
      w :: vs.filter fun u => !(u.group = w.group && w.cost ≤ u.cost && w.rows ≤ u.rows)
    else v :: add w vs

def ways (d : Definition) (q : Inquiry) : List Way :=
  let ps := paths d q
  let c := clause q.alternatives
  let along := ps.flatMap fun p => (if isOpen p then [whole c p] else []) ++ searchesOf c p
  (along ++ (inTurn? ps q.alternatives).toList).foldl (fun ws w => add w ws) []

def best (score : Way → List Int) : List Way → Option Way
  | [] => none
  | w :: ws => some (ws.foldl (fun b v => if score v < score b then v else b) w)

/-- The terms of an order that are met without sorting, as far as a path has been followed. -/
structure Progress where
  met : List Bool
  /-- Whether the path runs backwards, once a term has decided it. -/
  reversed : Option Bool := none
  distinct : Bool
deriving DecidableEq, Repr

def Progress.next? (s : Progress) : Option Nat := s.met.findIdx? (! ·)

/-- Whether rows that follow a place are told apart by it, as far as nulls go. -/
def isFilled (d : Definition) : Place → Bool
  | .number => true
  | .column i => (d.columns[i]?).any (·.notNull)

/-- How a place of a path is held: to a value, to one of a list, or not at all. -/
inductive Hold where
  | value
  | list
  | free
deriving DecidableEq, Repr

/-- Follows the places of a path with `keyed` places that tell the rows apart. A place that is not
held has to be the next term of the order. -/
def follow (d : Definition) (order : List (Option Place × Direction)) (keyed : Nat) :
    Nat → List (Place × Hold) → Progress → Progress
  | _, [], s => s
  | j, (_, .value) :: rest, s => follow d order keyed (j + 1) rest s
  | j, (x, hold) :: rest, s =>
    let distinct := s.distinct && (hold = .list || isFilled d x)
    let matched := do
      let i ← s.next?
      let (y, direction) ← order[i]?
      let back : Bool := direction = Direction.descending
      if y = some x ∧ s.reversed.getD back = back then some (i, back) else none
    match matched with
    | some (i, back) =>
      -- row numbers are never level
      let s : Progress := ⟨s.met.set i true, some back, distinct || x = Place.number⟩
      follow d order keyed (j + 1) rest s
    | none => { s with distinct := distinct && j ≠ 0 && keyed ≤ j }

/-- How many terms of an order a way meets, and whether it has to run backwards for that. Places
held to a list count as held only if asked. -/
def satisfied (d : Definition) (q : Inquiry) (c : Clause) (w : Way) (lists : Bool) : Nat × Bool :=
  match w.access with
  | .alternatives => (0, false)
  | .path p held =>
    let fixed (x : Place) : Bool := (c.find? x (· = .value)).isSome ||
      (lists && ((p.key.zip held).lookup x = some true))
    let met := q.order.map fun k => k.1.any fixed
    let hold (j : Nat) : Hold := match held[j]? with
      | some isList => if isList && !lists then .list else .value
      | none => .free
    let places := p.key ++ if p.byNumber then [] else [.number]
    let keyed := if p.byNumber then 0 else p.key.length
    let s := follow d q.order keyed 0 (places.zipIdx.map fun x => (x.1, hold x.2)) ⟨met, none, true⟩
    let reversed := s.reversed.getD false
    if s.distinct || s.met.all id then (q.order.length, reversed)
    else (s.met.takeWhile id |>.length, reversed)

def sorting (q : Inquiry) (rows : Estimate) (met : Nat) : Estimate :=
  let n := q.order.length
  let part := if met = 0 then 0 else Estimate.ofNat ((n - met) * 100 / n) - 66
  let cost := rows + Estimate.ofNat ((q.width + 59) / 30) + part
  match q.limit with
  | some k =>
    if k ≤ 0x7FFFFFFF then
      cost + 10 + (if met = 0 then 0 else 6) + Estimate.logarithm (min rows (.ofNat k))
    else cost + Estimate.logarithm rows
  | none => cost + Estimate.logarithm rows

/-- The score of a way that is not asked for an order; `outer` is the estimate of the rows for each
of which it is taken anew. -/
def scoreUnordered (outer : Estimate) (w : Way) : List Int :=
  let cost := Estimate.sum (w.cost + outer) 0
  [cost, w.rows + outer, cost - 2]

def scoreOrdered (d : Definition) (q : Inquiry) (c : Clause) (rows : Estimate) (w : Way) : List Int :=
  let (met, _) := satisfied d q c w false
  let cost := Estimate.sum w.cost 0
  if met < q.order.length then [Estimate.sum cost (sorting q rows met) + 3, w.rows, cost]
  else [cost, w.rows, cost - 2]

def Path.plan (p : Path) (reversed : Bool) : Plan := .along (if p.byNumber then [] else p.key) reversed

def keyFor (d : Definition) (q : Inquiry) (outer : Estimate) (a : List Test) : List Place :=
  match best (scoreUnordered (min outer 48)) (ways d { q with alternatives := [a], order := [] }) with
  | some ⟨.path p _, _, _, _⟩ => if p.byNumber then [] else p.key
  | _ => []

/-- Whether a way that meets none of the terms is taken backwards after all, for what it does within
each value of a list. -/
def reversedWithin (d : Definition) (q : Inquiry) (c : Clause) (w : Way) : Bool :=
  match w.access with
  | .path p held =>
    let (met, reversed) := satisfied d q c w true
    !(p.byNumber && true ∈ held) && met = q.order.length && reversed
  | .alternatives => false

/-- Orders of more terms are left to sorting. -/
def orderLimit : Nat := 63

def choose (d : Definition) (q : Inquiry) : Plan :=
  let q := if q.order.length ≤ orderLimit then q else { q with order := [] }
  let q := match q.alternatives with
    | [ts] => { q with alternatives := [settle [] ts] }
    | _ => q
  let c := clause q.alternatives
  let ws := ways d q
  let chosen := do
    let w ← best (scoreUnordered 0) ws
    if q.order = [] then some (w, false)
    else
      let v ← best (scoreOrdered d q c (if w.rows < 0 then 1 else w.rows + 1)) ws
      let (met, reversed) := satisfied d q c v false
      return (v, if met = 0 then reversedWithin d q c v else reversed)
  match chosen with
  | some (⟨.path p _, _, _, _⟩, reversed) => p.plan reversed
  | some (⟨.alternatives, _, rows, _⟩, _) => .each (q.alternatives.map (keyFor d q rows))
  | none => .along [] false

end Plan

end Rowmap
