import Rowmap.Command.Basic
import Rowmap.Database.Affinity
/-! What the definition of a table says about its rows. Names are compared without regard to letter
case. Every row has a number; a column that is alone the primary key and an integer shows it. -/

namespace Rowmap

def sameName (a b : String) : Bool := a.toLower = b.toLower

/-- Names under which the number of a row is known where no column has them. -/
def isNumberName (s : String) : Bool := ["rowid", "oid", "_rowid_"].any (sameName s)

inductive Place where
  | number
  | column (i : Nat)
deriving DecidableEq, Repr

namespace Definition

def position? (d : Definition) (name : String) : Option Nat :=
  d.columns.findIdx? fun c => sameName c.name name

def hasColumn (d : Definition) (name : String) : Bool := (d.position? name).isSome

def type (d : Definition) (i : Nat) : String := ((d.columns[i]?).map (·.type)).getD ""

def affinity (d : Definition) : Place → Affinity
  | .number => .numeric
  | .column i => .ofType (d.type i)

/-- The column that shows the number of a row. -/
def numbering? (d : Definition) : Option Nat :=
  match d.primaryKey with
  | [k] => (d.position? k).filter fun i => d.type i = "INTEGER"
  | _ => none

def place (d : Definition) (i : Nat) : Place := if d.numbering? = some i then .number else .column i

def place? (d : Definition) (name : String) : Option Place :=
  match d.position? name with
  | some i => some (d.place i)
  | none => if isNumberName name then some .number else none

def nameOf (d : Definition) : Place → String
  | .column i => ((d.columns[i]?).map (·.name)).getD ""
  | .number =>
    match d.numbering? with
    | some i => ((d.columns[i]?).map (·.name)).getD ""
    | none => "rowid"

/-- The groups of columns in which no two rows agree, each once, in the order in which their indexes
are made. -/
def indexes (d : Definition) : List (List Nat) :=
  let unique := (d.columns.zipIdx.filter (·.1.unique)).map fun c => [c.2]
  let primary := d.primaryKey.filterMap d.position?
  if d.primaryKey = [] ∨ d.numbering?.isSome ∨ primary ∈ unique then unique else unique ++ [primary]

def isKey (d : Definition) (i : Nat) : Bool := d.numbering? = some i || [i] ∈ d.indexes

def isPrimary (d : Definition) (c : ColumnDefinition) : Bool := d.primaryKey.any (sameName c.name)

/-- Whether the definition can be used: names that differ, and clauses that speak of its columns. -/
def isSound (d : Definition) : Bool :=
  (d.columns.map (·.name.toLower)).Nodup && d.primaryKey.all d.hasColumn &&
    d.foreignKeys.all fun k => d.hasColumn k.column

end Definition

end Rowmap
