import Rowmap.Command.Reader
import Rowmap.Database.Catalog
import Rowmap.Database.Selection
/-! A database in memory: relations by name, and commands that change or query them. It has a main
part and a temporary one. A command that is refused changes nothing. -/

namespace Rowmap

structure Database where
  /-- Whether references between tables are enforced. -/
  foreignKeys : Bool := true
  relations : List Relation := []
deriving DecidableEq, Repr

namespace Database

inductive Outcome where
  | changed (rows : Nat)
  | listing (l : Listing)

/-- Whether the part of the database by a name is the temporary one, if it is one at all. -/
def part? (schema : String) : Option Bool :=
  if sameName schema "main" then some false
  else if sameName schema "temp" then some true
  else none

def inPart? (d : Database) (temporary : Bool) (name : String) : Option Relation :=
  d.relations.find? fun r => r.temporary = temporary && sameName r.definition.name name

/-- A table that has been created. Without a part it is looked for in the temporary one first. -/
def relation? (d : Database) (t : TableName) : Option Relation :=
  match t.schema with
  | none => d.inPart? true t.name <|> d.inPart? false t.name
  | some s => do d.inPart? (← part? s) t.name

def catalog (d : Database) (temporary : Bool) : Relation :=
  Catalog.relation temporary ((d.relations.filter (·.temporary = temporary)).map (·.definition))

def catalog? (d : Database) (t : TableName) : Option Relation := do
  let named ← match t.schema with
    | none => some [false, true]
    | some s => (part? s).map ([·])
  let part ← named.find? fun p => (Catalog.names p t.schema.isSome).any (sameName t.name)
  return d.catalog part

def source? (d : Database) (t : TableName) : Option Relation := d.relation? t <|> d.catalog? t

def isSame (r q : Relation) : Bool :=
  q.temporary = r.temporary && sameName q.definition.name r.definition.name

def put (d : Database) (r : Relation) : Database :=
  { d with relations := d.relations.map fun q => if isSame r q then r else q }

/-- Whether a definition can be read again from the text that is kept of it. -/
def isReadable (t : Definition) : Bool :=
  match Command.read ("CREATE TABLE " ++ t.text) with
  | [some (.create _ _ _)] => true
  | _ => false

/-- Adds a table; one that is there already stays as it is. -/
def create? (d : Database) (schema : Option String) (t : Definition) (strict : Bool) :
    Option Database := do
  let temporary ← match schema with
    | none => some false
    | some s => part? s
  if Catalog.isReserved t.name then none
  else if (d.inPart? temporary t.name).isSome then if strict then none else some d
  else if t.isSound && isReadable t then
    some { d with relations := d.relations ++ [⟨t, temporary, []⟩] }
  else none

/-- The column a reference points at, which has to be a key of its table by itself. -/
def target? (parent : Relation) (k : ForeignKey) : Option Nat :=
  (parent.definition.position? k.target).filter parent.definition.isKey

def pointsAt (parent : Relation) (j : Nat) (c : Cell) : Bool :=
  let wanted := (Affinity.ofType (parent.definition.type j)).store c
  parent.rows.any fun e => (e.cell j).order wanted = .eq

/-- Whether a row of a table has what it refers to. A null refers to nothing, but the table and its
key have to be there, in the same part of the database. -/
def isAnchored (d : Database) (r : Relation) (e : Entry) : Bool :=
  r.definition.foreignKeys.all fun k =>
    match d.inPart? r.temporary k.table with
    | none => false
    | some parent =>
      match r.definition.position? k.column, target? parent k with
      | some i, some j => (e.cell i).isNull || pointsAt parent j (e.cell i)
      | _, _ => false

def insert? (d : Database) (table : TableName) (columns : List String) (params : List Cell) :
    Option Database := do
  let (e, r) ← (← d.relation? table).insert? columns params
  -- a row may refer to itself
  let after := d.put r
  if !d.foreignKeys || after.isAnchored r e then some after else none

def isReferredTo (d : Database) (r : Relation) : Bool :=
  d.relations.any fun q =>
    q.temporary = r.temporary && !isSame r q &&
      q.definition.foreignKeys.any fun k =>
        sameName k.table r.definition.name &&
          match q.definition.position? k.column, target? r k with
          | some i, some j =>
            q.rows.any fun e => !(e.cell i).isNull && pointsAt r j (e.cell i)
          | _, _ => false

/-- Takes a table away; one that is not there is no matter, unless strict. -/
def drop? (d : Database) (t : TableName) (strict : Bool) : Option Database :=
  match d.relation? t with
  | none => if strict || (d.catalog? t).isSome then none else some d
  | some r =>
    if d.foreignKeys && d.isReferredTo r then none
    else some { d with relations := d.relations.filter fun q => !isSame r q }

structure ColumnInfo where
  position : Nat
  name : String
  type : String
  notNull : Bool
  primaryKey : Bool
deriving DecidableEq, Repr

def columnsOf (d : Database) (table : String) : List ColumnInfo :=
  match d.source? ⟨none, table⟩ with
  | none => []
  | some r => r.definition.columns.zipIdx.map fun (c, i) =>
      ⟨i, c.name, c.type, c.notNull, r.definition.isPrimary c⟩

/-- A description as rows; a part of the primary key shows its position in it. -/
def description (d : Database) (table : String) : Listing where
  names := ["cid", "name", "type", "notnull", "dflt_value", "pk"]
  rows := (d.columnsOf table).map fun c =>
    let key := match d.source? ⟨none, table⟩ with
      | some r => (r.definition.primaryKey.findIdx? (sameName c.name)).map (· + 1)
      | none => none
    [.integer c.position, .text c.name, .text c.type, .integer (if c.notNull then 1 else 0), .null,
      .integer (key.getD 0 : Nat)]

def run? (d : Database) (params : List Cell) : Command → Option (Outcome × Database)
  | .create s t strict => (d.create? s t strict).map (.changed 0, ·)
  | .drop t strict => (d.drop? t strict).map (.changed 0, ·)
  | .insert t cs => (d.insert? t cs params).map (.changed 1, ·)
  | .select s => do
    let l ← s.listing? (← d.source? s.source)
    return (.listing l, d)
  | .describe t => some (.listing (d.description t), d)

structure Progress where
  outcomes : List Outcome
  completed : Bool
  database : Database

/-- Runs commands up to the first that cannot be read or is refused; what those before it did
stays. -/
def runAll (d : Database) (params : List Cell) : List (Option Command) → Progress
  | [] => ⟨[], true, d⟩
  | c :: cs =>
    match c.bind (d.run? params) with
    | none => ⟨[], false, d⟩
    | some (o, d) =>
      let p := runAll d params cs
      { p with outcomes := o :: p.outcomes }

def tableInfo? (d : Database) (table : String) : Option (List ColumnInfo) :=
  match Command.read ("PRAGMA table_info(" ++ table ++ ")") with
  | [some (.describe name)] => some (d.columnsOf name)
  | _ => none

/-- What the names of tables are held against when they are listed. -/
def pattern : String := "sqlite_%"

/-- The name of a table that is not like the pattern, from what is listed of it or of an index. -/
def asked? (kind name : String) : Option String :=
  if kind = "table" && !like pattern.toList name.toList then some name else none

/-- The names of the tables, as the list of the main part has them. -/
def tableNames (d : Database) : List String := (d.catalog false).rows.filterMap fun e =>
  match e.cell 0, e.cell 1 with
  | .text kind, .text name => asked? kind name
  | _, _ => none

end Database

end Rowmap
