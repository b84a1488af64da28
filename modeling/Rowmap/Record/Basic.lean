import Rowmap.Field.Conversion
import Rowmap.Record.Row
/-! The records of a record type: a value of its own type for every field, in the order of the
fields, also where two fields share a name. -/

namespace Rowmap

/-- One value for each field. -/
@[reducible] def Members : List Field → Type
  | [] => Unit
  | f :: fs => f.type.Val × Members fs

namespace Members

def values : (fs : List Field) → Members fs → List Value
  | [], _ => []
  | f :: fs, (x, xs) => f.type.toValue x :: values fs xs

/-- Reads every field from the column of its name, first field first. -/
def ofRow (table : String) (row : Row) : (fs : List Field) → Except Error (Members fs)
  | [] => .ok ()
  | f :: fs =>
    match row.value? f.name with
    | none => .error (.fieldNotFound table f.name)
    | some v => do
      let x ← f.type.ofValue v
      let xs ← ofRow table row fs
      return (x, xs)

def set (table name : String) (v : Value) : (fs : List Field) → Members fs → Except Error (Members fs)
  | [], _ => .error (.fieldNotFound table name)
  | f :: fs, (x, xs) =>
    if f.name = name then (f.type.ofValue v).map (·, xs)
    else (set table name v fs xs).map (x, ·)

end Members

abbrev Record (t : RecordType) : Type := Members t.fields

namespace RecordType

def firstRepeated? : List String → Option String
  | names => go [] names
where
  go (seen : List String) : List String → Option String
    | [] => none
    | n :: ns => if n ∈ seen then some n else go (n :: seen) ns

/-- Whether the registered fields are those declared: as many, and of different names. -/
def checkMembers (t : RecordType) : Except Error Unit :=
  if t.fields.length ≠ t.declared then
    .error (.schema (.memberCount t.name t.declared t.fields.length))
  else
    match firstRepeated? t.memberNames with
    | some n => .error (.schema (.repeatedMember t.name n))
    | none => .ok ()

def orNotFound {α : Type} (t : RecordType) (name : String) : Option α → Except Error α
  | some a => .ok a
  | none => .error (.fieldNotFound t.tableName name)

def field (t : RecordType) (name : String) : Except Error Field := t.orNotFound name (t.field? name)

def position (t : RecordType) (name : String) : Except Error Nat :=
  t.orNotFound name (t.position? name)

def fieldNameAt (t : RecordType) (index : Nat) : Except Error String :=
  match t.fieldName? index with
  | some n => .ok n
  | none => .error (.invalidExpression (.unregisteredField index t.tableName))

end RecordType

namespace Record

variable {t : RecordType}

def values (o : Record t) : List Value := Members.values t.fields o

def ofRow (t : RecordType) (row : Row) : Except Error (Record t) :=
  Members.ofRow t.tableName row t.fields

def set (o : Record t) (name : String) (v : Value) : Except Error (Record t) :=
  Members.set t.tableName name v t.fields o

end Record

end Rowmap
