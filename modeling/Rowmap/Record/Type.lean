import Rowmap.Field.Type
import Rowmap.Text.Basic
import Rowmap.Text.Inspected
/-! Record types: a name, the number of fields that was declared, and the fields that were
registered. The table is named after the last part of the type's name. -/

namespace Rowmap

def afterColons? : List Char → Option (List Char)
  | [] => none
  | c :: s =>
    match afterColons? s with
    | some r => some r
    | none => if c = ':' ∧ s.head? = some ':' then some s.tail else none

/-- The table of a type: the part after the last double colon, without blanks at its ends. -/
def tableNameOf (typeName : String) : String :=
  String.ofList (Text.trim ((afterColons? typeName.toList).getD typeName.toList))

structure Field where
  name : String
  type : FieldType
  offset : Nat := 0
deriving DecidableEq, Repr

def Field.kind (f : Field) : Kind := f.type.kind

def Field.inspect (f : Field) : String :=
  "FieldDescriptor \x7b name: " ++ Text.inspect f.name ++ ", offset: " ++ toString f.offset ++
    ", kind: " ++ f.kind.inspect ++ " \x7d"

structure RecordType where
  /-- Tells apart types that are declared alike. -/
  key : Nat
  name : String
  /-- The number of fields that the declaration names. -/
  declared : Nat
  fields : List Field
deriving DecidableEq, Repr

namespace RecordType

def tableName (t : RecordType) : String := tableNameOf t.name

def memberNames (t : RecordType) : List String := t.fields.map Field.name

def field? (t : RecordType) (name : String) : Option Field := t.fields.find? fun f => f.name = name

def position? (t : RecordType) (name : String) : Option Nat :=
  t.fields.findIdx? fun f => f.name = name

def fieldName? (t : RecordType) (index : Nat) : Option String := t.fields[index]?.map Field.name

def inspect (t : RecordType) : String :=
  "TypeDescriptor \x7b type_name: " ++ Text.inspect t.name ++ ", table_name: " ++
    Text.inspect t.tableName ++ ", fields: " ++ Text.inspectList (t.fields.map Field.inspect) ++
    " \x7d"

@[simp] theorem length_memberNames (t : RecordType) : t.memberNames.length = t.fields.length := by
  simp [memberNames]

end RecordType

end Rowmap
