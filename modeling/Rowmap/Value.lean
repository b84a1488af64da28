import Rowmap.Number.Decimal
import Rowmap.Number.Double
/-! Values as they are bound to a statement and read from a row: those of JSON, with integers and floats kept apart. A
float is finite; what is not becomes null. Their compact text has no blanks, members in order of their names, and in
strings only the quote, the backslash and the control characters below the space escaped. -/

namespace Rowmap

inductive Value where
  | null
  | bool (b : Bool)
  | integer (n : Int)
  | real (x : FiniteDouble)
  | text (s : String)
  | array (items : List Value)
  /-- Members in ascending order of their names, one for each name. -/
  | object (members : List (String × Value))

instance : Inhabited Value := ⟨.null⟩

def fitsWord (n : Int) : Bool := -0x8000000000000000 ≤ n && n < 0x8000000000000000

namespace Value

def ofDouble (x : Double) : Value := if h : x.isFinite = true then .real ⟨x, h⟩ else .null

/-- Puts a member in its place by name; a member of that name is replaced. -/
def insertMember {α : Type} (name : String) (v : α) : List (String × α) → List (String × α)
  | [] => [(name, v)]
  | (n, w) :: rest =>
    if name < n then (name, v) :: (n, w) :: rest
    else if name = n then (n, v) :: rest
    else (n, w) :: insertMember name v rest

/-- The object with the given members, the last one of a name. -/
def ofMembers (ms : List (String × Value)) : Value :=
  .object (ms.foldl (fun acc m => insertMember m.1 m.2 acc) [])

def isNull : Value → Bool
  | .null => true
  | _ => false

def word? : Value → Option Int
  | .integer n => if fitsWord n then some n else none
  | _ => none

/-- The number as a float, an integer rounded to the nearest. -/
def double? : Value → Option Double
  | .integer n => some (.ofInt n)
  | .real x => some x.val
  | _ => none

def text? : Value → Option String
  | .text s => some s
  | _ => none

@[simp] theorem word?_null : word? .null = none := rfl
@[simp] theorem word?_integer {n : Int} : word? (.integer n) = if fitsWord n then some n else none := rfl
@[simp] theorem double?_integer {n : Int} : double? (.integer n) = some (.ofInt n) := rfl
@[simp] theorem double?_real {x : FiniteDouble} : double? (.real x) = some x.val := rfl

def hexPair (n : Nat) : List Char :=
  [Nat.digitChar (n / 16), Nat.digitChar (n % 16)]

def escape (c : Char) : List Char :=
  if c = '"' then ['\\', '"']
  else if c = '\\' then ['\\', '\\']
  else if c = '\x08' then ['\\', 'b']
  else if c = '\x0c' then ['\\', 'f']
  else if c = '\n' then ['\\', 'n']
  else if c = '\r' then ['\\', 'r']
  else if c = '\t' then ['\\', 't']
  else if c.toNat < 0x20 then '\\' :: 'u' :: '0' :: '0' :: hexPair c.toNat
  else [c]

def compactString (s : String) : String :=
  String.ofList ('"' :: (s.toList.flatMap escape ++ ['"']))

def integerText (n : Int) : String := String.ofList (Decimal.intText n)

def realText (x : Double) : String := String.ofList (Decimal.text x)

mutual

def compact : Value → String
  | .null => "null"
  | .bool b => if b then "true" else "false"
  | .integer n => integerText n
  | .real x => realText x.val
  | .text s => compactString s
  | .array items => "[" ++ compactItems items ++ "]"
  | .object members => "\x7b" ++ compactMembers members ++ "\x7d"

def compactItems : List Value → String
  | [] => ""
  | [v] => v.compact
  | v :: vs => v.compact ++ "," ++ compactItems vs

def compactMembers : List (String × Value) → String
  | [] => ""
  | [(n, v)] => compactString n ++ ":" ++ v.compact
  | (n, v) :: ms => compactString n ++ ":" ++ v.compact ++ "," ++ compactMembers ms

end

def numberText? : Value → Option String
  | .integer n => some (integerText n)
  | .real x => some (realText x.val)
  | _ => none

end Value

end Rowmap
