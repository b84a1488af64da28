import Rowmap.Database.Cell
import Rowmap.Number.Numeral
/-! What a column prefers to hold by the text of its type, how it takes what is put into it, and how
much room it is reckoned to need. -/

namespace Rowmap

inductive Affinity where
  | blob
  | text
  | real
  | numeric
deriving DecidableEq, Repr

namespace Affinity

/-- What the parts of a type say, from left to right; a part that speaks of integers ends it. -/
def ofParts (a : Affinity) : List Char → Affinity
  | [] => a
  | c :: s =>
    let r := c :: s
    if "int".toList.isPrefixOf r then numeric
    else if "char".toList.isPrefixOf r || "clob".toList.isPrefixOf r || "text".toList.isPrefixOf r then
      ofParts text s
    else if "blob".toList.isPrefixOf r && a ≠ text then ofParts blob s
    else if a = numeric && ("real".toList.isPrefixOf r || "floa".toList.isPrefixOf r ||
        "doub".toList.isPrefixOf r) then ofParts real s
    else ofParts a s

/-- A column without a type takes everything as it is. -/
def ofType (type : String) : Affinity :=
  if type = "" then blob else ofParts numeric type.toLower.toList

def integral? (x : Double) : Option Int :=
  match x.toInt? with
  | some n => if fitsWord (n - 1) ∧ fitsWord (n + 1) then some n else none
  | none => none

def isSpace (c : Char) : Bool := c = ' ' || ('\t' ≤ c && c ≤ '\r')

/-- The number that a whole text spells, spaces at its ends apart. -/
def number? (s : String) : Option Cell :=
  match Numeral.read? ((s.toList.dropWhile isSpace).reverse.dropWhile isSpace).reverse with
  | some (.integer n) => some (.integer n)
  | some (.real x) => some (.real x)
  | none => none

def narrow : Cell → Cell
  | .real x =>
    match integral? x with
    | some n => .integer n
    | none => .real x
  | c => c

/-- A real column takes integers as reals and has a single zero. -/
def widen : Cell → Cell
  | .integer n => .real (.ofInt n)
  | .real x => .real (if x.isZero then .zero else x)
  | c => c

def toNumber : Cell → Cell
  | .text s => (number? s).getD (.text s)
  | c => c

def store : Affinity → Cell → Cell
  | blob, c => c
  | numeric, c => narrow (toNumber c)
  | real, c => widen (toNumber c)
  | text, .integer n => .text (Value.integerText n)
  | text, .real x => .text (String.ofList (Decimal.generalText x))
  | text, c => c

/-- The cell that a literal is taken for when it is held against such a column. -/
def literal : Affinity → Cell → Cell
  | blob, c => c
  | text, c => text.store c
  | _, c => narrow (toNumber c)

/-- What follows the last part of a type that can be followed by a size. -/
def sized? (s : List Char) : Option (List Char) :=
  (List.range s.length).reverse.findSome? fun i =>
    let r := s.drop i
    if "char".toList.isPrefixOf r then some (r.drop 4)
    else if "blob(".toList.isPrefixOf r then some (r.drop 4)
    else none

def width (type : String) : Nat :=
  let s := type.toLower.toList
  if ofType type = numeric ∨ ofType type = real ∨ type = "" then 1
  else
    match sized? s with
    | none => 5
    | some r =>
      let n := Decimal.natOf 0 ((r.dropWhile (!Char.isDigit ·)).takeWhile Char.isDigit)
      if n < 0x80000000 then min (n / 4 + 1) 255 else 1

end Affinity

end Rowmap
