import Rowmap.Text.Basic
import Rowmap.Value
/-! The contents of one place in a table, of five classes, and their order. -/

namespace Rowmap

inductive Cell where
  | null
  | integer (n : Int)
  | real (x : Double)
  | text (s : String)
  | blob (bytes : List UInt8)
deriving DecidableEq, Repr

namespace Cell

def className : Cell → String
  | null => "null"
  | integer _ => "integer"
  | real _ => "real"
  | text _ => "text"
  | blob _ => "blob"

def isNull : Cell → Bool
  | null => true
  | _ => false

def rank : Cell → Nat
  | null => 0
  | integer _ => 1
  | real _ => 1
  | text _ => 2
  | blob _ => 3

/-- Numbers by value, texts by code points, which is the order of their bytes. -/
def order : Cell → Cell → Ordering
  | integer m, integer n => compare m n
  | integer m, real y => Double.orderInt m y
  | real x, integer n => (Double.orderInt n x).swap
  | real x, real y => x.order y
  | text s, text t => compare s t
  | blob a, blob b => compare a b
  | a, b => compare a.rank b.rank

/-- The cell that a bound value becomes. Only the integers of 64 bits have a class of their own,
and arrays and objects are bound as their text. -/
def ofValue : Value → Cell
  | .null => null
  | .bool b => integer (if b then 1 else 0)
  | .integer n => if fitsWord n then integer n else real (.ofInt n)
  | .real x => real x.val
  | .text s => text s
  | .array vs => text (Value.array vs).compact
  | .object ms => text (Value.object ms).compact

/-- The value read from a cell. A real that is not finite has none, and a blob is its bytes. -/
def toValue : Cell → Value
  | null => .null
  | integer n => .integer n
  | real x => .ofDouble x
  | text s => .text s
  | blob bs => .array (bs.map fun b => .integer b.toNat)

end Cell

end Rowmap
