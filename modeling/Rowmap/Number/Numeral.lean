import Rowmap.Number.Extended
import Rowmap.Value
/-! Numbers in texts that a database reads and writes. A numeral counts with about nineteen leading
digits, and a float is written with fifteen; both go through `Extended`. -/

namespace Rowmap

namespace Decimal

/-- Fifteen significant digits, positional from 10^-4 below 10^15, otherwise with an exponent of at
least two digits. -/
def general : Layout where
  plainFrom := -4
  plainTo := 14
  pointZero := true
  exponentWidth := 2

/-- The first fifteen digits, with the one behind them rounded in. -/
def firstFifteen (d : Decimal) : Decimal :=
  let n := (natText d.digits).length
  strip ⟨(d.digits / Nat.pow 10 (n - 16) + 5) / 10, d.exponent + (n - 15 : Nat)⟩ 20

def generalText (x : Double) : List Char :=
  if x.isZero then ['0', '.', '0']
  else (if x.negative then ['-'] else []) ++ general.write (firstFifteen (Extended.ofDouble x).leading)

/-- From here on a significand takes no more digits. -/
def full : Nat := 1844674407370955160

/-- Takes in a digit before the point; one that is left out counts as a factor of ten. -/
def takeWhole (d : Decimal) (c : Char) : Decimal :=
  if d.digits < full then ⟨10 * d.digits + (c.toNat - 48), d.exponent⟩
  else ⟨d.digits, d.exponent + 1⟩

/-- Takes in a digit behind the point; one that is left out does not count. -/
def takeFraction (d : Decimal) (c : Char) : Decimal :=
  if d.digits < full then ⟨10 * d.digits + (c.toNat - 48), d.exponent - 1⟩ else d

/-- Moves a positive exponent into the digits as far as they stay within 64 bits. -/
def expand : Nat → Decimal → Decimal
  | 0, d => d
  | fuel + 1, d =>
    if 0 < d.exponent ∧ d.digits ≤ full then expand fuel ⟨10 * d.digits, d.exponent - 1⟩ else d

def reduce : Nat → Decimal → Decimal
  | 0, d => d
  | fuel + 1, d =>
    if d.exponent < 0 ∧ d.digits % 10 = 0 then reduce fuel ⟨d.digits / 10, d.exponent + 1⟩ else d

def toDouble (negative : Bool) (d : Decimal) : Double :=
  if d.digits = 0 then .ofMagnitude negative 0
  else
    let d := reduce 20 (expand 20 d)
    let x := Extended.ofNat d.digits 0
    (if 0 ≤ d.exponent then x.scale false d.exponent.toNat
      else x.scale true (-d.exponent).toNat).toDouble negative

end Decimal

inductive Numeral where
  | integer (n : Int)
  | real (x : Double)

namespace Numeral

structure Parts where
  negative : Bool
  whole : List Char
  fraction : List Char
  exponent : Int

def Parts.toDouble (p : Parts) : Double :=
  let d := p.fraction.foldl Decimal.takeFraction (p.whole.foldl Decimal.takeWhole ⟨0, 0⟩)
  Decimal.toDouble p.negative ⟨d.digits, p.exponent + d.exponent⟩

def sign (s : List Char) : Bool × List Char :=
  match s with
  | '-' :: r => (true, r)
  | '+' :: r => (false, r)
  | r => (false, r)

/-- The value of the digits of an exponent, of which not many matter. -/
def exponentValue (ds : List Char) : Nat :=
  ds.foldl (fun e c => if e < 10000 then 10 * e + (c.toNat - 48) else 10000) 0

def exponent? : List Char → Option Int
  | [] => some 0
  | c :: s =>
    let (negative, ds) := sign s
    if (c = 'e' ∨ c = 'E') ∧ ds ≠ [] ∧ ds.all Char.isDigit then
      some (if negative then -(exponentValue ds : Int) else exponentValue ds)
    else none

/-- The integer that digits spell, if it has 64 bits at most, and otherwise a real. -/
def ofDigits (negative : Bool) (ds : List Char) : Numeral :=
  let n : Int := if negative then -(Decimal.natOf 0 ds : Int) else Decimal.natOf 0 ds
  if fitsWord n then integer n else real (Parts.toDouble ⟨negative, ds, [], 0⟩)

def ofInt (n : Int) : Numeral := ofDigits (n < 0) (Decimal.natText n.natAbs)

/-- Reads a numeral that is the whole text: a sign, digits with at most one point and at least one
digit, an exponent. One without point and exponent is an integer. -/
def read? (s : List Char) : Option Numeral :=
  let (negative, s) := sign s
  let whole := s.takeWhile Char.isDigit
  match s.dropWhile Char.isDigit with
  | [] => if whole = [] then none else some (ofDigits negative whole)
  | c :: r =>
    let fraction := if c = '.' then r.takeWhile Char.isDigit else []
    let tail := if c = '.' then r.dropWhile Char.isDigit else c :: r
    if whole = [] ∧ fraction = [] then none
    else (exponent? tail).map fun e => real (Parts.toDouble ⟨negative, whole, fraction, e⟩)

end Numeral

end Rowmap
