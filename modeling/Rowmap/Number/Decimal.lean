import Rowmap.Number.Double
/-! Decimal text of floats: the fewest digits that read back to the same value, and how digits are
laid out. -/

namespace Rowmap

/-- A positive decimal: `digits` times ten to `exponent`. -/
structure Decimal where
  digits : Nat
  exponent : Int
deriving DecidableEq, Repr

namespace Decimal

/-- The decimal digits of a number, leading digit first; a zero has one. -/
def natText (n : Nat) : List Char := Nat.toDigits 10 n

def intText (n : Int) : List Char := if n < 0 then '-' :: natText n.natAbs else natText n.natAbs

/-- Takes zeros at the end of the digits into the exponent, at most `fuel` of them. -/
def strip (d : Decimal) : Nat → Decimal
  | 0 => d
  | fuel + 1 =>
    if d.digits ≠ 0 ∧ d.digits % 10 = 0 then
      strip ⟨d.digits / 10, d.exponent + 1⟩ fuel
    else d

def belowPower (a b : Nat) (k : Int) : Bool := a * Nat.pow 10 (-k).toNat < b * Nat.pow 10 k.toNat

/-- The least `k` with `a / b < 10 ^ k`, for positive `a` and `b`, found downwards from above. -/
def leastPower (a b : Nat) : Int :=
  -- a power of two in base ten: between a quarter and a third of the exponent
  let e : Int := (a.log2 : Int) - b.log2 + 1
  go (a.log2 + b.log2 + 2) ((if 0 ≤ e then e / 3 else e / 4) + 2)
where
  go : Nat → Int → Int
    | 0, k => k
    | fuel + 1, k => if belowPower a b (k - 1) then go fuel (k - 1) else k

/-- Whether the decimal lies among the reals that round to `x`; the ends of that interval belong
to it exactly when the significand is even. -/
def readsBack (x : Double) (d : Decimal) : Bool :=
  let m := x.significand
  let narrow := x.magnitude.val % Double.binade = 0 ∧ 2 * Double.binade ≤ x.magnitude.val
  let lo := if narrow then 4 * m - 1 else 4 * m - 2
  let hi := 4 * m + 2
  let s := x.scale - 2
  let left := d.digits * Nat.pow 10 d.exponent.toNat * Nat.pow 2 (-s).toNat
  let right := Nat.pow 2 s.toNat * Nat.pow 10 (-d.exponent).toNat
  if m % 2 = 0 then lo * right ≤ left && left ≤ hi * right
  else lo * right < left && left < hi * right

/-- Of the two neighbours of `x` on the grid of ten to `g`, one that reads back: the nearer if both
do, and of two equally near the even one. -/
def onGrid? (x : Double) (g : Int) : Option Decimal :=
  let a := x.ratio.1 * Nat.pow 10 (-g).toNat
  let b := x.ratio.2 * Nat.pow 10 g.toNat
  let low : Decimal := ⟨a / b, g⟩
  let high : Decimal := ⟨a / b + 1, g⟩
  let nearerHigh := b < 2 * (a % b) || (b = 2 * (a % b) && a / b % 2 = 1)
  match readsBack x low && low.digits ≠ 0, readsBack x high with
  | true, true => some (if nearerHigh then high else low)
  | true, false => some low
  | false, true => some high
  | false, false => none

/-- The fewest digits that read back to a positive finite `x`. Seventeen always do; were there none,
the value itself would be written out. -/
def shortest (x : Double) : Decimal :=
  let k := leastPower x.ratio.1 x.ratio.2
  let found := (List.range 17).findSome? fun (n : Nat) => onGrid? x (k - (n + 1))
  (found.getD ⟨x.significand * Nat.pow 5 (-x.scale).toNat * Nat.pow 2 x.scale.toNat, min x.scale 0⟩).strip 20

/-- How digits are laid out: which exponents of the leading digit are written without an exponent
mark, the sign shown on a positive exponent, and the least width of the exponent. -/
structure Layout where
  plainFrom : Int
  plainTo : Int
  pointZero : Bool
  exponentWidth : Nat

def pointAfter (n : Nat) (ds : List Char) (pointZero : Bool) : List Char :=
  if n < ds.length then ds.take n ++ '.' :: ds.drop n
  else ds ++ List.replicate (n - ds.length) '0' ++ (if pointZero then ['.', '0'] else [])

def Layout.write (f : Layout) (d : Decimal) : List Char :=
  let ds := natText d.digits
  let e : Int := d.exponent + ds.length - 1
  if f.plainFrom ≤ e ∧ e ≤ f.plainTo then
    if e < 0 then '0' :: '.' :: List.replicate (-e - 1).toNat '0' ++ ds
    else pointAfter (e.toNat + 1) ds true
  else
    let es := natText e.natAbs
    pointAfter 1 ds f.pointZero ++ 'e' :: (if e < 0 then '-' else '+') ::
      List.replicate (f.exponentWidth - es.length) '0' ++ es

/-- Numbers in JSON text: positional from 10^-5 below 10^16, otherwise with a signed exponent. -/
def plain : Layout where
  plainFrom := -5
  plainTo := 15
  pointZero := false
  exponentWidth := 1

def text (x : Double) : List Char :=
  (if x.negative then ['-'] else []) ++
    if x.isZero then ['0', '.', '0'] else plain.write (shortest x)

def natOf (n : Nat) (ds : List Char) : Nat := ds.foldl (fun n c => 10 * n + (c.toNat - 48)) n

theorem isDigit_of_mem_natText {n : Nat} {c : Char} (h : c ∈ natText n) : c.isDigit = true :=
  Nat.isDigit_of_mem_toDigits (by decide) (by decide) h

theorem natOf_natText (n : Nat) : natOf 0 (natText n) = n := Nat.ofDigitChars_ten_toDigits

end Decimal

end Rowmap
