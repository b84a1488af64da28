import Rowmap.Number.Decimal
/-! Floats with significands of 64 bits and no bounds on the exponent, by way of which doubles are
scaled by powers of ten. A power is reached in steps of one hundred, ten and one, and every step
rounds, so what comes out may be a neighbour of the nearest double. -/

namespace Rowmap

/-- A positive float: the significand, of exactly 64 bits, times two to the exponent. -/
structure Extended where
  significand : Nat
  exponent : Int
deriving DecidableEq, Repr

namespace Extended

def ofNat (n : Nat) (e : Int) : Extended :=
  if n.log2 ≤ 63 then ⟨n * Nat.pow 2 (63 - n.log2), e - (63 - n.log2 : Nat)⟩
  else
    let k := n.log2 - 63
    let q := roundDiv n (Nat.pow 2 k)
    -- rounding up may carry into one bit more
    if q.log2 = 64 then ⟨q / 2, e + k + 1⟩ else ⟨q, e + k⟩

def power (k : Int) : Extended :=
  if 0 ≤ k then ofNat (Nat.pow 10 k.toNat) 0
  else
    -- more bits of the quotient than are kept, the last one set when some are lost
    let d := Nat.pow 10 (-k).toNat
    let s := d.log2 + 70
    let n := Nat.pow 2 s
    ofNat (2 * (n / d) + (if n % d = 0 then 0 else 1)) (-(s : Int) - 1)

def mul (x y : Extended) : Extended := ofNat (x.significand * y.significand) (x.exponent + y.exponent)

def lt (x y : Extended) : Bool :=
  x.exponent < y.exponent || (x.exponent = y.exponent && x.significand < y.significand)

def ofDouble (x : Double) : Extended := ofNat x.significand x.scale

def greatest : Extended := ofNat (2 * Double.binade - 1) 971

/-- The nearest double; what is above all of them is infinite. -/
def toDouble (negative : Bool) (x : Extended) : Double :=
  if greatest.lt x then .ofMagnitude negative Double.infinity
  else .ofMagnitude negative <|
    Double.ratioMagnitude (x.significand * Nat.pow 2 x.exponent.toNat) (Nat.pow 2 (-x.exponent).toNat)

def times (x : Extended) (y : Extended) : Nat → Extended
  | 0 => x
  | n + 1 => times (x.mul y) y n

def scale (down : Bool) (n : Nat) (x : Extended) : Extended :=
  let step (k : Nat) := power (if down then -(k : Int) else k)
  ((x.times (step 100) (n / 100)).times (step 10) (n % 100 / 10)).times (step 1) (n % 10)

/-- How often to multiply by `y` before a bound is reached, at most `fuel` times. -/
def climb (below : Extended → Bool) (y : Extended) : Nat → Extended × Nat → Extended × Nat
  | 0, p => p
  | fuel + 1, (x, n) => if below x then climb below y fuel (x.mul y, n + 1) else (x, n)

def floor (x : Extended) : Nat :=
  x.significand * Nat.pow 2 x.exponent.toNat / Nat.pow 2 (-x.exponent).toNat

/-- The integer part of `x` times a power of ten that brings it between ten to 17 and ten to 19,
together with the exponent that is taken out. -/
def leading (x : Extended) : Decimal :=
  if x.lt (power 19) then
    let (x, a) := climb (·.lt (power (-97))) (power 100) 5 (x, 0)
    let (x, b) := climb (·.lt (power 7)) (power 10) 12 (x, 0)
    let (x, c) := climb (·.lt (power 17)) (power 1) 12 (x, 0)
    ⟨x.floor, -(100 * a + 10 * b + c : Nat)⟩
  else
    let (x, a) := climb (!·.lt (power 119)) (power (-100)) 5 (x, 0)
    let (x, b) := climb (!·.lt (power 29)) (power (-10)) 12 (x, 0)
    let (x, c) := climb (!·.lt (power 19)) (power (-1)) 12 (x, 0)
    ⟨x.floor, (100 * a + 10 * b + c : Nat)⟩

end Extended

end Rowmap
