import Rowmap.Number.Double
import Rowmap.Text.Basic
import Rowmap.Text.Inspected
/-! The types that a field can have, the values of each, and what a column needs to know of them. A fixed text has a
set number of bytes and is filled up with zero bytes: it is made from the longest beginning of a text that fits in
whole characters, and read up to its first zero byte. -/

namespace Rowmap

inductive Kind where
  | integer
  | real
  | text
  /-- Text of a set number of bytes. -/
  | fixedText (size : Nat)
deriving DecidableEq, Repr

def Kind.inspect : Kind → String
  | .integer => "Integer"
  | .real => "Real"
  | .text => "Text"
  | .fixedText n => "FixedText(" ++ toString n ++ ")"

structure FixedText (n : Nat) where
  bytes : List UInt8
  length_bytes : bytes.length = n
deriving DecidableEq

namespace FixedText

variable {n : Nat}

def empty (n : Nat) : FixedText n := ⟨List.replicate n 0, List.length_replicate⟩

def ofString (n : Nat) (s : String) : FixedText n where
  bytes := Text.bytes (Text.fitting n s.toList) ++
    List.replicate (n - (Text.bytes (Text.fitting n s.toList)).length) 0
  length_bytes := by
    have := Text.length_bytes_fitting n s.toList
    simp only [List.length_append, List.length_replicate]
    omega

/-- The text before the first zero byte. -/
def text (x : FixedText n) : String := Text.readable (x.bytes.takeWhile (· ≠ 0))

def capacity (_ : FixedText n) : Nat := n

def inspect (x : FixedText n) : String := "FixedText<" ++ toString n ++ ">(" ++ Text.inspect x.text ++ ")"

end FixedText

/-- Integers by width and sign; the two sizes have 64 bits. -/
inductive IntegerType where
  | int8 | int16 | int32 | int64 | intSize
  | uint8 | uint16 | uint32 | uint64 | uintSize
deriving DecidableEq, Repr

namespace IntegerType

def name : IntegerType → String
  | int8 => "i8" | int16 => "i16" | int32 => "i32" | int64 => "i64" | intSize => "isize"
  | uint8 => "u8" | uint16 => "u16" | uint32 => "u32" | uint64 => "u64" | uintSize => "usize"

def least : IntegerType → Int
  | int8 => -0x80
  | int16 => -0x8000
  | int32 => -0x80000000
  | int64 => -0x8000000000000000
  | intSize => -0x8000000000000000
  | uint8 => 0 | uint16 => 0 | uint32 => 0 | uint64 => 0 | uintSize => 0

def greatest : IntegerType → Int
  | int8 => 0x7F
  | int16 => 0x7FFF
  | int32 => 0x7FFFFFFF
  | int64 => 0x7FFFFFFFFFFFFFFF
  | intSize => 0x7FFFFFFFFFFFFFFF
  | uint8 => 0xFF
  | uint16 => 0xFFFF
  | uint32 => 0xFFFFFFFF
  | uint64 => 0xFFFFFFFFFFFFFFFF
  | uintSize => 0xFFFFFFFFFFFFFFFF

abbrev Val (t : IntegerType) : Type := { n : Int // t.least ≤ n ∧ n ≤ t.greatest }

def val? (t : IntegerType) (n : Int) : Option t.Val :=
  if h : t.least ≤ n ∧ n ≤ t.greatest then some ⟨n, h⟩ else none

theorem least_le_zero (t : IntegerType) : t.least ≤ 0 := by cases t <;> decide

theorem one_le_greatest (t : IntegerType) : 1 ≤ t.greatest := by cases t <;> decide

def ofBool (t : IntegerType) (b : Bool) : t.Val :=
  ⟨if b then 1 else 0, by
    have h₀ := t.least_le_zero
    have h₁ := t.one_le_greatest
    cases b <;> simp <;> omega⟩

theorem val?_eq_some_iff {t : IntegerType} {n : Int} {v : t.Val} : t.val? n = some v ↔ v.val = n := by
  unfold val?
  constructor
  · intro h
    split at h
    · simp only [Option.some.injEq] at h; exact h ▸ rfl
    · cases h
  · rintro rfl
    rw [dif_pos v.property]

end IntegerType

inductive FieldType where
  | integer (t : IntegerType)
  | bool
  | double
  | single
  | text
  | fixedText (size : Nat)
  | optional (t : FieldType)
deriving DecidableEq, Repr

namespace FieldType

@[reducible] def Val : FieldType → Type
  | integer t => t.Val
  | bool => Bool
  | double => Double
  | single => Single
  | text => String
  | fixedText n => FixedText n
  | optional t => Option t.Val

def kind : FieldType → Kind
  | integer _ => .integer
  | bool => .integer
  | double => .real
  | single => .real
  | text => .text
  | fixedText n => .fixedText n
  | optional t => t.kind

end FieldType

end Rowmap
