import Rowmap.Error
/-! Field values as database values and back.

An empty text is stored as null and null is read as the empty value of each type, so several values
of a type can share one stored form. -/

namespace Rowmap.FieldType

def toValue : (t : FieldType) → t.Val → Value
  | integer _, v => .integer v.val
  | bool, b => .bool b
  | double, x => .ofDouble x
  | single, x => .ofDouble x.toDouble
  | text, s => if s = "" then .null else .text s
  | fixedText _, x => .text x.text
  | optional _, none => .null
  | optional t, some v => t.toValue v

def ofValue : (t : FieldType) → Value → Except Error t.Val
  | integer t, .null => .ok (t.ofBool false)
  | integer t, .bool b => .ok (t.ofBool b)
  | integer t, v =>
    match v.word?.bind t.val? with
    | some n => .ok n
    | none => .error (.mismatch v t.name)
  | bool, .null => .ok false
  | bool, .bool b => .ok b
  | bool, v =>
    match v.word? with
    | some n => .ok (n ≠ 0)
    | none => .error (.mismatch v "bool")
  | double, .null => .ok .zero
  | double, v =>
    match v.double? with
    | some x => .ok x
    | none => .error (.mismatch v "f64")
  | single, .null => .ok (.ofDouble .zero)
  | single, v =>
    match v.double? with
    | some x => .ok (.ofDouble x)
    | none => .error (.mismatch v "f64")
  | text, .null => .ok ""
  | text, .text s => .ok s
  | text, v =>
    match v.numberText? with
    | some s => .ok s
    | none => .error (.mismatch v "String")
  | fixedText n, .null => .ok (.empty n)
  | fixedText n, .text s => .ok (.ofString n s)
  | fixedText _, v => .error (.mismatch v "FixedText")
  | optional _, .null => .ok none
  | optional t, v => (t.ofValue v).map some

/-- A value that is refused is told with the refusal. -/
theorem ofValue_eq_error {t : FieldType} {v : Value} {e : Error} (h : t.ofValue v = .error e) :
    ∃ type, e = .mismatch v type := by
  fun_induction ofValue t v with
  | case23 t v _ ih => exact ih (map_eq_error.1 h)
  | _ => cases h <;> exact ⟨_, rfl⟩

end Rowmap.FieldType
