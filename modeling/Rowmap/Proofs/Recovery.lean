import Rowmap.Proofs.Members
import Rowmap.Proofs.Spelling
import Rowmap.Proofs.Storage
import Rowmap.Proofs.Widening

/-! What is left of a value that is bound to a statement and read again. Integers are written over the full
range of their type and read as signed words of 64 bits, so `ofValue_toValue_whole` has one exception: the
upper half of the widest unsigned types is refused. All else is read, and `ofRow_row` says to what. Several
values are bound as null, and then the type that reads it decides what null is. -/

namespace Rowmap
namespace FieldType

/-- Whether a value of one of the widest unsigned types is also one of the signed type of that width. -/
def fitsSigned : (t : FieldType) → t.Val → Bool
  | integer .uint64, n => n.val < 0x8000000000000000
  | integer .uintSize, n => n.val < 0x8000000000000000
  | optional t, some v => t.fitsSigned v
  | _, _ => true

theorem fitsWord_eq_fitsSigned {t : IntegerType} (n : t.Val) : fitsWord n.val = (integer t).fitsSigned n := by
  have hl := n.property.1
  have hg := n.property.2
  rw [Bool.eq_iff_iff]
  cases t <;>
    simp only [IntegerType.least, IntegerType.greatest, fitsSigned, fitsWord, Bool.and_eq_true,
      decide_eq_true_eq, iff_true] at * <;>
    omega

theorem ofValue_integer_of_word {t : IntegerType} {n : t.Val} (h : fitsWord n.val = true) :
    (integer t).ofValue (.integer n.val) = .ok n := by
  simp only [ofValue, Value.word?, if_pos h, Option.bind_some, IntegerType.val?_eq_some_iff.2 rfl]

theorem ofValue_integer_of_wide {t : IntegerType} {n : Int} (h : fitsWord n = false) :
    (integer t).ofValue (.integer n) = .error (.mismatch (.integer n) t.name) := by
  simp only [ofValue, Value.word?, h]
  rfl

theorem ofValue_toValue_integer {t : IntegerType} (n : t.Val) :
    (integer t).ofValue ((integer t).toValue n) =
      if (integer t).fitsSigned n then .ok n else .error (.mismatch (.integer n.val) t.name) := by
  rw [← fitsWord_eq_fitsSigned, toValue]
  cases h : fitsWord n.val with
  | true => rw [if_pos rfl, ofValue_integer_of_word h]
  | false => rw [if_neg (by decide), ofValue_integer_of_wide h]

/-- The integers and the truth values, and either of them where it may be missing. -/
def isWhole : FieldType → Bool
  | integer _ => true
  | bool => true
  | optional (integer _) => true
  | optional bool => true
  | _ => false

theorem ofValue_optional_integer {t : IntegerType} (n : t.Val) :
    (optional (integer t)).ofValue ((optional (integer t)).toValue (some n)) =
      if (optional (integer t)).fitsSigned (some n) then .ok (some n)
      else .error (.mismatch (.integer n.val) t.name) := by
  have hn : (integer t).toValue n ≠ .null := nofun
  rw [toValue, fitsSigned, ofValue_optional (integer t) hn, ofValue_toValue_integer]
  split <;> rfl

/-- Every integer and truth value comes back as it was bound, and so does a missing one, except in the upper
half of the widest unsigned types: a value there is refused, by the name of its type. -/
theorem ofValue_toValue_whole (t : FieldType) (ht : t.isWhole = true) (v : t.Val) :
    (t.fitsSigned v = true → t.ofValue (t.toValue v) = .ok v) ∧
    (t.fitsSigned v = false → ∃ (u : IntegerType) (n : Int), (t = integer u ∨ t = optional (integer u)) ∧
      t.toValue v = .integer n ∧ t.ofValue (t.toValue v) = .error (.mismatch (.integer n) u.name)) := by
  unfold isWhole at ht
  split at ht
  · next u =>
    rw [ofValue_toValue_integer]
    exact ⟨fun h => if_pos h, fun h => ⟨u, v.val, Or.inl rfl, rfl, if_neg (Bool.eq_false_iff.1 h)⟩⟩
  · exact ⟨fun _ => rfl, nofun⟩
  · next u =>
    cases v with
    | none => exact ⟨fun _ => rfl, nofun⟩
    | some n =>
      rw [ofValue_optional_integer]
      exact ⟨fun h => if_pos h, fun h => ⟨u, n.val, Or.inr rfl, rfl, if_neg (Bool.eq_false_iff.1 h)⟩⟩
  · cases v with
    | none => exact ⟨fun _ => rfl, nofun⟩
    | some b => exact ⟨fun _ => rfl, nofun⟩
  · cases ht

theorem widest_refused :
    (integer .uint64).ofValue ((integer .uint64).toValue ⟨0x8000000000000000, by decide⟩) =
      .error (.mismatch (.integer 0x8000000000000000) "u64") := rfl

/-- The last value below it where one may be missing, and the greatest of all. -/
theorem ofValue_toValue_limits :
    (optional (integer .uint64)).ofValue
        ((optional (integer .uint64)).toValue (some ⟨0x7FFFFFFFFFFFFFFF, by decide⟩)) =
      .ok (some ⟨0x7FFFFFFFFFFFFFFF, by decide⟩) ∧
    (integer .uintSize).ofValue ((integer .uintSize).toValue ⟨0xFFFFFFFFFFFFFFFF, by decide⟩) =
      .error (.mismatch (.integer 0xFFFFFFFFFFFFFFFF) "usize") := by
  refine ⟨(ofValue_toValue_whole (optional (integer .uint64)) rfl _).1 rfl, ?_⟩
  obtain ⟨u, n, hu, hn, he⟩ :=
    (ofValue_toValue_whole (integer .uintSize) rfl ⟨0xFFFFFFFFFFFFFFFF, by decide⟩).2 rfl
  rcases hu with hu | hu
  · cases hu
    cases hn
    exact he
  · cases hu

/-- Fixed texts are made from texts and from nothing else. -/
def IsMade : (t : FieldType) → t.Val → Prop
  | fixedText _, x => x.IsMade
  | optional t, some v => t.IsMade v
  | _, _ => True

/-- The values that are bound as null. -/
def bindsNull : (t : FieldType) → t.Val → Bool
  | double, x => !x.isFinite
  | single, x => !x.isFinite
  | text, s => s = ""
  | optional _, none => true
  | optional t, some v => t.bindsNull v
  | _, _ => false

/-- What comes back of a value. -/
def recovered : (t : FieldType) → t.Val → t.Val
  | double, x => if x.isFinite then x else .zero
  | single, x => if x.isFinite then x else .zero
  | fixedText _, x => x.cut
  | optional t, some v => if t.bindsNull v then none else some (t.recovered v)
  | _, v => v

/-- The values that come back as they were. -/
def isKept : (t : FieldType) → t.Val → Bool
  | double, x => x.isFinite
  | single, x => x.isFinite
  | fixedText _, x => x.isPadded
  | optional t, some v => !t.bindsNull v && t.isKept v
  | _, _ => true

theorem ofDouble_of_isFinite {x : Double} (h : x.isFinite = true) : Value.ofDouble x = .real ⟨x, h⟩ :=
  dif_pos h

theorem ofDouble_of_not_isFinite {x : Double} (h : x.isFinite = false) : Value.ofDouble x = .null :=
  dif_neg (by simp [h])

theorem ofDouble_eq_null_iff {x : Double} : Value.ofDouble x = .null ↔ x.isFinite = false := by
  cases h : x.isFinite with
  | true => simp [ofDouble_of_isFinite h]
  | false => simp [ofDouble_of_not_isFinite h]

theorem toValue_text_eq_null_iff (s : String) : text.toValue s = .null ↔ text.bindsNull s = true := by
  have hs : Value.text s ≠ .null := nofun
  rw [toValue, bindsNull, decide_eq_true_eq]
  split
  · next h => exact ⟨fun _ => h, fun _ => rfl⟩
  · next h => exact ⟨fun he => absurd he hs, fun he => absurd he h⟩

theorem toValue_eq_null_iff (t : FieldType) (v : t.Val) : t.toValue v = .null ↔ t.bindsNull v = true := by
  induction t with
  | integer t => exact ⟨nofun, nofun⟩
  | bool => exact ⟨nofun, nofun⟩
  | double => rw [toValue, ofDouble_eq_null_iff, bindsNull, Bool.not_eq_true']
  | single => rw [toValue, ofDouble_eq_null_iff, Single.isFinite_toDouble, bindsNull, Bool.not_eq_true']
  | text => exact toValue_text_eq_null_iff v
  | fixedText n => exact iff_of_false (fun h => by cases h) Bool.false_ne_true
  | optional t ih =>
    cases v with
    | none => exact ⟨fun _ => rfl, fun _ => rfl⟩
    | some v => exact ih v

theorem ofValue_toValue_double (x : Double) :
    double.ofValue (double.toValue x) = .ok (double.recovered x) := by
  rw [toValue, recovered]
  cases h : x.isFinite with
  | true => rw [ofDouble_of_isFinite h]; rfl
  | false => rw [ofDouble_of_not_isFinite h]; rfl

theorem ofValue_toValue_single (x : Single) :
    single.ofValue (single.toValue x) = .ok (single.recovered x) := by
  have hw := Single.isFinite_toDouble x
  rw [toValue, recovered]
  cases h : x.isFinite with
  | true =>
    rw [ofDouble_of_isFinite (hw.trans h)]
    exact congrArg Except.ok (Single.ofDouble_toDouble h)
  | false =>
    rw [ofDouble_of_not_isFinite (hw.trans h)]
    exact congrArg Except.ok Single.ofDouble_zero

/-- A value that is bound is read to what is left of it. -/
theorem ofValue_toValue (t : FieldType) (v : t.Val) (hs : t.fitsSigned v = true) (hm : t.IsMade v) :
    t.ofValue (t.toValue v) = .ok (t.recovered v) := by
  induction t with
  | integer t => rw [ofValue_toValue_integer, if_pos hs]; rfl
  | bool => rfl
  | double => exact ofValue_toValue_double v
  | single => exact ofValue_toValue_single v
  | text =>
    rw [toValue]
    split
    · next h => rw [h]; rfl
    · rfl
  | fixedText n => exact congrArg Except.ok (FixedText.ofString_text hm)
  | optional t ih =>
    cases v with
    | none => rfl
    | some v =>
      rw [toValue, recovered]
      cases hn : t.bindsNull v with
      | true =>
        rw [(toValue_eq_null_iff t v).2 hn]
        rfl
      | false =>
        have hne : t.toValue v ≠ .null := fun h => by
          rw [toValue_eq_null_iff, hn] at h
          cases h
        rw [ofValue_optional t hne, ih v hs hm]
        rfl

theorem recovered_eq_self_iff (t : FieldType) (v : t.Val) : t.recovered v = v ↔ t.isKept v = true := by
  induction t with
  | integer t => exact ⟨fun _ => rfl, fun _ => rfl⟩
  | bool => exact ⟨fun _ => rfl, fun _ => rfl⟩
  | double =>
    rw [recovered, isKept]
    split
    · next h => simp [h]
    · next h =>
      refine ⟨fun he => ?_, fun hk => absurd hk h⟩
      rw [← he]; rfl
  | single =>
    rw [recovered, isKept]
    split
    · next h => simp [h]
    · next h =>
      refine ⟨fun he => ?_, fun hk => absurd hk h⟩
      rw [← he]; rfl
  | text => exact ⟨fun _ => rfl, fun _ => rfl⟩
  | fixedText n => exact FixedText.cut_eq_self_iff
  | optional t ih =>
    cases v with
    | none => exact ⟨fun _ => rfl, fun _ => rfl⟩
    | some v =>
      rw [recovered, isKept]
      cases hn : t.bindsNull v with
      | true => simp
      | false => simpa using ih v

end FieldType

namespace Members

def All (p : (t : FieldType) → t.Val → Prop) : (fs : List Field) → Members fs → Prop
  | [], _ => True
  | f :: fs, (x, xs) => p f.type x ∧ All p fs xs

def map (g : (t : FieldType) → t.Val → t.Val) : (fs : List Field) → Members fs → Members fs
  | [], _ => ()
  | f :: fs, (x, xs) => (g f.type x, map g fs xs)

theorem all_of_forall {p : (t : FieldType) → t.Val → Prop} (h : ∀ t v, p t v) :
    ∀ {fs : List Field} (xs : Members fs), All p fs xs
  | [], _ => trivial
  | _ :: _, (x, xs) => ⟨h _ x, all_of_forall h xs⟩

/-- A row that holds what every field binds is read to what is left of it. -/
theorem ofRow_recovered {table : String} {row : Row} : ∀ {fs : List Field} (xs : Members fs),
    (∀ c ∈ (fs.map Field.name).zip (values fs xs), row.value? c.1 = some c.2) →
    All (fun t v => t.fitsSigned v = true) fs xs → All FieldType.IsMade fs xs →
    ofRow table row fs = .ok (map FieldType.recovered fs xs)
  | [], _, _, _, _ => rfl
  | f :: fs, (x, xs), h, hs, hm => by
    have hv : row.value? f.name = some (f.type.toValue x) := h (f.name, f.type.toValue x) (by simp [values])
    have htail : ofRow table row fs = .ok (map FieldType.recovered fs xs) :=
      ofRow_recovered xs (fun c hc => h c (List.mem_cons_of_mem _ hc)) hs.2 hm.2
    rw [ofRow_cons_ok hv (FieldType.ofValue_toValue f.type x hs.1 hm.1), htail]
    rfl

end Members

namespace Record

variable {t : RecordType}

theorem map_fst_zip_values (o : Record t) : (t.memberNames.zip o.values).map Prod.fst = t.memberNames := by
  rw [List.map_fst_zip]
  simp [values, Members.length_values]

/-- A record is read from the row of its own values, field by field to what is left of each, if the fields have names
of their own and no value is in the upper half of the widest unsigned types. -/
theorem ofRow_row (hd : t.memberNames.Nodup) (o : Record t)
    (hs : Members.All (fun ft v => ft.fitsSigned v = true) t.fields o)
    (hm : Members.All FieldType.IsMade t.fields o) :
    ofRow t o.row = .ok (Members.map FieldType.recovered t.fields o) ∧
    Members.All (fun ft v => ft.recovered v = v ↔ ft.isKept v = true) t.fields o ∧
    ∀ (n : Nat) (s : String), '\x00' ∉ s.toList → (FieldType.fixedText n).isKept (.ofString n s) = true := by
  refine ⟨?_, ?_, fun n s h => FixedText.isPadded_ofString n h⟩
  · refine Members.ofRow_recovered o (fun c hc => ?_) hs hm
    exact Row.value?_ofList_of_mem (by rwa [map_fst_zip_values]) hc
  · exact Members.all_of_forall FieldType.recovered_eq_self_iff o

def mixed : RecordType :=
  ⟨0, "Mixed", 5, [⟨"high", .double, 0⟩, ⟨"low", .single, 0⟩, ⟨"code", .fixedText 4, 0⟩,
    ⟨"note", .optional .text, 0⟩, ⟨"count", .integer .uint64, 0⟩]⟩

/-- Minus infinity, the least positive float, and an empty text that is not missing. -/
def lossy : Record mixed :=
  (⟨true, ⟨0x7FF0000000000000, by decide⟩⟩, ⟨false, ⟨1, by decide⟩⟩, .ofString 4 "a\x00b", some "",
    ⟨0x7FFFFFFFFFFFFFFF, by decide⟩, ())

theorem ofRow_row_lossy :
    mixed.memberNames.Nodup ∧ ofRow mixed lossy.row =
      .ok (.zero, ⟨false, ⟨1, by decide⟩⟩, .ofString 4 "a", none, ⟨0x7FFFFFFFFFFFFFFF, by decide⟩, ()) := by
  have hd : mixed.memberNames.Nodup := by decide
  have hread := (ofRow_row hd lossy ⟨rfl, rfl, rfl, rfl, rfl, trivial⟩
    ⟨trivial, trivial, ⟨"a\x00b", rfl⟩, trivial, trivial, trivial⟩).1
  exact ⟨hd, hread⟩

end Record
end Rowmap
