import Rowmap.Backend.Embedded
import Rowmap.Proofs.Members

/-! A record that goes through the database. Values change their form on the way there: truth values become
integers and the widest unsigned integers floats. `ofRow_stored` says that this is no loss: what comes
back is read as the values themselves would be, to the same record or to a refusal of the same field. -/

namespace Rowmap

namespace Double

theorem natMagnitude_lt_infinity {n : Nat} (h : n < 0x10000000000000000) : natMagnitude n < infinity := by
  unfold natMagnitude
  split
  · decide
  · next hn =>
    have hlog : n.log2 < 64 := (Nat.log2_lt hn).2 h
    split
    · next hl =>
      have hm : n * Nat.pow 2 (52 - n.log2) < 0x20000000000000 :=
        calc n * Nat.pow 2 (52 - n.log2) < Nat.pow 2 (n.log2 + 1) * Nat.pow 2 (52 - n.log2) :=
              Nat.mul_lt_mul_of_pos_right Nat.lt_log2_self (Nat.two_pow_pos _)
          _ = Nat.pow 2 (n.log2 + 1 + (52 - n.log2)) := (Nat.pow_add 2 _ _).symm
          _ = 0x20000000000000 := by
              have : n.log2 + 1 + (52 - n.log2) = 53 := by omega
              rw [this]
      simp only [binade, infinity]; omega
    · next hl =>
      have hm : n ≤ 0x20000000000000 * Nat.pow 2 (n.log2 - 52) :=
        calc n ≤ Nat.pow 2 (n.log2 + 1) := Nat.le_of_lt Nat.lt_log2_self
          _ = Nat.pow 2 (53 + (n.log2 - 52)) := by
              have : n.log2 + 1 = 53 + (n.log2 - 52) := by omega
              rw [this]
          _ = 0x20000000000000 * Nat.pow 2 (n.log2 - 52) := Nat.pow_add 2 _ _
      have hr := roundDiv_le hm
      simp only [binade, infinity]; omega

theorem isFinite_ofInt {n : Int} (h : n.natAbs < 0x10000000000000000) : (ofInt n).isFinite = true := by
  rw [ofInt, isFinite_ofMagnitude]
  exact decide_eq_true (natMagnitude_lt_infinity h)

end Double

/-- A value as it comes back from the database. -/
def Value.stored (v : Value) : Value := (Cell.ofValue v).toValue

namespace Value

theorem stored_word {n : Int} (h : fitsWord n = true) : (integer n).stored = integer n := by
  simp [stored, Cell.ofValue, h, Cell.toValue]

/-- An integer out of the range of words comes back as a float. -/
theorem stored_wide {n : Int} (h : fitsWord n = false) (hn : n.natAbs < 0x10000000000000000) :
    (integer n).stored = real ⟨.ofInt n, Double.isFinite_ofInt hn⟩ := by
  simp [stored, Cell.ofValue, h, Cell.toValue, ofDouble, Double.isFinite_ofInt hn]

theorem stored_ofDouble (x : Double) : (ofDouble x).stored = ofDouble x := by
  unfold ofDouble
  split
  · next h => simp [stored, Cell.ofValue, Cell.toValue, ofDouble, h]
  · rfl

end Value

namespace FieldType

/-- Two readings of a field that come to the same: one value, or two refusals. -/
inductive SameReading {α : Type} : Except Error α → Except Error α → Prop where
  | value (a : α) : SameReading (.ok a) (.ok a)
  | refused (v w : Value) (type : String) :
      SameReading (.error (.mismatch v type)) (.error (.mismatch w type))

theorem SameReading.map {α β : Type} {x y : Except Error α} (h : SameReading x y) (f : α → β) :
    SameReading (x.map f) (y.map f) := by
  cases h with
  | value a => exact .value (f a)
  | refused v w n => exact .refused v w n

theorem sameReading_self (t : FieldType) (v : Value) : SameReading (t.ofValue v) (t.ofValue v) := by
  cases h : t.ofValue v with
  | ok x => exact .value x
  | error e =>
    obtain ⟨type, rfl⟩ := ofValue_eq_error h
    exact .refused v v type

theorem ofValue_optional (t : FieldType) {v : Value} (h : v ≠ .null) :
    (optional t).ofValue v = (t.ofValue v).map some := by
  cases v with
  | null => exact absurd rfl h
  | _ => rfl

theorem natAbs_val_lt {t : IntegerType} (n : t.Val) : n.val.natAbs < 0x10000000000000000 := by
  obtain ⟨n, hl, hg⟩ := n
  have hleast : -0x8000000000000000 ≤ t.least := by cases t <;> decide
  have hgreatest : t.greatest ≤ 0xFFFFFFFFFFFFFFFF := by cases t <;> decide
  simp only
  omega

theorem stored_ne_null (t : FieldType) (x : t.Val) (h : t.toValue x ≠ .null) :
    (t.toValue x).stored ≠ .null := by
  induction t with
  | integer t =>
    rw [toValue]
    cases hw : fitsWord x.val with
    | true => rw [Value.stored_word hw]; nofun
    | false => rw [Value.stored_wide hw (natAbs_val_lt x)]; nofun
  | bool => nofun
  | double => rwa [toValue, Value.stored_ofDouble]
  | single => rwa [toValue, Value.stored_ofDouble]
  | text =>
    rw [toValue] at h ⊢
    split
    · next hx => exact absurd (if_pos hx) h
    · nofun
  | fixedText n => nofun
  | optional t ih =>
    cases x with
    | none => exact absurd rfl h
    | some y => exact ih y h

/-- The stored form of a field is read as the field's own value is. -/
theorem sameReading_stored (t : FieldType) (x : t.Val) :
    SameReading (t.ofValue (t.toValue x)) (t.ofValue (t.toValue x).stored) := by
  induction t with
  | integer t =>
    cases hw : fitsWord x.val with
    | true =>
      rw [toValue, Value.stored_word hw]
      exact sameReading_self _ _
    | false =>
      rw [toValue, Value.stored_wide hw (natAbs_val_lt x)]
      simp only [ofValue, Value.word?, hw]
      exact .refused _ _ _
  | bool => cases x <;> exact .value _
  | double =>
    rw [toValue, Value.stored_ofDouble]
    exact sameReading_self _ _
  | single =>
    rw [toValue, Value.stored_ofDouble]
    exact sameReading_self _ _
  | text =>
    rw [toValue]
    split
    · exact .value _
    · exact sameReading_self text (.text x)
  | fixedText n => exact sameReading_self (fixedText n) (.text x.text)
  | optional t ih =>
    cases x with
    | none => exact .value _
    | some y =>
      rw [toValue]
      by_cases hn : t.toValue y = .null
      · rw [hn]
        exact .value none
      · rw [ofValue_optional t hn, ofValue_optional t (stored_ne_null t y hn)]
        exact (ih y).map some

end FieldType

namespace Members

/-- What two rows make of the same fields: one record, or a refusal of the same field on both sides. -/
inductive SameRecord (table : String) (a b : Row) (fs : List Field) : Prop where
  | record (xs : Members fs) (ha : ofRow table a fs = .ok xs) (hb : ofRow table b fs = .ok xs)
  | refused (k : Nat) (v w : Value) (type : String)
      (ha : stop? table a fs = some (k, .mismatch v type))
      (hb : stop? table b fs = some (k, .mismatch w type))

theorem sameRecord_stored {table : String} {a b : Row} : ∀ {fs : List Field} (xs : Members fs),
    (∀ c ∈ (fs.map Field.name).zip (values fs xs),
      a.value? c.1 = some c.2 ∧ b.value? c.1 = some c.2.stored) → SameRecord table a b fs
  | [], _, _ => .record () rfl rfl
  | f :: fs, (x, xs), h => by
    obtain ⟨ha, hb⟩ := h (f.name, f.type.toValue x) (by simp [values])
    have htail : SameRecord table a b fs :=
      sameRecord_stored xs fun c hc => h c (List.mem_cons_of_mem _ hc)
    have hhead := FieldType.sameReading_stored f.type x
    generalize hra : f.type.ofValue (f.type.toValue x) = ra at hhead
    generalize hrb : f.type.ofValue (f.type.toValue x).stored = rb at hhead
    cases hhead with
    | refused v w n => exact .refused 0 v w n (stop?_cons_error ha hra) (stop?_cons_error hb hrb)
    | value y =>
      cases htail with
      | record ys hya hyb =>
        refine .record (y, ys) ?_ ?_
        · rw [ofRow_cons_ok ha hra, hya]; rfl
        · rw [ofRow_cons_ok hb hrb, hyb]; rfl
      | refused k v w n hsa hsb =>
        refine .refused (k + 1) v w n ?_ ?_
        · rw [stop?_cons_ok ha hra, hsa]; rfl
        · rw [stop?_cons_ok hb hrb, hsb]; rfl

end Members

namespace Record

variable {t : RecordType}

/-- The row that pairs the fields' names with their values. -/
def row (o : Record t) : Row := Row.ofList (t.memberNames.zip o.values)

/-- The row that the database answers with, where `keep` is what it makes of a value bound to a column. -/
def storedRow (keep : Cell → Cell) (o : Record t) : Row :=
  Embedded.toRow (t.memberNames.zip (o.values.map fun v => keep (Cell.ofValue v)))

theorem storedRow_eq {keep : Cell → Cell} (hkeep : ∀ v, keep (Cell.ofValue v) = Cell.ofValue v)
    (o : Record t) :
    o.storedRow keep = Row.ofList ((t.memberNames.zip o.values).map fun c => (c.1, c.2.stored)) := by
  simp only [storedRow, Embedded.toRow, hkeep]
  rw [List.zip_map_right, List.map_map]
  rfl

/-- A database that keeps what is bound gives back every record as good as it was: it is read as its own values are,
or refused at the same field. -/
theorem ofRow_stored (ht : t.checkMembers = .ok ()) (keep : Cell → Cell)
    (hkeep : ∀ v, keep (Cell.ofValue v) = Cell.ofValue v) (o : Record t) :
    (∃ o' : Record t, ofRow t o.row = .ok o' ∧ ofRow t (o.storedRow keep) = .ok o') ∨
      ∃ (k : Nat) (e e' : Error),
        Members.stop? t.tableName o.row t.fields = some (k, e) ∧ ofRow t o.row = .error e ∧
        Members.stop? t.tableName (o.storedRow keep) t.fields = some (k, e') ∧
        ofRow t (o.storedRow keep) = .error e' ∧
        e.category = .typeMapping ∧ e'.category = .typeMapping := by
  have hd : t.memberNames.Nodup := (RecordType.checkMembers_eq_ok_iff.1 ht).2
  have hnames : (t.memberNames.zip o.values).map Prod.fst = t.memberNames := by
    rw [List.map_fst_zip]
    simp [values, Members.length_values]
  have hsame : Members.SameRecord t.tableName o.row (o.storedRow keep) t.fields := by
    refine Members.sameRecord_stored o fun c hc => ⟨?_, ?_⟩
    · exact Row.value?_ofList_of_mem (by rw [hnames]; exact hd) hc
    · rw [storedRow_eq hkeep]
      refine Row.value?_ofList_of_mem (c := (c.1, c.2.stored)) ?_ (List.mem_map.2 ⟨c, hc, rfl⟩)
      rw [List.map_map]
      show (List.map Prod.fst (t.memberNames.zip o.values)).Nodup
      rw [hnames]
      exact hd
  cases hsame with
  | record xs ha hb => exact Or.inl ⟨xs, ha, hb⟩
  | refused k v w n ha hb =>
    exact Or.inr ⟨k, _, _, ha, Members.ofRow_eq_error_iff.2 ⟨k, ha⟩, hb,
      Members.ofRow_eq_error_iff.2 ⟨k, hb⟩, rfl, rfl⟩

def flagged : RecordType := ⟨0, "Flagged", 2, [⟨"flag", .bool, 0⟩, ⟨"count", .integer .uint64, 0⟩]⟩

def overfull : Record flagged := (true, ⟨0x8000000000000000, by decide⟩, ())

/-- A column of no type keeps what is bound to it, and the count is refused on both sides. -/
theorem ofRow_stored_overfull :
    ∃ (k : Nat) (e e' : Error),
      Members.stop? "Flagged" overfull.row flagged.fields = some (k, e) ∧
      ofRow flagged overfull.row = .error e ∧
      Members.stop? "Flagged" (overfull.storedRow Affinity.blob.store) flagged.fields = some (k, e') ∧
      ofRow flagged (overfull.storedRow Affinity.blob.store) = .error e' ∧
      e.category = .typeMapping ∧ e'.category = .typeMapping := by
  rcases ofRow_stored (t := flagged) rfl Affinity.blob.store (fun _ => rfl) overfull with h | h
  · obtain ⟨o', ho', -⟩ := h
    cases ho'
  · exact h

end Record
end Rowmap
