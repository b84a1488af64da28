import Rowmap.Proofs.Alignment
import Rowmap.Proofs.Spelling

/-! What a column can hold, on a server whose integers have four bytes, and what its field binds. A column of
reals is made wide enough for every float and a column of fixed text for every text of so many bytes, as a
character takes one byte at least. The integers of a field can have eight bytes, and their column has four. -/

namespace Rowmap

def fitsInteger (n : Int) : Bool := -0x80000000 ≤ n && n < 0x80000000

/-- The values that a column of the type takes: a truth value is one or zero where integers are meant, and
anything may be missing. -/
def ColumnType.admits : ColumnType → Value → Bool
  | _, .null => true
  | .integer, .bool _ => true
  | .integer, .integer n => fitsInteger n
  | .real, .real x => (Single.ofDouble x.val).toDouble = x.val
  | .double, .real _ => true
  | .varchar, .text _ => true
  | .char n, .text s => s.length ≤ n
  | _, _ => false

def Value.IsNarrow (v : Value) : Prop := ∀ n, v = .integer n → fitsInteger n = true

namespace FieldType

theorem admits_toValue_iff (t : FieldType) (v : t.Val) :
    (ColumnType.ofKindWide t.kind).admits (t.toValue v) = true ↔ (t.toValue v).IsNarrow := by
  induction t with
  | integer t =>
    refine ⟨fun h n hn => ?_, fun h => h _ rfl⟩
    cases hn
    exact h
  | bool => exact ⟨fun _ => nofun, fun _ => rfl⟩
  | double | single =>
    simp only [toValue, Value.ofDouble]
    split <;> exact ⟨fun _ => nofun, fun _ => rfl⟩
  | text =>
    simp only [toValue]
    split <;> exact ⟨fun _ => nofun, fun _ => rfl⟩
  | fixedText n => exact ⟨fun _ => nofun, fun _ => decide_eq_true v.length_text_le⟩
  | optional t ih =>
    cases v with
    | none =>
      refine ⟨fun _ => nofun, fun _ => ?_⟩
      rw [toValue]
      cases ColumnType.ofKindWide (optional t).kind <;> rfl
    | some v => exact ih v

end FieldType

namespace Remote

/-- On a server, a column is created with the type of its field's marker, and takes what the field binds exactly if
that is no integer beyond 32 bits. -/
theorem column_admits {t : RecordType} (s : ConstraintStore) (o : Record t) (b : Remote) {k : Nat} {f : Field}
    (hf : t.fields[k]? = some f) :
    ∃ (c : Column) (x : f.type.Val),
      (Table.ofRecordType t s (Backend.columnType b)).columns[k]? = some c ∧ c.name = f.name ∧
      Members.at? t.fields o k = some ⟨f, x⟩ ∧
      (Statement.markers (Backend.marker b) 1 t.fields)[k]? =
        some ("$" ++ toString (k + 1) ++ "::" ++ c.type.sql) ∧
      (o.insertion (Backend.marker b)).params[k]? = some (f.type.toValue x) ∧
      (c.type.admits (f.type.toValue x) = true ↔ (f.type.toValue x).IsNarrow) := by
  obtain ⟨hcolumn, -, hmarker, x, hx, hparam⟩ :=
    (RecordType.aligned o s (Backend.columnType b) (Backend.marker b)).place k f hf
  obtain ⟨c, hc, htype⟩ := Option.map_eq_some_iff.1 hcolumn
  have hname : c.name = f.name := by
    have hnames := congrArg (·[k]?) (RecordType.names_ofRecordType t s (Backend.columnType b))
    simpa only [List.getElem?_map, hc, RecordType.memberNames, hf, Option.map_some, Option.some.injEq] using hnames
  refine ⟨c, x, hc, hname, hx, ?_, hparam, ?_⟩
  · rw [hmarker, htype]
    rfl
  · rw [htype]
    exact FieldType.admits_toValue_iff f.type x

def big : RecordType := ⟨0, "Big", 1, [⟨"n", .integer .int64, 0⟩]⟩

def brimful : Record big := (⟨0x7FFFFFFF, by decide⟩, ())

theorem column_admits_brimful : ∃ (c : Column) (x : IntegerType.int64.Val),
    (Table.ofRecordType big .empty (Backend.columnType ({} : Remote))).columns[0]? = some c ∧ x.val = 0x7FFFFFFF ∧
      (brimful.insertion (Backend.marker ({} : Remote))).params[0]? = some (.integer x.val) ∧
      c.type.admits (.integer x.val) = true := by
  obtain ⟨c, x, hc, -, hx, -, hparam, hadmits⟩ := column_admits .empty brimful {}
    (show big.fields[0]? = some ⟨"n", .integer .int64, 0⟩ from rfl)
  have hval : x.val = 0x7FFFFFFF := by cases hx; rfl
  refine ⟨c, x, hc, hval, hparam, hadmits.2 fun n hn => ?_⟩
  cases hn
  rw [hval]
  rfl

def beyond : Record big := (⟨0x80000000, by decide⟩, ())

def fresh : Session Remote := ⟨.empty, {}⟩

/-- The server is sent a number that the column it has just created does not take. -/
theorem wide_integer_refused :
    (Action.after (Session.createTable big fresh)).backend.log =
        [("CREATE TABLE IF NOT EXISTS Big (n INTEGER)", [])] ∧
      (Action.after (Session.insert beyond fresh)).backend.log =
        [("INSERT INTO Big (n) VALUES ($1::INTEGER)", [.int8 0x80000000])] ∧
      (ColumnType.ofKindWide (FieldType.integer .int64).kind).admits
        ((FieldType.integer .int64).toValue ⟨0x80000000, by decide⟩) = false :=
  ⟨rfl, rfl, rfl⟩

end Remote
end Rowmap
