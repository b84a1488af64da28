import Rowmap.Proofs.Members

/-! A record read from a row. Every field is read from the column of its name, fields that share a name from the
same one, and the first field that is missing or refuses its column is the one that is reported. Nothing else of the
row matters, neither other columns nor the order in which the columns came. -/

namespace Rowmap

namespace Field

variable {table : String} {row : Row} {f : Field}

theorem read_eq_ok_iff {x : f.type.Val} :
    f.read table row = .ok x ↔ ∃ v, row.value? f.name = some v ∧ f.type.ofValue v = .ok x := by
  unfold read
  cases row.value? f.name <;> simp

theorem read_eq_error_iff {e : Error} : f.read table row = .error e ↔
    (row.value? f.name = none ∧ e = .fieldNotFound table f.name) ∨
      ∃ v type, row.value? f.name = some v ∧ f.type.ofValue v = .error e ∧ e = .mismatch v type := by
  unfold read
  cases row.value? f.name with
  | none => simp [eq_comm]
  | some v =>
    simp only [reduceCtorEq, false_and, false_or, Option.some.injEq, exists_and_left]
    constructor
    · intro h
      obtain ⟨type, htype⟩ := FieldType.ofValue_eq_error h
      exact ⟨v, rfl, h, type, htype⟩
    · rintro ⟨_, rfl, h, -⟩
      exact h

end Field

namespace Members

variable {table : String} {row : Row}

theorem ofRow_eq_ok_iff {fs : List Field} {xs : Members fs} : ofRow table row fs = .ok xs ↔
    ∀ k f x, at? fs xs k = some ⟨f, x⟩ → f.read table row = .ok x := by
  induction fs with
  | nil => exact ⟨fun _ _ _ _ => nofun, fun _ => rfl⟩
  | cons f fs ih =>
    obtain ⟨x, xs⟩ := xs
    have hcons : ofRow table row (f :: fs) = .ok (x, xs) ↔
        f.read table row = .ok x ∧ ofRow table row fs = .ok xs := by
      rw [ofRow_cons]
      exact bind_eq_ok.trans (by simp [map_eq_ok])
    rw [hcons, ih]
    constructor
    · rintro ⟨hx, hxs⟩ k g y hy
      cases k with
      | zero =>
        cases hy
        exact hx
      | succ k => exact hxs k g y hy
    · intro h
      exact ⟨h 0 f x rfl, fun k g y hy => h (k + 1) g y hy⟩

/-- Reading gets past the fields that can be read and no further. -/
theorem ofRow_cases (table : String) (row : Row) (fs : List Field) :
    (∃ xs, ofRow table row fs = .ok xs ∧ ∀ f ∈ fs, ∃ x, f.read table row = .ok x) ∨
      ∃ before f after e, fs = before ++ f :: after ∧ (∀ g ∈ before, ∃ y, g.read table row = .ok y) ∧
        f.read table row = .error e ∧ ofRow table row fs = .error e := by
  induction fs with
  | nil => exact Or.inl ⟨(), rfl, nofun⟩
  | cons f fs ih =>
    rw [ofRow_cons]
    cases hf : f.read table row with
    | error e => exact Or.inr ⟨[], f, fs, e, rfl, nofun, hf, rfl⟩
    | ok x =>
      rcases ih with ⟨xs, hxs, hall⟩ | ⟨before, g, after, e, rfl, hbefore, hg, he⟩
      · exact Or.inl ⟨(x, xs), by rw [hxs]; rfl, List.forall_mem_cons.2 ⟨⟨x, hf⟩, hall⟩⟩
      · exact Or.inr ⟨f :: before, g, after, e, rfl, List.forall_mem_cons.2 ⟨⟨x, hf⟩, hbefore⟩, hg, by rw [he]; rfl⟩

theorem exists_ofRow_iff {fs : List Field} :
    (∃ xs, ofRow table row fs = .ok xs) ↔ ∀ f ∈ fs, ∃ x, f.read table row = .ok x := by
  rcases ofRow_cases table row fs with ⟨xs, hxs, hall⟩ | ⟨before, f, after, e, rfl, -, hf, he⟩
  · exact iff_of_true ⟨xs, hxs⟩ hall
  · refine iff_of_false ?_ fun h => ?_
    · rintro ⟨xs, hxs⟩
      cases hxs.symm.trans he
    · obtain ⟨x, hx⟩ := h f (by simp)
      cases hx.symm.trans hf

theorem ofRow_of_first {before after : List Field} {f : Field} {e : Error}
    (hbefore : ∀ g ∈ before, ∃ y, g.read table row = .ok y) (hf : f.read table row = .error e) :
    ofRow table row (before ++ f :: after) = .error e := by
  induction before with
  | nil =>
    rw [List.nil_append, ofRow_cons, hf]
    rfl
  | cons g before ih =>
    obtain ⟨⟨y, hy⟩, hrest⟩ := List.forall_mem_cons.1 hbefore
    rw [List.cons_append, ofRow_cons, hy, ih hrest]
    rfl

theorem ofRow_eq_error_iff_first {fs : List Field} {e : Error} : ofRow table row fs = .error e ↔
    ∃ before f after, fs = before ++ f :: after ∧ (∀ g ∈ before, ∃ y, g.read table row = .ok y) ∧
      f.read table row = .error e := by
  constructor
  · intro h
    rcases ofRow_cases table row fs with ⟨xs, hxs, -⟩ | ⟨before, f, after, e', hfs, hbefore, hf, he⟩
    · cases hxs.symm.trans h
    · cases he.symm.trans h
      exact ⟨before, f, after, hfs, hbefore, hf⟩
  · rintro ⟨before, f, after, rfl, hbefore, hf⟩
    exact ofRow_of_first hbefore hf

theorem ofRow_congr {row' : Row} {fs : List Field} (h : ∀ f ∈ fs, row.value? f.name = row'.value? f.name) :
    ofRow table row fs = ofRow table row' fs := by
  induction fs with
  | nil => rfl
  | cons f fs ih =>
    obtain ⟨hf, hfs⟩ := List.forall_mem_cons.1 h
    rw [ofRow_cons, ofRow_cons, Field.read, Field.read, hf, ih hfs]

end Members

namespace Record

/-- A record can be read from a row exactly if for every field there is a column of its name that converts to its
type. Otherwise the error is that of the first field for which there is none. -/
theorem ofRow_field_by_field (t : RecordType) (row : Row) :
    ((∃ o, ofRow t row = .ok o) ↔
      ∀ f ∈ t.fields, ∃ v x, row.value? f.name = some v ∧ f.type.ofValue v = .ok x) ∧
    (∀ o, ofRow t row = .ok o ↔ ∀ k f x, Members.at? t.fields o k = some ⟨f, x⟩ →
      ∃ v, row.value? f.name = some v ∧ f.type.ofValue v = .ok x) ∧
    (∀ e, ofRow t row = .error e ↔ ∃ before f after, t.fields = before ++ f :: after ∧
      (∀ g ∈ before, ∃ v y, row.value? g.name = some v ∧ g.type.ofValue v = .ok y) ∧
      ((row.value? f.name = none ∧ e = .fieldNotFound t.tableName f.name) ∨
        ∃ v type, row.value? f.name = some v ∧ f.type.ofValue v = .error e ∧ e = .mismatch v type)) ∧
    (∀ row' : Row, (∀ f ∈ t.fields, row.value? f.name = row'.value? f.name) → ofRow t row = ofRow t row') ∧
    ∀ cs ds : List (String × Value), (∀ f ∈ t.fields, cs.reverse.lookup f.name = ds.reverse.lookup f.name) →
      ofRow t (.ofList cs) = ofRow t (.ofList ds) := by
  have hreads : ∀ f : Field, (∃ x, f.read t.tableName row = .ok x) ↔
      ∃ v x, row.value? f.name = some v ∧ f.type.ofValue v = .ok x := fun f => by
    simp only [Field.read_eq_ok_iff]
    exact exists_comm
  refine ⟨?_, fun o => ?_, fun e => ?_, fun row' h => Members.ofRow_congr h, fun cs ds h => ?_⟩
  · simp only [ofRow, Members.exists_ofRow_iff, hreads]
  · simp only [ofRow, Members.ofRow_eq_ok_iff, Field.read_eq_ok_iff]
  · simp only [ofRow, Members.ofRow_eq_error_iff_first, hreads, Field.read_eq_error_iff]
  · exact Members.ofRow_congr fun f hf => by rw [Row.value?_ofList, Row.value?_ofList, h f hf]

def doubled : RecordType :=
  ⟨0, "Doubled", 3, [⟨"code", .text, 0⟩, ⟨"seen", .optional .bool, 0⟩, ⟨"code", .integer .int8, 0⟩]⟩

/-- A column that only the first of the two fields can be read from is reported if no field before the other one is
missing, and not otherwise. The column inserted last counts. -/
theorem ofRow_field_by_field_doubled :
    ofRow doubled (.ofList [("code", .text "x"), ("seen", .null), ("code", .integer 7)]) =
      ofRow doubled (.ofList [("other", .null), ("code", .integer 7), ("seen", .null)]) ∧
    ofRow doubled (.ofList [("seen", .null), ("code", .text "x")]) = .error (.mismatch (.text "x") "i8") ∧
    ofRow doubled (.ofList [("code", .text "x")]) = .error (.fieldNotFound "Doubled" "seen") := by
  refine ⟨?_, ?_, ?_⟩
  · refine (ofRow_field_by_field doubled .empty).2.2.2.2 _ _ fun f hf => ?_
    simp only [doubled, List.mem_cons, List.not_mem_nil, or_false] at hf
    rcases hf with rfl | rfl | rfl <;> rfl
  · refine ((ofRow_field_by_field doubled _).2.2.1 _).2
      ⟨[⟨"code", .text, 0⟩, ⟨"seen", .optional .bool, 0⟩], _, [], rfl, ?_, Or.inr ⟨_, _, rfl, rfl, rfl⟩⟩
    rw [List.forall_mem_cons, List.forall_mem_singleton]
    exact ⟨⟨_, _, rfl, rfl⟩, ⟨_, _, rfl, rfl⟩⟩
  · refine ((ofRow_field_by_field doubled _).2.2.1 _).2
      ⟨[⟨"code", .text, 0⟩], _, [⟨"code", .integer .int8, 0⟩], rfl, ?_, Or.inl ⟨rfl, rfl⟩⟩
    rw [List.forall_mem_singleton]
    exact ⟨_, _, rfl, rfl⟩

end Record
end Rowmap
