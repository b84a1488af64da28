import Rowmap.Proofs.Alignment
import Rowmap.Proofs.Placement
import Rowmap.Proofs.WideNumeral

/-! A value that is compared with and the same value stored. A predicate has the value in its text and an insertion
has it as a parameter, and both come to the same cell, integers of any width included; only an empty text is bound
as null. The column does the same to both, so a record's row is found by the value of any field. -/

namespace Rowmap

theorem Cell.order_self (c : Cell) : c.order c = .eq := by
  cases c <;> simp [Cell.order, Double.order, Std.compare_self]

namespace Affinity

theorem isNull_narrow (c : Cell) : (narrow c).isNull = c.isNull := by
  unfold narrow
  split
  · split <;> rfl
  · rfl

theorem isNull_toNumber (c : Cell) : (toNumber c).isNull = c.isNull := by
  cases c with
  | text s =>
    rw [toNumber, number?]
    split <;> rfl
  | _ => rfl

/-- A column stores something of everything but a null. -/
theorem isNull_store (a : Affinity) (c : Cell) : (a.store c).isNull = c.isNull := by
  cases a with
  | blob => rfl
  | numeric => rw [store, isNull_narrow, isNull_toNumber]
  | real =>
    rw [store, ← isNull_toNumber c]
    cases toNumber c <;> rfl
  | text => cases c <;> rfl

/-- What a value is held against is what would be stored of it, short of reals, of which there are no literals. -/
theorem literal_eq_store {a : Affinity} (h : a ≠ .real) (c : Cell) : a.literal c = a.store c := by
  cases a with
  | real => exact absurd rfl h
  | _ => rfl

end Affinity

namespace Literal

theorem kind_of_ofVal? {t : FieldType} {x : t.Val} {l : Literal} (h : ofVal? t x = some l) :
    t.kind = .integer ∧ l ≠ .text "" ∨ t.kind = .text := by
  unfold ofVal? at h
  split at h <;> cases h
  · exact Or.inl ⟨rfl, nofun⟩
  · exact Or.inl ⟨rfl, nofun⟩
  · exact Or.inl ⟨rfl, nofun⟩
  · exact Or.inl ⟨rfl, nofun⟩
  · exact Or.inr rfl

theorem cell_integer {t : IntegerType} (v : t.Val) : (Operand.integer v.val).cell = Cell.ofValue (.integer v.val) := by
  have hleast : -0x8000000000000000 ≤ t.least := by cases t <;> decide
  have hgreatest : t.greatest < 0x10000000000000000 := by cases t <;> decide
  have hl := v.property.1
  have hg := v.property.2
  exact Operand.cell_integer (by omega) (by omega)

theorem isNull_cell (l : Literal) : l.constant.operand.cell.isNull = false := by
  cases l with
  | text s => rfl
  | _ =>
    rw [constant, Constant.operand, Operand.cell]
    split <;> rfl

/-- What is bound for a value is what its literal stands for, but for the empty text. -/
theorem ofValue_toValue {t : FieldType} {x : t.Val} {l : Literal} (h : ofVal? t x = some l) :
    Cell.ofValue (t.toValue x) = if l = .text "" then .null else l.constant.operand.cell := by
  unfold ofVal? at h
  split at h <;> cases h
  · next v =>
    have hnat : (v.val.toNat : Int) = v.val := Int.toNat_of_nonneg v.property.1
    rw [if_neg nofun, constant, hnat]
    exact (cell_integer v).symm
  · next v =>
    have hnat : (v.val.toNat : Int) = v.val := Int.toNat_of_nonneg v.property.1
    rw [if_neg nofun, constant, hnat]
    exact (cell_integer v).symm
  · next v _ _ =>
    rw [if_neg nofun]
    exact (cell_integer v).symm
  · next b =>
    have hvalue := cell_integer (IntegerType.ofBool .uint8 b)
    rw [if_neg nofun]
    cases b <;> exact hvalue.symm
  · next s =>
    rw [FieldType.toValue]
    by_cases hs : s = ""
    · rw [if_pos hs, if_pos (congrArg text hs)]
      rfl
    · rw [if_neg hs, if_neg fun h => hs (text.inj h)]
      rfl

end Literal

namespace Definition

variable {d : Definition} {t : RecordType} {k : Nat} {f : Field}

theorem type_of_place_number (h : d.place k = .number) : d.type k = "INTEGER" := by
  unfold place at h
  split at h
  · next hk =>
    unfold numbering? at hk
    split at hk
    · simpa using (Option.filter_eq_some_iff.1 hk).2
    · cases hk
  · cases h

namespace Describes

theorem affinity_ne_real (hd : d.Describes t) (hf : t.fields[k]? = some f)
    (hkind : f.kind = .integer ∨ f.kind = .text) : d.affinity (d.place k) ≠ .real := by
  cases hp : d.place k with
  | number => exact nofun
  | column i =>
    rw [eq_of_place_column hp, affinity, hd.type hf]
    rcases hkind with hkind | hkind <;> rw [hkind] <;> decide +kernel

theorem place_ne_number (hd : d.Describes t) (hf : t.fields[k]? = some f) (hkind : f.kind = .text) :
    d.place k ≠ .number := by
  intro hp
  have htype := type_of_place_number hp
  rw [hd.type hf, hkind] at htype
  revert htype
  decide +kernel

end Describes
end Definition

/-- The row of a record, held against the value of one of its fields. -/
theorem Relation.holds_of_insert? {r r' : Relation} {t : RecordType} (hd : r.definition.Describes t) {o : Record t}
    {e : Entry} (h : r.insert? t.memberNames (o.values.map Cell.ofValue) = some (e, r')) {k : Nat} {f : Field}
    {x : f.type.Val} (hx : Members.at? t.fields o k = some ⟨f, x⟩) {l : Literal}
    (hl : Literal.ofVal? f.type x = some l) :
    Check.holds r.definition e ⟨.place (r.definition.place k), .eq, l.constant.operand⟩ = decide (l ≠ .text "") := by
  have hf := Members.getElem?_of_at? hx
  have hlength : (o.values.map Cell.ofValue).length = t.fields.length := by
    rw [List.length_map, Record.values, Members.length_values]
  have hc : (o.values.map Cell.ofValue)[k]? = some (Cell.ofValue (f.type.toValue x)) := by
    rw [List.getElem?_map, Record.values, Members.getElem?_values, hx]
    rfl
  have hkind := Literal.kind_of_ofVal? hl
  have hvalue := Literal.ofValue_toValue hl
  have hread : e.read (r.definition.place k) =
      (r.definition.affinity (r.definition.place k)).store (Cell.ofValue (f.type.toValue x)) := by
    refine read_of_insert? hd hlength h hf hc fun hp => ?_
    rcases hkind with ⟨-, hne⟩ | hkind
    · rw [hvalue, if_neg hne]
      exact l.isNull_cell
    · exact absurd hp (hd.place_ne_number hf hkind)
  have hliteral : (r.definition.affinity (r.definition.place k)).literal l.constant.operand.cell =
      (r.definition.affinity (r.definition.place k)).store l.constant.operand.cell :=
    Affinity.literal_eq_store (hd.affinity_ne_real hf (hkind.imp And.left id)) _
  simp only [Check.holds, Meaning.read, hread, hliteral, Affinity.isNull_store, hvalue]
  by_cases hempty : l = .text ""
  · simp [hempty, Cell.isNull]
  · simp [hempty, l.isNull_cell, Cell.order_self, Operator.accepts]

end Rowmap
