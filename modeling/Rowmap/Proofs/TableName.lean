import Mathlib.Data.List.Infix
import Mathlib.Data.List.TakeWhile
import Rowmap.Proofs.Tokens
import Rowmap.Record.Type

/-! The table that a type's name leads to. Of a qualified name it is what stands behind the last double colon, and
of any other the name itself, in both cases without the blanks at its ends. Double colons may overlap, as in three
or four colons in a row; the last one is the one with no colon behind it. A table's name is qualified no more and
has no blanks at its ends, so it is its own table's name. -/

namespace Rowmap

namespace Text

/-- There is no blank at either end. -/
structure Bare (s : List Char) : Prop where
  start : ∀ c ∈ s.head?, isBlank c = false
  last : ∀ c ∈ s.getLast?, isBlank c = false

/-- The one text is what is left of the other when the blanks at its ends are taken off. -/
structure IsTrimOf (t s : List Char) : Prop where
  cut : ∃ a b : List Char, s = a ++ t ++ b ∧ (∀ c ∈ a, isBlank c = true) ∧ ∀ c ∈ b, isBlank c = true
  bare : Bare t

theorem not_blank_head_trimStart (s : List Char) : ∀ c ∈ (trimStart s).head?, isBlank c = false := by
  intro c hc
  have hnot := List.head?_dropWhile_not isBlank s
  rw [show s.dropWhile isBlank = trimStart s from rfl, hc] at hnot
  simpa using hnot

theorem trimStart_cut (s : List Char) : ∃ a : List Char, (∀ c ∈ a, isBlank c = true) ∧ s = a ++ trimStart s :=
  ⟨s.takeWhile isBlank, fun _ hc => List.mem_takeWhile_imp hc, List.takeWhile_append_dropWhile.symm⟩

theorem trimEnd_cut (s : List Char) : ∃ b : List Char, (∀ c ∈ b, isBlank c = true) ∧ s = trimEnd s ++ b := by
  obtain ⟨a, ha, hs⟩ := trimStart_cut s.reverse
  refine ⟨a.reverse, fun c hc => ha c (List.mem_reverse.1 hc), ?_⟩
  calc s = (a ++ trimStart s.reverse).reverse := by rw [← hs, List.reverse_reverse]
    _ = trimEnd s ++ a.reverse := List.reverse_append

theorem isTrimOf_trim (s : List Char) : IsTrimOf (trim s) s := by
  obtain ⟨a, ha, hs⟩ := trimStart_cut s
  obtain ⟨b, hb, ht⟩ := trimEnd_cut (trimStart s)
  refine ⟨⟨a, b, ?_, ha, hb⟩, ⟨fun c hc => ?_, fun c hc => ?_⟩⟩
  · rw [List.append_assoc]
    exact hs.trans (congrArg (a ++ ·) ht)
  · -- what is left at the start is not taken off at the end
    apply not_blank_head_trimStart s
    rw [ht]
    exact List.mem_head?_append_of_mem_head? hc
  · rw [trim, trimEnd, List.getLast?_reverse] at hc
    exact not_blank_head_trimStart _ c hc

theorem trim_of_isTrimOf {s t : List Char} (h : IsTrimOf t s) : trim s = t := by
  obtain ⟨⟨a, b, rfl, ha, hb⟩, hstart, hlast⟩ := h
  have hend : trimEnd (t ++ b) = t := by
    rw [trimEnd, List.reverse_append, Token.dropWhile_append_ends (by simpa using hb) (by simpa using hlast),
      List.reverse_reverse]
  by_cases ht : t = []
  · have hall : ∀ c ∈ a ++ b, isBlank c = true := fun c hc => (List.mem_append.1 hc).elim (ha c) (hb c)
    have hnil : trimStart (a ++ b) = [] := List.dropWhile_eq_nil_iff.2 hall
    rw [ht, List.append_nil, trim, hnil]
    rfl
  · have hfirst : trimStart (a ++ t ++ b) = t ++ b := by
      rw [List.append_assoc]
      refine Token.dropWhile_append_ends ha ?_
      rwa [List.head?_append_of_ne_nil _ ht]
    rw [trim, hfirst, hend]

theorem trim_eq_iff {s t : List Char} : trim s = t ↔ IsTrimOf t s := by
  refine ⟨?_, trim_of_isTrimOf⟩
  rintro rfl
  exact isTrimOf_trim s

theorem trim_of_bare {s : List Char} (h : Bare s) : trim s = s :=
  trim_of_isTrimOf ⟨⟨[], [], by simp, by simp, by simp⟩, h⟩

theorem trim_infix (s : List Char) : trim s <:+: s := by
  obtain ⟨⟨a, b, hs, -, -⟩, -⟩ := isTrimOf_trim s
  exact ⟨a, b, hs.symm⟩

end Text

def Qualified (s : List Char) : Prop := [':', ':'] <:+: s

instance (s : List Char) : Decidable (Qualified s) := inferInstanceAs (Decidable ([':', ':'] <:+: s))

theorem qualified_cons_iff {c : Char} {s : List Char} :
    Qualified (c :: s) ↔ (c = ':' ∧ s.head? = some ':') ∨ Qualified s := by
  have hprefix : [':', ':'] <+: c :: s ↔ c = ':' ∧ s.head? = some ':' := by
    cases s <;> simp [List.cons_prefix_cons, eq_comm]
  rw [Qualified, List.infix_cons_iff, hprefix, Qualified]

theorem afterColons?_eq_none_iff {s : List Char} : afterColons? s = none ↔ ¬ Qualified s := by
  induction s with
  | nil => simp [afterColons?, Qualified]
  | cons c s ih =>
    rw [afterColons?, qualified_cons_iff]
    cases hs : afterColons? s with
    | none =>
      have hnot := ih.1 hs
      by_cases hc : c = ':' ∧ s.head? = some ':' <;> simp [hc, hnot]
    | some r =>
      have hqualified : Qualified s := by
        by_contra hnot
        rw [ih.2 hnot] at hs
        cases hs
      simp [hqualified]

/-- What stands behind the double colon is not qualified itself, and no colon follows. -/
theorem afterColons?_append (q : List Char) {r : List Char} (hr : ¬ Qualified r) (hstart : r.head? ≠ some ':') :
    afterColons? (q ++ ':' :: ':' :: r) = some r := by
  induction q with
  | nil =>
    -- the second colon begins no double colon of its own
    have hnone : afterColons? (':' :: r) = none := by
      rw [afterColons?_eq_none_iff, qualified_cons_iff]
      rintro (⟨-, h⟩ | h)
      · exact hstart h
      · exact hr h
    rw [List.nil_append, afterColons?, hnone]
    rfl
  | cons c q ih => rw [List.cons_append, afterColons?, ih]

theorem exists_of_afterColons? {p r : List Char} (h : afterColons? p = some r) :
    (∃ q, p = q ++ ':' :: ':' :: r) ∧ ¬ Qualified r ∧ r.head? ≠ some ':' := by
  induction p with
  | nil => cases h
  | cons c s ih =>
    rw [afterColons?] at h
    cases hs : afterColons? s with
    | some t =>
      rw [hs] at h
      cases h
      obtain ⟨⟨q, rfl⟩, hr⟩ := ih hs
      exact ⟨⟨c :: q, rfl⟩, hr⟩
    | none =>
      -- there is no double colon further right, so the last one begins here
      rw [hs] at h
      obtain ⟨⟨rfl, hhead⟩, ht⟩ : (c = ':' ∧ s.head? = some ':') ∧ s.tail = r := by simpa using h
      obtain ⟨t, rfl⟩ := List.head?_eq_some_iff.1 hhead
      cases ht
      have hnot := afterColons?_eq_none_iff.1 hs
      rw [qualified_cons_iff, not_or] at hnot
      exact ⟨⟨[], rfl⟩, hnot.2, fun hcolon => hnot.1 ⟨rfl, hcolon⟩⟩

/-- The part of a name that its table is named after. -/
def lastPart (p : List Char) : List Char := (afterColons? p).getD p

theorem not_qualified_lastPart (p : List Char) : ¬ Qualified (lastPart p) := by
  rw [lastPart]
  cases h : afterColons? p with
  | none => exact afterColons?_eq_none_iff.1 h
  | some r => exact (exists_of_afterColons? h).2.1

theorem lastPart_of_not_qualified {p : List Char} (h : ¬ Qualified p) : lastPart p = p := by
  rw [lastPart, afterColons?_eq_none_iff.2 h]
  rfl

theorem toList_tableNameOf (p : String) : (tableNameOf p).toList = Text.trim (lastPart p.toList) :=
  String.toList_ofList

theorem not_qualified_tableNameOf (p : String) : ¬ Qualified (tableNameOf p).toList := by
  rw [toList_tableNameOf]
  intro h
  exact not_qualified_lastPart p.toList (h.trans (Text.trim_infix _))

theorem bare_tableNameOf (p : String) : Text.Bare (tableNameOf p).toList := by
  rw [toList_tableNameOf]
  exact (Text.isTrimOf_trim _).bare

theorem tableNameOf_of_not_qualified {p : String} (h : ¬ Qualified p.toList) :
    tableNameOf p = String.ofList (Text.trim p.toList) :=
  congrArg (fun s => String.ofList (Text.trim s)) (lastPart_of_not_qualified h)

theorem tableNameOf_tableNameOf (p : String) : tableNameOf (tableNameOf p) = tableNameOf p := by
  rw [tableNameOf_of_not_qualified (not_qualified_tableNameOf p), Text.trim_of_bare (bare_tableNameOf p),
    String.ofList_toList]

theorem tableNameOf_append (q : String) {s : String} (hs : ¬ Qualified s.toList)
    (hstart : s.toList.head? ≠ some ':') :
    tableNameOf (q ++ "::" ++ s) = String.ofList (Text.trim s.toList) := by
  have htext : (q ++ "::" ++ s).toList = q.toList ++ ':' :: ':' :: s.toList := by simp
  rw [tableNameOf, htext, afterColons?_append q.toList hs hstart]
  rfl

theorem exists_qualifier {p : String} (h : Qualified p.toList) :
    ∃ q s : String, p = q ++ "::" ++ s ∧ ¬ Qualified s.toList ∧ s.toList.head? ≠ some ':' := by
  cases hr : afterColons? p.toList with
  | none => exact absurd h (afterColons?_eq_none_iff.1 hr)
  | some r =>
    obtain ⟨⟨q, hq⟩, hnot, hstart⟩ := exists_of_afterColons? hr
    refine ⟨String.ofList q, String.ofList r, ?_, by rwa [String.toList_ofList], by rwa [String.toList_ofList]⟩
    apply String.toList_inj.1
    rw [hq]
    simp

/-- The table of a type is named by what follows the last double colon, without the blanks at its ends. Types whose
names differ in the qualifier alone have one table. -/
theorem tableNameOf_last_part :
    (∀ p : String, ¬ Qualified (tableNameOf p).toList ∧ Text.Bare (tableNameOf p).toList ∧
      tableNameOf (tableNameOf p) = tableNameOf p) ∧
    (∀ q s : String, ¬ Qualified s.toList → s.toList.head? ≠ some ':' →
      tableNameOf (q ++ "::" ++ s) = String.ofList (Text.trim s.toList)) ∧
    (∀ p : String, (¬ Qualified p.toList ∧ tableNameOf p = String.ofList (Text.trim p.toList)) ∨
      ∃ q s : String, p = q ++ "::" ++ s ∧ ¬ Qualified s.toList ∧ s.toList.head? ≠ some ':') ∧
    (∀ s t : List Char, Text.trim s = t ↔ Text.IsTrimOf t s) ∧
    ∀ (t u : RecordType) (q r s : String), t.name = q ++ "::" ++ s → u.name = r ++ "::" ++ s →
      ¬ Qualified s.toList → s.toList.head? ≠ some ':' → t.tableName = u.tableName := by
  refine ⟨?_, fun q s => tableNameOf_append q, ?_, fun s t => Text.trim_eq_iff, ?_⟩
  · intro p
    exact ⟨not_qualified_tableNameOf p, bare_tableNameOf p, tableNameOf_tableNameOf p⟩
  · intro p
    by_cases h : Qualified p.toList
    · exact Or.inr (exists_qualifier h)
    · exact Or.inl ⟨h, tableNameOf_of_not_qualified h⟩
  · intro t u q r s ht hu hs hstart
    rw [RecordType.tableName, RecordType.tableName, ht, hu, tableNameOf_append q hs hstart,
      tableNameOf_append r hs hstart]

/-- Four colons in a row, where the last two part the name, and blanks within the qualifier. -/
theorem tableNameOf_last_part_nested :
    ¬ Qualified "\u3000Person : Staff\t".toList ∧ "\u3000Person : Staff\t".toList.head? ≠ some ':' ∧
    tableNameOf ("app :: people::" ++ "::" ++ "\u3000Person : Staff\t") = "Person : Staff" ∧
    RecordType.tableName ⟨0, "app :: people::" ++ "::" ++ "\u3000Person : Staff\t", 0, []⟩ =
      RecordType.tableName ⟨1, "" ++ "::" ++ "\u3000Person : Staff\t", 1, [⟨"id", .integer .int32, 0⟩]⟩ := by
  obtain ⟨-, hpart, -, -, hshared⟩ := tableNameOf_last_part
  have hplain : ¬ Qualified "\u3000Person : Staff\t".toList := by decide
  have hstart : "\u3000Person : Staff\t".toList.head? ≠ some ':' := by decide
  refine ⟨hplain, hstart, (hpart _ _ hplain hstart).trans (by decide), ?_⟩
  exact hshared _ _ "app :: people::" "" _ rfl rfl hplain hstart

/-- A colon more at the start of the last part belongs to the double colon. -/
example : tableNameOf ("a" ++ "::" ++ ":b") = "b" := by decide

end Rowmap
