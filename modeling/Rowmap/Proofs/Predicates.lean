import Rowmap.Expr.Evaluation
import Rowmap.Proofs.ConditionReader
import Rowmap.Proofs.Grammar
import Rowmap.Proofs.Members

/-! The text of a predicate is read as the comparisons at its leaves, joined by `AND` in the order in which
they stand. -/

namespace Rowmap

def Literal.constant : Literal → Constant
  | integer n => .number n
  | unsigned n => .number n
  | text s => .text s

namespace Expr

/-- The comparisons at the leaves, from left to right. -/
def tests (t : RecordType) : Expr → List ColumnTest
  | binary .and l r => l.tests t ++ r.tests t
  | binary op (field i) (literal l) => [⟨(t.fieldName? i).getD "", op, l.constant⟩]
  | _ => []

theorem tests_comparison (t : RecordType) {op : Operator} (h : op.isComparison = true) (i : Nat)
    (l : Literal) :
    tests t (.binary op (.field i) (.literal l)) = [⟨(t.fieldName? i).getD "", op, l.constant⟩] := by
  cases op <;> first | rfl | cases h

theorem tests_ne_nil {t : RecordType} {n : Nat} {e : Expr} (h : IsQuery n e) : e.tests t ≠ [] := by
  induction h with
  | comparison l hop hi => simp [tests_comparison t hop]
  | and hl hr ihl ihr => simp [tests, ihl]

end Expr

namespace Token

theorem spells_connective (k : Connective) : Spells k.sql.toList [.reserved k.sql] := by
  cases k with
  | and =>
    rw [show Token.reserved Connective.and.sql = ofWord "AND" by decide +kernel]
    exact @spells_ofWord "AND" rfl rfl
  | or =>
    rw [show Token.reserved Connective.or.sql = ofWord "OR" by decide +kernel]
    exact @spells_ofWord "OR" rfl rfl

theorem spells_literal (l : Literal) : Spells l.condition.toList l.constant.tokens := by
  cases l with
  | integer n =>
    rw [Literal.condition, String.toList_ofList]
    exact spells_intText n
  | unsigned n =>
    rw [Literal.condition, String.toList_ofList]
    exact spells_natText n
  | text s => exact spells_text s

end Token

namespace Expr

theorem toList_spaced (a b : String) : (a ++ " " ++ b).toList = a.toList ++ ' ' :: b.toList := by
  rw [String.toList_append, String.toList_append, List.append_assoc]
  rfl

theorem spells_comparison {n : String} (hn : Token.isIdentifier n = true) {op : Operator}
    (hop : op.isComparison = true) (l : Literal) :
    Token.Spells (n ++ " " ++ op.symbol ++ " " ++ l.condition).toList (ColumnTest.tokens ⟨n, op, l.constant⟩) := by
  rw [toList_spaced, toList_spaced]
  exact ((Token.spells_identifier hn).append (Token.spells_symbol hop)).append (Token.spells_literal l)

theorem fieldNameAt_eq_ok {t : RecordType} {i : Nat} {n : String} (h : t.fieldNameAt i = .ok n) :
    t.fieldName? i = some n := by
  unfold RecordType.fieldNameAt at h
  split at h
  · next hn =>
    cases h
    exact hn
  · cases h

theorem condition_binary {t : RecordType} {op : Operator} {l r : Expr} {c : String}
    (h : condition t (.binary op l r) = .ok c) :
    ∃ a b, l.condition t = .ok a ∧ r.condition t = .ok b ∧ c = a ++ " " ++ op.symbol ++ " " ++ b := by
  rw [condition] at h
  split at h
  · cases h
  · obtain ⟨a, ha, h⟩ := bind_eq_ok.1 h
    obtain ⟨b, hb, h⟩ := bind_eq_ok.1 h
    cases h
    exact ⟨a, b, ha, hb, rfl⟩

theorem spells_condition {t : RecordType} (hnames : ∀ n ∈ t.memberNames, Token.isIdentifier n = true)
    {n : Nat} {e : Expr} (he : IsQuery n e) {c : String} (h : e.condition t = .ok c) :
    Token.Spells c.toList (groupTokens (e.tests t)) := by
  induction he generalizing c with
  | @comparison op i l hop hi =>
    obtain ⟨a, b, ha, hb, rfl⟩ := condition_binary h
    have hn := fieldNameAt_eq_ok ha
    cases hb
    have hspells := spells_comparison (hnames a (RecordType.mem_memberNames_of_fieldName? hn)) hop l
    rw [tests_comparison t hop, hn]
    simpa [groupTokens, wordsBetween] using hspells
  | and hl hr ihl ihr =>
    obtain ⟨a, b, ha, hb, rfl⟩ := condition_binary h
    have hspells := ((ihl ha).append (Token.spells_connective .and)).append (ihr hb)
    rw [tests, groupTokens, wordsBetween_append (tests_ne_nil hl) (tests_ne_nil hr), toList_spaced,
      toList_spaced]
    simpa [groupTokens, Connective.sql, Operator.symbol] using hspells

end Expr
end Rowmap
