import Mathlib.Data.List.Basic
import Rowmap.Proofs.Tokens
import Rowmap.Query

/-! Where the condition of a statement begins. The words in front of it have no blanks in them and are not
`WHERE`, if the names of the table and its columns are read as themselves; so the first ` WHERE ` in the
text is the one that the query has put there. -/

namespace Rowmap
namespace Query

/-- What follows the first place where a text has another in it. -/
def afterFirst? (p : List Char) : List Char → Option (List Char)
  | [] => p.isPrefixOf? []
  | c :: s =>
    match p.isPrefixOf? (c :: s) with
    | some r => some r
    | none => afterFirst? p s

/-- What stands in front of a condition. -/
def lead : List Char := " WHERE ".toList

theorem afterFirst?_lead (s : List Char) : afterFirst? lead (lead ++ s) = some s := rfl

theorem afterFirst?_of_ne_space {c : Char} (hc : c ≠ ' ') (s : List Char) :
    afterFirst? lead (c :: s) = afterFirst? lead s := by
  have hp : lead.isPrefixOf? (c :: s) = none := by
    show (if ' ' == c then _ else none) = none
    rw [if_neg (by simpa using Ne.symm hc)]
  rw [afterFirst?, hp]

theorem afterFirst?_word {w : List Char} (hw : ' ' ∉ w) (s : List Char) :
    afterFirst? lead (w ++ s) = afterFirst? lead s := by
  induction w with
  | nil => rfl
  | cons c w ih =>
    have hc : c ≠ ' ' := fun hc => hw (by simp [hc])
    rw [List.cons_append, afterFirst?_of_ne_space hc, ih fun hm => hw (List.mem_cons_of_mem _ hm)]

/-- Words that have no blank in them are the same if a blank ends both. -/
theorem eq_of_append_space {v w r s : List Char} (hv : ' ' ∉ v) (hw : ' ' ∉ w)
    (h : v ++ ' ' :: r = w ++ ' ' :: s) : v = w := by
  have hcut : ∀ {v r : List Char}, ' ' ∉ v → (v ++ ' ' :: r).takeWhile (· ≠ ' ') = v := by
    intro v r hv
    rw [List.takeWhile_append_of_pos fun c hc => decide_eq_true (ne_of_mem_of_not_mem hc hv),
      List.takeWhile_cons_of_neg (by simp), List.append_nil]
  rw [← hcut (r := r) hv, h, hcut hw]

/-- No word but `WHERE` stands between blanks where a condition begins. -/
theorem afterFirst?_space {w : List Char} (hw : ' ' ∉ w) (hne : w ≠ "WHERE".toList) (s : List Char) :
    afterFirst? lead (' ' :: (w ++ ' ' :: s)) = afterFirst? lead (' ' :: s) := by
  cases hp : lead.isPrefixOf? (' ' :: (w ++ ' ' :: s)) with
  | some r =>
    have heq : w ++ ' ' :: s = "WHERE".toList ++ ' ' :: r :=
      (List.cons.inj (List.append_eq_of_isPrefixOf?_eq_some hp).symm).2
    exact absurd (eq_of_append_space hw (by decide) heq) hne
  | none => rw [afterFirst?, hp, afterFirst?_word hw]

theorem blankless_of_isIdentifier {n : String} (h : Token.isIdentifier n = true) :
    ' ' ∉ n.toList ∧ n.toList ≠ "WHERE".toList := by
  constructor
  · intro hm
    simp only [Token.isIdentifier, Bool.and_eq_true, List.all_eq_true] at h
    have hpart := h.1.2 ' ' hm
    cases hpart
  · intro he
    rw [String.toList_inj] at he
    subst he
    revert h
    decide +kernel

theorem afterFirst?_commas {names : List String} (hnames : ∀ n ∈ names, Token.isIdentifier n = true)
    (s : List Char) : afterFirst? lead (' ' :: ((Table.commas names).toList ++ ' ' :: s)) =
      afterFirst? lead (' ' :: s) := by
  induction names with
  | nil => exact afterFirst?_space (w := []) nofun nofun s
  | cons n names ih =>
    obtain ⟨hn, hne⟩ := blankless_of_isIdentifier (hnames n (List.mem_cons_self ..))
    cases names with
    | nil =>
      rw [Table.commas, String.intercalate_singleton]
      exact afterFirst?_space hn hne s
    | cons m names =>
      have hw : ' ' ∉ n.toList ++ [','] := by simpa using hn
      have hlast : n.toList ++ [','] ≠ "WHERE".toList := by
        intro he
        have hm : ',' ∈ "WHERE".toList := he ▸ by simp
        exact absurd hm (by decide)
      have hrest := ih fun k hk => hnames k (List.mem_cons_of_mem _ hk)
      have htext : (Table.commas (n :: m :: names)).toList ++ ' ' :: s =
          (n.toList ++ [',']) ++ ' ' :: ((Table.commas (m :: names)).toList ++ ' ' :: s) := by
        have hcomma : ", ".toList = [',', ' '] := rfl
        simp [Table.commas, String.intercalate_cons_cons, hcomma]
      rw [htext, afterFirst?_space hw hlast, hrest]

theorem afterFirst?_select {t : RecordType} (htable : Token.isIdentifier t.tableName = true)
    (hnames : ∀ n ∈ t.memberNames, Token.isIdentifier n = true) (s : List Char) :
    afterFirst? lead ((selectHeader t).toList ++ (lead ++ s)) = some s := by
  obtain ⟨hn, hne⟩ := blankless_of_isIdentifier htable
  have hheader : (selectHeader t).toList ++ (lead ++ s) =
      "SELECT".toList ++ (' ' :: ((Table.commas t.memberNames).toList ++
        ' ' :: ("FROM".toList ++ ' ' :: (t.tableName.toList ++ ' ' :: ("WHERE ".toList ++ s))))) := by
    have hselect : "SELECT ".toList = "SELECT".toList ++ [' '] := rfl
    have hfrom : " FROM ".toList = ' ' :: "FROM".toList ++ [' '] := rfl
    have hlead : lead = ' ' :: "WHERE ".toList := rfl
    simp only [selectHeader, String.toList_append, hselect, hfrom, hlead, List.append_assoc, List.cons_append,
      List.nil_append]
  rw [hheader, afterFirst?_word (by decide), afterFirst?_commas hnames,
    afterFirst?_space (by decide) (by decide), afterFirst?_space hn hne]
  exact afterFirst?_lead s

end Query
end Rowmap
