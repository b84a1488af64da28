import Rowmap.Expr.Evaluation
import Rowmap.Proofs.Conjunction

/-! A predicate is written, or refused, by its nodes alone. Its text has the words of the nodes in order, a
blank between each two; the shape of the tree shows only in which node is met first, and so, when some of
them cannot stand in a predicate, in what is said against it. -/

namespace Rowmap

/-- What is to be said against a field, by its index: that the type does not have it. -/
def RecordType.fieldFault? (t : RecordType) (i : Nat) : Option ExprFault :=
  if i < t.fields.length then none else some (.unregisteredField i t.tableName)

theorem RecordType.fieldFault?_cases (t : RecordType) (i : Nat) :
    (i < t.fields.length ∧ t.fieldFault? i = none ∧ ∃ f, t.fieldName? i = some f ∧ t.fieldNameAt i = .ok f) ∨
      (¬ i < t.fields.length ∧ t.fieldFault? i = some (.unregisteredField i t.tableName) ∧
        t.fieldName? i = none ∧ t.fieldNameAt i = .error (.invalidExpression (.unregisteredField i t.tableName))) := by
  by_cases h : i < t.fields.length
  · exact Or.inl ⟨h, if_pos h, t.fields[i].name, by simp [fieldName?, h], by simp [fieldNameAt, fieldName?, h]⟩
  · exact Or.inr ⟨h, if_neg h, by simp [fieldName?, h], by simp [fieldNameAt, fieldName?, h]⟩

inductive Node where
  | field (index : Nat)
  | literal (l : Literal)
  | constraint (c : Constraint)
  | operator (op : Operator)
deriving DecidableEq, Repr

namespace Expr

/-- A node comes before what stands below it, and its left before its right. -/
def preorder : Expr → List Node
  | field i => [.field i]
  | literal l => [.literal l]
  | constraint c => [.constraint c]
  | binary op l r => .operator op :: (l.preorder ++ r.preorder)

/-- A node comes between its left and its right. -/
def inorder : Expr → List Node
  | field i => [.field i]
  | literal l => [.literal l]
  | constraint c => [.constraint c]
  | binary op l r => l.inorder ++ .operator op :: r.inorder

theorem inorder_perm_preorder (e : Expr) : e.inorder.Perm e.preorder := by
  induction e with
  | binary op l r ihl ihr => exact List.perm_middle.trans ((ihl.append ihr).cons _)
  | field i => exact .refl _
  | literal l => exact .refl _
  | constraint c => exact .refl _

theorem inorder_ne_nil (e : Expr) : e.inorder ≠ [] := by
  cases e <;> simp [inorder]

end Expr

namespace Node

/-- Why a node cannot stand in a predicate on the fields of the type. -/
def predicateFault? (t : RecordType) : Node → Option ExprFault
  | field i => t.fieldFault? i
  | literal _ => none
  | constraint c => some (.constraintInQuery c)
  | operator op => if op = .assign then some .assignmentInQuery else none

def word (t : RecordType) : Node → String
  | field i => (t.fieldName? i).getD ""
  | literal l => l.condition
  | constraint _ => ""
  | operator op => op.symbol

end Node

namespace Expr

variable {t : RecordType}

def words (t : RecordType) (e : Expr) : List String := e.inorder.map (Node.word t)

theorem words_ne_nil (e : Expr) : e.words t ≠ [] := by
  simpa [words] using inorder_ne_nil e

theorem intercalate_words_binary (op : Operator) (l r : Expr) :
    " ".intercalate (words t (.binary op l r)) =
      " ".intercalate (l.words t) ++ " " ++ op.symbol ++ " " ++ " ".intercalate (r.words t) := by
  have hwords : words t (.binary op l r) = l.words t ++ ([op.symbol] ++ r.words t) := by
    rw [words, inorder, List.map_append, List.map_cons]
    rfl
  rw [hwords, String.intercalate_append_of_ne_nil (words_ne_nil l) (by simp),
    String.intercalate_append_of_ne_nil (by simp) (words_ne_nil r), String.intercalate_singleton]
  simp only [String.append_assoc]

/-- The first node that cannot stand in a predicate decides; if there is none, the predicate has its text. -/
theorem condition_eq (t : RecordType) (e : Expr) :
    e.condition t = match e.preorder.findSome? (Node.predicateFault? t) with
      | some why => .error (.invalidExpression why)
      | none => .ok (" ".intercalate (e.words t)) := by
  induction e with
  | field i =>
    rcases t.fieldFault?_cases i with ⟨-, hfault, f, hf, hat⟩ | ⟨-, hfault, -, hat⟩
    · simp [condition, preorder, words, inorder, Node.predicateFault?, Node.word, hfault, hf, hat]
    · simp [condition, preorder, Node.predicateFault?, hfault, hat]
  | literal l => simp [condition, preorder, words, inorder, Node.predicateFault?, Node.word]
  | constraint c => simp [condition, preorder, Node.predicateFault?, invalid]
  | binary op l r ihl ihr =>
    rw [condition, preorder]
    by_cases hop : op = .assign
    · simp [hop, Node.predicateFault?, invalid]
    · have hnone : Node.predicateFault? t (.operator op) = none := by simp [Node.predicateFault?, hop]
      rw [if_neg hop, List.findSome?_cons, hnone, List.findSome?_append, ihl, ihr]
      -- the left is written first, so its fault is the one that shows
      cases l.preorder.findSome? (Node.predicateFault? t) with
      | some why => rfl
      | none =>
        cases r.preorder.findSome? (Node.predicateFault? t) with
        | some why => rfl
        | none =>
          rw [intercalate_words_binary]
          rfl

theorem condition_eq_ok_iff {e : Expr} {c : String} :
    e.condition t = .ok c ↔ (∀ n ∈ e.preorder, n.predicateFault? t = none) ∧ c = " ".intercalate (e.words t) := by
  rw [condition_eq, ← List.findSome?_eq_none_iff]
  cases e.preorder.findSome? (Node.predicateFault? t) with
  | some why => exact ⟨nofun, fun h => nomatch h.1⟩
  | none => exact ⟨fun h => ⟨rfl, (Except.ok.inj h).symm⟩, fun h => congrArg _ h.2.symm⟩

theorem condition_eq_error_iff {e : Expr} {x : Error} :
    e.condition t = .error x ↔ ∃ before n after why, e.preorder = before ++ n :: after ∧
      (∀ m ∈ before, m.predicateFault? t = none) ∧ n.predicateFault? t = some why ∧
        x = .invalidExpression why := by
  rw [condition_eq]
  constructor
  · intro h
    cases hfirst : e.preorder.findSome? (Node.predicateFault? t) with
    | none => rw [hfirst] at h; cases h
    | some why =>
      rw [hfirst] at h
      obtain ⟨before, n, after, heq, hn, hbefore⟩ := List.findSome?_eq_some_iff.1 hfirst
      exact ⟨before, n, after, why, heq, hbefore, hn, (Except.error.inj h).symm⟩
  · rintro ⟨before, n, after, why, heq, hbefore, hn, rfl⟩
    rw [List.findSome?_eq_some_iff.2 ⟨before, n, after, heq, hn, hbefore⟩]

theorem faultless_iff {ns : List Node} :
    (∀ n ∈ ns, n.predicateFault? t = none) ↔
      Node.operator .assign ∉ ns ∧ (∀ c, Node.constraint c ∉ ns) ∧
        ∀ i, Node.field i ∈ ns → i < t.fields.length := by
  constructor
  · intro h
    refine ⟨fun ha => ?_, fun c hc => ?_, fun i hi => ?_⟩
    · cases h _ ha
    · cases h _ hc
    · rcases t.fieldFault?_cases i with ⟨hlt, -⟩ | ⟨-, hfault, -⟩
      · exact hlt
      · cases hfault.symm.trans (h _ hi)
  · rintro ⟨hassign, hconstraint, hfield⟩ n hn
    cases n with
    | field i => exact if_pos (hfield i hn)
    | literal l => rfl
    | constraint c => exact absurd hn (hconstraint c)
    | operator op =>
      refine if_neg ?_
      rintro rfl
      exact hassign hn

theorem Reassociated.inorder_eq {e e' : Expr} (h : Reassociated e e') : e.inorder = e'.inorder :=
  h.eq_of_assoc (g := fun ns ms => ns ++ .operator .and :: ms) (fun _ _ => rfl) fun _ _ _ => List.append_assoc ..

/-- The two sides of a conjunction, the left one first. -/
def both (x y : Except Error String) : Except Error String := do
  let a ← x
  let b ← y
  return a ++ " " ++ Operator.and.symbol ++ " " ++ b

theorem both_assoc (x y z : Except Error String) : both (both x y) z = both x (both y z) := by
  cases x with
  | error e => rfl
  | ok a =>
    cases y with
    | error e => rfl
    | ok b =>
      cases z with
      | error e => rfl
      | ok c =>
        show Except.ok _ = Except.ok _
        simp only [String.append_assoc]

theorem Reassociated.condition_eq {e e' : Expr} (h : Reassociated e e') : e.condition t = e'.condition t :=
  h.eq_of_assoc (f := condition t) (fun a b => by rw [condition, if_neg (by decide), both]) both_assoc

/-- With the same nodes in order there is the same text. -/
theorem condition_of_inorder {e e' : Expr} (h : e'.inorder = e.inorder) {c : String} (hc : e.condition t = .ok c) :
    e'.condition t = .ok c := by
  obtain ⟨hall, rfl⟩ := condition_eq_ok_iff.1 hc
  refine condition_eq_ok_iff.2 ⟨fun n hn => hall n ?_, by rw [words, words, h]⟩
  rw [← e'.inorder_perm_preorder.mem_iff, h] at hn
  exact e.inorder_perm_preorder.mem_iff.1 hn

/-- A predicate can be written exactly if no assignment, no constraint and no field beyond those of the type is in it,
and then it has the words of its nodes in order. Otherwise the first node that is out of place decides. -/
theorem condition_in_order (t : RecordType) (e : Expr) :
    ((∃ c, e.condition t = .ok c) ↔
      Node.operator .assign ∉ e.preorder ∧ (∀ c, Node.constraint c ∉ e.preorder) ∧
        ∀ i, Node.field i ∈ e.preorder → i < t.fields.length) ∧
    (∀ c, e.condition t = .ok c → c = " ".intercalate (e.inorder.map (Node.word t))) ∧
    (∀ e' : Expr, e'.inorder = e.inorder → ∀ c, e.condition t = .ok c → e'.condition t = .ok c) ∧
    (∀ e', Reassociated e e' → e'.inorder = e.inorder ∧ e'.condition t = e.condition t) ∧
    ∀ x, e.condition t = .error x ↔ ∃ before n after why, e.preorder = before ++ n :: after ∧
      (∀ m ∈ before, m.predicateFault? t = none) ∧ n.predicateFault? t = some why ∧
        x = .invalidExpression why := by
  refine ⟨?_, ?_, ?_, ?_, ?_⟩
  · rw [← faultless_iff]
    constructor
    · rintro ⟨c, hc⟩
      exact (condition_eq_ok_iff.1 hc).1
    · intro hall
      exact ⟨_, condition_eq_ok_iff.2 ⟨hall, rfl⟩⟩
  · intro c hc
    exact (condition_eq_ok_iff.1 hc).2
  · intro e' h c
    exact condition_of_inorder h
  · intro e' h
    exact ⟨h.inorder_eq.symm, h.condition_eq.symm⟩
  · intro x
    exact condition_eq_error_iff

def remark : RecordType := ⟨0, "Remark", 2, [⟨"line", .integer .uint16, 0⟩, ⟨"body", .text, 0⟩]⟩

def lopsided : Expr :=
  .binary .lt (.binary .and (.field 1) (.literal (.text "it's"))) (.binary .ne (.literal (.integer (-3))) (.field 0))

def unrolled : Expr :=
  .binary .and (.field 1)
    (.binary .lt (.literal (.text "it's")) (.binary .ne (.literal (.integer (-3))) (.field 0)))

def misassigned : Expr := .binary .assign (.binary .eq (.field 2) (.literal (.integer 0))) (.constraint .unique)

/-- What comes first in the text is not what is met first: the assignment stands above the field. -/
def overruled : Expr := .binary .and (.binary .and (.field 1) (.literal (.unsigned 1))) misassigned

def overruledRight : Expr := .binary .and (.field 1) (.binary .and (.literal (.unsigned 1)) misassigned)

theorem condition_in_order_lopsided :
    lopsided.condition remark = .ok "body AND 'it''s' < -3 <> line" ∧
    unrolled.inorder = lopsided.inorder ∧ unrolled.condition remark = lopsided.condition remark ∧
    overruled.condition remark = .error (.invalidExpression .assignmentInQuery) ∧
    Reassociated overruled overruledRight ∧
    overruledRight.condition remark = overruled.condition remark := by
  obtain ⟨hiff, htext, hshape, -, -⟩ := condition_in_order remark lopsided
  obtain ⟨-, -, -, hnesting, hfault⟩ := condition_in_order remark overruled
  obtain ⟨c, hc⟩ := hiff.2 (faultless_iff.1 (by decide))
  have hwords : c = "body AND 'it''s' < -3 <> line" := (htext c hc).trans (by decide +kernel)
  have hrotate : Reassociated overruled overruledRight := .rotate ..
  refine ⟨hwords ▸ hc, rfl, (hshape unrolled rfl c hc).trans hc.symm, ?_, hrotate, (hnesting _ hrotate).2⟩
  exact (hfault _).2 ⟨[.operator .and, .operator .and, .field 1, .literal (.unsigned 1)], .operator .assign, _, _, rfl,
    by decide, rfl, rfl⟩

end Expr
end Rowmap
