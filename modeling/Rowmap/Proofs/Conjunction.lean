import Rowmap.Proofs.Grammar

/-! A query is checked conjunct by conjunct. The check walks the tree along its conjunctions and comes to
what the list of conjuncts comes to: the query is accepted if each of them is a comparison, and refused for
the first that is none. How the conjunctions are nested shows neither in the list nor in the check. -/

namespace Rowmap

theorem forM_cases {α : Type} (f : α → Except Error Unit) (xs : List α) :
    (forM xs f = .ok () ∧ ∀ x ∈ xs, f x = .ok ()) ∨
      ∃ before x after e, xs = before ++ x :: after ∧ (∀ b ∈ before, f b = .ok ()) ∧
        f x = .error e ∧ forM xs f = .error e := by
  induction xs with
  | nil => exact Or.inl ⟨rfl, nofun⟩
  | cons y ys ih =>
    have hforM : forM (y :: ys) f = (f y >>= fun _ => forM ys f) := List.forM_cons
    cases hy : f y with
    | error e => exact Or.inr ⟨[], y, ys, e, rfl, nofun, hy, by rw [hforM, hy]; rfl⟩
    | ok =>
      have hrest : forM (y :: ys) f = forM ys f := by rw [hforM, hy]; rfl
      rcases ih with ⟨hok, hall⟩ | ⟨before, x, after, e, rfl, hbefore, hx, herr⟩
      · exact Or.inl ⟨hrest.trans hok, List.forall_mem_cons.2 ⟨hy, hall⟩⟩
      · exact Or.inr ⟨y :: before, x, after, e, rfl, List.forall_mem_cons.2 ⟨hy, hbefore⟩, hx,
          hrest.trans herr⟩

def Operator.comparisons : List Operator := [.eq, .ne, .gt, .lt, .ge, .le]

theorem Operator.mem_comparisons_iff {op : Operator} : op ∈ comparisons ↔ op.isComparison = true := by
  cases op <;> decide

namespace Expr

/-- The trees that the conjunctions of a tree join, from left to right. -/
def conjuncts : Expr → List Expr
  | binary .and l r => l.conjuncts ++ r.conjuncts
  | e => [e]

/-- Whether the tree compares a field below the count with a literal. -/
def isComparison (n : Nat) : Expr → Bool
  | binary op (field i) (literal _) => decide (op ∈ Operator.comparisons) && decide (i < n)
  | _ => false

theorem conjuncts_cases (e : Expr) :
    (∃ l r, e = .binary .and l r ∧ e.conjuncts = l.conjuncts ++ r.conjuncts) ∨
      ((∀ l r, e ≠ .binary .and l r) ∧ e.conjuncts = [e]) := by
  rw [conjuncts.eq_def]
  split
  · next l r => exact Or.inl ⟨l, r, rfl, rfl⟩
  · next h => exact Or.inr ⟨h, rfl⟩

/-- No conjunct is a conjunction. -/
theorem ne_and_of_mem_conjuncts {e c : Expr} (h : c ∈ e.conjuncts) (l r : Expr) : c ≠ .binary .and l r := by
  induction e with
  | binary op a b iha ihb =>
    rcases conjuncts_cases (.binary op a b) with ⟨a', b', heq, hconj⟩ | ⟨hne, hconj⟩
    · cases heq
      rw [hconj, List.mem_append] at h
      exact h.elim iha ihb
    · rw [hconj, List.mem_singleton] at h
      exact h ▸ hne l r
  | field i => cases List.mem_singleton.1 h; nofun
  | literal k => cases List.mem_singleton.1 h; nofun
  | constraint k => cases List.mem_singleton.1 h; nofun

/-- A query is held against the grammar conjunct by conjunct, from left to right. -/
theorem checkQuery_eq_forM (n : Nat) (e : Expr) : e.checkQuery n = forM e.conjuncts (checkQuery n) := by
  induction e with
  | binary op l r ihl ihr =>
    rcases conjuncts_cases (.binary op l r) with ⟨l', r', heq, hconj⟩ | ⟨-, hconj⟩
    · cases heq
      rw [hconj, List.forM_append, ← ihl, ← ihr, checkQuery, if_neg (by decide), if_pos rfl]
    · rw [hconj]
      cases hcheck : checkQuery n (.binary op l r) <;> simp [hcheck]
  | field i => rfl
  | literal l => rfl
  | constraint c => rfl

theorem isComparison_iff_isQuery {n : Nat} {c : Expr} (h : ∀ l r, c ≠ .binary .and l r) :
    c.isComparison n = true ↔ IsQuery n c := by
  constructor
  · intro hc
    unfold isComparison at hc
    split at hc
    · next op i l =>
      obtain ⟨hop, hi⟩ := Bool.and_eq_true_iff.1 hc
      exact .comparison l (Operator.mem_comparisons_iff.1 (of_decide_eq_true hop)) (of_decide_eq_true hi)
    · cases hc
  · intro hc
    cases hc with
    | comparison l hop hi =>
      exact Bool.and_eq_true_iff.2
        ⟨decide_eq_true (Operator.mem_comparisons_iff.2 hop), decide_eq_true hi⟩
    | and hl hr => exact absurd rfl (h _ _)

theorem checkQuery_conjunct_eq_ok_iff {n : Nat} {e c : Expr} (h : c ∈ e.conjuncts) :
    c.checkQuery n = .ok () ↔ c.isComparison n = true :=
  checkQuery_eq_ok_iff.trans (isComparison_iff_isQuery (ne_and_of_mem_conjuncts h)).symm

theorem isComparison_mono {n m : Nat} (hnm : n ≤ m) {c : Expr} (h : c.isComparison n = true) :
    c.isComparison m = true := by
  unfold isComparison at h ⊢
  split at h
  · obtain ⟨hop, hi⟩ := Bool.and_eq_true_iff.1 h
    exact Bool.and_eq_true_iff.2 ⟨hop, decide_eq_true (Nat.lt_of_lt_of_le (of_decide_eq_true hi) hnm)⟩
  · cases h

theorem invalid_of_checkField {n : Nat} {e : Expr} {x : Error} (h : e.checkField n = .error x) :
    ∃ why, x = .invalidExpression why := by
  unfold checkField at h
  split at h
  · split at h
    · cases h
    · exact ⟨_, (Except.error.inj h).symm⟩
  · exact ⟨_, (Except.error.inj h).symm⟩

theorem invalid_of_checkLiteral {e : Expr} {x : Error} (h : e.checkLiteral = .error x) :
    ∃ why, x = .invalidExpression why := by
  unfold checkLiteral at h
  split at h
  · cases h
  · exact ⟨_, (Except.error.inj h).symm⟩

theorem invalid_of_checkQuery {n : Nat} {e : Expr} {x : Error} (h : e.checkQuery n = .error x) :
    ∃ why, x = .invalidExpression why := by
  induction e with
  | binary op l r ihl ihr =>
    rw [checkQuery] at h
    split at h
    · rcases bind_eq_error.1 h with hl | ⟨_, -, hr⟩
      · exact invalid_of_checkField hl
      · exact invalid_of_checkLiteral hr
    · split at h
      · rcases bind_eq_error.1 h with hl | ⟨_, -, hr⟩
        · exact ihl hl
        · exact ihr hr
      · exact ⟨_, (Except.error.inj h).symm⟩
  | field i => exact ⟨_, (Except.error.inj h).symm⟩
  | literal l => exact ⟨_, (Except.error.inj h).symm⟩
  | constraint c => exact ⟨_, (Except.error.inj h).symm⟩

/-! ### Nesting -/

/-- Trees that differ in no more than how their conjunctions are nested. -/
inductive Reassociated : Expr → Expr → Prop where
  | refl (e : Expr) : Reassociated e e
  | rotate (a b c : Expr) :
    Reassociated (.binary .and (.binary .and a b) c) (.binary .and a (.binary .and b c))
  | left {a a' : Expr} (b : Expr) : Reassociated a a' →
    Reassociated (.binary .and a b) (.binary .and a' b)
  | right (a : Expr) {b b' : Expr} : Reassociated b b' →
    Reassociated (.binary .and a b) (.binary .and a b')
  | symm {e e' : Expr} : Reassociated e e' → Reassociated e' e
  | trans {e₁ e₂ e₃ : Expr} : Reassociated e₁ e₂ → Reassociated e₂ e₃ → Reassociated e₁ e₃

/-- What takes conjunctions to something associative takes no notice of the nesting. -/
theorem Reassociated.eq_of_assoc {α : Type} {f : Expr → α} {g : α → α → α}
    (hand : ∀ a b, f (.binary .and a b) = g (f a) (f b))
    (hassoc : ∀ x y z, g (g x y) z = g x (g y z)) {e e' : Expr} (h : Reassociated e e') :
    f e = f e' := by
  induction h with
  | refl e => rfl
  | rotate a b c => rw [hand, hand, hand, hand, hassoc]
  | left b _ ih => rw [hand, hand, ih]
  | right a _ ih => rw [hand, hand, ih]
  | symm _ ih => exact ih.symm
  | trans _ _ ih₁ ih₂ => exact ih₁.trans ih₂

theorem Reassociated.conjuncts_eq {e e' : Expr} (h : Reassociated e e') : e.conjuncts = e'.conjuncts :=
  h.eq_of_assoc (fun a b => by rw [conjuncts]) List.append_assoc

theorem reassociated_and_allRight (a : Expr) (as : List Expr) (b : Expr) (bs : List Expr) :
    Reassociated (.binary .and (allRight a as) (allRight b bs)) (allRight a (as ++ b :: bs)) := by
  -- the first list is taken off the left side, one conjunct by one rotation
  induction as generalizing a with
  | nil => exact .refl _
  | cons a' as ih => exact (Reassociated.rotate ..).trans (.right a (ih a'))

theorem exists_reassociated_allRight (e : Expr) :
    ∃ c cs, e.conjuncts = c :: cs ∧ Reassociated e (allRight c cs) := by
  induction e with
  | binary op l r ihl ihr =>
    rcases conjuncts_cases (.binary op l r) with ⟨l', r', heq, hconj⟩ | ⟨-, hconj⟩
    · cases heq
      obtain ⟨a, as, ha, hl⟩ := ihl
      obtain ⟨b, bs, hb, hr⟩ := ihr
      refine ⟨a, as ++ b :: bs, by rw [hconj, ha, hb]; rfl, ?_⟩
      exact ((Reassociated.left r hl).trans (.right _ hr)).trans (reassociated_and_allRight a as b bs)
    · exact ⟨_, [], hconj, .refl _⟩
  | field i => exact ⟨_, [], rfl, .refl _⟩
  | literal l => exact ⟨_, [], rfl, .refl _⟩
  | constraint c => exact ⟨_, [], rfl, .refl _⟩

/-- The conjuncts are all there is to a tree but for the nesting. -/
theorem reassociated_iff {e e' : Expr} : Reassociated e e' ↔ e.conjuncts = e'.conjuncts := by
  refine ⟨Reassociated.conjuncts_eq, fun h => ?_⟩
  obtain ⟨c, cs, hc, hright⟩ := exists_reassociated_allRight e
  obtain ⟨c', cs', hc', hright'⟩ := exists_reassociated_allRight e'
  -- nested to the right, the two are one tree
  rw [h, hc'] at hc
  cases hc
  exact hright.trans hright'.symm

/-! ### The check as a whole -/

theorem checkQuery_eq_ok_iff_conjuncts {n : Nat} {e : Expr} :
    e.checkQuery n = .ok () ↔ ∀ c ∈ e.conjuncts, c.isComparison n = true := by
  rw [checkQuery_eq_forM]
  rcases forM_cases (checkQuery n) e.conjuncts with ⟨hok, hall⟩ | ⟨before, c, after, x, heq, -, hc, herr⟩
  · exact ⟨fun _ c hc => (checkQuery_conjunct_eq_ok_iff hc).1 (hall c hc), fun _ => hok⟩
  · have hmem : c ∈ e.conjuncts := heq ▸ List.mem_append_right _ (List.mem_cons_self ..)
    refine ⟨fun h => (by rw [herr] at h; cases h), fun h => ?_⟩
    rw [(checkQuery_conjunct_eq_ok_iff hmem).2 (h c hmem)] at hc
    cases hc

theorem checkQuery_first_fault {n : Nat} {e : Expr} (h : ¬ ∀ c ∈ e.conjuncts, c.isComparison n = true) :
    ∃ before c after why, e.conjuncts = before ++ c :: after ∧ (∀ b ∈ before, b.isComparison n = true) ∧
      c.isComparison n = false ∧ c.checkQuery n = .error (.invalidExpression why) ∧
        e.checkQuery n = .error (.invalidExpression why) := by
  rcases forM_cases (checkQuery n) e.conjuncts with ⟨hok, -⟩ | ⟨before, c, after, x, heq, hbefore, hc, herr⟩
  · rw [← checkQuery_eq_forM] at hok
    exact absurd (checkQuery_eq_ok_iff_conjuncts.1 hok) h
  · obtain ⟨why, rfl⟩ := invalid_of_checkQuery hc
    rw [← checkQuery_eq_forM] at herr
    refine ⟨before, c, after, why, heq, fun b hb => ?_, ?_, hc, herr⟩
    · have hmem : b ∈ e.conjuncts := heq ▸ List.mem_append_left _ hb
      exact (checkQuery_conjunct_eq_ok_iff hmem).1 (hbefore b hb)
    · have hmem : c ∈ e.conjuncts := heq ▸ List.mem_append_right _ (List.mem_cons_self ..)
      rw [Bool.eq_false_iff, Ne, ← checkQuery_conjunct_eq_ok_iff hmem, hc]
      nofun

theorem not_comparisons_of_isConfiguration {m n : Nat} {e : Expr} (h : IsConfiguration m e) :
    ¬ ∀ c ∈ e.conjuncts, c.isComparison n = true := by
  cases h with
  | assignment hi hc =>
    intro hall
    cases hall _ (List.mem_singleton_self _)

/-- The query grammar accepts a tree exactly if each of its conjuncts compares a declared field with a literal, and
refuses it for what is wrong with the first that does not. -/
theorem check_query_by_conjuncts (e : Expr) (n : Nat) :
    (e.check .query n = .ok () ↔ ∀ c ∈ e.conjuncts, c.isComparison n = true) ∧
    ((¬ ∀ c ∈ e.conjuncts, c.isComparison n = true) →
      ∃ before c after why, e.conjuncts = before ++ c :: after ∧ (∀ b ∈ before, b.isComparison n = true) ∧
        c.isComparison n = false ∧ c.check .query n = .error (.invalidExpression why) ∧
          e.check .query n = .error (.invalidExpression why)) ∧
    (∀ e', Reassociated e e' → e'.check .query n = e.check .query n) ∧
    (∀ m, n ≤ m → e.check .query n = .ok () → e.check .query m = .ok ()) ∧
    ∀ m, ¬ (e.check .query n = .ok () ∧ e.check .configuration m = .ok ()) := by
  refine ⟨checkQuery_eq_ok_iff_conjuncts, checkQuery_first_fault, ?_, ?_, ?_⟩
  · intro e' h
    show e'.checkQuery n = e.checkQuery n
    rw [checkQuery_eq_forM, checkQuery_eq_forM, reassociated_iff.1 h]
  · intro m hnm h
    have hall := checkQuery_eq_ok_iff_conjuncts.1 h
    exact checkQuery_eq_ok_iff_conjuncts.2 fun c hc => isComparison_mono hnm (hall c hc)
  · rintro m ⟨hquery, hconfiguration⟩
    exact not_comparisons_of_isConfiguration (check_configuration_eq_ok_iff.1 hconfiguration)
      (checkQuery_eq_ok_iff_conjuncts.1 hquery)

def withinBounds : Expr :=
  .binary .and (.binary .ge (.field 0) (.literal (.integer (-1)))) (.binary .ne (.field 1) (.literal (.text "and")))

/-- Behind what is in order, a third field, and then a comparison the wrong way round. -/
def twoFaults : Expr :=
  .binary .and (.binary .and withinBounds (.binary .lt (.field 2) (.literal (.unsigned 9))))
    (.binary .eq (.literal (.integer 0)) (.field 1))

theorem check_query_by_conjuncts_twoFaults :
    (¬ ∀ c ∈ twoFaults.conjuncts, c.isComparison 2 = true) ∧
    (∃ before c after why, twoFaults.conjuncts = before ++ c :: after ∧
      (∀ b ∈ before, b.isComparison 2 = true) ∧ c.isComparison 2 = false ∧
        c.check .query 2 = .error (.invalidExpression why) ∧
          twoFaults.check .query 2 = .error (.invalidExpression why)) ∧
    twoFaults.check .query 2 = .error (.invalidExpression (.undeclaredField 2 2)) ∧
    (∃ c cs, Reassociated twoFaults (allRight c cs) ∧
      (allRight c cs).check .query 2 = twoFaults.check .query 2) ∧
    withinBounds.check .query 2 = .ok () ∧ withinBounds.check .query 7 = .ok () ∧
    withinBounds.check .configuration 7 ≠ .ok () := by
  have hfaults : ¬ ∀ c ∈ twoFaults.conjuncts, c.isComparison 2 = true := by decide
  obtain ⟨-, hfirst, hnesting, -, -⟩ := check_query_by_conjuncts twoFaults 2
  obtain ⟨hiff, -, -, hmore, hneither⟩ := check_query_by_conjuncts withinBounds 2
  have hok : withinBounds.check .query 2 = .ok () := hiff.2 (by decide)
  obtain ⟨c, cs, -, hright⟩ := exists_reassociated_allRight twoFaults
  exact ⟨hfaults, hfirst hfaults, rfl, ⟨c, cs, hright, hnesting _ hright⟩, hok, hmore 7 (by decide) hok,
    fun h => hneither 7 ⟨hok, h⟩⟩

end Expr
end Rowmap
