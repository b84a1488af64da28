import Rowmap.Pool.Run

/-! Every connection of a pool is in one place. Whether a borrower is the last holder is read at one moment
only, so the invariant has to say why the answer stays true: past that check nobody is left who could make
a copy. -/

namespace Rowmap
namespace Pool

variable {β : Type}

/-- The stages that only a sole owner gets to. -/
def Stage.isPastOwner : Stage → Bool
  | .connected | .handBack => true
  | .owner | .discard => false

def loanCount (p : Pool β) (c : Nat) : Nat := (p.loans.map Loan.connection?).count (some c)

/-- Every connection is idle once, on one loan, or neither; and while it is idle, or on a loan that has
passed for its sole owner, there are no copies. -/
structure Exclusive (p : Pool β) : Prop where
  once : ∀ c, p.idle.count c + p.loanCount c ≤ 1
  idle : ∀ c ∈ p.idle, some c ∉ p.copies
  checked : ∀ c s, .leaving c s ∈ p.loans → s.isPastOwner = true → some c ∉ p.copies

theorem mem_of_loan {p : Pool β} {i : Nat} {l : Loan} (h : p.loan i = l) (hl : l ≠ .gone) :
    p.loans[i]? = some l := by
  unfold loan at h
  cases hi : p.loans[i]? with
  | none => rw [hi] at h; exact absurd h.symm hl
  | some m => rw [hi] at h; exact congrArg some h

theorem loanCount_pos {p : Pool β} {l : Loan} {c : Nat} (hl : l ∈ p.loans)
    (hc : l.connection? = some c) : 0 < p.loanCount c :=
  List.count_pos_iff.2 (List.mem_map.2 ⟨l, hl, hc⟩)

theorem loanCount_setLoan {p : Pool β} {i : Nat} {l : Loan} (h : p.loans[i]? = some l) (l' : Loan)
    (c : Nat) : (p.setLoan i l').loanCount c + (if l.connection? = some c then 1 else 0) =
      p.loanCount c + if l'.connection? = some c then 1 else 0 := by
  have hc : (p.loans.map Loan.connection?)[i]? = some l.connection? := by
    rw [List.getElem?_map, h]
    rfl
  obtain ⟨hi, hc⟩ := List.getElem?_eq_some_iff.1 hc
  have hpos : l.connection? = some c → 0 < p.loanCount c := loanCount_pos (List.mem_of_getElem? h)
  simp only [loanCount, setLoan, List.map_set] at hpos ⊢
  rw [List.count_set hi, hc]
  simp only [beq_iff_eq]
  by_cases hl : l.connection? = some c
  · have hpos := hpos hl
    rw [if_pos hl]
    omega
  · rw [if_neg hl]
    omega

/-- Two loans of one connection count twice. -/
theorem loanCount_of_two {p : Pool β} {l m : Loan} {c : Nat} (hl : l ∈ p.loans) (hm : m ∈ p.loans)
    (hne : l ≠ m) (hlc : l.connection? = some c) (hmc : m.connection? = some c) : 2 ≤ p.loanCount c := by
  obtain ⟨i, hi, rfl⟩ := List.mem_iff_getElem.1 hl
  have hset := loanCount_setLoan (p := p) (List.getElem?_eq_getElem hi) .gone c
  have hmem : m ∈ (p.setLoan i .gone).loans := by
    obtain ⟨j, hj, rfl⟩ := List.mem_iff_getElem.1 hm
    have hij : i ≠ j := by rintro rfl; exact hne rfl
    simp only [setLoan]
    exact List.mem_iff_getElem.2 ⟨j, by simpa using hj, by simp [hij]⟩
  have hpos := loanCount_pos hmem hmc
  rw [hlc, if_pos rfl] at hset
  simp [Loan.connection?] at hset
  omega

theorem reach_cases {p : Pool β} {h : Handle} {c : Nat} (hr : p.reach? h = some c) :
    .held c ∈ p.loans ∨ some c ∈ p.copies := by
  cases h with
  | loan i =>
    have hl : p.loan i = .held c := by
      simp only [reach?] at hr
      cases hi : p.loan i <;> simp_all [Loan.usable?]
    exact Or.inl (List.mem_of_getElem? (mem_of_loan hl (by nofun)))
  | copy k =>
    have hk : p.copies[k]? = some (some c) := by
      simpa [reach?, copy?, Option.join_eq_some_iff] using hr
    exact Or.inr (List.mem_of_getElem? hk)

theorem Exclusive.not_idle {p : Pool β} (he : Exclusive p) {h : Handle} {c : Nat}
    (hr : p.reach? h = some c) : c ∉ p.idle := by
  intro hc
  rcases reach_cases hr with hl | hk
  · have hone := he.once c
    have hpos := loanCount_pos hl rfl
    have hidle := List.count_pos_iff.2 hc
    omega
  · exact he.idle c hc hk

theorem Exclusive.not_checked {p : Pool β} (he : Exclusive p) {h : Handle} {c : Nat}
    (hr : p.reach? h = some c) {s : Stage} (hs : s.isPastOwner = true) : .leaving c s ∉ p.loans := by
  intro hm
  rcases reach_cases hr with hl | hk
  · have hone := he.once c
    have htwo := loanCount_of_two hl hm (by nofun) rfl rfl
    omega
  · exact he.checked c s hm hs hk

theorem Exclusive.mono {p q : Pool β} (h : Exclusive p)
    (honce : ∀ c, q.idle.count c + q.loanCount c ≤ p.idle.count c + p.loanCount c)
    (hidle : ∀ c ∈ q.idle, c ∈ p.idle)
    (hchecked : ∀ c s, .leaving c s ∈ q.loans → s.isPastOwner = true → .leaving c s ∈ p.loans)
    (hcopies : ∀ c, some c ∈ q.copies → some c ∈ p.copies) : Exclusive q where
  once c := Nat.le_trans (honce c) (h.once c)
  idle c hc hk := h.idle c (hidle c hc) (hcopies c hk)
  checked c s hm hs hk := h.checked c s (hchecked c s hm hs) hs (hcopies c hk)

theorem Exclusive.same {p q : Pool β} (h : Exclusive p) (hi : q.idle = p.idle) (hl : q.loans = p.loans)
    (hk : q.copies = p.copies) : Exclusive q :=
  h.mono (fun c => Nat.le_of_eq (by rw [loanCount, loanCount, hi, hl])) (fun c hc => hi ▸ hc)
    (fun c s hm _ => hl ▸ hm) (fun c hc => hk ▸ hc)

theorem exclusive_settle {p : Pool β} (h : Exclusive p) : Exclusive p.settle := by
  unfold settle
  split
  · exact h
  · refine h.mono (fun c => ?_) (by nofun) (fun c s hm _ => hm) (fun c hk => hk)
    simp [loanCount]

theorem exclusive_lend {p : Pool β} (h : Exclusive p) : Exclusive p.lend := by
  unfold lend
  cases hi : p.idle with
  | nil =>
    refine h.mono (fun c => ?_) (fun c hc => hi ▸ hc) (fun c s hm _ => ?_) (fun c hk => hk)
    · simp [loanCount, Loan.connection?, hi]
    · simpa using hm
  | cons d cs =>
    refine h.mono (fun c => ?_) (fun c hc => ?_) (fun c s hm _ => ?_) (fun c hk => hk)
    · simp only [loanCount, hi, List.map_append, List.count_append, List.count_cons, List.map_cons,
        List.map_nil, List.count_nil, Loan.connection?, beq_iff_eq, Option.some.injEq]
      omega
    · rw [hi]
      exact List.mem_cons_of_mem _ hc
    · simpa using hm

theorem exclusive_lendNothing {p : Pool β} (h : Exclusive p) : Exclusive p.lendNothing := by
  refine h.mono (fun c => ?_) (fun c hc => hc) (fun c s hm _ => ?_) (fun c hk => hk)
  · simp [lendNothing, loanCount, Loan.connection?]
  · simpa [lendNothing] using hm

/-- A connection that can be reached is neither idle nor past the check, so a copy breaks nothing. -/
theorem exclusive_copy {p : Pool β} (h : Exclusive p) {e : Handle} {c : Nat} (hr : p.reach? e = some c) :
    Exclusive (p.copy c) where
  once := h.once
  idle d hd hk := by
    simp only [copy, List.mem_append, List.mem_singleton, Option.some.injEq] at hk
    rcases hk with hk | rfl
    · exact h.idle d hd hk
    · exact h.not_idle hr hd
  checked d s hm hs hk := by
    simp only [copy, List.mem_append, List.mem_singleton, Option.some.injEq] at hk
    rcases hk with hk | rfl
    · exact h.checked d s hm hs hk
    · exact h.not_checked hr hs hm

theorem exclusive_dropCopy {p : Pool β} (h : Exclusive p) (k : Nat) : Exclusive (p.dropCopy k) := by
  refine h.mono (fun c => Nat.le_refl _) (fun c hc => hc) (fun c s hm _ => hm) (fun c hk => ?_)
  rcases List.mem_or_eq_of_mem_set hk with hk | hk
  · exact hk
  · cases hk

/-- A loan that keeps its connection, or gives it up, and is not past the check. -/
theorem exclusive_setLoan {p : Pool β} (h : Exclusive p) {i : Nat} {l l' : Loan}
    (hl : p.loans[i]? = some l) (hc : ∀ c, l'.connection? = some c → l.connection? = some c)
    (hs : ∀ c s, l' = .leaving c s → s.isPastOwner = true → some c ∉ p.copies) :
    Exclusive (p.setLoan i l') where
  once c := by
    have hcount := loanCount_setLoan hl l' c
    have hone := h.once c
    have hle : (p.setLoan i l').loanCount c ≤ p.loanCount c := by
      by_cases hkept : l'.connection? = some c
      · rw [if_pos hkept, if_pos (hc c hkept)] at hcount
        omega
      · rw [if_neg hkept] at hcount
        omega
    show p.idle.count c + (p.setLoan i l').loanCount c ≤ 1
    omega
  idle := h.idle
  checked c s hm hp := by
    rcases List.mem_or_eq_of_mem_set hm with hm | hm
    · exact h.checked c s hm hp
    · exact hs c s hm.symm hp

theorem exclusive_beginRelease {p : Pool β} (h : Exclusive p) (i : Nat) : Exclusive (p.beginRelease i) := by
  unfold beginRelease
  split
  · next c hl =>
    by_cases ha : p.isAlive
    · rw [if_pos ha]
      exact exclusive_setLoan h (mem_of_loan hl (by nofun)) (fun d hd => hd)
        (fun d s hd hs => by cases hd; cases hs)
    · rw [if_neg ha]
      exact exclusive_setLoan h (mem_of_loan hl (by nofun)) (by nofun) (by nofun)
  · next hl => exact exclusive_setLoan h (mem_of_loan hl (by nofun)) (by nofun) (by nofun)
  · exact h

/-- Who is alone with a connection leaves no copy of it anywhere. -/
theorem not_copied_of_sole {p : Pool β} {l : Loan} {c : Nat} (hl : l ∈ p.loans)
    (hc : l.connection? = some c) (hs : p.holders c = 1) : some c ∉ p.copies := by
  intro hk
  have hloan := loanCount_pos hl hc
  have hcopy := List.count_pos_iff.2 hk
  simp only [holders] at hs
  unfold loanCount at hloan
  omega

/-- Past the last check, the loan gives its connection up to the idle list. -/
theorem exclusive_handBack {p : Pool β} (h : Exclusive p) {i c : Nat}
    (hl : p.loans[i]? = some (.leaving c .handBack)) :
    Exclusive { p.setLoan i .gone with idle := p.idle ++ [c] } where
  once d := by
    have hcount := loanCount_setLoan hl .gone d
    have hone := h.once d
    simp only [Loan.connection?, Option.some.injEq, reduceCtorEq, if_false] at hcount
    simp only [loanCount, List.count_append, List.count_singleton, beq_iff_eq] at hcount hone ⊢
    omega
  idle d hd := by
    simp only [List.mem_append, List.mem_singleton] at hd
    rcases hd with hd | rfl
    · exact h.idle d hd
    · exact h.checked d .handBack (List.mem_of_getElem? hl) rfl
  checked d s hm hs := by
    rcases List.mem_or_eq_of_mem_set hm with hm | hm
    · exact h.checked d s hm hs
    · cases hm

theorem exclusive_create {σ : Type} {connect : Action σ β} {n : Nat} {r : Registry} {s s' : σ} {p : Pool β}
    (h : create connect n r s = .ok p s') : Exclusive p := by
  obtain ⟨bs, s₁, -, h⟩ := Action.ok_of_bind h
  cases h
  refine ⟨fun c => ?_, fun c _ => (nomatch ·), fun c s hm => (nomatch hm)⟩
  exact List.nodup_iff_count.1 List.nodup_range c

theorem exclusive_withHandle {p : Pool β} (h : Exclusive p) (e : Handle) {f : Nat → Pool β}
    (hf : ∀ c, p.reach? e = some c → Exclusive (f c)) : Exclusive (p.withHandle e f) := by
  unfold withHandle
  split
  · next c hr => exact hf c hr
  · exact h

variable [Backend β]

theorem exclusive_continueRelease {p : Pool β} (h : Exclusive p) (i : Nat) :
    Exclusive (p.continueRelease i) := by
  unfold continueRelease
  split
  · next c hl =>
    have hi := mem_of_loan hl (by nofun)
    refine exclusive_setLoan h hi (fun d hd => hd) (fun d s hd hs => ?_)
    by_cases hsole : p.holders c = 1
    · cases hd
      exact not_copied_of_sole (List.mem_of_getElem? hi) rfl hsole
    · rw [if_neg hsole] at hd
      cases hd
      cases hs
  · next c hl =>
    have hi := mem_of_loan hl (by nofun)
    refine exclusive_setLoan h hi (fun d hd => hd) (fun d s hd hs => ?_)
    cases hd
    exact h.checked c .connected (List.mem_of_getElem? hi) rfl
  · next c hl => exact exclusive_settle (exclusive_handBack h (mem_of_loan hl (by nofun)))
  · next c hl =>
    exact exclusive_settle (exclusive_setLoan h (mem_of_loan hl (by nofun)) (by nofun) (by nofun))
  · exact h

theorem exclusive_step {p : Pool β} (h : Exclusive p) (e : Event β) : Exclusive (p.step e) := by
  cases e with
  | lend =>
    simp only [step]
    split
    · exact exclusive_lend h
    · exact h
  | lendNothing => exact exclusive_lendNothing h
  | copy e => exact exclusive_withHandle h e fun c hr => exclusive_copy h hr
  | dropCopy k => exact exclusive_dropCopy h k
  | use e f => exact exclusive_withHandle h e fun c _ => h.same rfl rfl rfl
  | lock e => exact exclusive_withHandle h e fun c _ => h.same rfl rfl rfl
  | unlock c => exact h.same rfl rfl rfl
  | close => exact exclusive_settle (h.same rfl rfl rfl)
  | beginRelease i => exact exclusive_beginRelease h i
  | continueRelease i => exact exclusive_continueRelease h i
  | fault c f => exact h.same rfl rfl rfl

theorem exclusive_run {p : Pool β} (h : Exclusive p) (evs : List (Event β)) : Exclusive (p.run evs) := by
  induction evs generalizing p with
  | nil => exact h
  | cons e evs ih => exact ih (exclusive_step h e)

end Pool
end Rowmap
