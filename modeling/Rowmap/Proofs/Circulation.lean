import Rowmap.Proofs.Lending

/-! No connection of a pool goes unaccounted for, and those that are idle wait in a queue. What moves is
read off the steps of a run: a connection is lent, or its loan comes to an end, and then it is either idle
again or lost to the pool. Both laws are additive along a run as long as the pool is there; once it is gone,
so is everything idle. -/

namespace Rowmap
namespace Pool

variable {β : Type}

/-- The connections on loan, one for each loan that has one. -/
def onLoan (p : Pool β) : List Nat := p.loans.filterMap Loan.connection?

theorem loan_setLoan_self {p : Pool β} {i : Nat} {l : Loan} (h : p.loans[i]? = some l) (l' : Loan) :
    (p.setLoan i l').loan i = l' := by
  obtain ⟨hi, -⟩ := List.getElem?_eq_some_iff.1 h
  simp [setLoan, loan, hi]

theorem setLoan_setLoan (p : Pool β) (i : Nat) (l l' : Loan) : (p.setLoan i l).setLoan i l' = p.setLoan i l' := by
  simp only [setLoan, List.set_set]

theorem length_onLoan_setLoan {p : Pool β} {i : Nat} {l : Loan} (h : p.loans[i]? = some l) (l' : Loan) :
    (p.setLoan i l').onLoan.length + (if l.connection?.isSome then 1 else 0) =
      p.onLoan.length + if l'.connection?.isSome then 1 else 0 := by
  obtain ⟨hi, rfl⟩ := List.getElem?_eq_some_iff.1 h
  simp only [onLoan, setLoan, List.length_filterMap_eq_countP, List.countP_set hi]
  have hle : (if p.loans[i].connection?.isSome then 1 else 0) ≤
      p.loans.countP fun l => l.connection?.isSome := by
    split
    · next hs => exact List.countP_pos_iff.2 ⟨_, List.getElem_mem hi, hs⟩
    · exact Nat.zero_le _
  omega

theorem isAlive_settle (p : Pool β) : p.settle.isAlive = p.isAlive := by
  unfold settle
  split <;> rfl

theorem settle_of_isAlive {p : Pool β} (h : p.isAlive = true) : p.settle = p := if_pos h

theorem isAlive_of_leaving {p : Pool β} {i c : Nat} {s : Stage} (h : p.loan i = .leaving c s) :
    p.isAlive = true := by
  have hm := List.mem_of_getElem? (mem_of_loan h (by nofun))
  exact Bool.or_eq_true_iff.2 (Or.inr (List.any_eq_true.2 ⟨_, hm, rfl⟩))

theorem isAlive_of_setLoan {p : Pool β} {i : Nat} {l : Loan} (hl : l.isLeaving = false)
    (h : (p.setLoan i l).isAlive = true) : p.isAlive = true := by
  refine Bool.or_eq_true_iff.2 ((Bool.or_eq_true_iff.1 h).imp_right fun h => ?_)
  obtain ⟨m, hm, hs⟩ := List.any_eq_true.1 h
  rcases List.mem_or_eq_of_mem_set hm with hm | rfl
  · exact List.any_eq_true.2 ⟨m, hm, hs⟩
  · rw [hl] at hs
    cases hs

/-- A loan that was not yet being let go was not what kept the pool. -/
theorem isAlive_setLoan {p : Pool β} {i : Nat} (hl : (p.loan i).isLeaving = false) (h : p.isAlive = true)
    (l : Loan) : (p.setLoan i l).isAlive = true := by
  refine Bool.or_eq_true_iff.2 ((Bool.or_eq_true_iff.1 h).imp_right fun h => ?_)
  obtain ⟨m, hm, hs⟩ := List.any_eq_true.1 h
  obtain ⟨j, hj, rfl⟩ := List.mem_iff_getElem.1 hm
  have hij : i ≠ j := by
    rintro rfl
    simp [loan, hj, hs] at hl
  exact List.any_eq_true.2 ⟨_, List.mem_iff_getElem.2 ⟨j, by simpa [setLoan] using hj, rfl⟩,
    by simpa [setLoan, hij] using hs⟩

/-- From `p` to `q`, connections were `lent` off the front of the idle ones, others `returned` behind them,
and what was lent is on loan unless it was returned or lost. -/
structure Flow (p q : Pool β) (lent returned lost : List Nat) : Prop where
  queue : p.idle ++ returned = lent ++ q.idle
  loans : p.onLoan.length + lent.length = q.onLoan.length + returned.length + lost.length

theorem Flow.same {p q : Pool β} (hi : q.idle = p.idle) (hl : q.onLoan.length = p.onLoan.length) :
    Flow p q [] [] [] := ⟨by simp [hi], by simp [hl]⟩

theorem Flow.trans {p q r : Pool β} {l₁ l₂ r₁ r₂ d₁ d₂ : List Nat} (h₁ : Flow p q l₁ r₁ d₁)
    (h₂ : Flow q r l₂ r₂ d₂) : Flow p r (l₁ ++ l₂) (r₁ ++ r₂) (d₁ ++ d₂) where
  queue := by rw [← List.append_assoc, h₁.queue, List.append_assoc, h₂.queue, List.append_assoc]
  loans := by
    have := h₁.loans
    have := h₂.loans
    simp only [List.length_append]
    omega

theorem Flow.conserved {p q : Pool β} {lent returned lost : List Nat} (h : Flow p q lent returned lost) :
    q.size + q.onLoan.length + lost.length = p.size + p.onLoan.length := by
  have hq := congrArg List.length h.queue
  have hl := h.loans
  simp only [List.length_append, size] at hq ⊢
  omega

/-- Whoever waits ahead of a connection is lent before it, in order. -/
theorem Flow.ahead {p q : Pool β} {lent returned lost : List Nat} (h : Flow p q lent returned lost)
    {ahead behind rest : List Nat} {c : Nat} (hp : p.idle = ahead ++ c :: behind) (hc : c ∉ ahead)
    (hq : q.idle = c :: rest) : ahead <+: lent := by
  have hqueue := h.queue
  rw [hp, hq, List.append_assoc] at hqueue
  rcases List.append_eq_append_iff.1 hqueue with ⟨t, hlent, -⟩ | ⟨t, hahead, ht⟩
  · exact ⟨t, hlent.symm⟩
  · cases t with
    | nil => exact ⟨[], by rw [hahead, List.append_nil, List.append_nil]⟩
    | cons d t =>
      have hd : c = d := (List.cons.inj ht).1
      exact absurd (by simp [hahead, hd]) hc

theorem flow_kept {p : Pool β} {i : Nat} {l l' : Loan} (hl : p.loans[i]? = some l)
    (hc : l'.connection? = l.connection?) : Flow p (p.setLoan i l') [] [] [] := by
  have hlen := length_onLoan_setLoan hl l'
  rw [hc] at hlen
  exact .same rfl (by omega)

/-- A connection on loan has no other holder but its copies. -/
theorem sole_iff {p : Pool β} (he : Exclusive p) {l : Loan} {c : Nat} (hl : l ∈ p.loans)
    (hc : l.connection? = some c) : p.holders c = 1 ↔ some c ∉ p.copies := by
  refine ⟨not_copied_of_sole hl hc, fun hk => ?_⟩
  have hone := he.once c
  have hloan := loanCount_pos hl hc
  have hcopy := List.count_eq_zero.2 hk
  unfold loanCount at hone hloan
  unfold holders
  omega

variable [Backend β]

/-- The connection of the loan that a step brings to its end. -/
def ended? (p : Pool β) (e : Event β) : Option Nat :=
  match e with
  | .beginRelease i | .continueRelease i => if (p.step e).loan i = .gone then (p.loan i).connection? else none
  | _ => none

def returned? (p : Pool β) (e : Event β) : Option Nat := (p.ended? e).filter (· ∈ (p.step e).idle)

def lost? (p : Pool β) (e : Event β) : Option Nat := (p.ended? e).filter (· ∉ (p.step e).idle)

def lent? (p : Pool β) (e : Event β) : Option Nat :=
  match e with
  | .lend => ((p.step e).loan p.loans.length).connection?
  | _ => none

/-- What the steps of a run move, in order. -/
def trace (f : Pool β → Event β → Option Nat) (p : Pool β) : List (Event β) → List Nat
  | [] => []
  | e :: evs => (f p e).toList ++ trace f (p.step e) evs

theorem isAlive_of_step {p : Pool β} {e : Event β} (h : (p.step e).isAlive = true) : p.isAlive = true := by
  cases e with
  | lend =>
    simp only [step] at h
    split at h
    · next ho => exact Bool.or_eq_true_iff.2 (Or.inl ho)
    · exact h
  | lendNothing => simpa [step, lendNothing, isAlive, Loan.isLeaving] using h
  | copy e | use e f | lock e =>
    simp only [step, withHandle] at h
    split at h <;> exact h
  | dropCopy k | unlock c | fault c f => exact h
  | close =>
    have ha : isAlive { p with isOpen := false } = true := isAlive_settle _ ▸ h
    exact Bool.or_eq_true_iff.2 (Or.inr (by simpa [isAlive] using ha))
  | beginRelease i =>
    simp only [step, beginRelease] at h
    split at h
    · by_cases ha : p.isAlive = true
      · exact ha
      · rw [if_neg ha] at h
        exact isAlive_of_setLoan rfl h
    · exact isAlive_of_setLoan rfl h
    · exact h
  | continueRelease i =>
    simp only [step, continueRelease] at h
    split at h
    case h_5 => exact h
    all_goals next hl => exact isAlive_of_leaving hl

theorem isAlive_of_run {p : Pool β} {evs : List (Event β)} (h : (p.run evs).isAlive = true) :
    p.isAlive = true := by
  induction evs generalizing p with
  | nil => exact h
  | cons e evs ih => exact isAlive_of_step (ih h)

theorem flow_lend {p : Pool β} : Flow p (p.step .lend) (p.lent? .lend).toList [] [] := by
  by_cases ho : p.isOpen = true
  · cases hi : p.idle with
    | nil =>
      have hlend : p.step .lend = { p with idle := [], loans := p.loans ++ [.empty] } := by
        simp [step, ho, lend, hi]
      have hnone : p.lent? .lend = none := by simp [lent?, hlend, loan, Loan.connection?]
      rw [hnone, hlend]
      exact .same hi.symm (by simp [onLoan, Loan.connection?])
    | cons c cs =>
      have hlend : p.step .lend = { p with idle := cs, loans := p.loans ++ [.held c] } := by
        simp [step, ho, lend_of_idle hi]
      have hsome : p.lent? .lend = some c := by simp [lent?, hlend, loan, Loan.connection?]
      rw [hsome, hlend]
      exact ⟨by simp [hi], by simp [onLoan, Loan.connection?]⟩
  · have hlend : p.step .lend = p := by simp [step, ho]
    have hnone : p.lent? .lend = none := by simp [lent?, hlend, loan, Loan.connection?]
    rw [hnone, hlend]
    exact .same rfl rfl

theorem flow_beginRelease {p : Pool β} (ha : p.isAlive = true) (i : Nat) :
    p.ended? (.beginRelease i) = none ∧ Flow p (p.step (.beginRelease i)) [] [] [] := by
  cases hl : p.loan i with
  | held c =>
    have hi := mem_of_loan hl (by simp)
    simp only [ended?, step, beginRelease, hl, if_pos ha, loan_setLoan_self hi, reduceCtorEq, if_false]
    exact ⟨trivial, flow_kept hi rfl⟩
  | empty =>
    simp only [ended?, step, beginRelease, hl, Loan.connection?, ite_self]
    exact ⟨trivial, flow_kept (mem_of_loan hl (by simp)) rfl⟩
  | leaving c s =>
    simp only [ended?, step, beginRelease, hl, reduceCtorEq, if_false]
    exact ⟨trivial, .same rfl rfl⟩
  | gone =>
    simp only [ended?, step, beginRelease, hl, Loan.connection?, ite_self]
    exact ⟨trivial, .same rfl rfl⟩

theorem ended?_of_gone {p : Pool β} {i c : Nat} {s : Stage} (hl : p.loan i = .leaving c s)
    (hg : (p.step (.continueRelease i)).loan i = .gone) : p.ended? (.continueRelease i) = some c := by
  simp only [ended?, hg, if_true, hl, Loan.connection?]

theorem flow_continueRelease {p : Pool β} (he : Exclusive p) (i : Nat)
    (ha : (p.step (.continueRelease i)).isAlive = true) :
    Flow p (p.step (.continueRelease i)) [] (p.returned? (.continueRelease i)).toList
      (p.lost? (.continueRelease i)).toList := by
  cases hl : p.loan i with
  | leaving c s =>
    have hi := mem_of_loan hl (by nofun)
    have hlen := length_onLoan_setLoan hi .gone
    simp only [Loan.connection?, Option.isSome_some, Option.isSome_none, if_true, Bool.false_eq_true,
      if_false] at hlen
    cases s with
    | owner | connected =>
      have hend : p.ended? (.continueRelease i) = none := by
        simp [ended?, step, continueRelease, hl, loan_setLoan_self hi]
      simp only [returned?, lost?, hend, Option.filter_none, Option.toList_none, step, continueRelease, hl]
      exact flow_kept hi rfl
    | handBack =>
      have hstep : p.step (.continueRelease i) = { p.setLoan i .gone with idle := p.idle ++ [c] } := by
        simp only [step, continueRelease, hl] at ha ⊢
        exact settle_of_isAlive (isAlive_settle _ ▸ ha)
      have hend := ended?_of_gone hl (by rw [hstep]; exact loan_setLoan_self hi .gone)
      have hmem : c ∈ (p.step (.continueRelease i)).idle := by simp [hstep]
      have hret : p.returned? (.continueRelease i) = some c := by simp [returned?, hend, hmem]
      have hlost : p.lost? (.continueRelease i) = none := by simp [lost?, hend, hmem]
      rw [hret, hlost, hstep]
      exact ⟨rfl, hlen.symm⟩
    | discard =>
      have hstep : p.step (.continueRelease i) = p.setLoan i .gone := by
        simp only [step, continueRelease, hl] at ha ⊢
        exact settle_of_isAlive (isAlive_settle _ ▸ ha)
      have hend := ended?_of_gone hl (by rw [hstep]; exact loan_setLoan_self hi .gone)
      have hmem : c ∉ (p.step (.continueRelease i)).idle := by
        rw [hstep]
        intro hc
        have hone := he.once c
        have hloan := loanCount_pos (List.mem_of_getElem? hi) (c := c) rfl
        have hidle := List.count_pos_iff.2 hc
        simp only [setLoan] at hidle
        omega
      have hret : p.returned? (.continueRelease i) = none := by simp [returned?, hend, hmem]
      have hlost : p.lost? (.continueRelease i) = some c := by simp [lost?, hend, hmem]
      rw [hret, hlost, hstep]
      exact ⟨by simp [setLoan], hlen.symm⟩
  | held c | empty | gone =>
    have hstep : p.step (.continueRelease i) = p := by simp only [step, continueRelease, hl]
    have hend : p.ended? (.continueRelease i) = none := by simp [ended?, hstep, hl, Loan.connection?]
    simp only [returned?, lost?, hend, hstep, Option.filter_none, Option.toList_none]
    exact .same rfl rfl

theorem flow_step {p : Pool β} (he : Exclusive p) (e : Event β) (ha : (p.step e).isAlive = true) :
    Flow p (p.step e) (p.lent? e).toList (p.returned? e).toList (p.lost? e).toList := by
  cases e with
  | lend => exact flow_lend
  | lendNothing => exact .same rfl (by simp [step, lendNothing, onLoan, Loan.connection?])
  | copy e | use e f | lock e =>
    simp only [step, withHandle]
    split <;> exact .same rfl rfl
  | dropCopy k | unlock c | fault c f => exact .same rfl rfl
  | close =>
    have hstep : p.step .close = { p with isOpen := false } := settle_of_isAlive (isAlive_settle _ ▸ ha)
    rw [hstep]
    exact .same rfl rfl
  | beginRelease i =>
    obtain ⟨hend, hflow⟩ := flow_beginRelease (isAlive_of_step ha) i
    simpa only [lent?, returned?, lost?, hend, Option.filter_none, Option.toList_none] using hflow
  | continueRelease i => exact flow_continueRelease he i ha

theorem flow_run {p : Pool β} (he : Exclusive p) {evs : List (Event β)}
    (ha : (p.run evs).isAlive = true) :
    Flow p (p.run evs) (p.trace lent? evs) (p.trace returned? evs) (p.trace lost? evs) := by
  induction evs generalizing p with
  | nil => exact .same rfl rfl
  | cons e evs ih => exact (flow_step he e (isAlive_of_run ha)).trans (ih (exclusive_step he e) ha)

theorem idle_of_lent {p : Pool β} {e : Event β} {c : Nat} (h : p.lent? e = some c) :
    ∃ cs, p.idle = c :: cs ∧ p.isOpen = true := by
  cases e with
  | lend =>
    by_cases ho : p.isOpen = true
    · cases hi : p.idle with
      | nil => simp [lent?, step, ho, lend, hi, loan, Loan.connection?] at h
      | cons d cs =>
        simp only [lent?, step, if_pos ho, lend_of_idle hi, loan, List.getElem?_concat_length,
          Option.getD_some, Loan.connection?, Option.some.injEq] at h
        exact ⟨cs, by rw [h], ho⟩
    · simp [lent?, step, ho, loan, Loan.connection?] at h
  | _ => cases h

theorem idle_of_returned {p : Pool β} (he : Exclusive p) {e : Event β} {c : Nat}
    (h : p.returned? e = some c) (ha : (p.step e).isAlive = true) : (p.step e).idle = p.idle ++ [c] := by
  have hlent : p.lent? e = none := by
    cases e with
    | lend => cases h
    | _ => rfl
  have hqueue := (flow_step he e ha).queue
  rw [h, hlent] at hqueue
  exact hqueue.symm

theorem release_held {p : Pool β} {i c : Nat} (hl : p.loan i = .held c) (ha : p.isAlive = true) :
    p.release i = if p.holders c = 1 ∧ p.isConnected c = true ∧ c ∉ p.locked
      then { p.setLoan i .gone with idle := p.idle ++ [c] } else p.setLoan i .gone := by
  have hi := mem_of_loan hl (by nofun)
  have hset : ∀ l, (p.setLoan i l).loan i = l := loan_setLoan_self hi
  have hholders : ∀ s, (p.setLoan i (.leaving c s)).holders c = p.holders c := fun s => by
    have := loanCount_setLoan hi (.leaving c s) c
    simp only [loanCount, Loan.connection?, setLoan] at this
    simp only [holders, setLoan]
    omega
  have halive : (p.setLoan i .gone).isAlive = true := isAlive_setLoan (by rw [hl]; rfl) ha .gone
  have hbegin : p.beginRelease i = p.setLoan i (.leaving c .owner) := by
    simp only [beginRelease, hl, if_pos ha]
  have howner : (p.setLoan i (.leaving c .owner)).continueRelease i =
      p.setLoan i (.leaving c (if p.holders c = 1 then .connected else .discard)) := by
    simp only [continueRelease, hset, hholders, setLoan_setLoan]
  have hdiscard : (p.setLoan i (.leaving c .discard)).continueRelease i = p.setLoan i .gone := by
    simp only [continueRelease, hset, setLoan_setLoan]
    exact settle_of_isAlive halive
  have hgone : (p.setLoan i .gone).continueRelease i = p.setLoan i .gone := by
    simp only [continueRelease, hset]
  have hconnected : (p.setLoan i (.leaving c .connected)).continueRelease i =
      p.setLoan i (.leaving c (if p.isConnected c = true ∧ c ∉ p.locked then .handBack else .discard)) := by
    simp only [continueRelease, hset, setLoan_setLoan]
    rfl
  have hback : (p.setLoan i (.leaving c .handBack)).continueRelease i =
      { p.setLoan i .gone with idle := p.idle ++ [c] } := by
    simp only [continueRelease, hset, setLoan_setLoan]
    exact settle_of_isAlive halive
  rw [release, hbegin, howner]
  by_cases hsole : p.holders c = 1
  · rw [if_pos hsole, hconnected]
    by_cases hfree : p.isConnected c = true ∧ c ∉ p.locked
    · rw [if_pos hfree, if_pos ⟨hsole, hfree⟩, hback]
    · rw [if_neg hfree, if_neg fun h => hfree h.2, hdiscard]
  · rw [if_neg hsole, if_neg fun h => hsole h.1, hdiscard, hgone]

theorem release_empty {p : Pool β} {i : Nat} (hl : p.loan i = .empty) : p.release i = p.setLoan i .gone := by
  have hset := loan_setLoan_self (mem_of_loan hl (by nofun)) .gone
  have hgone : (p.setLoan i .gone).continueRelease i = p.setLoan i .gone := by
    simp only [continueRelease, hset]
  have hbegin : p.beginRelease i = p.setLoan i .gone := by simp only [beginRelease, hl]
  rw [release, hbegin, hgone, hgone, hgone]

omit [Backend β] in
theorem create_ok {σ : Type} {connect : Action σ β} {n : Nat} {r : Registry} {s s' : σ} {p : Pool β}
    (h : create connect n r s = .ok p s') : p.idle = List.range n ∧ p.loans = [] := by
  obtain ⟨bs, s₁, -, h⟩ := Action.ok_of_bind h
  cases h
  exact ⟨rfl, rfl⟩

/-- As long as a pool is there, each of its `n` connections is idle, on loan or lost. A loan that is let go brings its
connection back, behind all that are idle, exactly if nobody kept a copy and it is free and connected. -/
theorem circulates {σ : Type} {connect : Action σ β} {n : Nat} {r : Registry} {s s' : σ} {p₀ p : Pool β}
    (h : create connect n r s = .ok p₀ s') (past : List (Event β)) (hp : p₀.run past = p)
    (ha : p.isAlive = true) :
    p.size + p.onLoan.length + (p₀.trace lost? past).length = n ∧
    (∀ i c, p.loan i = .held c → (p.release i).loan i = .gone ∧
      (p.release i).idle = if some c ∉ p.copies ∧ p.isConnected c = true ∧ c ∉ p.locked
        then p.idle ++ [c] else p.idle) ∧
    (∀ i, p.loan i = .empty → (p.release i).loan i = .gone ∧ (p.release i).idle = p.idle) ∧
    (p.isOpen = true → ∀ c cs, p.idle = c :: cs →
      p.step .lend = { p with idle := cs, loans := p.loans ++ [.held c] }) ∧
    (p.isOpen = true → p.idle = [] → p.step .lend = { p with loans := p.loans ++ [.empty] }) ∧
    ∀ e c future, p.returned? e = some c → ((p.step e).run future).lent? .lend = some c →
      p.idle <+: (p.step e).trace lent? future := by
  subst hp
  have he := exclusive_run (exclusive_create h) past
  obtain ⟨hidle, hloans⟩ := create_ok h
  refine ⟨?_, fun i c hl => ?_, fun i hl => ?_, fun ho c cs hi => ?_, fun ho hi => ?_,
    fun e c future hret hlent => ?_⟩
  · rw [(flow_run (exclusive_create h) ha).conserved]
    simp [size, onLoan, hidle, hloans]
  · have hi := mem_of_loan hl (by nofun)
    rw [release_held hl ha]
    simp only [sole_iff he (List.mem_of_getElem? hi) rfl]
    split
    · exact ⟨loan_setLoan_self hi .gone, rfl⟩
    · exact ⟨loan_setLoan_self hi .gone, rfl⟩
  · rw [release_empty hl]
    exact ⟨loan_setLoan_self (mem_of_loan hl (by nofun)) .gone, rfl⟩
  · simp only [step, if_pos ho, lend_of_idle hi]
  · simp only [step, if_pos ho, lend, hi]
  · obtain ⟨rest, hrest, ho⟩ := idle_of_lent hlent
    have hfuture : ((((p₀.run past).step e)).run future).isAlive = true := Bool.or_eq_true_iff.2 (Or.inl ho)
    have hback := idle_of_returned he hret (isAlive_of_run hfuture)
    have hone := (exclusive_step he e).once c
    refine (flow_run (exclusive_step he e) hfuture).ahead hback (fun hc => ?_) hrest
    have hcount := List.count_pos_iff.2 hc
    simp only [hback, List.count_append, List.count_singleton_self] at hone
    omega

def crossedReleases : List (Event Recorder) :=
  [.lend, .lend, .beginRelease 1, .continueRelease 1, .continueRelease 1, .continueRelease 1,
    .beginRelease 0, .continueRelease 0, .continueRelease 0]

def copiedLoan : List (Event Recorder) :=
  [.lend, .copy (.loan 0), .beginRelease 0, .continueRelease 0, .continueRelease 0]

theorem circulation_of_two :
    create (Recorder.connect "mock://") 2 .empty 0 = .ok twoRecorders 2 ∧
      [1] <+: ((twoRecorders.run crossedReleases).step (.continueRelease 0)).trace lent? [.lend] ∧
      (twoRecorders.run copiedLoan).idle = [1] ∧ twoRecorders.trace lost? copiedLoan = [0] ∧
      (twoRecorders.run copiedLoan).size + (twoRecorders.run copiedLoan).onLoan.length +
        (twoRecorders.trace lost? copiedLoan).length = 2 := by
  have hnew : create (Recorder.connect "mock://") 2 .empty 0 = .ok twoRecorders 2 := rfl
  have halive : (twoRecorders.run crossedReleases).isAlive = true := by decide +kernel
  have hreturned : (twoRecorders.run crossedReleases).returned? (.continueRelease 0) = some 0 := by
    decide +kernel
  have hlent : (((twoRecorders.run crossedReleases).step (.continueRelease 0)).run [.lend]).lent? .lend =
      some 0 := by decide +kernel
  have hturn := (circulates hnew crossedReleases rfl halive).2.2.2.2.2 _ _ _ hreturned hlent
  have hcopied : (twoRecorders.run copiedLoan).isAlive = true := by decide +kernel
  exact ⟨hnew, hturn, by decide +kernel, by decide +kernel, (circulates hnew copiedLoan rfl hcopied).1⟩

end Pool
end Rowmap
