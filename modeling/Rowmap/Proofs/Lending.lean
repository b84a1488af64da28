import Rowmap.Backend.Recorder
import Rowmap.Proofs.Exclusive

/-! A connection is lent to one borrower at a time, and it is connected. What makes a connection fit to be
lent is checked while its last loan is let go, long before it is lent again, so it has to last. -/

namespace Rowmap

theorem Recorder.connected_of_connect {url : String} {opened opened' : Nat} {b : Recorder}
    (h : connect url opened = .ok b opened') : b.connected = true := by
  unfold connect at h
  split at h
  · cases h
  · split at h
    · cases h
    · cases h
      rfl

namespace Pool

variable {β : Type}

theorem holders_of_idle {p : Pool β} (h : Exclusive p) {c : Nat} (hc : c ∈ p.idle) : p.holders c = 1 := by
  have hone := h.once c
  have hpos := List.count_pos_iff.2 hc
  have hcopy := List.count_eq_zero.2 (h.idle c hc)
  unfold loanCount at hone
  unfold holders
  omega

theorem lend_of_idle {p : Pool β} {c : Nat} {cs : List Nat} (h : p.idle = c :: cs) :
    p.lend = { p with idle := cs, loans := p.loans ++ [.held c] } := by
  simp only [lend, h]

/-- A new loan leaves all other handles as they are. -/
theorem reach?_lend_of_ne {p : Pool β} {c : Nat} {cs : List Nat} (h : p.idle = c :: cs) {e : Handle}
    (he : e ≠ .loan p.loans.length) : p.lend.reach? e = p.reach? e := by
  rw [lend_of_idle h]
  cases e with
  | copy k => rfl
  | loan i =>
    have hi : i ≠ p.loans.length := fun hi => he (hi ▸ rfl)
    have hloan : (p.loans ++ [.held c])[i]? = p.loans[i]? := by
      rcases Nat.lt_or_gt_of_ne hi with hlt | hgt
      · exact List.getElem?_append_left hlt
      · have hnone : (p.loans ++ [.held c])[i]? = none :=
          List.getElem?_eq_none (by simpa using Nat.succ_le_of_lt hgt)
        rw [hnone, List.getElem?_eq_none (Nat.le_of_lt hgt)]
    simp only [reach?, loan, hloan]

/-- Who is lent a connection is alone with it. -/
theorem lend_sole {p : Pool β} (h : Exclusive p) {c : Nat} {cs : List Nat} (hi : p.idle = c :: cs) :
    p.lend.loan p.loans.length = .held c ∧ p.lend.holders c = 1 ∧
      ∀ e, p.lend.reach? e = some c → e = .loan p.loans.length := by
  have hc : c ∈ p.idle := by simp [hi]
  refine ⟨by simp [lend_of_idle hi, loan], ?_, fun e he => ?_⟩
  · have hholders := holders_of_idle h hc
    simp only [lend_of_idle hi, holders, hi, List.count_cons_self, List.map_append, List.count_append,
      List.map_cons, List.map_nil, Loan.connection?, List.count_nil] at hholders ⊢
    omega
  · refine Classical.byContradiction fun hne => ?_
    rw [reach?_lend_of_ne hi hne] at he
    exact h.not_idle he hc

theorem openAll_ok {σ : Type} {connect : Action σ β} {good : β → Prop}
    (hgood : ∀ s b s', connect s = .ok b s' → good b) {n : Nat} {s s' : σ} {bs : List β}
    (h : openAll connect n s = .ok bs s') : bs.length = n ∧ ∀ b ∈ bs, good b := by
  induction n generalizing s s' bs with
  | zero =>
    cases h
    exact ⟨rfl, nofun⟩
  | succ n ih =>
    obtain ⟨b, s₁, hb, h⟩ := Action.ok_of_bind h
    obtain ⟨cs, s₂, hcs, h⟩ := Action.ok_of_bind h
    obtain ⟨hlen, hall⟩ := ih hcs
    cases h
    exact ⟨congrArg (· + 1) hlen, List.forall_mem_cons.2 ⟨hgood _ _ _ hb, hall⟩⟩

variable [Backend β]

/-- Besides, what is idle is connected, and so is what is about to be. -/
structure Ready (p : Pool β) : Prop where
  exclusive : Exclusive p
  idle : ∀ c ∈ p.idle, p.isConnected c = true
  passed : ∀ c, .leaving c .handBack ∈ p.loans → p.isConnected c = true

theorem Ready.mono {p q : Pool β} (h : Ready p) (he : Exclusive q) (hb : q.connections = p.connections)
    (hidle : ∀ c ∈ q.idle, c ∈ p.idle)
    (hpassed : ∀ c, .leaving c .handBack ∈ q.loans → .leaving c .handBack ∈ p.loans) : Ready q where
  exclusive := he
  idle c hc := by
    simp only [isConnected, hb]
    exact h.idle c (hidle c hc)
  passed c hm := by
    simp only [isConnected, hb]
    exact h.passed c (hpassed c hm)

theorem isConnected_modify_of_ne (p : Pool β) {c d : Nat} (h : d ≠ c) (f : β → β) :
    (p.modify c f).isConnected d = p.isConnected d := by
  simp [isConnected, modify, Shared.modify, Ne.symm h]

theorem ready_use {p : Pool β} (h : Ready p) {e : Handle} {c : Nat} (hr : p.reach? e = some c)
    (f : β → β) : Ready (p.modify c f) where
  exclusive := h.exclusive.same rfl rfl rfl
  idle d hd := by
    have hne : d ≠ c := by
      rintro rfl
      exact h.exclusive.not_idle hr hd
    rw [isConnected_modify_of_ne p hne]
    exact h.idle d hd
  passed d hm := by
    have hne : d ≠ c := by
      rintro rfl
      exact h.exclusive.not_checked hr rfl hm
    rw [isConnected_modify_of_ne p hne]
    exact h.passed d hm

theorem ready_settle {p : Pool β} (h : Ready p) : Ready p.settle := by
  have he := exclusive_settle h.exclusive
  unfold settle at he ⊢
  by_cases ha : p.isAlive
  · rw [if_pos ha]
    exact h
  · rw [if_neg ha] at he ⊢
    exact h.mono he rfl (by nofun) (fun c hm => hm)

theorem ready_lend {p : Pool β} (h : Ready p) : Ready p.lend := by
  have he := exclusive_lend h.exclusive
  unfold lend at he ⊢
  cases hi : p.idle with
  | nil =>
    simp only [hi] at he ⊢
    exact h.mono he rfl (by nofun) (fun c hm => by simpa using hm)
  | cons d cs =>
    simp only [hi] at he ⊢
    refine h.mono he rfl (fun c hc => ?_) (fun c hm => by simpa using hm)
    rw [hi]
    exact List.mem_cons_of_mem _ hc

theorem ready_setLoan {p : Pool β} (h : Ready p) {i : Nat} {l : Loan} (he : Exclusive (p.setLoan i l))
    (hl : ∀ c, l = .leaving c .handBack → p.isConnected c = true) : Ready (p.setLoan i l) where
  exclusive := he
  idle := h.idle
  passed c hm := by
    rcases List.mem_or_eq_of_mem_set hm with hm | hm
    · exact h.passed c hm
    · exact hl c hm.symm

theorem ready_beginRelease {p : Pool β} (h : Ready p) (i : Nat) : Ready (p.beginRelease i) := by
  have he := exclusive_beginRelease h.exclusive i
  unfold beginRelease at he ⊢
  cases hl : p.loan i with
  | held c =>
    simp only [hl] at he ⊢
    refine ready_setLoan h he (fun d hd => ?_)
    split at hd <;> cases hd
  | empty =>
    simp only [hl] at he ⊢
    exact ready_setLoan h he (by nofun)
  | leaving c s => exact h
  | gone => exact h

theorem ready_continueRelease {p : Pool β} (h : Ready p) (i : Nat) : Ready (p.continueRelease i) := by
  have he := exclusive_continueRelease h.exclusive i
  cases hl : p.loan i with
  | leaving c s =>
    have hm : .leaving c s ∈ p.loans := List.mem_of_getElem? (mem_of_loan hl (by nofun))
    cases s with
    | owner =>
      simp only [continueRelease, hl] at he ⊢
      refine ready_setLoan h he (fun d hd => ?_)
      split at hd <;> cases hd
    | connected =>
      simp only [continueRelease, hl] at he ⊢
      refine ready_setLoan h he (fun d hd => ?_)
      split at hd
      · next hfree =>
        cases hd
        exact hfree.1
      · cases hd
    | handBack =>
      simp only [continueRelease, hl]
      refine ready_settle ⟨exclusive_handBack h.exclusive (mem_of_loan hl (by nofun)), fun d hd => ?_,
        fun d hd => ?_⟩
      · rcases List.mem_append.1 hd with hd | hd
        · exact h.idle d hd
        · rw [List.mem_singleton.1 hd]
          exact h.passed c hm
      · rcases List.mem_or_eq_of_mem_set hd with hd | hd
        · exact h.passed d hd
        · cases hd
    | discard =>
      simp only [continueRelease, hl]
      exact ready_settle (ready_setLoan h
        (exclusive_setLoan h.exclusive (mem_of_loan hl (by nofun)) (by nofun) (by nofun)) (by nofun))
  | held c => simpa only [continueRelease, hl] using h
  | empty => simpa only [continueRelease, hl] using h
  | gone => simpa only [continueRelease, hl] using h

theorem ready_withHandle {p : Pool β} (h : Ready p) (e : Handle) {f : Nat → Pool β}
    (hf : ∀ c, p.reach? e = some c → Ready (f c)) : Ready (p.withHandle e f) := by
  unfold withHandle
  split
  · next c hr => exact hf c hr
  · exact h

theorem ready_step {p : Pool β} (h : Ready p) {e : Event β} (hf : e.isFault = false) :
    Ready (p.step e) := by
  have he := exclusive_step h.exclusive e
  cases e with
  | lend =>
    simp only [step]
    split
    · exact ready_lend h
    · exact h
  | lendNothing => exact h.mono he rfl (fun c hc => hc) (fun c hm => by simpa [step, lendNothing] using hm)
  | copy e =>
    exact ready_withHandle h e fun c hr =>
      h.mono (exclusive_copy h.exclusive hr) rfl (fun d hd => hd) (fun d hm => hm)
  | dropCopy k => exact h.mono he rfl (fun c hc => hc) (fun c hm => hm)
  | use e f => exact ready_withHandle h e fun c hr => ready_use h hr f
  | lock e =>
    exact ready_withHandle h e fun c _ =>
      h.mono (h.exclusive.same rfl rfl rfl) rfl (fun d hd => hd) (fun d hm => hm)
  | unlock c => exact h.mono he rfl (fun c hc => hc) (fun c hm => hm)
  | close =>
    exact ready_settle (h.mono (h.exclusive.same rfl rfl rfl) rfl (fun c hc => hc) (fun c hm => hm))
  | beginRelease i => exact ready_beginRelease h i
  | continueRelease i => exact ready_continueRelease h i
  | fault c f => cases hf

theorem ready_run {p : Pool β} (h : Ready p) (evs : List (Event β))
    (hf : ∀ e ∈ evs, e.isFault = false) : Ready (p.run evs) := by
  induction evs generalizing p with
  | nil => exact h
  | cons e evs ih =>
    exact ih (ready_step h (hf e (List.mem_cons_self ..))) fun d hd => hf d (List.mem_cons_of_mem _ hd)

theorem ready_create {σ : Type} {connect : Action σ β} {n : Nat} {r : Registry} {s s' : σ} {p : Pool β}
    (hconnect : ∀ s b s', connect s = .ok b s' → Backend.connected b = true)
    (h : create connect n r s = .ok p s') : Ready p := by
  have he := exclusive_create h
  obtain ⟨bs, s₁, hbs, h⟩ := Action.ok_of_bind h
  obtain ⟨hlen, hall⟩ := openAll_ok hconnect hbs
  cases h
  refine ⟨he, fun c hc => ?_, fun c hm => (nomatch hm)⟩
  have hlt : c < bs.length := hlen ▸ List.mem_range.1 hc
  simp only [isConnected, List.getElem?_eq_getElem hlt, Option.any_some]
  exact hall _ (List.getElem_mem hlt)

/-- In every state that a new pool gets to, who is lent a connection is alone with it; and it is connected, as long as
connections that are opened are and none changes by itself. -/
theorem lent_exclusively {σ : Type} {connect : Action σ β} {n : Nat} {r : Registry} {s s' : σ}
    {p₀ : Pool β} (h : create connect n r s = .ok p₀ s') (evs : List (Event β)) :
    (∀ c, (p₀.run evs).idle.count c + (p₀.run evs).loanCount c ≤ 1) ∧
    (∀ c ∈ (p₀.run evs).idle, (p₀.run evs).holders c = 1) ∧
    ∀ c cs, (p₀.run evs).isOpen = true → (p₀.run evs).idle = c :: cs →
      ((p₀.run evs).step .lend).loan (p₀.run evs).loans.length = .held c ∧
      ((p₀.run evs).step .lend).holders c = 1 ∧
      (∀ e, ((p₀.run evs).step .lend).reach? e = some c → e = .loan (p₀.run evs).loans.length) ∧
      ((∀ s b s', connect s = .ok b s' → Backend.connected b = true) → (∀ e ∈ evs, e.isFault = false) →
        ((p₀.run evs).step .lend).isConnected c = true) := by
  have he := exclusive_run (exclusive_create h) evs
  refine ⟨he.once, fun c hc => holders_of_idle he hc, fun c cs ho hi => ?_⟩
  obtain ⟨hloan, hsole, hreach⟩ := lend_sole he hi
  simp only [step, if_pos ho]
  refine ⟨hloan, hsole, hreach, fun hconnect hf => ?_⟩
  have hr := ready_run (ready_create hconnect h) evs hf
  have hc := hr.idle c (by simp [hi])
  rw [lend_of_idle hi]
  exact hc

def twoReleases : List (Event Recorder) :=
  [.lend, .lend, .copy (.loan 0), .beginRelease 1, .beginRelease 0, .continueRelease 0, .continueRelease 1,
    .continueRelease 0, .continueRelease 1, .use (.copy 0) fun b => { b with connected := false },
    .continueRelease 1]

def twoRecorders : Pool Recorder :=
  { registry := .empty, connections := [⟨0, false, [], [], true, []⟩, ⟨1, false, [], [], true, []⟩],
    idle := [0, 1], isOpen := true, loans := [], copies := [], locked := [] }

theorem lent_after_two_releases :
    create (Recorder.connect "mock://") 2 .empty 0 = .ok twoRecorders 2 ∧
      (twoRecorders.run twoReleases).copies = [some 0] ∧
      ((twoRecorders.run twoReleases).step .lend).loan 2 = .held 1 ∧
      ((twoRecorders.run twoReleases).step .lend).holders 1 = 1 ∧
      ((twoRecorders.run twoReleases).step .lend).isConnected 1 = true := by
  have hnew : create (Recorder.connect "mock://") 2 .empty 0 = .ok twoRecorders 2 := rfl
  obtain ⟨hloan, hsole, -, hconnected⟩ := (lent_exclusively hnew twoReleases).2.2 1 [] rfl rfl
  exact ⟨hnew, rfl, hloan, hsole, hconnected (fun _ _ _ => Recorder.connected_of_connect) (by decide)⟩

end Pool
end Rowmap
