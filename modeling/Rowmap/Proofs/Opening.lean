import Rowmap.Proofs.Conduct
import Rowmap.Proofs.Lending

/-! How a pool comes to its connections. They are opened one after another, and a session on each waits in a queue;
when the last is open the queue is what the pool has to lend. The first that cannot be opened is the end of it: no
other is tried, the queue is let go, and with it every session that was waiting, so nobody has a connection left. -/

namespace Rowmap
namespace Pool

variable {β σ : Type}

/-- A connection whose attempts come out as it is given; the state is the number of attempts made. -/
def attempts (outcomes : Nat → Except Error β) : Action Nat β := fun calls =>
  match outcomes calls with
  | .ok b => .ok b (calls + 1)
  | .error e => .error e (calls + 1)

/-- A pool in the making. -/
structure Founding (β : Type) extends Shared β where
  /-- The sessions that wait for the pool, by their connections. -/
  queue : List Nat
  calls : Nat
  failure : Option Error

namespace Founding

variable {o : Nat → Except Error β} {f : Founding β}

def new (r : Registry) : Founding β where
  registry := r
  connections := []
  queue := []
  calls := 0
  failure := none

/-- Takes the outcome of an attempt in. A failure lets the queue go, and every session in it. -/
def take (f : Founding β) : Except Error β → Founding β
  | .ok b => { f with
      connections := f.connections ++ [b]
      queue := f.queue ++ [f.connections.length]
      calls := f.calls + 1 }
  | .error e => { f with queue := [], calls := f.calls + 1, failure := some e }

/-- Makes so many attempts, or as many as it takes to fail. -/
def pursue (o : Nat → Except Error β) : Nat → Founding β → Founding β
  | 0, f => f
  | n + 1, f => if f.failure.isSome then f else pursue o n (f.take (o f.calls))

def holders (f : Founding β) (c : Nat) : Nat := f.queue.count c

/-- The pool that has the queue to lend; there is none after a failure. -/
def found (f : Founding β) : EStateM.Result Error Nat (Pool β) :=
  match f.failure with
  | some e => .error e f.calls
  | none => .ok { toShared := f.toShared, idle := f.queue, isOpen := true, loans := [], copies := [], locked := [] }
      f.calls

/-- Every attempt so far has opened a connection, and the session on it waits in its turn. -/
structure Steady (o : Nat → Except Error β) (f : Founding β) : Prop where
  failure : f.failure = none
  opened : f.connections.map Except.ok = (List.range f.calls).map o
  queue : f.queue = List.range f.calls

/-- The last attempt has failed, all before it have opened connections, and no session is left on any. -/
structure Broken (o : Nat → Except Error β) (e : Error) (k : Nat) (f : Founding β) : Prop where
  failure : f.failure = some e
  outcome : o k = .error e
  opened : f.connections.map Except.ok = (List.range k).map o
  calls : f.calls = k + 1
  queue : f.queue = []

theorem steady_new (o : Nat → Except Error β) (r : Registry) : Steady o (new r) := ⟨rfl, rfl, rfl⟩

theorem Steady.length (h : Steady o f) : f.connections.length = f.calls := by
  simpa using congrArg List.length h.opened

theorem steady_take (h : Steady o f) {b : β} (hb : o f.calls = .ok b) : Steady o (f.take (.ok b)) where
  failure := h.failure
  opened := by
    show (f.connections ++ [b]).map Except.ok = (List.range (f.calls + 1)).map o
    rw [List.range_succ, List.map_append, List.map_append, h.opened, List.map_singleton, List.map_singleton, hb]
  queue := by
    show f.queue ++ [f.connections.length] = List.range (f.calls + 1)
    rw [List.range_succ, h.queue, h.length]

theorem broken_take (h : Steady o f) {e : Error} (he : o f.calls = .error e) :
    Broken o e f.calls (f.take (.error e)) := ⟨rfl, he, h.opened, rfl, rfl⟩

theorem pursue_of_failure {e : Error} (h : f.failure = some e) (n : Nat) : pursue o n f = f := by
  cases n with
  | zero => rfl
  | succ n => rw [pursue, h, Option.isSome_some, if_pos rfl]

theorem pursue_succ (h : f.failure = none) (n : Nat) : pursue o (n + 1) f = pursue o n (f.take (o f.calls)) := by
  rw [pursue, h, Option.isSome_none, if_neg Bool.false_ne_true]

theorem pursue_cases (h : Steady o f) (n : Nat) :
    (Steady o (pursue o n f) ∧ (pursue o n f).calls = f.calls + n) ∨
    ∃ e k, f.calls ≤ k ∧ k < f.calls + n ∧ Broken o e k (pursue o n f) := by
  induction n generalizing f with
  | zero => exact Or.inl ⟨h, rfl⟩
  | succ n ih =>
    rw [pursue_succ h.failure]
    cases hnext : o f.calls with
    | error e =>
      rw [pursue_of_failure (e := e) rfl]
      exact Or.inr ⟨e, f.calls, Nat.le_refl _, by omega, broken_take h hnext⟩
    | ok b =>
      have hcalls : (f.take (.ok b)).calls = f.calls + 1 := rfl
      rcases ih (steady_take h hnext) with ⟨hsteady, hend⟩ | ⟨e, k, hge, hlt, hbroken⟩
      · exact Or.inl ⟨hsteady, by omega⟩
      · exact Or.inr ⟨e, k, by omega, by omega, hbroken⟩

/-- Opening connections and pursuing a founding are the same attempts. -/
theorem openAll_pursue (h : f.failure = none) (n : Nat) :
    (∃ bs, openAll (attempts o) n f.calls = .ok bs (pursue o n f).calls ∧ (pursue o n f).failure = none ∧
      (pursue o n f).connections = f.connections ++ bs) ∨
    ∃ e, openAll (attempts o) n f.calls = .error e (pursue o n f).calls ∧ (pursue o n f).failure = some e := by
  induction n generalizing f with
  | zero => exact Or.inl ⟨[], rfl, h, (List.append_nil _).symm⟩
  | succ n ih =>
    rw [pursue_succ h]
    cases hnext : o f.calls with
    | error e =>
      have hattempt : attempts o f.calls = .error e (f.calls + 1) := by rw [attempts, hnext]
      rw [pursue_of_failure (e := e) rfl]
      exact Or.inr ⟨e, Action.bind_of_error hattempt, rfl⟩
    | ok b =>
      have hattempt : attempts o f.calls = .ok b (f.calls + 1) := by rw [attempts, hnext]
      rw [openAll, Action.bind_of_ok hattempt]
      rcases ih (f := f.take (.ok b)) h with ⟨bs, hopen, hnone, hmore⟩ | ⟨e, hopen, hsome⟩
      · refine Or.inl ⟨b :: bs, Action.bind_of_ok hopen, hnone, ?_⟩
        rw [hmore]
        exact List.append_assoc ..
      · exact Or.inr ⟨e, Action.bind_of_error hopen, hsome⟩

theorem registry_pursue (o : Nat → Except Error β) (n : Nat) (f : Founding β) :
    (pursue o n f).registry = f.registry := by
  induction n generalizing f with
  | zero => rfl
  | succ n ih =>
    rw [pursue]
    split
    · rfl
    · rw [ih]
      cases o f.calls <;> rfl

end Founding

open Founding

theorem create_eq_found (o : Nat → Except Error β) (n : Nat) (r : Registry) :
    create (attempts o) n r 0 = (pursue o n (new r)).found := by
  have hregistry := registry_pursue o n (new r)
  rcases openAll_pursue (o := o) (f := new r) rfl n with ⟨bs, hopen, hnone, hmore⟩ | ⟨e, hopen, hsome⟩
  · rcases pursue_cases (steady_new o r) n with ⟨hsteady, hcalls⟩ | ⟨e, k, -, -, hbroken⟩
    · refine (Action.bind_of_ok hopen).trans ?_
      have hqueue : (pursue o n (new r)).queue = List.range n := by
        rw [hsteady.queue, hcalls, show (new r : Founding β).calls = 0 from rfl, Nat.zero_add]
      simp only [found, hnone, hqueue]
      generalize (pursue o n (new r)).toShared = w at hregistry hmore
      obtain ⟨registry, connections⟩ := w
      subst hregistry hmore
      rfl
    · rw [hbroken.failure] at hnone
      cases hnone
  · refine (Action.bind_of_error hopen).trans ?_
    simp only [found, hsome]

theorem create_cases (o : Nat → Except Error β) (n : Nat) (r : Registry) :
    (∃ p, create (attempts o) n r 0 = .ok p n ∧ p.registry = r ∧ p.idle = List.range n ∧ p.loans = [] ∧
      p.copies = [] ∧ p.connections.map Except.ok = (List.range n).map o) ∨
    ∃ e k, k < n ∧ create (attempts o) n r 0 = .error e (k + 1) ∧ Broken o e k (pursue o n (new r)) := by
  rw [create_eq_found]
  rcases pursue_cases (steady_new o r) n with ⟨hsteady, hcalls⟩ | ⟨e, k, -, hlt, hbroken⟩
  · have hcalls : (pursue o n (new r)).calls = n := hcalls.trans (Nat.zero_add n)
    have hqueue := hsteady.queue
    have hopened := hsteady.opened
    rw [hcalls] at hqueue hopened
    simp only [found, hsteady.failure, hcalls]
    exact Or.inl ⟨_, rfl, registry_pursue o n (new r), hqueue, rfl, rfl, hopened⟩
  · simp only [found, hbroken.failure, hbroken.calls]
    exact Or.inr ⟨e, k, Nat.zero_add n ▸ hlt, rfl, hbroken⟩

/-- What has been opened is what the attempts gave, in their order. -/
theorem session?_of_opened {w : Shared β} {o : Nat → Except Error β} {n : Nat}
    (h : w.connections.map Except.ok = (List.range n).map o) :
    (List.range n).map w.session? = (List.range n).map fun k => (o k).toOption.map (⟨w.registry, ·⟩) := by
  refine List.map_congr_left fun k hk => ?_
  have hnth : (w.connections.map Except.ok)[k]? = some (o k) := by
    simp [h, List.mem_range.1 hk]
  rw [List.getElem?_map, Option.map_eq_some_iff] at hnth
  obtain ⟨b, hb, hok⟩ := hnth
  rw [Shared.session?, hb, ← hok]
  rfl

theorem ok_of_opened {bs : List β} {o : Nat → Except Error β} {n : Nat}
    (h : bs.map Except.ok = (List.range n).map o) {k : Nat} (hk : k < n) : ∃ b, o k = .ok b := by
  have hmem : o k ∈ bs.map Except.ok := h ▸ List.mem_map_of_mem (List.mem_range.2 hk)
  obtain ⟨b, -, hb⟩ := List.mem_map.1 hmem
  exact ⟨b, hb.symm⟩

theorem ne_error_of_opened {bs : List β} {o : Nat → Except Error β} {n : Nat}
    (h : bs.map Except.ok = (List.range n).map o) {k : Nat} (hk : k < n) (e : Error) : o k ≠ .error e := by
  intro he
  obtain ⟨b, hb⟩ := ok_of_opened h hk
  rw [he] at hb
  cases hb

/-- The states that attempts on a connection leave, one attempt after another. -/
def states (x : Action σ β) (s : σ) : Nat → σ
  | 0 => s
  | k + 1 => Action.after (x (states x s k))

def outcomes (x : Action σ β) (s : σ) (k : Nat) : Except Error β := Action.outcome (x (states x s k))

theorem openAll_outcomes (x : Action σ β) (s : σ) (n k : Nat) :
    Action.outcome (openAll x n (states x s k)) = Action.outcome (openAll (attempts (outcomes x s)) n k) ∧
    Action.after (openAll x n (states x s k)) =
      states x s (Action.after (openAll (attempts (outcomes x s)) n k)) := by
  induction n generalizing k with
  | zero => exact ⟨rfl, rfl⟩
  | succ n ih =>
    rw [openAll, openAll]
    cases hx : x (states x s k) with
    | error e s' =>
      have ho : outcomes x s k = .error e := by rw [outcomes, hx, Action.outcome]
      have hattempt : attempts (outcomes x s) k = .error e (k + 1) := by rw [attempts, ho]
      have hnext : states x s (k + 1) = s' := by rw [states, hx, Action.after]
      rw [Action.bind_of_error hx, Action.bind_of_error hattempt]
      exact ⟨rfl, hnext.symm⟩
    | ok b s' =>
      have ho : outcomes x s k = .ok b := by rw [outcomes, hx, Action.outcome]
      have hattempt : attempts (outcomes x s) k = .ok b (k + 1) := by rw [attempts, ho]
      obtain rfl : states x s (k + 1) = s' := by rw [states, hx, Action.after]
      rw [Action.bind_of_ok hx, Action.bind_of_ok hattempt]
      obtain ⟨hout, hafter⟩ := ih (k + 1)
      simp only [Action.outcome_bind_pure, Action.after_bind_pure, hout, hafter, and_self]

/-- A pool is made of a connection's outcomes alone, whatever else the connection does. -/
theorem create_outcomes (x : Action σ β) (s : σ) (n : Nat) (r : Registry) :
    Action.outcome (create x n r s) = Action.outcome (create (attempts (outcomes x s)) n r 0) ∧
    Action.after (create x n r s) = states x s (Action.after (create (attempts (outcomes x s)) n r 0)) := by
  obtain ⟨hout, hafter⟩ := openAll_outcomes x s n 0
  simp only [create, Action.outcome_bind_pure, Action.after_bind_pure]
  exact ⟨congrArg _ hout, hafter⟩

/-- A pool has all the connections it was to have, exactly if every attempt succeeds. Otherwise the first attempt that
fails is the last one made, and nothing is left of what the others have opened. -/
theorem create_all_or_none (o : Nat → Except Error β) (n : Nat) (r : Registry) :
    create (attempts o) n r 0 = (pursue o n (new r)).found ∧
    ((∃ p calls, create (attempts o) n r 0 = .ok p calls) ↔ ∀ k < n, ∃ b, o k = .ok b) ∧
    (∀ p calls, create (attempts o) n r 0 = .ok p calls →
      calls = n ∧ p.registry = r ∧ p.size = n ∧
      p.idle.map p.session? = (List.range n).map (fun k => (o k).toOption.map (⟨r, ·⟩)) ∧
      ∀ c < n, p.holders c = 1) ∧
    (∀ k e, k < n → (∀ j < k, ∃ b, o j = .ok b) → o k = .error e →
      create (attempts o) n r 0 = .error e (k + 1) ∧
      (pursue o n (new r)).connections.map Except.ok = (List.range k).map o ∧
      ∀ c, (pursue o n (new r)).holders c = 0) ∧
    ∀ (σ : Type) (x : Action σ β) (s : σ), outcomes x s = o →
      Action.outcome (create x n r s) = Action.outcome (create (attempts o) n r 0) ∧
      Action.after (create x n r s) = states x s (Action.after (create (attempts o) n r 0)) := by
  refine ⟨create_eq_found o n r, ?_, ?_, ?_, fun σ x s ho => ho ▸ create_outcomes x s n r⟩
  all_goals
    rcases create_cases o n r with ⟨p, hp, hregistry, hidle, hloans, hcopies, hopened⟩ | ⟨e, k, hk, he, hbroken⟩
  · exact ⟨fun _ k hk => ok_of_opened hopened hk, fun _ => ⟨p, n, hp⟩⟩
  · refine ⟨fun ⟨p, calls, hp⟩ => ?_, fun hall => ?_⟩
    · rw [he] at hp
      cases hp
    · obtain ⟨b, hb⟩ := hall k hk
      rw [hbroken.outcome] at hb
      cases hb
  · intro p' calls hp'
    rw [hp] at hp'
    cases hp'
    refine ⟨rfl, hregistry, by rw [size, hidle, List.length_range], ?_, fun c hc => ?_⟩
    · rw [hidle, session?_of_opened hopened, hregistry]
    · simp [Pool.holders, hidle, hloans, hcopies, List.count_range, hc]
  · intro p' calls hp'
    rw [he] at hp'
    cases hp'
  · exact fun k e hk _ hfail => absurd hfail (ne_error_of_opened hopened hk e)
  · intro k' e' hk' hearlier hfail
    -- Neither of the two attempts that fail can come before the other.
    obtain rfl : k' = k := by
      rcases Nat.lt_trichotomy k' k with hlt | heq | hlt
      · exact absurd hfail (ne_error_of_opened hbroken.opened hlt e')
      · exact heq
      · obtain ⟨b, hb⟩ := hearlier k hlt
        rw [hbroken.outcome] at hb
        cases hb
    obtain rfl : e' = e := Except.error.inj (hfail.symm.trans hbroken.outcome)
    refine ⟨he, hbroken.opened, fun c => ?_⟩
    rw [Founding.holders, hbroken.queue, List.count_nil]

def twoOf (k : Nat) : Except Error Recorder :=
  if k < 2 then .ok { number := k, typed := false } else .error (.connection .tooMany)

theorem create_of_two : create (attempts twoOf) 4 .empty 0 = .error (.connection .tooMany) 3 ∧
    ∃ p, create (attempts twoOf) 2 .empty 0 = .ok p 2 ∧ p.size = 2 := by
  constructor
  · exact ((create_all_or_none twoOf 4 .empty).2.2.2.1 2 _ (by decide) (fun j hj => ⟨_, if_pos hj⟩) rfl).1
  · obtain ⟨p, calls, hp⟩ := (create_all_or_none twoOf 2 .empty).2.1.2 fun k hk => ⟨_, if_pos hk⟩
    obtain ⟨rfl, -, hsize, -⟩ := (create_all_or_none twoOf 2 .empty).2.2.1 p calls hp
    exact ⟨p, hp, hsize⟩

end Pool
end Rowmap
