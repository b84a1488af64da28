import Rowmap.Error
/-! Work on a state that may fail. A failure keeps what was changed before it. -/

namespace Rowmap

abbrev Action (σ α : Type) : Type := EStateM Error σ α

namespace Action

variable {σ τ α β ε : Type}

def ofExcept : Except Error α → Action σ α
  | .ok a => pure a
  | .error e => throw e

instance : MonadLift (Except Error) (EStateM Error σ) := ⟨ofExcept⟩

def outcome : EStateM.Result Error σ α → Except Error α
  | .ok a _ => .ok a
  | .error e _ => .error e

def after : EStateM.Result Error σ α → σ
  | .ok _ s => s
  | .error _ s => s

def on (get : τ → σ) (set : σ → τ → τ) (x : Action σ α) : Action τ α := fun t =>
  match x (get t) with
  | .ok a s => .ok a (set s t)
  | .error e s => .error e (set s t)

theorem bind_of_ok {x : Action σ α} {f : α → Action σ β} {s s' : σ} {a : α} (h : x s = .ok a s') :
    (x >>= f) s = f a s' := by
  simp only [bind, EStateM.bind, h]

theorem bind_of_error {x : Action σ α} {f : α → Action σ β} {s s' : σ} {e : Error}
    (h : x s = .error e s') : (x >>= f) s = .error e s' := by
  simp only [bind, EStateM.bind, h]

theorem ok_of_bind {x : Action σ α} {f : α → Action σ β} {s s'' : σ} {b : β}
    (h : (x >>= f) s = .ok b s'') : ∃ a s', x s = .ok a s' ∧ f a s' = .ok b s'' := by
  cases hx : x s with
  | ok a s' => exact ⟨a, s', rfl, (bind_of_ok hx).symm.trans h⟩
  | error e s' => rw [bind_of_error hx] at h; cases h

theorem get_bind (f : σ → Action σ α) (s : σ) : (get >>= f) s = f s s := rfl

theorem lift_of_ok {x : Except Error α} {a : α} (h : x = .ok a) (s : σ) :
    (liftM x : Action σ α) s = .ok a s := by
  subst h; rfl

theorem lift_of_error {x : Except Error α} {e : Error} (h : x = .error e) (s : σ) :
    (liftM x : Action σ α) s = .error e s := by
  subst h; rfl

theorem outcome_on {get : τ → σ} {set : σ → τ → τ} {x : Action σ α} {t : τ} :
    outcome (on get set x t) = outcome (x (get t)) := by
  unfold on; split <;> simp_all [outcome]

theorem after_on {get : τ → σ} {set : σ → τ → τ} {x : Action σ α} {t : τ} :
    after (on get set x t) = set (after (x (get t))) t := by
  unfold on; split <;> simp_all [after]

/-- Works on one item after another, each on the state that is left by the one before it, failed or not. Gives the
outcomes and the state at the end. -/
def inTurn (f : ε → Action σ α) : List ε → σ → List (Except Error α) × σ
  | [], s => ([], s)
  | e :: es, s => (outcome (f e s) :: (inTurn f es (after (f e s))).1, (inTurn f es (after (f e s))).2)

theorem inTurn_related {R : σ → τ → Prop} {f : ε → Action σ α} {g : ε → Action τ α} {es : List ε}
    (hstep : ∀ e ∈ es, ∀ s t, R s t → outcome (f e s) = outcome (g e t) ∧ R (after (f e s)) (after (g e t)))
    {s : σ} {t : τ} (h : R s t) :
    (inTurn f es s).1 = (inTurn g es t).1 ∧ R (inTurn f es s).2 (inTurn g es t).2 := by
  induction es generalizing s t with
  | nil => exact ⟨rfl, h⟩
  | cons e es ih =>
    obtain ⟨hsame, hafter⟩ := hstep e (List.mem_cons_self ..) s t h
    obtain ⟨hrest, hend⟩ := ih (fun e' he' => hstep e' (List.mem_cons_of_mem _ he')) hafter
    exact ⟨by rw [inTurn, inTurn, hsame, hrest], hend⟩

end Action

end Rowmap
