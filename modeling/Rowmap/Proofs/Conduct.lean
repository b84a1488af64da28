import Rowmap.Session.Request

/-! An operation and what it asks of its connection are the same. To run it is to write all its requests and
then to send them: a session never sends anything before the rest can be written, and between two statements
of an operation it does nothing that the statements depend on. -/

namespace Rowmap

variable {β α γ : Type}

namespace Action

theorem bind_congr {σ : Type} {x y : Action σ α} {s : σ} (h : x s = y s) (f : α → Action σ γ) :
    (x >>= f) s = (y >>= f) s := by
  simp only [bind, EStateM.bind, h]

theorem bind_congr_right {σ : Type} {x : Action σ α} {s : σ} {f g : α → Action σ γ}
    (h : ∀ a s', x s = .ok a s' → f a s' = g a s') : (x >>= f) s = (x >>= g) s := by
  cases hx : x s with
  | ok a s' => rw [bind_of_ok hx, bind_of_ok hx, h a s' hx]
  | error e s' => rw [bind_of_error hx, bind_of_error hx]

theorem outcome_lift {σ : Type} (x : Except Error α) (s : σ) : outcome ((liftM x : Action σ α) s) = x := by
  cases x <;> rfl

theorem after_lift {σ : Type} (x : Except Error α) (s : σ) : after ((liftM x : Action σ α) s) = s := by
  cases x <;> rfl

theorem after_map {σ : Type} (f : α → γ) (x : Action σ α) (s : σ) : after ((f <$> x) s) = after (x s) := by
  simp only [Functor.map, EStateM.map]
  cases x s <;> rfl

theorem after_bind_lift {σ : Type} (x : Action σ α) (f : α → Except Error γ) (s : σ) :
    after ((x >>= fun a => liftM (f a)) s) = after (x s) := by
  cases h : x s with
  | ok a s' =>
    rw [bind_of_ok h, after_lift]
    rfl
  | error e s' =>
    rw [bind_of_error h]
    rfl

theorem outcome_bind_pure {σ : Type} (x : Action σ α) (f : α → γ) (s : σ) :
    outcome ((x >>= fun a => pure (f a)) s) = (outcome (x s)).map f := by
  cases h : x s with
  | ok a s' =>
    rw [bind_of_ok h]
    rfl
  | error e s' =>
    rw [bind_of_error h]
    rfl

theorem after_bind_pure {σ : Type} (x : Action σ α) (f : α → γ) (s : σ) :
    after ((x >>= fun a => pure (f a)) s) = after (x s) := by
  cases h : x s with
  | ok a s' =>
    rw [bind_of_ok h]
    rfl
  | error e s' =>
    rw [bind_of_error h]
    rfl

end Action

namespace Session

theorem configure_of_ok [Backend β] {t : RecordType} {es : List Expr} {s : Session β} {r : Registry}
    (h : Registry.configure t es s.registry = .ok () r) : configure t es s = .ok () { s with registry := r } := by
  simp only [configure, onRegistry, Action.on, h]

theorem configure_of_error [Backend β] {t : RecordType} {es : List Expr} {s : Session β} {r : Registry}
    {e : Error} (h : Registry.configure t es s.registry = .error e r) :
    configure t es s = .error e { s with registry := r } := by
  simp only [configure, onRegistry, Action.on, h]

theorem onBackend_pure (a : α) : onBackend (pure a : Action β α) = pure a := rfl

theorem onBackend_bind (x : Action β α) (f : α → Action β γ) :
    onBackend (x >>= f) = (onBackend x >>= fun a => onBackend (f a)) := by
  funext s
  show onBackend (x >>= f) s = (onBackend x >>= fun a => onBackend (f a)) s
  simp only [onBackend, Action.on, bind, EStateM.bind]
  cases x s.backend <;> rfl

theorem onBackend_of_ok {x : Action β α} {s : Session β} {a : α} {b : β} (h : x s.backend = .ok a b) :
    onBackend x s = .ok a { s with backend := b } := by
  simp only [onBackend, Action.on, h]

theorem onBackend_of_error {x : Action β α} {s : Session β} {e : Error} {b : β} (h : x s.backend = .error e b) :
    onBackend x s = .error e { s with backend := b } := by
  simp only [onBackend, Action.on, h]

theorem backend_of_onBackend {x : Action β α} {s s' : Session β} {a : α} (h : onBackend x s = .ok a s') :
    s'.backend = Action.after (x s.backend) := by
  unfold onBackend Action.on at h
  split at h
  · next a' b hx =>
    cases h
    rw [hx]
    rfl
  · cases h

variable [Backend β]

theorem createTable_of_error {t : RecordType} {s : Session β} {e : Error}
    (h : s.registry.createSql t (Backend.columnType s.backend) = .error e) : createTable t s = .error e s := by
  rw [createTable, Action.get_bind]
  exact Action.bind_of_error (Action.lift_of_error h s)

theorem createTable_of_ok {t : RecordType} {s : Session β} {sql : String}
    (h : s.registry.createSql t (Backend.columnType s.backend) = .ok sql) :
    createTable t s = (onBackend (Backend.execute (Statement.plain sql)) >>= fun _ => pure ()) s := by
  rw [createTable, Action.get_bind]
  exact Action.bind_of_ok (Action.lift_of_ok h s)

end Session

namespace Request

open Session

theorem onBackend_sendAll_cons [Backend β] {q : Request} {x : Action β α} {k : α → Reply}
    (hq : q.send = k <$> x) (qs : List Request) :
    onBackend (sendAll (q :: qs)) =
      (onBackend x >>= fun a => onBackend (sendAll qs) >>= fun rs => pure (k a :: rs)) := by
  simp only [sendAll, hq, map_eq_pure_bind, bind_assoc, pure_bind, onBackend_bind, onBackend_pure]

end Request

/-- The insertions of records can all be written beforehand, as the markers stay what they are. -/
theorem Session.insertAll_eq [Recording β] {t : RecordType} (os : List (Record t)) (s : Session β) :
    insertAll os s = (onBackend (Request.sendAll
      (os.map fun o => .execute (o.insertion (Backend.marker s.backend)))) >>= fun rs =>
        pure (Reply.total rs)) s := by
  induction os generalizing s with
  | nil => rfl
  | cons o os ih =>
    rw [insertAll, insert, bind_assoc, Action.get_bind, List.map_cons, Request.onBackend_sendAll_cons rfl,
      bind_assoc]
    apply Action.bind_congr_right
    intro n s' hn
    have hmarker : Backend.marker s'.backend = Backend.marker s.backend := by
      have hlaw := Recording.marker_send (.execute (o.insertion (Backend.marker s.backend))) s.backend
      rw [Request.send, Action.after_map] at hlaw
      rw [backend_of_onBackend hn, hlaw]
    rw [Action.bind_congr (ih s'), hmarker]
    simp only [bind_assoc, pure_bind]
    rfl

namespace Operation

section

variable [Backend β]

/-- The requests are sent once they are written; if they cannot be written there is nothing to send. -/
def conductWritten (op : Operation) : Except Error (List Request) → Action (Session β) Answer
  | .error e => throw e
  | .ok qs => op.conduct qs

theorem conductWritten_bind (op : Operation) (x : Except Error α) (f : α → Request) :
    op.conductWritten (do let a ← x; return [f a]) =
      ((liftM x : Action (Session β) α) >>= fun a => op.conduct [f a]) := by
  cases x <;> rfl

theorem conduct_one {op : Operation} {q : Request} {x : Action β α} {k : α → Reply} (hq : q.send = k <$> x)
    {f : α → Action (Session β) Answer} (hf : ∀ a, liftM (op.answer [k a]) = f a) :
    op.conduct [q] = (Session.onBackend x >>= f) := by
  rw [conduct, Request.onBackend_sendAll_cons hq]
  simp only [Request.sendAll, Session.onBackend_pure, bind_assoc, pure_bind, hf]

theorem createTable_eq {op : Operation} (hop : ∀ rs, op.answer rs = .ok .done) (t : RecordType)
    (s : Session β) : (Session.createTable t >>= fun _ => pure .done) s = op.conductWritten (do
      let sql ← s.registry.createSql t (Backend.columnType s.backend)
      return [.execute (.plain sql)]) s := by
  cases h : s.registry.createSql t (Backend.columnType s.backend) with
  | error e => exact Action.bind_of_error (Session.createTable_of_error h)
  | ok sql =>
    show _ = op.conduct [.execute _] s
    rw [Action.bind_congr (Session.createTable_of_ok h), bind_assoc, conduct_one rfl]
    intro n
    rw [hop]
    rfl

theorem objects_eq {op : Operation} {t : RecordType} {f : List (Record t) → Answer}
    (hop : ∀ rs, op.answer rs = f <$> Session.readAll t (rs.flatMap Reply.found)) (q : Query) :
    ((Session.objects t q : Action (Session β) _) >>= fun os => pure (f os)) =
      op.conductWritten (do let sql ← q.select t; return [.query sql]) := by
  rw [conductWritten_bind, Session.objects, bind_assoc]
  congr 1
  funext sql
  rw [bind_assoc, conduct_one (q := .query _) rfl]
  intro rows
  rw [hop, List.flatMap_singleton]
  show liftM (f <$> Session.readAll t rows) = (liftM (Session.readAll t rows) >>= fun os => pure (f os))
  cases Session.readAll t rows <;> rfl

theorem count_eq (t : RecordType) (q : Query) :
    ((Session.count t q : Action (Session β) Int) >>= fun n => pure (.number n)) =
      conductWritten (.count t q) (do let sql ← q.count t; return [.scalar sql]) := by
  rw [conductWritten_bind, Session.count, bind_assoc]
  congr 1
  funext sql
  rw [conduct_one (q := .scalar _) rfl]
  intro n
  rfl

end

/-- To run an operation is to write its requests, for the session as it is, and to send them with the registry
that the operation makes of it. -/
theorem run_eq [Recording β] (op : Operation) (s : Session β) :
    op.run s = op.conductWritten (op.written s) { s with registry := op.registryAfter s.registry } := by
  cases op with
  | configure t es =>
    simp only [run, written, requests, registryAfter, batch?]
    cases h : Registry.configure t es s.registry with
    | error e r => exact Action.bind_of_error (Session.configure_of_error h)
    | ok _ r => exact Action.bind_of_ok (Session.configure_of_ok h)
  | createTable t => exact createTable_eq (fun _ => rfl) t s
  | createTableWith t es =>
    rw [run, Session.createTableWith, bind_assoc]
    simp only [written, requests, registryAfter, batch?]
    cases h : Registry.configure t es s.registry with
    | error e r => exact Action.bind_of_error (Session.configure_of_error h)
    | ok _ r =>
      rw [Action.bind_of_ok (Session.configure_of_ok h)]
      exact createTable_eq (fun _ => rfl) t _
  | dropTable t =>
    show _ = conduct (.dropTable t) [.execute _] s
    rw [run, Session.dropTable, bind_assoc, conduct_one rfl]
    intro n
    rfl
  | insert t o =>
    show _ = conduct (.insert t o) [.execute _] s
    rw [run, Session.insert, bind_assoc, Action.get_bind, conduct_one rfl]
    intro n
    rfl
  | insertAll t os =>
    show _ = conduct (.insertAll t os) _ s
    rw [run, conduct, Action.bind_congr (Session.insertAll_eq os s), bind_assoc]
    rfl
  | objects t q => exact congrFun (objects_eq (fun _ => rfl) q) s
  | object t q =>
    show _ = conductWritten (.object t q) _ s
    rw [run, Session.object, bind_assoc]
    exact congrFun (objects_eq (fun _ => rfl) _) s
  | count t q => exact congrFun (count_eq t q) s
  | execute sql =>
    show _ = conduct (.execute sql) [.execute _] s
    rw [run, Session.execute, conduct_one rfl]
    intro n
    rfl
  | query sql =>
    show _ = conduct (.query sql) [.query _] s
    rw [run, Session.query, conduct_one rfl]
    intro rows
    rw [answer, List.flatMap_singleton]
    rfl

end Operation
end Rowmap
