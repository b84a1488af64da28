import Rowmap.Backend.Recorder
import Rowmap.Proofs.Conduct
import Rowmap.Proofs.Unwritten

/-! What a connection sees of a session. Whatever operations are called for, in whatever order and with whatever
failures, the statements it is given are those that the operations' requests consist of, in turn; of an
operation that it refuses a statement to, those up to that one. -/

namespace Rowmap

variable {β : Type}

namespace Request

section

variable [Backend β]

/-- Requests that do not all succeed: those before the first failure do, and those after it are not sent. -/
theorem sendAll_eq_error {qs : List Request} {b b' : β} {e : Error} (h : sendAll qs b = .error e b') :
    ∃ before q rest rs b'', qs = before ++ q :: rest ∧ sendAll before b = .ok rs b'' ∧
      q.send b'' = .error e b' := by
  induction qs generalizing b with
  | nil => cases h
  | cons q qs ih =>
    rw [sendAll] at h
    cases hq : q.send b with
    | error e' b'' =>
      rw [Action.bind_of_error hq] at h
      cases h
      exact ⟨[], q, qs, [], b, rfl, rfl, hq⟩
    | ok r b'' =>
      rw [Action.bind_of_ok hq] at h
      cases hqs : sendAll qs b'' with
      | ok rs b₃ =>
        rw [Action.bind_of_ok hqs] at h
        cases h
      | error e' b₃ =>
        rw [Action.bind_of_error hqs] at h
        cases h
        obtain ⟨before, p, rest, rs, b₄, rfl, hbefore, hp⟩ := ih hqs
        refine ⟨q :: before, p, rest, r :: rs, b₄, rfl, ?_, hp⟩
        rw [sendAll, Action.bind_of_ok hq, Action.bind_of_ok hbefore]
        rfl

end

theorem log_sendAll [Recording β] {qs : List Request} {b b' : β} {rs : List Reply}
    (h : sendAll qs b = .ok rs b') : Recording.log b' = Recording.log b ++ qs.map statement := by
  induction qs generalizing b rs with
  | nil =>
    cases h
    exact (List.append_nil _).symm
  | cons q qs ih =>
    obtain ⟨r, b'', hq, hrest⟩ := Action.ok_of_bind h
    obtain ⟨rs', b₃, hqs, hend⟩ := Action.ok_of_bind hrest
    cases hend
    have hlog := Recording.log_send q b
    rw [hq] at hlog
    rw [ih hqs, List.map_cons]
    show Recording.log (Action.after (EStateM.Result.ok r b'')) ++ _ = _
    rw [hlog, List.append_assoc, List.singleton_append]

end Request

open Request

section

variable [Backend β]

/-- What an operation sends, what it comes to and what it leaves of the session. -/
inductive Conducted (op : Operation) (s : Session β) :
    List Statement → Except Error Answer → Session β → Prop where
  | unwritten {e : Error} (h : op.written s = .error e) (he : e.isExecution = false) :
      Conducted op s [] (.error e) ⟨op.registryAfter s.registry, s.backend⟩
  | refused {before rest : List Request} {q : Request} {rs : List Reply} {b b' : β} {e : Error}
      (h : op.written s = .ok (before ++ q :: rest))
      (hbefore : sendAll before s.backend = .ok rs b) (hq : q.send b = .error e b') :
      Conducted op s ((before ++ [q]).map statement) (.error e) ⟨op.registryAfter s.registry, b'⟩
  | answered {qs : List Request} {rs : List Reply} {b : β} (h : op.written s = .ok qs)
      (hqs : sendAll qs s.backend = .ok rs b) :
      Conducted op s (qs.map statement) (op.answer rs) ⟨op.registryAfter s.registry, b⟩

def Session.perform : List Operation → Session β → List (Except Error Answer) × Session β
  | [], s => ([], s)
  | op :: ops, s =>
    let rest := perform ops (Action.after (op.run s))
    (Action.outcome (op.run s) :: rest.1, rest.2)

end

section

variable [Recording β]

theorem conducted_run (op : Operation) (s : Session β) :
    ∃ sent, Conducted op s sent (Action.outcome (op.run s)) (Action.after (op.run s)) := by
  have hrun := op.run_eq s
  cases hreq : op.written s with
  | error e =>
    rw [hreq] at hrun
    rw [hrun]
    exact ⟨_, .unwritten hreq (op.onCaller_requests _ _ _ e hreq)⟩
  | ok qs =>
    rw [hreq] at hrun
    cases hqs : sendAll qs s.backend with
    | error e b =>
      obtain ⟨before, q, rest, rs, b', rfl, hbefore, hq⟩ := sendAll_eq_error hqs
      have hsent : op.run s = .error e ⟨op.registryAfter s.registry, b⟩ := by
        rw [hrun]
        exact Action.bind_of_error (Session.onBackend_of_error hqs)
      rw [hsent]
      exact ⟨_, .refused hreq hbefore hq⟩
    | ok rs b =>
      have hsent : op.run s = (liftM (op.answer rs) : Action (Session β) Answer)
          ⟨op.registryAfter s.registry, b⟩ := by
        rw [hrun]
        exact Action.bind_of_ok (Session.onBackend_of_ok hqs)
      rw [hsent, Action.outcome_lift, Action.after_lift]
      exact ⟨_, .answered hreq hqs⟩

theorem Conducted.log {op : Operation} {s s' : Session β} {sent : List Statement} {o : Except Error Answer}
    (h : Conducted op s sent o s') : Recording.log s'.backend = Recording.log s.backend ++ sent := by
  cases h with
  | unwritten h he => exact (List.append_nil _).symm
  | answered h hqs => exact log_sendAll hqs
  | @refused before rest q rs b b' e h hbefore hq =>
    have hlog := Recording.log_send q b
    rw [hq, log_sendAll hbefore] at hlog
    rw [List.map_append, ← List.append_assoc]
    exact hlog

end

namespace Session

variable {t : RecordType}

theorem readAll_eq_ok_iff {rows : List Row} {os : List (Record t)} :
    readAll t rows = .ok os ↔ rows.map (Record.ofRow t) = os.map .ok := by
  induction rows generalizing os with
  | nil =>
    rw [readAll, List.map_nil, eq_comm (a := []), List.map_eq_nil_iff, Except.ok.injEq, eq_comm]
  | cons row rows ih =>
    rw [readAll, bind_eq_ok, List.map_cons]
    constructor
    · rintro ⟨o, ho, hrest⟩
      obtain ⟨os', hos, hend⟩ := bind_eq_ok.1 hrest
      cases hend
      rw [ho, ih.1 hos, List.map_cons]
    · intro h
      obtain ⟨o, os', rfl, ho, hos⟩ := List.map_eq_cons_iff.1 h.symm
      exact ⟨o, ho.symm, bind_eq_ok.2 ⟨os', ih.2 hos.symm, rfl⟩⟩

end Session

section

variable [Recording β]

end

namespace Recorder

theorem after_record {α : Type} (s : Statement) (f : Recorder → α) (b : Recorder) :
    Action.after (record s f b) = { b with log := b.log ++ [s], failures := (foresee b.failures).2 } := by
  unfold record
  split <;> rfl

theorem after_send (q : Request) (b : Recorder) : Action.after (q.send b) =
    { b with log := b.log ++ [q.statement], failures := (foresee b.failures).2 } := by
  cases q with
  | execute s => exact (Action.after_map _ _ b).trans (after_record s _ b)
  | query sql => exact (Action.after_map _ _ b).trans (after_record _ _ b)
  | scalar sql =>
    exact (Action.after_map _ _ b).trans ((Action.after_bind_lift _ _ b).trans (after_record _ _ b))

end Recorder

instance : Recording Recorder where
  log := Recorder.log
  log_send q b := by rw [Recorder.after_send]
  marker_send q b := by
    rw [Recorder.after_send]
    rfl

def refusing : Session Recorder :=
  ⟨.empty, { number := 0, typed := false, failures := [(2, .reported .driver "disk full")] }⟩

end Rowmap
