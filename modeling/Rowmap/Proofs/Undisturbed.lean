import Rowmap.Proofs.Conduct
import Rowmap.Session.Traffic

/-! A creation that is left alone. When no other step comes between its own, it leaves the registry and the
connections as the session's operation does, and comes to the same. -/

namespace Rowmap
namespace Traffic

variable {β : Type}

theorem setStage_add (w : Traffic β) (k : Creation) (s : Creation.Stage) :
    (w.add k).setStage w.creations.length s = w.add { k with stage := s } := by
  have hlast : (w.creations ++ [k]).modify w.creations.length ({ · with stage := s }) =
      w.creations ++ [{ k with stage := s }] := List.modifyTailIdx_add _ 0 w.creations [k]
  simp only [setStage, add, hlast]

theorem isHeld_add {w : Traffic β} {k : Creation} (hk : k.stage.isHolding = false) (c : Nat) :
    (w.add k).isHeld c = w.isHeld c := by
  simp [isHeld, add, hk]

theorem toShared_put {w : Traffic β} {c : Nat} {b : β} (hb : w.connections[c]? = some b) :
    w.toShared.put c ⟨w.registry, b⟩ = w.toShared := by
  obtain ⟨hc, rfl⟩ := List.getElem?_eq_some_iff.1 hb
  simp only [Shared.put, List.set_getElem_self]

variable [Backend β]

theorem advance_add (w : Traffic β) (k : Creation) : (w.add k).advance w.creations.length =
    match k.stage with
    | .registering => (w.add k).register w.creations.length k
    | .waiting =>
      if (w.add k).isHeld k.connection then w.add k else (w.add k).setStage w.creations.length .holding
    | .holding => (w.add k).write w.creations.length k
    | .written sql => (w.add k).send w.creations.length k sql
    | .finished _ => w.add k := by
  have hlast : (w.add k).creations[w.creations.length]? = some k := List.getElem?_concat_length
  cases hs : k.stage <;> simp only [advance, hlast, hs]

section

variable (t : RecordType) (es : List Expr) {w : Traffic β} {c : Nat} {b : β}

theorem advance_registering : (w.add ⟨c, t, es, .registering⟩).advance w.creations.length =
    (w.configure t es).add ⟨c, t, es, match Action.outcome (Registry.configure t es w.registry) with
      | .ok () => .waiting
      | .error e => .finished (.error e)⟩ := by
  rw [advance_add]
  exact setStage_add (w.configure t es) ⟨c, t, es, .registering⟩ _

theorem advance_waiting (hfree : w.isHeld c = false) :
    (w.add ⟨c, t, es, .waiting⟩).advance w.creations.length = w.add ⟨c, t, es, .holding⟩ := by
  have hk : (w.add ⟨c, t, es, .waiting⟩).isHeld c = false := (isHeld_add rfl c).trans hfree
  rw [advance_add]
  simp only [hk, setStage_add]
  rfl

theorem advance_holding (hb : w.connections[c]? = some b) :
    (w.add ⟨c, t, es, .holding⟩).advance w.creations.length =
      w.add ⟨c, t, es, match w.registry.createSql t (Backend.columnType b) with
        | .ok sql => .written sql
        | .error e => .finished (.error e)⟩ := by
  have hk : (w.add ⟨c, t, es, .holding⟩).connections[c]? = some b := hb
  rw [advance_add]
  simp only [write, hk]
  exact setStage_add w ⟨c, t, es, .holding⟩ _

theorem advance_written (hb : w.connections[c]? = some b) (sql : String) :
    (w.add ⟨c, t, es, .written sql⟩).advance w.creations.length =
      (w.deliver w.creations.length c b sql).add ⟨c, t, es,
        .finished ((Action.outcome (Backend.execute (Statement.plain sql) b)).map fun _ => ())⟩ := by
  have hk : (w.add ⟨c, t, es, .written sql⟩).connections[c]? = some b := hb
  rw [advance_add]
  simp only [send, hk]
  exact setStage_add (w.deliver w.creations.length c b sql) ⟨c, t, es, .written sql⟩ _

theorem advance_finished (o : Except Error Unit) :
    (w.add ⟨c, t, es, .finished o⟩).advance w.creations.length = w.add ⟨c, t, es, .finished o⟩ := advance_add w _

/-- What is left of a creation that waits, when nothing comes between its steps. -/
theorem advance_to_end (hb : w.connections[c]? = some b) (hfree : w.isHeld c = false) :
    let i := w.creations.length
    let w' := (((w.add ⟨c, t, es, .waiting⟩).advance i).advance i).advance i
    let r := Session.createTable t ⟨w.registry, b⟩
    w'.toShared = w.toShared.put c (Action.after r) ∧
      w'.creations = w.creations ++ [⟨c, t, es, .finished (Action.outcome r)⟩] := by
  dsimp only
  rw [advance_waiting t es hfree, advance_holding t es hb]
  cases hsql : w.registry.createSql t (Backend.columnType b) with
  | error e =>
    dsimp only
    rw [advance_finished, Session.createTable_of_error (s := ⟨w.registry, b⟩) hsql]
    exact ⟨(toShared_put hb).symm, rfl⟩
  | ok sql =>
    dsimp only
    rw [advance_written t es hb, Session.createTable_of_ok (s := ⟨w.registry, b⟩) hsql]
    cases hsent : Backend.execute (Statement.plain sql) b with
    | ok n b' =>
      have hdone := Session.onBackend_of_ok (s := ⟨w.registry, b⟩) hsent
      rw [Action.bind_of_ok hdone]
      exact ⟨by simp only [add, deliver, hsent]; rfl, rfl⟩
    | error e b' =>
      have hdone := Session.onBackend_of_error (s := ⟨w.registry, b⟩) hsent
      rw [Action.bind_of_error hdone]
      exact ⟨by simp only [add, deliver, hsent]; rfl, rfl⟩

end

variable {w : Traffic β} {session c : Nat} {b : β}

/-- The steps of a creation are those of the session's own. -/
theorem run_create (hs : w.sessions[session]? = some c) (hb : w.connections[c]? = some b)
    (hfree : w.isHeld c = false) (t : RecordType) :
    let i := w.creations.length
    let w' := w.run [.create session t, .advance i, .advance i, .advance i]
    let r := Session.createTable t ⟨w.registry, b⟩
    w'.toShared = w.toShared.put c (Action.after r) ∧
      w'.creations = w.creations ++ [⟨c, t, [], .finished (Action.outcome r)⟩] := by
  have hbegin : w.begin session (⟨·, t, [], .waiting⟩) = w.add ⟨c, t, [], .waiting⟩ := by rw [begin, hs]
  simp only [run, List.foldl_cons, List.foldl_nil, step, hbegin]
  exact advance_to_end t [] hb hfree

/-- With a batch there is one more, and it may be the last. -/
theorem run_createWith (hs : w.sessions[session]? = some c) (hb : w.connections[c]? = some b)
    (hfree : w.isHeld c = false) (t : RecordType) (es : List Expr) :
    let i := w.creations.length
    let w' := w.run [.createWith session t es, .advance i, .advance i, .advance i, .advance i]
    let r := Session.createTableWith t es ⟨w.registry, b⟩
    w'.toShared = w.toShared.put c (Action.after r) ∧
      w'.creations = w.creations ++ [⟨c, t, es, .finished (Action.outcome r)⟩] := by
  have hbegin : w.begin session (⟨·, t, es, .registering⟩) = w.add ⟨c, t, es, .registering⟩ := by rw [begin, hs]
  have hlength : (w.configure t es).creations.length = w.creations.length := rfl
  simp only [run, List.foldl_cons, List.foldl_nil, step, hbegin]
  rw [advance_registering, Session.createTableWith, ← hlength]
  cases hr : Registry.configure t es w.registry with
  | error e r =>
    rw [Action.bind_of_error (Session.configure_of_error (s := ⟨w.registry, b⟩) hr)]
    have hleft : (w.configure t es).registry = r := congrArg Action.after hr
    simp only [Action.outcome, Action.after, advance_finished]
    refine ⟨?_, rfl⟩
    rw [← hleft]
    exact (toShared_put (w := w.configure t es) hb).symm
  | ok _ r =>
    rw [Action.bind_of_ok (Session.configure_of_ok (s := ⟨w.registry, b⟩) hr)]
    have hleft : (w.configure t es).registry = r := congrArg Action.after hr
    have hend := advance_to_end t es (w := w.configure t es) hb hfree
    rw [hleft] at hend
    exact hend

end Traffic
end Rowmap
