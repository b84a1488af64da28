import Rowmap.Proofs.Transcript

/-! Types whose members are not those declared. A session finds that out when it is to create their table, and
sends nothing then. Insertions and queries name the same members in their statements and are not held against
the declaration: whatever of theirs can be written is sent. -/

namespace Rowmap

namespace Operation

/-- The type whose columns an operation names in its statements. -/
def columnsOf? : Operation → Option RecordType
  | createTable t => some t
  | createTableWith t _ => some t
  | insert t _ => some t
  | insertAll t (_ :: _) => some t
  | objects t _ => some t
  | object t _ => some t
  | configure _ _ | dropTable _ | insertAll _ [] | count _ _ | execute _ | query _ => none

def isCreation : Operation → Bool
  | createTable _ | createTableWith _ _ => true
  | _ => false

/-- The query whose rows an operation is for. -/
def query? : Operation → Option Query
  | objects _ q => some q
  | object _ q => some (if q.limit.isSome then q else { q with limit := some 1 })
  | _ => none

/-- What the registry makes of an operation's batch. -/
def batchOutcome (r : Registry) (op : Operation) : Except Error Unit :=
  match op.batch? with
  | some (t, es) => Action.outcome (Registry.configure t es r)
  | none => .ok ()

end Operation

theorem RecordType.createSql_of_mismatch (t : RecordType) {e : Error} (he : t.checkMembers = .error e)
    (s : ConstraintStore) (columnType : Kind → ColumnType) : t.createSql s columnType = .error e := by
  rw [createSql, he]
  rfl

theorem Registry.createSql_of_mismatch {t : RecordType} {e : Error} (he : t.checkMembers = .error e)
    (r : Registry) (columnType : Kind → ColumnType) : r.createSql t columnType = .error e :=
  t.createSql_of_mismatch he _ columnType

namespace Operation

variable {β : Type} {op : Operation} {t : RecordType}

section

variable [Backend β]

/-- The batch comes first, and the members are looked at before anything is written. -/
theorem written_creation {e : Error} (he : t.checkMembers = .error e) (hop : op.columnsOf? = some t)
    (hcreation : op.isCreation = true) (s : Session β) :
    op.written s = (do op.batchOutcome s.registry; .error e) := by
  cases op with
  | createTable u =>
    cases hop
    rw [written, requests, Registry.createSql_of_mismatch he]
    rfl
  | createTableWith u es =>
    cases hop
    rw [written, requests, Registry.createSql_of_mismatch he]
    rfl
  | _ => cases hcreation

theorem query_written_eq_error_iff (q : Query) (t : RecordType) (x : Error) :
    (do let sql ← q.select t; return [Request.query sql]) = .error x ↔ q.select t = .error x := by
  cases q.select t with
  | ok sql => exact ⟨nofun, nofun⟩
  | error y =>
    show Except.error y = _ ↔ _
    rw [Except.error.injEq, Except.error.injEq]

/-- Insertions can always be written, and queries if their clauses can; the declaration has no part in it. -/
theorem written_eq_error_iff (hop : op.columnsOf? = some t) (hcreation : op.isCreation = false)
    (s : Session β) (x : Error) :
    op.written s = .error x ↔ ∃ q, op.query? = some q ∧ q.select t = .error x := by
  cases op with
  | insert u o =>
    constructor
    · intro h
      cases h
    · rintro ⟨q, hq, -⟩
      cases hq
  | insertAll u os =>
    constructor
    · intro h
      cases h
    · rintro ⟨q, hq, -⟩
      cases hq
  | objects u q =>
    cases hop
    rw [written, requests, query_written_eq_error_iff]
    constructor
    · intro h
      exact ⟨q, rfl, h⟩
    · rintro ⟨_, ⟨⟩, h⟩
      exact h
  | object u q =>
    cases hop
    rw [written, requests, query_written_eq_error_iff]
    constructor
    · intro h
      exact ⟨_, rfl, h⟩
    · rintro ⟨_, ⟨⟩, h⟩
      exact h
  | createTable u => cases hcreation
  | createTableWith u es => cases hcreation
  | _ => cases hop

theorem written_ne_nil (hop : op.columnsOf? = some t) (s : Session β) : op.written s ≠ .ok [] := by
  intro h
  cases op with
  | insertAll u os =>
    cases os with
    | nil => cases hop
    | cons o os => cases h
  | createTable u =>
    obtain ⟨sql, -, h⟩ := bind_eq_ok.1 h
    cases h
  | createTableWith u es =>
    obtain ⟨_, -, h⟩ := bind_eq_ok.1 h
    obtain ⟨sql, -, h⟩ := bind_eq_ok.1 h
    cases h
  | objects u q =>
    obtain ⟨sql, -, h⟩ := bind_eq_ok.1 h
    cases h
  | object u q =>
    obtain ⟨sql, -, h⟩ := bind_eq_ok.1 h
    cases h
  | insert u o => cases h
  | _ => cases hop

end

variable [Recording β]

theorem run_of_unwritten {s : Session β} {x : Error} (h : op.written s = .error x) :
    op.run s = .error x ⟨op.registryAfter s.registry, s.backend⟩ := by
  rw [run_eq, h]
  rfl

/-- The first statement is sent, whatever becomes of it. -/
theorem sent_of_written {s s' : Session β} {q : Request} {qs : List Request} {sent : List Statement}
    {o : Except Error Answer} (h : op.written s = .ok (q :: qs)) (hsent : Conducted op s sent o s') :
    ∃ more, sent = q.statement :: more := by
  cases hsent with
  | unwritten hw he =>
    rw [h] at hw
    cases hw
  | @refused before rest p rs b b' e hw hbefore hp =>
    rw [h, Except.ok.injEq] at hw
    cases before with
    | nil =>
      cases hw
      exact ⟨[], rfl⟩
    | cons p' before =>
      cases hw
      exact ⟨(before ++ [p]).map Request.statement, rfl⟩
  | answered hw hqs =>
    rw [h] at hw
    cases hw
    exact ⟨qs.map Request.statement, rfl⟩

theorem log_eq_iff_unwritten {s : Session β} (hne : op.written s ≠ .ok []) :
    Recording.log (Action.after (op.run s)).backend = Recording.log s.backend ↔
      ∃ x, op.written s = .error x := by
  constructor
  · intro hlog
    cases h : op.written s with
    | error x => exact ⟨x, rfl⟩
    | ok qs =>
      cases qs with
      | nil => exact absurd h hne
      | cons q qs =>
        obtain ⟨sent, hsent⟩ := conducted_run op s
        obtain ⟨more, rfl⟩ := sent_of_written h hsent
        exact absurd (List.self_eq_append_right.1 (hlog.symm.trans hsent.log)) (List.cons_ne_nil _ _)
  · rintro ⟨x, h⟩
    rw [run_of_unwritten h]
    rfl

/-- A mismatch of members stops the creation of a table, once its batch is registered, and no other operation: those
that name the columns send their statements all the same. -/
theorem mismatch_unsent_iff {e : Error} (he : t.checkMembers = .error e) (hop : op.columnsOf? = some t)
    (s : Session β) :
    (∃ why, e = .schema why) ∧
    (op.isCreation = true →
      Action.outcome (op.run s) = (do op.batchOutcome s.registry; .error e) ∧
        Action.after (op.run s) = ⟨op.registryAfter s.registry, s.backend⟩) ∧
    (Recording.log (Action.after (op.run s)).backend = Recording.log s.backend ↔
      op.isCreation = true ∨
        ∃ q x, op.query? = some q ∧ q.select t = .error x ∧ Action.outcome (op.run s) = .error x) := by
  have hcreate : op.isCreation = true → ∃ x, op.written s = .error x := by
    intro hcreation
    rw [written_creation he hop hcreation]
    cases op.batchOutcome s.registry with
    | ok _ => exact ⟨e, rfl⟩
    | error x => exact ⟨x, rfl⟩
  refine ⟨RecordType.checkMembers_eq_error he, ?_, ?_⟩
  · intro hcreation
    have hwritten := written_creation he hop hcreation s
    cases hbatch : op.batchOutcome s.registry with
    | ok _ =>
      rw [hbatch] at hwritten
      rw [run_of_unwritten hwritten]
      exact ⟨rfl, rfl⟩
    | error x =>
      rw [hbatch] at hwritten
      rw [run_of_unwritten hwritten]
      exact ⟨rfl, rfl⟩
  · rw [log_eq_iff_unwritten (written_ne_nil hop s)]
    constructor
    · rintro ⟨x, hx⟩
      cases hcreation : op.isCreation with
      | true => exact Or.inl rfl
      | false =>
        obtain ⟨q, hq, hselect⟩ := (written_eq_error_iff hop hcreation s x).1 hx
        refine Or.inr ⟨q, x, hq, hselect, ?_⟩
        rw [run_of_unwritten hx]
        rfl
    · rintro (hcreation | ⟨q, x, hq, hselect, -⟩)
      · exact hcreate hcreation
      · cases hcreation : op.isCreation with
        | true => exact hcreate hcreation
        | false => exact ⟨x, (written_eq_error_iff hop hcreation s x).2 ⟨q, hq, hselect⟩⟩

def twice : RecordType := ⟨0, "Twice", 2, [⟨"a", .integer .int32, 0⟩, ⟨"a", .integer .int32, 4⟩]⟩

def idle : Session Recorder := ⟨.empty, { number := 0, typed := false }⟩

/-- An insertion goes through for a type whose table would not be created. -/
theorem repeated_member_inserted :
    twice.checkMembers = .error (.schema (.repeatedMember "Twice" "a")) ∧
      Action.outcome ((insert twice (⟨7, by decide⟩, ⟨8, by decide⟩, ())).run idle) = .ok (.number 1) ∧
      (Action.after ((insert twice (⟨7, by decide⟩, ⟨8, by decide⟩, ())).run idle)).backend.log =
        [⟨"INSERT INTO Twice (a, a) VALUES (?, ?)", [.integer 7, .integer 8]⟩] :=
  ⟨rfl, rfl, rfl⟩

def creation : Operation := createTableWith twice [.binary .assign (.field 0) (.constraint .notNull)]

theorem mismatch_unsent_iff_creation :
    twice.checkMembers = .error (.schema (.repeatedMember "Twice" "a")) ∧
      Action.outcome (creation.run idle) = .error (.schema (.repeatedMember "Twice" "a")) ∧
      Action.after (creation.run idle) = ⟨⟨[(twice, { notNull := ["a"] })]⟩, idle.backend⟩ := by
  have hop : creation.columnsOf? = some twice := rfl
  obtain ⟨-, hcreate, -⟩ := mismatch_unsent_iff rfl hop idle
  obtain ⟨houtcome, hafter⟩ := hcreate rfl
  exact ⟨rfl, houtcome.trans rfl, hafter.trans rfl⟩

end Operation

end Rowmap
