import Rowmap.Proofs.DefinitionReader
import Rowmap.Proofs.Transcript

/-! The first record that a query matches, fetched by itself, is the first of all that it matches. A query without a
limit is cut to one row for it; one with a limit is sent as it is, so that a limit of zero still finds nothing. Rows
that are not fetched are not read either, so the first record may be had where the others cannot be read. -/

namespace Rowmap

namespace Query

/-- What an offset and a limit leave of rows. -/
def page {α : Type} (limit offset : Option Nat) (rows : List α) : List α :=
  match limit with
  | none => rows.drop (offset.getD 0)
  | some n => (rows.drop (offset.getD 0)).take n

/-- The query without limit and offset. -/
def whole (q : Query) : Query := { q with limit := none, offset := none }

theorem select_whole (t : RecordType) (q : Query) :
    q.select t = (q.whole.select t).map (· ++ limitClause q.limit ++ offsetClause q.offset) := by
  simp only [select, whole, limitClause, offsetClause, String.append_empty]
  cases conditions t q.filters with
  | error e => rfl
  | ok w => cases orderClause t q.order <;> rfl

/-- The query that is sent for the first match. -/
def cut (q : Query) : Query := if q.limit.isSome then q else q.step (.limit 1)

theorem cut_of_some {q : Query} {n : Nat} (h : q.limit = some n) : q.cut = q := by
  rw [cut, h, Option.isSome_some, if_pos rfl]

theorem cut_of_none {q : Query} (h : q.limit = none) : q.cut = q.step (.limit 1) := by
  rw [cut, h, Option.isSome_none, if_neg Bool.false_ne_true]

theorem whole_cut (q : Query) : q.cut.whole = q.whole := by
  cases h : q.limit with
  | some n => rw [cut_of_some h]
  | none =>
    rw [cut_of_none h]
    rfl

/-- What keeps a query from being written is not its limit. -/
theorem select_cut_eq_error_iff {t : RecordType} {q : Query} {e : Error} :
    q.cut.select t = .error e ↔ q.select t = .error e := by
  rw [select_whole, select_whole t q, whole_cut]
  cases q.whole.select t with
  | error e' => exact Iff.rfl
  | ok text => exact ⟨nofun, nofun⟩

end Query

/-- A text stands for rows: with any limit and offset behind it, the answer is what these leave of the rows. -/
def Backend.StandsFor {β : Type} [Backend β] (b : β) (text : String) (rows : List Row) : Prop :=
  ∀ limit offset : Option Nat,
    Action.outcome (Backend.query (text ++ Query.limitClause limit ++ Query.offsetClause offset) b) =
      .ok (Query.page limit offset rows)

namespace Session

variable {β : Type} {t : RecordType}

theorem readAll_take {rows : List Row} {xs : List (Record t)} (h : readAll t rows = .ok xs) (n : Nat) :
    readAll t (rows.take n) = .ok (xs.take n) := by
  rw [readAll_eq_ok_iff] at h ⊢
  rw [List.map_take, List.map_take, h]

section

variable [Backend β] {q : Query} {s : Session β}

theorem objects_of_error {e : Error} (h : q.select t = .error e) : objects t q s = .error e s := by
  rw [objects]
  exact Action.bind_of_error (Action.lift_of_error h s)

theorem objects_of_ok {sql : String} (h : q.select t = .ok sql) :
    objects t q s = (onBackend (Backend.query sql) >>= fun rows => liftM (readAll t rows)) s := by
  rw [objects]
  exact Action.bind_of_ok (Action.lift_of_ok h s)

theorem outcome_objects {sql : String} (h : q.select t = .ok sql) {rows : List Row}
    (hrows : Action.outcome (Backend.query sql s.backend) = .ok rows) :
    Action.outcome (objects t q s) = readAll t rows := by
  rw [objects_of_ok h]
  cases hquery : Backend.query sql s.backend with
  | error e b =>
    rw [hquery] at hrows
    cases hrows
  | ok rows' b =>
    rw [hquery] at hrows
    cases hrows
    rw [Action.bind_of_ok (onBackend_of_ok hquery), Action.outcome_lift]

/-- What is fetched is what limit and offset leave of the rows that the text stands for. -/
theorem outcome_objects_of_standsFor {text : String} (h : q.whole.select t = .ok text) {rows : List Row}
    (hrows : Backend.StandsFor s.backend text rows) :
    Action.outcome (objects t q s) = readAll t (Query.page q.limit q.offset rows) := by
  have hsql : q.select t = .ok (text ++ Query.limitClause q.limit ++ Query.offsetClause q.offset) := by
    rw [Query.select_whole, h]
    rfl
  exact outcome_objects hsql (hrows q.limit q.offset)

theorem outcome_object (t : RecordType) (q : Query) (s : Session β) :
    Action.outcome (object t q s) = (Action.outcome (objects t q.cut s)).map List.head? :=
  Action.outcome_bind_pure _ _ s

theorem after_object (t : RecordType) (q : Query) (s : Session β) :
    Action.after (object t q s) = Action.after (objects t q.cut s) :=
  Action.after_bind_pure _ _ s

theorem outcome_object_of_limit_none {text : String} (h : q.whole.select t = .ok text) (hlimit : q.limit = none)
    {rows : List Row} (hrows : Backend.StandsFor s.backend text rows) : Action.outcome (object t q s) =
      (readAll t ((rows.drop (q.offset.getD 0)).take 1)).map List.head? := by
  rw [outcome_object, Query.cut_of_none hlimit]
  exact congrArg _ (outcome_objects_of_standsFor (q := q.step (.limit 1)) h hrows)

theorem object_of_objects {s' : Session β} {text : String} (h : q.whole.select t = .ok text) {rows : List Row}
    (hs : Backend.StandsFor s.backend text rows) (hs' : Backend.StandsFor s'.backend text rows)
    {xs : List (Record t)} (hxs : Action.outcome (objects t q s) = .ok xs) :
    Action.outcome (object t q s') = .ok xs.head? := by
  rw [outcome_objects_of_standsFor h hs] at hxs
  cases hlimit : q.limit with
  | some n =>
    rw [outcome_object, Query.cut_of_some hlimit, outcome_objects_of_standsFor h hs', hxs]
    rfl
  | none =>
    rw [hlimit, Query.page] at hxs
    rw [outcome_object_of_limit_none h hlimit hs', readAll_take hxs]
    show Except.ok (xs.take 1).head? = .ok xs.head?
    rw [List.head?_take, if_neg Nat.one_ne_zero]

end

section

variable [Recording β] {q : Query}

theorem log_objects {sql : String} (h : q.select t = .ok sql) (s : Session β) :
    Recording.log (Action.after (objects t q s)).backend = Recording.log s.backend ++ [.plain sql] := by
  have hsend := Recording.log_send (.query sql) s.backend
  rw [Request.send, Action.after_map] at hsend
  rw [objects_of_ok h, Action.after_bind_lift, onBackend, Action.after_on]
  exact hsend

/-- A query that can be written is sent, whatever the answer, so failing without sending anything is to be refused. -/
theorem objects_unsent_iff (s : Session β) (e : Error) :
    (Action.outcome (objects t q s) = .error e ∧
      Recording.log (Action.after (objects t q s)).backend = Recording.log s.backend) ↔ q.select t = .error e := by
  constructor
  · rintro ⟨hfail, hlog⟩
    cases hsql : q.select t with
    | ok sql =>
      rw [log_objects hsql] at hlog
      simp at hlog
    | error e' =>
      rw [objects_of_error hsql] at hfail
      cases hfail
      rfl
  · intro h
    rw [objects_of_error h]
    exact ⟨rfl, rfl⟩

theorem object_unsent_iff (s : Session β) (e : Error) :
    (Action.outcome (object t q s) = .error e ∧
      Recording.log (Action.after (object t q s)).backend = Recording.log s.backend) ↔ q.select t = .error e := by
  rw [outcome_object, after_object, map_eq_error, objects_unsent_iff, Query.select_cut_eq_error_iff]

/-- Wherever a text stands for rows, the record that is found by itself is the first of those that are found together.
One statement is sent for it, and where nothing is sent both ways fail alike. -/
theorem object_eq_head_of_objects (t : RecordType) (q : Query) :
    (∀ (s s' : Session β) text rows xs, q.whole.select t = .ok text → Backend.StandsFor s.backend text rows →
      Backend.StandsFor s'.backend text rows → Action.outcome (objects t q s) = .ok xs →
      Action.outcome (object t q s') = .ok xs.head?) ∧
    (∀ (s : Session β) sql, q.select t = .ok sql → ∃ sent,
      (if q.limit.isSome then q else q.step (.limit 1)).select t = .ok sent ∧
      Recording.log (Action.after (object t q s)).backend = Recording.log s.backend ++ [.plain sent] ∧
      Recording.log (Action.after (objects t q (Action.after (object t q s)))).backend =
        Recording.log s.backend ++ [.plain sent, .plain sql]) ∧
    ∀ (s : Session β) e,
      ((Action.outcome (object t q s) = .error e ∧
        Recording.log (Action.after (object t q s)).backend = Recording.log s.backend) ↔ q.select t = .error e) ∧
      ((Action.outcome (objects t q s) = .error e ∧
        Recording.log (Action.after (objects t q s)).backend = Recording.log s.backend) ↔ q.select t = .error e) := by
  refine ⟨fun s s' text rows xs h hs hs' hxs => object_of_objects h hs hs' hxs, fun s sql hsql => ?_,
    fun s e => ⟨object_unsent_iff s e, objects_unsent_iff s e⟩⟩
  cases hsent : q.cut.select t with
  | error e =>
    rw [Query.select_cut_eq_error_iff.1 hsent] at hsql
    cases hsql
  | ok sent =>
    have hlog : Recording.log (Action.after (object t q s)).backend = Recording.log s.backend ++ [.plain sent] := by
      rw [after_object, log_objects hsent]
    refine ⟨sent, hsent, hlog, ?_⟩
    rw [log_objects hsql, hlog, List.append_assoc]
    rfl

end

end Session

/-- A backend that has rows for one text, reads the limit and the offset behind it, and writes its statements down. -/
structure Shelf where
  text : String
  rows : List Row
  log : List Statement := []

namespace Shelf

def part (keyword : String) (s : List Char) : Option Nat × List Char :=
  match TableText.after? keyword s with
  | none => (none, s)
  | some r => (some (TableText.size r).1, (TableText.size r).2)

def found (b : Shelf) (sql : String) : List Row :=
  match TableText.after? b.text sql.toList with
  | none => []
  | some s =>
    let (limit, s) := part " LIMIT " s
    let (offset, _) := part " OFFSET " s
    Query.page limit offset b.rows

def write {α : Type} (s : Statement) (answer : Shelf → α) : Action Shelf α := fun b =>
  .ok (answer b) { b with log := b.log ++ [s] }

instance : Backend Shelf where
  marker _ := Backend.questionMark
  columnType _ := ColumnType.ofKind
  execute s := write s fun _ => 0
  query sql := write (.plain sql) (found · sql)
  scalar sql := write (.plain sql) fun b => (found b sql).length
  connected _ := true

instance : Recording Shelf where
  log := Shelf.log
  log_send q b := by cases q <;> rfl
  marker_send q b := by cases q <;> rfl

theorem part_append (keyword : String) (n : Nat) {r : List Char} (hr : ∀ c ∈ r.head?, c.isDigit = false) :
    part keyword (keyword.toList ++ ((toString n).toList ++ r)) = (some n, r) := by
  simp only [part, TableText.after?_append, TableText.size_append n hr]

theorem part_limitClause (limit offset : Option Nat) :
    part " LIMIT " ((Query.limitClause limit).toList ++ (Query.offsetClause offset).toList) =
      (limit, (Query.offsetClause offset).toList) := by
  cases limit with
  | none =>
    cases offset with
    | none => rfl
    | some m =>
      rw [Query.offsetClause, String.toList_append]
      rfl
  | some n =>
    rw [Query.limitClause, String.toList_append, List.append_assoc]
    refine part_append _ _ fun c hc => ?_
    cases offset with
    | none => cases hc
    | some m =>
      rw [Query.offsetClause, String.toList_append] at hc
      cases hc
      rfl

theorem part_offsetClause (offset : Option Nat) :
    part " OFFSET " (Query.offsetClause offset).toList = (offset, []) := by
  cases offset with
  | none => rfl
  | some n =>
    rw [Query.offsetClause, String.toList_append, ← part_append " OFFSET " n (r := []) nofun, List.append_nil]

theorem standsFor (b : Shelf) : Backend.StandsFor b b.text b.rows := by
  intro limit offset
  show Except.ok (found b _) = _
  rw [found, String.toList_append, String.toList_append, List.append_assoc, TableText.after?_append]
  simp only [part_limitClause, part_offsetClause]

end Shelf

def badge : RecordType := ⟨0, "Badge", 1, [⟨"code", .text, 0⟩]⟩

def badges : Session Shelf := ⟨.empty,
  { text := "SELECT code FROM Badge", rows := ["a", "b", "c"].map fun code => .ofList [("code", .text code)] }⟩

/-- Of three, the first behind the first one; with a limit of zero there is none to be found. -/
theorem Session.second_badge :
    Action.outcome (object badge (.ofSteps [.offset 1]) badges) = .ok (some ("b", ())) ∧
    Action.outcome (object badge (.ofSteps [.offset 1, .limit 0]) badges) = .ok none ∧
    (Action.after (object badge (.ofSteps [.offset 1]) badges)).backend.log =
      [.plain "SELECT code FROM Badge LIMIT 1 OFFSET 1"] := by
  have hstands : Backend.StandsFor badges.backend "SELECT code FROM Badge" badges.backend.rows :=
    badges.backend.standsFor
  have hone : Action.outcome (objects badge (.ofSteps [.offset 1]) badges) = .ok [("b", ()), ("c", ())] := rfl
  have hnone : Action.outcome (objects badge (.ofSteps [.offset 1, .limit 0]) badges) = .ok [] := rfl
  refine ⟨?_, ?_, ?_⟩
  · exact (object_eq_head_of_objects badge (.ofSteps [.offset 1])).1 _ _ _ _ _ rfl hstands hstands hone
  · exact (object_eq_head_of_objects badge (.ofSteps [.offset 1, .limit 0])).1 _ _ _ _ _ rfl hstands hstands hnone
  · obtain ⟨sent, hsent, hlog, -⟩ :=
      (object_eq_head_of_objects badge (.ofSteps [.offset 1])).2.1 badges "SELECT code FROM Badge OFFSET 1" rfl
    obtain rfl : sent = "SELECT code FROM Badge LIMIT 1 OFFSET 1" := Except.ok.inj (hsent.symm.trans rfl)
    exact hlog

end Rowmap
