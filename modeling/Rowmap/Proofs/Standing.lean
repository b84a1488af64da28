import Rowmap.Backend.Embedded
import Rowmap.Proofs.ChangeReader
import Rowmap.Proofs.Listing
import Rowmap.Proofs.Transcript

/-! Tables that are created and dropped, and the list of those that stand. Whatever stands behind the name in its
definition, a table is created under that name, once, and it goes when a table of that name is dropped, in whatever
case. So the tables that stand are told from the changes alone; but the list leaves some of them out. -/

namespace Rowmap

namespace Command

/-- Clauses leave the name of a definition as it is. -/
theorem name_of_clause? {d d' : Definition} {ts : List Token} (h : clause? d ts = some d') : d'.name = d.name := by
  unfold clause? at h
  split at h
  · simp only [Option.bind_eq_bind, Option.bind_eq_some_iff] at h
    obtain ⟨p, -, names, -, h⟩ := h
    split at h
    · cases h
      rfl
    · cases h
  · simp only [Option.bind_eq_bind, Option.bind_eq_some_iff] at h
    obtain ⟨column, -, table, -, target, -, h⟩ := h
    split at h
    · cases h
      rfl
    · cases h
  · cases h

theorem name_of_clauses {d d' : Definition} {cs : List (List Token)} (h : cs.foldlM clause? d = some d') :
    d'.name = d.name := by
  induction cs generalizing d with
  | nil =>
    cases h
    rfl
  | cons c cs ih =>
    rw [List.foldlM_cons, Option.bind_eq_bind, Option.bind_eq_some_iff] at h
    obtain ⟨d₁, hfirst, hrest⟩ := h
    exact (ih hrest).trans (name_of_clause? hfirst)

theorem create?_named {strict : Bool} {ls : List Lexeme} {n : String} {ts : List Token}
    (hls : tokens ls = .word n :: .openParen :: ts) {c : Command} (h : create? strict ls = some c) :
    ∃ d, c = .create none d strict ∧ d.name = n := by
  have htable : table? (tokens ls) = some (⟨none, n⟩, 1) := by
    rw [hls]
    rfl
  simp only [create?, htable, Option.bind_eq_bind, Option.bind_some] at h
  split at h
  · simp only [Option.bind_eq_some_iff] at h
    obtain ⟨columns, -, d, hclauses, h⟩ := h
    split at h
    · cases h
    · cases h
      exact ⟨d, rfl, name_of_clauses hclauses⟩
  · cases h

/-- A text that is one command has the beginning of the text for its own. -/
theorem read_of_single {sql : String} {c : Option Command} (h : read sql = [c]) {head ts : List Token}
    (hscan : tokens (Token.scan sql.toList) = head ++ ts) (hne : head ≠ []) (hhead : .semicolon ∉ head) :
    ∃ ls rest, tokens ls = head ++ rest ∧ c = ofLexemes? ls := by
  obtain ⟨ks, ms, hsplit, hks, -⟩ := List.map_eq_append_iff.1 hscan
  have hcuts : ∀ k ∈ ks, decide (k.token = .semicolon) = false := fun k hk =>
    decide_eq_false fun hs => hhead (hks ▸ hs ▸ List.mem_map_of_mem hk)
  obtain ⟨p, ps, hcut⟩ := cutAt_prefix hcuts ms
  have hfirst : decide (ks ++ p ≠ []) = true := by
    refine decide_eq_true fun hnil => ?_
    rw [(List.append_eq_nil_iff.1 hnil).1] at hks
    exact hne hks.symm
  rw [read, hsplit, hcut, List.filter_cons, if_pos hfirst, List.map_cons] at h
  exact ⟨ks ++ p, tokens p, by rw [tokens, List.map_append, hks]; rfl, (List.cons.inj h).1.symm⟩

theorem isWord_if : isWord "IF" (.word "IF") = true := by decide +kernel

theorem ofLexemes?_create {ls : List Lexeme} {n : String} {ts : List Token}
    (hls : tokens ls = .reserved "CREATE" :: .reserved "TABLE" :: .word "IF" :: .reserved "NOT" :: .reserved "EXISTS" ::
      .word n :: .openParen :: ts) {c : Command} (h : ofLexemes? ls = some c) :
    ∃ d, c = .create none d false ∧ d.name = n := by
  rw [ofLexemes?, hls] at h
  simp only [isWord_if, if_true, List.take_succ_cons, List.take_zero] at h
  have hnamed : tokens (ls.drop 5) = .word n :: .openParen :: ts := by
    rw [tokens, List.map_drop]
    exact congrArg (List.drop 5) hls
  exact create?_named hnamed h

end Command

namespace RecordType

variable {t : RecordType}

theorem spells_if : Token.Spells "IF".toList [.word "IF"] := Token.spells_identifier (by decide +kernel)

theorem spells_dropSql (h : Token.isIdentifier t.tableName = true) : Token.Spells t.dropSql.toList
    [.reserved "DROP", .reserved "TABLE", .word "IF", .reserved "EXISTS", .word t.tableName] := by
  have hall := ((((Query.spells_reserved (w := "DROP") (by simp)).append
    (Query.spells_reserved (w := "TABLE") (by simp))).append spells_if).append
    (Query.spells_reserved (w := "EXISTS") (by simp))).append (Token.spells_identifier h)
  have hheader : "DROP TABLE IF EXISTS ".toList =
      "DROP".toList ++ ' ' :: ("TABLE".toList ++ ' ' :: ("IF".toList ++ ' ' :: ("EXISTS".toList ++ [' ']))) := rfl
  unfold dropSql
  rw [String.toList_append, hheader]
  simpa using hall

theorem read_dropSql (h : Token.isIdentifier t.tableName = true) :
    Command.read t.dropSql = [some (.drop ⟨none, t.tableName⟩ false)] := by
  have hzero : '\x00' ∉ t.dropSql.toList :=
    Token.zero_notMem_append (by decide) (Token.zero_notMem_identifier h)
  have hscan := Token.tokens_scan t.dropSql.toList
  rw [if_neg hzero, (spells_dropSql h).tokensOf_eq, ← Command.tokens] at hscan
  rw [Command.read_of_scan (by rw [hscan]; exact List.cons_ne_nil _ _) (by rw [hscan]; simp), Command.ofLexemes?, hscan]
  simp only [Command.isWord_if, if_true]
  rfl

theorem spells_createHeader (h : Token.isIdentifier t.tableName = true) :
    Token.Spells ("CREATE TABLE IF NOT EXISTS " ++ t.tableName).toList [.reserved "CREATE", .reserved "TABLE",
      .word "IF", .reserved "NOT", .reserved "EXISTS", .word t.tableName] := by
  have hall := (((((Query.spells_reserved (w := "CREATE") (by simp)).append
    (Query.spells_reserved (w := "TABLE") (by simp))).append spells_if).append
    (Query.spells_reserved (w := "NOT") (by simp))).append
    (Query.spells_reserved (w := "EXISTS") (by simp))).append (Token.spells_identifier h)
  have hheader : "CREATE TABLE IF NOT EXISTS ".toList = "CREATE".toList ++ ' ' :: ("TABLE".toList ++
      ' ' :: ("IF".toList ++ ' ' :: ("NOT".toList ++ ' ' :: ("EXISTS".toList ++ [' '])))) := rfl
  rw [String.toList_append, hheader]
  simpa using hall

theorem tokensOf_createSql (h : Token.isIdentifier t.tableName = true) {r : Registry} {sql : String}
    (hsql : r.createSql t ColumnType.ofKind = .ok sql) : ∃ ts, Token.tokensOf sql.toList =
      [.reserved "CREATE", .reserved "TABLE", .word "IF", .reserved "NOT", .reserved "EXISTS", .word t.tableName,
        .openParen] ++ ts := by
  obtain ⟨-, rfl⟩ := createSql_eq_ok_iff.1 hsql
  have hopen : " (".toList = [' ', '('] := rfl
  have hname : (Table.ofRecordType t (r.constraints t) ColumnType.ofKind).name = t.tableName := rfl
  unfold Table.sql
  rw [hname, String.toList_append, String.toList_append, String.toList_append, hopen, List.append_assoc,
    List.append_assoc, List.cons_append, List.cons_append, List.nil_append,
    (spells_createHeader h).read _ (Token.ends_space _), Token.tokensOf_space (by decide),
    Token.tokensOf_sign (by decide) rfl]
  exact ⟨_, rfl⟩

/-- Whatever comes behind the name, the table is created under it. -/
theorem read_createSql (h : Token.isIdentifier t.tableName = true) {r : Registry} {sql : String}
    (hsql : r.createSql t ColumnType.ofKind = .ok sql) {c : Command} (hread : Command.read sql = [some c]) :
    ∃ d, c = .create none d false ∧ d.name = t.tableName := by
  have hzero : '\x00' ∉ sql.toList := by
    intro hz
    rw [Query.read_of_zero hz] at hread
    cases hread
  obtain ⟨ts, hts⟩ := tokensOf_createSql h hsql
  have hscan := Token.tokens_scan sql.toList
  rw [if_neg hzero, hts, ← Command.tokens] at hscan
  obtain ⟨ls, rest, hls, hc⟩ := Command.read_of_single hread hscan (List.cons_ne_nil _ _) (by simp)
  exact Command.ofLexemes?_create hls hc.symm

end RecordType

namespace Database

/-- The part and the name of each table. -/
def places (d : Database) : List (Bool × String) := d.relations.map fun r => (r.temporary, r.definition.name)

/-- The tables of a database are those of some names, in their order, and all are in the main part. -/
def Stands (d : Database) (names : List String) : Prop := d.places = names.map (false, ·)

variable {d d' : Database} {names : List String}

theorem inPart?_eq_none_iff {temporary : Bool} {n : String} : d.inPart? temporary n = none ↔
    ∀ p ∈ d.places, (p.1 = temporary && sameName p.2 n) = false := by
  simp [inPart?, places]

theorem Stands.mem_iff (h : d.Stands names) {n : String} :
    (∃ r ∈ d.relations, r.temporary = false ∧ r.definition.name = n) ↔ n ∈ names := by
  have hplaces : (false, n) ∈ d.places ↔ (false, n) ∈ names.map (false, ·) := by rw [h]
  simpa [places] using hplaces

theorem Stands.inPart?_main (h : d.Stands names) {n : String} :
    d.inPart? false n = none ↔ names.any (sameName · n) = false := by
  rw [inPart?_eq_none_iff, h]
  simp

theorem Stands.inPart?_temporary (h : d.Stands names) (n : String) : d.inPart? true n = none := by
  rw [inPart?_eq_none_iff, h]
  simp

theorem stands_createIn? (h : d.Stands names) {t : Definition} {strict : Bool}
    (hcreate : d.createIn? false t strict = some d') :
    d'.Stands (if names.any (sameName · t.name) then names else names ++ [t.name]) := by
  obtain ⟨-, ⟨hthere, rfl⟩ | ⟨hnone, rfl⟩⟩ := createIn?_eq_some hcreate
  · rw [ne_eq, h.inPart?_main, Bool.not_eq_false] at hthere
    rwa [if_pos hthere]
  · rw [h.inPart?_main] at hnone
    rw [hnone, if_neg Bool.false_ne_true, Stands, places, List.map_append, List.map_append]
    exact congrArg (· ++ [(false, t.name)]) h

theorem stands_drop? (h : d.Stands names) {n : String} {strict : Bool} (hdrop : d.drop? ⟨none, n⟩ strict = some d') :
    d'.Stands (names.filter (!sameName · n)) := by
  have hfound : d.relation? ⟨none, n⟩ = d.inPart? false n := by
    show (d.inPart? true n <|> d.inPart? false n) = _
    rw [h.inPart?_temporary]
    rfl
  rcases drop?_eq_some hdrop with ⟨hnone, rfl⟩ | ⟨r, hr, rfl⟩
  · rw [hfound, h.inPart?_main, List.any_eq_false] at hnone
    rw [List.filter_eq_self.2 fun m hm => by simpa using hnone m hm]
    exact h
  · rw [hfound] at hr
    have hr := List.find?_some hr
    simp only [sameName, Bool.and_eq_true, decide_eq_true_eq] at hr
    -- the tables that go are told by their part and name alone
    have hsame : (fun q => !isSame r q) =
        (fun p : Bool × String => !(p.1 = false && sameName p.2 n)) ∘ fun q => (q.temporary, q.definition.name) := by
      funext q
      simp only [isSame, sameName, hr, Function.comp]
    rw [Stands, places, hsame, ← List.filter_map, ← places, h, List.filter_map]
    simp [Function.comp_def]

end Database

/-- A command that is carried out by itself. -/
theorem run?_of_completed {d : Database} {params : List Cell} {c : Option Command}
    (h : (d.runAll params [c]).completed = true) :
    ∃ c' o, c = some c' ∧ d.run? params c' = some (o, (d.runAll params [c]).database) := by
  rw [Database.runAll] at h ⊢
  cases hrun : c.bind (d.run? params) with
  | none =>
    rw [hrun] at h
    cases h
  | some p =>
    obtain ⟨c', rfl, hrun⟩ := Option.bind_eq_some_iff.1 hrun
    exact ⟨c', p.1, rfl, hrun⟩

namespace Embedded

theorem completed_of_perform {sql : String} {params : List Cell} {a : Embedded} {os : List Database.Outcome}
    (h : Action.outcome (perform sql params a) = .ok os) :
    (a.database.runAll params (Command.read sql)).completed = true := by
  unfold perform at h
  dsimp only at h
  split at h
  · next hcompleted => exact hcompleted
  · cases h

theorem completed_of_execute {sql : String} {a : Embedded} {n : Nat}
    (h : Action.outcome (Backend.execute (.plain sql) a) = .ok n) :
    (a.database.runAll [] (Command.read sql)).completed = true := by
  have hperform : Action.outcome (Backend.execute (.plain sql) a) = (Action.outcome (perform sql [] a)).map changes :=
    Action.outcome_bind_pure _ _ a
  rw [hperform] at h
  obtain ⟨os, hos, -⟩ := map_eq_ok.1 h
  exact completed_of_perform hos

end Embedded

inductive TableChange where
  | create (t : RecordType)
  | drop (t : RecordType)

namespace TableChange

def type : TableChange → RecordType
  | create t => t
  | drop t => t

def operation : TableChange → Operation
  | create t => .createTable t
  | drop t => .dropTable t

def sql (r : Registry) : TableChange → Except Error String
  | create t => r.createSql t ColumnType.ofKind
  | drop t => .ok t.dropSql

/-- The tables that stand after a change. One that is there already is not made again. -/
def apply (names : List String) : TableChange → List String
  | create t => if names.any (sameName · t.tableName) then names else names ++ [t.tableName]
  | drop t => names.filter (!sameName · t.tableName)

def standing (cs : List TableChange) : List String := cs.foldl apply []

variable {c : TableChange} {s : Session Embedded}

theorem run_of_error {e : Error} (h : c.sql s.registry = .error e) : c.operation.run s = .error e s := by
  cases c with
  | create t => exact Action.bind_of_error (Session.createTable_of_error h)
  | drop t => cases h

theorem run_of_ok {sql : String} (h : c.sql s.registry = .ok sql) : c.operation.run s =
    (Session.onBackend (Backend.execute (.plain sql)) >>= fun _ => pure Answer.done) s := by
  cases c with
  | create t =>
    refine (Action.bind_congr (Session.createTable_of_ok h) _).trans ?_
    rw [bind_assoc]
    rfl
  | drop t =>
    obtain rfl : t.dropSql = sql := Except.ok.inj h
    show (Session.dropTable t >>= fun _ => pure Answer.done) s = _
    rw [Session.dropTable, bind_assoc]
    rfl

theorem after_run {sql : String} (h : c.sql s.registry = .ok sql) : Action.after (c.operation.run s) =
    { s with backend := Action.after (Backend.execute (.plain sql) s.backend) } := by
  rw [run_of_ok h, Action.after_bind_pure, Session.onBackend, Action.after_on]

theorem database_after_run {sql : String} (h : c.sql s.registry = .ok sql) :
    (Action.after (c.operation.run s)).backend.database =
      (s.backend.database.runAll [] (Command.read sql)).database := by
  rw [after_run h, Embedded.after_execute]
  rfl

theorem completed_of_run {sql : String} (h : c.sql s.registry = .ok sql)
    (hrun : (Action.outcome (c.operation.run s)).isOk = true) :
    (s.backend.database.runAll [] (Command.read sql)).completed = true := by
  rw [run_of_ok h, Action.outcome_bind_pure, Session.onBackend, Action.outcome_on] at hrun
  cases hn : Action.outcome (Backend.execute (.plain sql) s.backend) with
  | ok n => exact Embedded.completed_of_execute hn
  | error e =>
    rw [hn] at hrun
    cases hrun

theorem registry_after_run (c : TableChange) (s : Session Embedded) :
    (Action.after (c.operation.run s)).registry = s.registry := by
  cases h : c.sql s.registry with
  | error e =>
    rw [run_of_error h]
    rfl
  | ok sql => rw [after_run h]

theorem orderly_run (c : TableChange) (hs : s.backend.database.Orderly) :
    (Action.after (c.operation.run s)).backend.database.Orderly := by
  cases h : c.sql s.registry with
  | error e =>
    rw [run_of_error h]
    exact hs
  | ok sql =>
    rw [database_after_run h]
    exact Database.orderly_runAll _ hs

/-- A change that is one command, for a table by a name. -/
structure Plain (r : Registry) (c : TableChange) : Prop where
  name : Token.isIdentifier c.type.tableName = true
  single : ∀ sql, c.sql r = .ok sql → (Command.read sql).length = 1

theorem stands_run {names : List String} (hc : c.Plain s.registry) (hs : s.backend.database.Stands names)
    (hrun : (Action.outcome (c.operation.run s)).isOk = true) :
    (Action.after (c.operation.run s)).backend.database.Stands (c.apply names) := by
  cases h : c.sql s.registry with
  | error e =>
    rw [run_of_error h] at hrun
    cases hrun
  | ok sql =>
    obtain ⟨x, hread⟩ := List.length_eq_one_iff.1 (hc.single sql h)
    have hcompleted := completed_of_run h hrun
    rw [hread] at hcompleted
    obtain ⟨command, o, rfl, hcommand⟩ := run?_of_completed hcompleted
    rw [database_after_run h, hread]
    generalize (s.backend.database.runAll [] [some command]).database = d' at hcommand
    cases c with
    | create t =>
      obtain ⟨d, rfl, hname⟩ := RecordType.read_createSql hc.name h hread
      obtain ⟨d'', hcreate, hpair⟩ := Option.map_eq_some_iff.1 hcommand
      cases hpair
      rw [apply, ← show d.name = t.tableName from hname]
      exact Database.stands_createIn? hs hcreate
    | drop t =>
      obtain rfl : t.dropSql = sql := Except.ok.inj h
      have hdropped := RecordType.read_dropSql (t := t) hc.name
      rw [hdropped] at hread
      cases hread
      obtain ⟨d'', hdrop, hpair⟩ := Option.map_eq_some_iff.1 hcommand
      cases hpair
      exact Database.stands_drop? hs hdrop

theorem orderly_perform (cs : List TableChange) (hs : s.backend.database.Orderly) :
    (s.perform (cs.map operation)).2.backend.database.Orderly := by
  induction cs generalizing s with
  | nil => exact hs
  | cons c cs ih => exact ih (orderly_run c hs)

theorem stands_perform {cs : List TableChange} {names : List String} (hcs : ∀ c ∈ cs, c.Plain s.registry)
    (hs : s.backend.database.Stands names) (hok : (s.perform (cs.map operation)).1.all Except.isOk = true) :
    (s.perform (cs.map operation)).2.backend.database.Stands (cs.foldl apply names) := by
  induction cs generalizing s names with
  | nil => exact hs
  | cons c cs ih =>
    obtain ⟨hc, hcs⟩ := List.forall_mem_cons.1 hcs
    rw [List.map_cons, Session.perform, List.all_cons, Bool.and_eq_true] at hok
    obtain ⟨hfirst, hok⟩ := hok
    refine ih (fun c' hc' => ?_) (stands_run hc hs hfirst) hok
    rw [registry_after_run]
    exact hcs c' hc'

end TableChange

/-- Each table of the main part is listed once, in the order in which they were made, unless its name is like the
pattern. If all changes have succeeded, the list is complete exactly if no table that stands is like it. -/
theorem Session.tableNames_of_changes (s : Session Embedded) (hs : s.backend.database.relations = [])
    (cs : List TableChange) :
    let p := s.perform (cs.map TableChange.operation)
    let d := p.2.backend.database
    (d.tableNames.Nodup ∧ ∀ n, n ∈ d.tableNames ↔
      (∃ r ∈ d.relations, r.temporary = false ∧ r.definition.name = n) ∧
        like Database.pattern.toList n.toList = false) ∧
    d.tableNames = d.mainNames.filter (fun n => !like Database.pattern.toList n.toList) ∧
    (∀ n : String, like Database.pattern.toList n.toList = true ↔
      n.toLower.toList.take 6 = "sqlite".toList ∧ 6 < n.length) ∧
    (∀ r ∈ d.relations, r.definition.name.toLower.toList.take 7 ≠ "sqlite_".toList) ∧
    ((∀ c ∈ cs, c.Plain s.registry) → p.1.all Except.isOk = true →
      d.places = (TableChange.standing cs).map (false, ·) ∧
      (∀ n ∈ d.tableNames, n ∈ TableChange.standing cs) ∧
      ((∀ n ∈ TableChange.standing cs, n ∈ d.tableNames) ↔
        ∀ n ∈ TableChange.standing cs, like Database.pattern.toList n.toList = false)) := by
  intro p d
  have hd : d.Orderly := TableChange.orderly_perform cs (Database.orderly_nil hs)
  obtain ⟨hnodup, hmem⟩ := Database.tableNames_of_orderly hd
  refine ⟨⟨hnodup, hmem⟩, d.tableNames_eq, fun n => Database.like_pattern_iff, fun r hr => ?_, ?_⟩
  · exact of_decide_eq_false (hd.unreserved r hr)
  · intro hcs hok
    have hnone : s.backend.database.Stands [] := by rw [Database.Stands, Database.places, hs]; rfl
    have hstands : d.Stands (TableChange.standing cs) := TableChange.stands_perform hcs hnone hok
    simp only [hmem, hstands.mem_iff]
    exact ⟨hstands, fun n hn => hn.1, fun h n hn => (h n hn).2, fun h n hn => ⟨hn, h n hn⟩⟩

def petChanges : List TableChange :=
  [.drop ⟨0, "PET", 1, [⟨"id", .integer .int32, 0⟩]⟩, .create ⟨1, "Pet", 1, [⟨"id", .integer .int32, 0⟩]⟩]

theorem petChanges_plain : ∀ c ∈ petChanges, c.Plain .empty := by
  have hchecked : ∀ c ∈ petChanges, Token.isIdentifier c.type.tableName = true ∧
      (c.sql .empty).toOption.all (fun sql => (Command.read sql).length = 1) = true := by
    decide +kernel
  intro c hc
  obtain ⟨hname, hone⟩ := hchecked c hc
  refine ⟨hname, fun sql hsql => ?_⟩
  rw [hsql] at hone
  exact of_decide_eq_true hone

theorem petChanges_succeed : (Session.perform (petChanges.map TableChange.operation)
    ⟨.empty, ({} : Embedded)⟩).1.all Except.isOk = true := by
  decide +kernel

theorem Session.tableNames_of_petChanges : (Session.perform (petChanges.map TableChange.operation)
    ⟨.empty, ({} : Embedded)⟩).2.backend.database.tableNames = ["Pet"] := by
  have hall := tableNames_of_changes ⟨.empty, ({} : Embedded)⟩ rfl petChanges
  have hplain := hall.2.2.2.2 petChanges_plain petChanges_succeed
  have hstanding : TableChange.standing petChanges = ["Pet"] := by decide +kernel
  rw [hstanding] at hplain
  have hlisted := hplain.2.2.2 (by decide +kernel)
  refine List.perm_singleton.1 ((List.perm_ext_iff_of_nodup hall.1.1 (by simp)).2 fun n => ?_)
  exact ⟨hplain.2.1 n, hlisted n⟩

/-- A table that stands and is not listed: what follows the six letters is no underscore. -/
theorem Session.table_unlisted :
    let p := perform [.createTable ⟨0, "SqliteStat", 1, [⟨"id", .integer .int32, 0⟩]⟩] ⟨.empty, ({} : Embedded)⟩
    Token.isIdentifier "SqliteStat" = true ∧ p.1.map Except.isOk = [true] ∧
      p.2.backend.database.places = [(false, "SqliteStat")] ∧ p.2.backend.database.tableNames = [] := by
  decide +kernel

end Rowmap
