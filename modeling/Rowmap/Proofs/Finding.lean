import Rowmap.Backend.Embedded
import Rowmap.Proofs.ChangeReader
import Rowmap.Proofs.Conduct
import Rowmap.Proofs.Equality
import Rowmap.Proofs.Evaluation

/-! A record is found by the values of its fields. Its insertion is read as one command and adds one row; a count
under a comparison is read as one as well, and of all rows it counts those of which the comparison is true. So the
record counts where its own value is compared with, unless that is the empty text. -/

namespace Rowmap

namespace Scope

theorem meaning?_column {s : Scope} {n : String} {p : Place} (hp : s.definition.place? n = some p)
    (given : List (String × Meaning)) : s.meaning? given (.column ⟨none, n, false⟩) = some (.place p) := by
  simp only [meaning?, column?, admits, hp]
  rfl

end Scope

namespace Selection

/-- How many rows there are of which one comparison is true. -/
theorem listing?_comparison {r : Relation} {n : String} {p : Place} (hp : r.definition.place? n = some p) (name : String)
    (table : TableName) (op : Operator) (o : Operand) :
    listing? ⟨[.count name], table, none, [[⟨.column ⟨none, n, false⟩, op, o⟩]], [], none, none⟩ r =
      some ⟨[name], [[.integer (r.rows.filter fun e => Check.holds r.definition e ⟨.place p, op, o⟩).length]]⟩ := by
  simp [listing?, count?, resolve?, checks?, Scope.meaning?_column, hp, cutOff?, fitsWord]

end Selection

theorem Database.run?_select {d : Database} {q : Selection} {r : Relation} (hr : d.source? q.source = some r)
    {l : Listing} (hl : q.listing? r = some l) (params : List Cell) :
    d.run? params (.select q) = some (.listing l, d) := by
  simp only [run?, hr, hl, Option.bind_eq_bind, Option.bind_some]
  rfl

namespace Embedded

variable {a a' : Embedded} {sql : String} {params : List Cell} {c : Command}

theorem run?_of_perform (hread : Command.read sql = [some c]) {os : List Database.Outcome}
    (h : perform sql params a = .ok os a') : ∃ o, a.database.run? params c = some (o, a'.database) := by
  simp only [perform, advance, hread, Database.runAll, Option.bind_some] at h
  cases hrun : a.database.run? params c with
  | none =>
    rw [hrun] at h
    cases h
  | some p =>
    rw [hrun] at h
    cases h
    exact ⟨p.1, rfl⟩

theorem scalar_of_run? (hread : Command.read sql = [some c]) {l : Listing}
    (hrun : a.database.run? [] c = some (.listing l, a.database)) {n : Int} (hl : word? [l] = some n) :
    Action.outcome (scalar sql a) = .ok n := by
  have hword : word? (listings [.listing l]) = some n := hl
  simp only [scalar, advance, hread, Database.runAll, Option.bind_some, hrun, hword]
  rfl

end Embedded

namespace ColumnTest

theorem depth_comparison (x : ColumnTest) : Condition.depth [[x.comparison]] ≤ Command.depthLimit := by
  have hoperand : x.constant.operand.depth ≤ 2 := by
    cases x.constant with
    | text s => exact (by decide : 1 ≤ 2)
    | number n =>
      rw [Constant.operand, Operand.depth]
      split <;> decide
  have hcolumn : x.comparison.left.depth = 1 := rfl
  have hdepth : Condition.depth [[x.comparison]] = max x.comparison.left.depth x.constant.operand.depth + 1 := rfl
  rw [hdepth, hcolumn, Command.depthLimit]
  omega

end ColumnTest

theorem Expr.condition_comparison {t : RecordType} {k : Nat} {n : String} (hn : t.fieldName? k = some n) {op : Operator}
    (hop : op.isComparison = true) {l : Literal} :
    condition t (.binary op (.field k) (.literal l)) = .ok (n ++ " " ++ op.symbol ++ " " ++ l.condition) := by
  refine condition_binary_of_ok (by rintro rfl; cases hop) ?_ rfl
  rw [condition, RecordType.fieldNameAt, hn]

namespace Definition

/-- Whether a condition is true of a row, as its text is read; none if it cannot be read or speaks of something
that the table does not have. -/
def satisfied? (d : Definition) (e : Entry) (condition : String) : Option Bool := do
  let c ← Command.condition? (Command.tokens (Token.scan condition.toList))
  let alternatives ← Selection.checks? ⟨d, "main", [d.name]⟩ [] c
  return alternatives.any fun a => a.all (Check.holds d e)

variable {n : String} {op : Operator} {l : Literal}

theorem zero_notMem_comparison (hn : Token.isIdentifier n = true) (hop : op.isComparison = true)
    (hzero : ∀ w, l = .text w → '\x00' ∉ w.toList) : '\x00' ∉ (n ++ " " ++ op.symbol ++ " " ++ l.condition).toList := by
  have hsymbol : '\x00' ∉ op.symbol.toList := by
    revert hop
    cases op <;> decide
  exact Token.zero_notMem_append (Token.zero_notMem_append (Token.zero_notMem_append (Token.zero_notMem_append
    (Token.zero_notMem_identifier hn) (by decide)) hsymbol) (by decide)) (Literal.zero_notMem_condition hzero)

theorem satisfied?_comparison (hn : Token.isIdentifier n = true) (hstart : n.toUpper ∉ Command.startWords)
    (hop : op.isComparison = true) (hzero : ∀ w, l = .text w → '\x00' ∉ w.toList) {d : Definition} {p : Place}
    (hp : d.place? n = some p) (e : Entry) :
    d.satisfied? e (n ++ " " ++ op.symbol ++ " " ++ l.condition) =
      some (Check.holds d e ⟨.place p, op, l.constant.operand⟩) := by
  let x : ColumnTest := ⟨n, op, l.constant⟩
  have htokens : Command.tokens (Token.scan (n ++ " " ++ op.symbol ++ " " ++ l.condition).toList) = x.tokens := by
    rw [Command.tokens, Token.tokens_scan, if_neg (zero_notMem_comparison hn hop hzero)]
    exact (Expr.spells_comparison hn hop l).tokensOf_eq
  have hone : conditionTokens [[x]] = x.tokens := by simp [conditionTokens, groupTokens, wordsBetween]
  have hread : Command.condition? x.tokens = some [[x.comparison]] := by
    rw [← hone]
    exact Command.groups_condition? (by simp) (by simp) (by simpa using hstart) x.depth_comparison
  have hmeaning := Scope.meaning?_column (s := ⟨d, "main", [d.name]⟩) hp []
  rw [satisfied?, htokens, hread]
  simp [Selection.checks?, x, ColumnTest.comparison, hmeaning]

end Definition

namespace Query

variable {t : RecordType} {k : Nat} {n : String} {op : Operator} {l : Literal}

theorem conditions_comparison (hk : k < t.declared) (hn : t.fieldName? k = some n) (hop : op.isComparison = true) :
    conditions t [⟨none, .binary op (.field k) (.literal l)⟩] =
      .ok (" WHERE " ++ (n ++ " " ++ op.symbol ++ " " ++ l.condition) ++ "") := by
  have hcheck := Expr.checkQuery_of_isQuery (Expr.IsQuery.comparison l hop hk)
  rw [conditions, Expr.check, hcheck, Expr.condition_comparison hn hop]
  rfl

theorem read_count_comparison (htable : Token.isIdentifier t.tableName = true)
    (hnames : ∀ n ∈ t.memberNames, Token.isIdentifier n = true) (hk : k < t.declared)
    (hn : t.fieldName? k = some n) (hstart : n.toUpper ∉ Command.startWords) (hop : op.isComparison = true)
    (hzero : ∀ w, l = .text w → '\x00' ∉ w.toList) :
    ∃ sql label, count t (ofSteps [.filter (.binary op (.field k) (.literal l))]) = .ok sql ∧
      Command.read sql = [some (.select ⟨[.count label], ⟨none, t.tableName⟩, none,
        [[⟨.column ⟨none, n, false⟩, op, l.constant.operand⟩]], [], none, none⟩)] := by
  have hid := hnames n (RecordType.mem_memberNames_of_fieldName? hn)
  have hw := conditions_comparison (l := l) hk hn hop
  have htests : Expr.tests t (.binary op (.field k) (.literal l)) = [⟨n, op, l.constant⟩] := by
    rw [Expr.tests_comparison t hop, hn, Option.getD_some]
  have hcondition : condition t [⟨none, .binary op (.field k) (.literal l)⟩] =
      [[ColumnTest.comparison ⟨n, op, l.constant⟩]] := by
    rw [condition, meaning_single, htests]
    rfl
  have hzero : '\x00' ∉ (countHeader t ++ (" WHERE " ++ (n ++ " " ++ op.symbol ++ " " ++ l.condition) ++ "")).toList :=
    Token.zero_notMem_append
      (Token.zero_notMem_append (by decide) (Token.zero_notMem_identifier htable))
      (Token.zero_notMem_append (Token.zero_notMem_append (by decide)
        (Definition.zero_notMem_comparison hid hop hzero)) (by decide))
  obtain ⟨label, hread⟩ := read_count (q := ofSteps [.filter (.binary op (.field k) (.literal l))]) htable hnames
    (headed_ofSteps _) hw hzero (by simpa [ofSteps, step, filter, htests] using hstart)
    (hcondition ▸ ColumnTest.depth_comparison _)
  refine ⟨_, label, ?_, hread.trans ?_⟩
  · rw [count]
    exact bind_eq_ok.2 ⟨_, hw, rfl⟩
  · exact congrArg (fun c => [some (Command.select ⟨[.count label], ⟨none, t.tableName⟩, none, c, [], none, none⟩)])
      hcondition

end Query

namespace Session

variable {t : RecordType} {o : Record t} {s s' : Session Embedded} {n : Nat}

theorem run?_of_insert {c : Command} (hread : Command.read (t.insertSql Backend.questionMark) = [some c])
    (h : insert o s = .ok n s') :
    ∃ out, s.backend.database.run? (o.values.map Cell.ofValue) c = some (out, s'.backend.database) := by
  have hsql : (o.insertion (Backend.marker s.backend)).sql = t.insertSql Backend.questionMark := rfl
  have hparams : (o.insertion (Backend.marker s.backend)).params = o.values := rfl
  rw [insert, Action.get_bind] at h
  generalize o.insertion (Backend.marker s.backend) = st at h hsql hparams
  rw [← hsql] at hread
  rw [← hparams]
  cases hx : (Backend.execute st : Action Embedded Nat) s.backend with
  | error e b =>
    rw [onBackend_of_error hx] at h
    cases h
  | ok m b =>
    rw [onBackend_of_ok hx] at h
    cases h
    obtain ⟨os, b', hperform, hb⟩ := Action.ok_of_bind hx
    cases hb
    exact Embedded.run?_of_perform hread hperform

/-- A record that is inserted is one row more, and no other row changes. -/
theorem relation?_of_insert (htable : Token.isIdentifier t.tableName = true)
    (hnames : ∀ n ∈ t.memberNames, Token.isIdentifier n = true) (hne : t.memberNames ≠ []) {r : Relation}
    (hr : s.backend.database.relation? ⟨none, t.tableName⟩ = some r) (hd : r.definition.Describes t)
    (h : insert o s = .ok n s') :
    ∃ e, r.insert? t.memberNames (o.values.map Cell.ofValue) = some (e, { r with rows := r.placed e }) ∧
      s'.backend.database.relation? ⟨none, t.tableName⟩ = some { r with rows := r.placed e } := by
  obtain ⟨out, hrun⟩ := run?_of_insert (t.read_insertSql hne htable hnames) h
  obtain ⟨d', hinsert, hd'⟩ := Option.map_eq_some_iff.1 hrun
  obtain ⟨e, r', hrow, rfl⟩ := Database.insert?_eq_some hinsert hr
  obtain ⟨m, -, -, rfl⟩ := Relation.insert?_eq_some hrow hd.mapM_place?
  have hafter : s'.backend.database = _ := (congrArg Prod.snd hd').symm
  rw [hafter]
  exact ⟨e, hrow, Database.relation?_put hr rfl rfl⟩

theorem count_comparison (htable : Token.isIdentifier t.tableName = true)
    (hnames : ∀ n ∈ t.memberNames, Token.isIdentifier n = true) {k : Nat} (hk : k < t.declared) {name : String}
    (hname : t.fieldName? k = some name) (hstart : name.toUpper ∉ Command.startWords) {op : Operator}
    (hop : op.isComparison = true) {l : Literal} (hzero : ∀ w, l = .text w → '\x00' ∉ w.toList) {r : Relation}
    (hr : s.backend.database.relation? ⟨none, t.tableName⟩ = some r) {p : Place}
    (hp : r.definition.place? name = some p) :
    Action.outcome (count t (Query.ofSteps [.filter (.binary op (.field k) (.literal l))]) s) =
      .ok (r.rows.filter fun e => Check.holds r.definition e ⟨.place p, op, l.constant.operand⟩).length := by
  obtain ⟨sql, label, hsql, hread⟩ := Query.read_count_comparison htable hnames hk hname hstart hop hzero
  have hsource : s.backend.database.source? ⟨none, t.tableName⟩ = some r := by
    rw [Database.source?, hr]
    rfl
  have hlisting := Selection.listing?_comparison hp label ⟨none, t.tableName⟩ op l.constant.operand
  have hrun := Database.run?_select hsource hlisting
  rw [count, Action.bind_of_ok (Action.lift_of_ok hsql s), onBackend, Action.outcome_on]
  exact Embedded.scalar_of_run? hread (hrun []) rfl

/-- A record that is inserted is one row more, and the predicate that holds a field against the field's own value
counts it, unless the value is the empty text: that one is bound as null. -/
theorem finds_inserted {k : Nat} {f : Field} {x : f.type.Val} (hx : Members.at? t.fields o k = some ⟨f, x⟩)
    {l : Literal} (hl : Literal.ofVal? f.type x = some l) (hzero : ∀ w, l = .text w → '\x00' ∉ w.toList) :
    (∃ v, Command.operand? (Command.tokens (Token.scan l.condition.toList)) = some v ∧
      ((o.insertion Backend.questionMark).params[k]?).map Cell.ofValue =
        some (if l = .text "" then .null else v.cell)) ∧
    (Token.isIdentifier t.tableName = true → (∀ n ∈ t.memberNames, Token.isIdentifier n = true) →
      f.name.toUpper ∉ Command.startWords → k < t.declared →
      ∀ (s s' : Session Embedded) (r : Relation) (n : Nat),
        s.backend.database.relation? ⟨none, t.tableName⟩ = some r → r.definition.Describes t →
        insert o s = .ok n s' →
        ∃ e c m, s'.backend.database.relation? ⟨none, t.tableName⟩ = some { r with rows := r.placed e } ∧
          Expr.condition t (.binary .eq (.field k) (.literal l)) = .ok c ∧
          r.definition.satisfied? e c = some (decide (l ≠ .text "")) ∧
          Action.outcome (count t (Query.ofSteps [.filter (.binary .eq (.field k) (.literal l))]) s) = .ok m ∧
          Action.outcome (count t (Query.ofSteps [.filter (.binary .eq (.field k) (.literal l))]) s') =
            .ok (m + if l = .text "" then 0 else 1)) := by
  have hf := Members.getElem?_of_at? hx
  constructor
  · refine ⟨l.constant.operand, ?_, ?_⟩
    · rw [Command.tokens, Token.tokens_scan, if_neg (Literal.zero_notMem_condition hzero),
        (Token.spells_literal l).tokensOf_eq, Command.operand?_tokens]
    · rw [← Literal.ofValue_toValue hl]
      show (Members.values t.fields o)[k]?.map Cell.ofValue = _
      rw [Members.getElem?_values, hx]
      rfl
  · intro htable hnames hstart hk s s' r n hr hd hinsert
    have hname : t.fieldName? k = some f.name := by rw [RecordType.fieldName?, hf, Option.map_some]
    have hmem := RecordType.mem_memberNames_of_fieldName? hname
    have hp := hd.place?_name hf
    obtain ⟨e, hrow, hafter⟩ := relation?_of_insert htable hnames (List.ne_nil_of_mem hmem) hr hd hinsert
    have hholds := Relation.holds_of_insert? hd hrow hx hl
    refine ⟨e, _, _, hafter, Expr.condition_comparison hname rfl, ?_,
      count_comparison htable hnames hk hname hstart rfl hzero hr hp, ?_⟩
    · rw [Definition.satisfied?_comparison (hnames _ hmem) hstart rfl hzero hp, hholds]
    · rw [count_comparison htable hnames hk hname hstart rfl hzero hafter hp, Relation.length_filter_placed, hholds]
      by_cases hempty : l = .text "" <;> simp [hempty]

def tally : RecordType := ⟨0, "shop::Tally", 2, [⟨"total", .integer .uint64, 0⟩, ⟨"note", .text, 8⟩]⟩

/-- The greatest count, and a text that looks like the end of another. -/
def brimful : Record tally := (⟨18446744073709551615, by decide⟩, "it's full; --", ())

def tallyTable : Relation where
  definition := ⟨"Tally", [⟨"total", "INTEGER", false, false⟩, ⟨"note", "VARCHAR", false, false⟩], [], [],
    "Tally (total INTEGER, note VARCHAR)"⟩
  temporary := false
  rows := []

def opened : Session Embedded := ⟨.empty, { database := { relations := [tallyTable] } }⟩

theorem finds_inserted_brimful :
    ∃ e c m, (Action.after (insert brimful opened)).backend.database.relation? ⟨none, "Tally"⟩ =
        some { tallyTable with rows := [e] } ∧
      Expr.condition tally (.binary .eq (.field 0) (.literal (.unsigned 18446744073709551615))) = .ok c ∧
      tallyTable.definition.satisfied? e c = some true ∧
      Action.outcome (count tally (Query.ofSteps [.filter (.binary .eq (.field 0)
        (.literal (.unsigned 18446744073709551615)))]) opened) = .ok m ∧
      Action.outcome (count tally (Query.ofSteps [.filter (.binary .eq (.field 0)
        (.literal (.unsigned 18446744073709551615)))]) (Action.after (insert brimful opened))) = .ok (m + 1) := by
  have hcreated : opened.backend.database.relation? ⟨none, "Tally"⟩ = some tallyTable := by decide +kernel
  cases hinsert : insert brimful opened with
  | error x s' =>
    have hdone : (Action.outcome (insert brimful opened)).toOption = some 1 := by decide +kernel
    rw [hinsert] at hdone
    cases hdone
  | ok n s' =>
    exact (finds_inserted (t := tally) (o := brimful) (k := 0) rfl rfl nofun).2 (by decide +kernel) (by decide +kernel)
      (by decide +kernel) (by decide) opened s' tallyTable n hcreated ⟨by decide +kernel, by decide +kernel⟩ hinsert

/-- How many rows match in a new table that one record has been put into. -/
def countAlone {t : RecordType} (o : Record t) (steps : List Query.Step) : Option Int :=
  (Action.outcome ((do
    createTable t
    let _ ← insert o
    count t (Query.ofSteps steps) : Action (Session Embedded) Int) ⟨.empty, {}⟩)).toOption

/-- A name that begins an expression of its own. -/
def role : RecordType := ⟨1, "Role", 1, [⟨"cast", .integer .int32, 0⟩]⟩

/-- An empty text is null where it is stored and a text where it is compared with; a zero character can be stored
and ends the text of a statement; and a column can have a name that no comparison can begin with. -/
theorem inserted_missed :
    Literal.ofVal? .text "" = some (.text "") ∧
    (Command.operand? (Command.tokens (Token.scan (Literal.text "").condition.toList))).map Operand.cell =
      some (.text "") ∧
    Cell.ofValue (FieldType.text.toValue "") = .null ∧
    countAlone (t := tally) (⟨0, by decide⟩, "", ()) [.filter (.binary .eq (.field 1) (.literal (.text "")))] =
      some 0 ∧
    countAlone (t := tally) (⟨0, by decide⟩, "\x00", ()) [] = some 1 ∧
    countAlone (t := tally) (⟨0, by decide⟩, "\x00", ()) [.filter (.binary .eq (.field 1) (.literal (.text "\x00")))] =
      none ∧
    countAlone (t := role) (⟨5, by decide⟩, ()) [] = some 1 ∧
    countAlone (t := role) (⟨5, by decide⟩, ()) [.filter (.binary .eq (.field 0) (.literal (.integer 5)))] = none := by
  refine ⟨rfl, ?_, rfl, ?_, ?_, ?_, ?_, ?_⟩ <;> decide +kernel

end Session

end Rowmap
