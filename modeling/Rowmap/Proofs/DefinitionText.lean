import Rowmap.Proofs.DefinitionReader
import Rowmap.Proofs.Header
import Rowmap.Proofs.Members

/-! What the text of a table definition tells. Columns, the primary key and foreign keys stand in one list, and
the same comma is between them and inside the key; still each clause is known by its beginning, as no type of a
column is called `KEY`. So the definition can be read back from the text. -/

namespace Rowmap

open TableText

namespace TableText

inductive Clause where
  | column (c : Column)
  | primaryKey (names : List String)
  | foreignKey (k : ForeignKey)

namespace Clause

def sql : Clause → String
  | column c => c.sql
  | primaryKey names => "PRIMARY KEY (" ++ Table.commas names ++ ")"
  | foreignKey k => k.sql

def column? : Clause → Option Column
  | column c => some c
  | primaryKey _ | foreignKey _ => none

def names : Clause → List String
  | primaryKey names => names
  | column _ | foreignKey _ => []

def foreignKey? : Clause → Option ForeignKey
  | foreignKey k => some k
  | column _ | primaryKey _ => none

/-- A clause that is read back: a primary key has names, and all names are plain. -/
def IsPlain : Clause → Prop
  | column c => isPlain c.name = true
  | primaryKey names => names ≠ [] ∧ ∀ n ∈ names, isPlain n = true
  | foreignKey k => isPlain k.column = true ∧ isPlain k.table = true ∧ isPlain k.target = true

end Clause

def clause? (s : List Char) : Option (Clause × List Char) :=
  match after? "PRIMARY KEY (" s with
  | some s => (primaryKey? s).map fun p => (.primaryKey p.1, p.2)
  | none =>
    match after? "FOREIGN KEY (" s with
    | some s => (foreignKey? s).map fun p => (.foreignKey p.1, p.2)
    | none => (column? s).map fun p => (.column p.1, p.2)

def tableOf (n : String) (cs : List Clause) : Table where
  name := n
  columns := cs.filterMap Clause.column?
  primaryKey := cs.flatMap Clause.names
  foreignKeys := cs.filterMap Clause.foreignKey?

/-- Reads a table definition. One without clauses has nothing between its parentheses. -/
def table? (s : List Char) : Option Table := do
  let s ← after? "CREATE TABLE IF NOT EXISTS " s
  let (n, s) := name s
  let s ← after? " (" s
  let (cs, s) := (listed? clause? s).getD ([], s)
  if s = [')'] then some (tableOf n cs) else none

theorem type_ne_key (t : ColumnType) (r s : List Char) : t.sql.toList ++ r ≠ "KEY (".toList ++ s := by
  intro h
  have hread := type?_append t r
  have hnone : type? ("KEY (".toList ++ s) = none := rfl
  rw [h, hnone] at hread
  cases hread

/-- No column begins as a key does. -/
theorem after?_key_column {w : String} (hw : ' ' ∉ w.toList) {c : Column} (hc : isPlain c.name = true)
    (r : List Char) : after? (w ++ " KEY (") (c.sql.toList ++ r) = none := by
  cases h : after? (w ++ " KEY (") (c.sql.toList ++ r) with
  | none => rfl
  | some s =>
    have hblank : ' ' ∉ c.name.toList := fun hm => by
      have hplain := List.all_eq_true.1 hc ' ' hm
      cases hplain
    obtain ⟨rest, hrest⟩ : ∃ rest, c.sql.toList ++ r = c.name.toList ++ ' ' :: (c.type.sql.toList ++ rest) := by
      refine ⟨((if c.notNull then " NOT NULL" else "") ++ (if c.unique then " UNIQUE" else "")).toList ++ r, ?_⟩
      simp [Column.sql]
    have heq := (List.append_eq_of_isPrefixOf?_eq_some h).symm
    have hkey : (w ++ " KEY (").toList ++ s = w.toList ++ ' ' :: ("KEY (".toList ++ s) := by
      rw [String.toList_append, List.append_assoc]
      rfl
    rw [hrest, hkey] at heq
    have hname := Query.eq_of_append_space hblank hw heq
    rw [hname] at heq
    exact absurd (List.cons.inj (List.append_cancel_left heq)).2 (type_ne_key _ _ _)

theorem clause?_sql {c : Clause} (hc : c.IsPlain) {r : List Char} (hr : Closes r) :
    clause? (c.sql.toList ++ r) = some (c, r) := by
  cases c with
  | column c =>
    have hprimary : after? "PRIMARY KEY (" (c.sql.toList ++ r) = none :=
      after?_key_column (w := "PRIMARY") (by decide) hc r
    have hforeign : after? "FOREIGN KEY (" (c.sql.toList ++ r) = none :=
      after?_key_column (w := "FOREIGN") (by decide) hc r
    show clause? (c.sql.toList ++ r) = _
    simp only [clause?, hprimary, hforeign, column?_sql hc hr, Option.map_some]
  | primaryKey names =>
    have htext : (Clause.primaryKey names).sql.toList ++ r =
        "PRIMARY KEY (".toList ++ ((Table.commas names).toList ++ ')' :: r) := by
      unfold Clause.sql
      generalize "PRIMARY KEY (" = a
      simp
    rw [htext, clause?, after?_append]
    simp only [primaryKey?_commas hc.1 hc.2, Option.map_some]
  | foreignKey k =>
    obtain ⟨hcolumn, htable, htarget⟩ := hc
    obtain ⟨rest, hrest, hk⟩ := Option.bind_eq_some_iff.1 (foreignKey?_sql hcolumn htable htarget r)
    have hprimary : after? "PRIMARY KEY (" (k.sql.toList ++ r) = none := by
      rw [← List.append_eq_of_isPrefixOf?_eq_some hrest]
      rfl
    show clause? (k.sql.toList ++ r) = _
    simp only [clause?, hprimary, hrest, hk, Option.map_some]

def clausesOf (d : Table) : List Clause :=
  d.columns.map .column ++ (if d.primaryKey.isEmpty then [] else [.primaryKey d.primaryKey]) ++
    d.foreignKeys.map .foreignKey

theorem tableOf_clausesOf (d : Table) : tableOf d.name (clausesOf d) = d := by
  obtain ⟨n, columns, key, foreign⟩ := d
  have hcolumns : (columns.map Clause.column).filterMap Clause.column? = columns := by
    rw [List.filterMap_map]
    exact List.filterMap_some
  have hforeign : (foreign.map Clause.foreignKey).filterMap Clause.foreignKey? = foreign := by
    rw [List.filterMap_map]
    exact List.filterMap_some
  have hnone : (foreign.map Clause.foreignKey).filterMap Clause.column? = [] ∧
      (columns.map Clause.column).filterMap Clause.foreignKey? = [] ∧
      (columns.map Clause.column).flatMap Clause.names = [] ∧
      (foreign.map Clause.foreignKey).flatMap Clause.names = [] := by
    simp [Clause.column?, Clause.foreignKey?, Clause.names]
  cases key with
  | nil => simp [tableOf, clausesOf, hcolumns, hforeign, hnone]
  | cons k key =>
    have hkey (cs : List Clause) : (Clause.primaryKey (k :: key) :: cs).filterMap Clause.foreignKey? =
        cs.filterMap Clause.foreignKey? := rfl
    simp [tableOf, clausesOf, hcolumns, hforeign, hnone, Clause.column?, Clause.names, hkey]

theorem map_sql_clausesOf (d : Table) : (clausesOf d).map Clause.sql = d.clauses := by
  rw [clausesOf, Table.clauses, List.map_append, List.map_append, List.map_map, List.map_map]
  congr 2
  split <;> rfl

end TableText

/-- No name in the definition has a blank, a comma or a parenthesis in it. -/
structure Table.IsPlain (d : Table) : Prop where
  name : isPlain d.name = true
  columns : ∀ c ∈ d.columns, isPlain c.name = true
  primaryKey : ∀ n ∈ d.primaryKey, isPlain n = true
  foreignKeys : ∀ k ∈ d.foreignKeys, isPlain k.column = true ∧ isPlain k.table = true ∧ isPlain k.target = true

namespace TableText

theorem isPlain_clausesOf {d : Table} (h : d.IsPlain) : ∀ c ∈ clausesOf d, c.IsPlain := by
  intro c hc
  rw [clausesOf, List.mem_append, List.mem_append] at hc
  rcases hc with (hc | hc) | hc
  · obtain ⟨column, hcolumn, rfl⟩ := List.mem_map.1 hc
    exact h.columns column hcolumn
  · split at hc
    · cases hc
    · next hne =>
      rw [List.mem_singleton.1 hc]
      exact ⟨fun hnil => hne (by rw [hnil]; rfl), h.primaryKey⟩
  · obtain ⟨k, hk, rfl⟩ := List.mem_map.1 hc
    exact h.foreignKeys k hk

theorem listed?_clauses {cs : List Clause} (hcs : ∀ c ∈ cs, c.IsPlain) :
    (listed? clause? ((Table.commas (cs.map Clause.sql)).toList ++ [')'])).getD
      ([], (Table.commas (cs.map Clause.sql)).toList ++ [')']) = (cs, [')']) := by
  by_cases hne : cs = []
  · subst hne
    have hnone : listed? clause? [')'] = none := by
      rw [listed?]
      rfl
    show (listed? clause? [')']).getD _ = _
    rw [hnone]
    rfl
  · rw [listed?_commas (fun c hc r hr => clause?_sql (hcs c hc) hr) closes_comma hne (closes_parenthesis []) rfl]
    rfl

/-- A definition is read back from its text. -/
theorem table?_sql {d : Table} (h : d.IsPlain) : table? d.sql.toList = some d := by
  have htext : d.sql.toList = "CREATE TABLE IF NOT EXISTS ".toList ++ (d.name.toList ++ (" (".toList ++
      ((Table.commas ((clausesOf d).map Clause.sql)).toList ++ [')']))) := by
    rw [map_sql_clausesOf]
    unfold Table.sql
    generalize "CREATE TABLE IF NOT EXISTS " = a, " (" = b
    simp
  rw [htext, table?, after?_append]
  simp only [Option.bind_eq_bind, Option.bind_some, name_append h.name (ends_append (p := " (") rfl _),
    after?_append, listed?_clauses (isPlain_clausesOf h), if_true, tableOf_clausesOf]

end TableText

theorem Table.sql_eq_iff {d d' : Table} (h : d.IsPlain) (h' : d'.IsPlain) : d.sql = d'.sql ↔ d = d' := by
  constructor
  · intro heq
    have hread := table?_sql h
    rw [heq, table?_sql h'] at hread
    exact (Option.some.inj hread).symm
  · rintro rfl
    rfl

/-- A type has a table exactly if its members are those declared, each of a name of its own. Of two definitions with
plain names, the texts are the same only if the definitions are. -/
theorem Table.sql_unambiguous :
    (∀ (t : RecordType) (s : ConstraintStore) (columnType : Kind → ColumnType),
      (∀ sql, t.createSql s columnType = .ok sql ↔ (t.fields.length = t.declared ∧ t.memberNames.Nodup) ∧
        sql = (Table.ofRecordType t s columnType).sql) ∧
      ∀ e, t.createSql s columnType = .error e → ∃ why, e = .schema why) ∧
    ∀ d d' : Table, d.IsPlain → d'.IsPlain → (d.sql = d'.sql ↔ d = d') := by
  constructor
  · intro t s columnType
    constructor
    · intro sql
      rw [RecordType.createSql_eq_ok_iff, RecordType.checkMembers_eq_ok_iff]
    · intro e h
      exact RecordType.createSql_eq_error h
  · intro d d' h h'
    exact sql_eq_iff h h'

/-- A table whose names are all taken from the statement itself. -/
def awkward (key : List String) : Table where
  name := "FOREIGN"
  columns := [⟨"PRIMARY", .char 12, true, false⟩, ⟨"KEY", .double, false, true⟩]
  primaryKey := key
  foreignKeys := [⟨"KEY", "REFERENCES", "PRIMARY"⟩]

theorem isPlain_awkward {key : List String} (hkey : ∀ n ∈ key, isPlain n = true) : (awkward key).IsPlain := by
  constructor
  case name => exact isPlain_of_wordParts (n := "FOREIGN") (by decide)
  case columns =>
    intro c hc
    simp only [awkward, List.mem_cons, List.not_mem_nil, or_false] at hc
    rcases hc with rfl | rfl <;> exact isPlain_of_wordParts (by decide)
  case primaryKey => exact hkey
  case foreignKeys =>
    intro k hk
    cases List.mem_singleton.1 hk
    refine ⟨?_, ?_, ?_⟩ <;> exact isPlain_of_wordParts (by decide)

/-- The order of the key is told from its text. -/
theorem Table.sql_unambiguous_awkward :
    (awkward ["KEY", "PRIMARY"]).sql = "CREATE TABLE IF NOT EXISTS FOREIGN (PRIMARY CHAR(12) NOT NULL, " ++
      "KEY DOUBLE PRECISION UNIQUE, PRIMARY KEY (KEY, PRIMARY), FOREIGN KEY (KEY) REFERENCES REFERENCES(PRIMARY))" ∧
    (awkward ["KEY", "PRIMARY"]).sql ≠ (awkward ["PRIMARY", "KEY"]).sql := by
  refine ⟨by decide +kernel, fun h => ?_⟩
  have hplain : (awkward ["KEY", "PRIMARY"]).IsPlain := isPlain_awkward (by decide)
  have hplain' : (awkward ["PRIMARY", "KEY"]).IsPlain := isPlain_awkward (by decide)
  have heq := (sql_unambiguous.2 _ _ hplain hplain').1 h
  exact absurd heq (by decide)

end Rowmap
