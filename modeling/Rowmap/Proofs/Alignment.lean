import Rowmap.Backend.Remote
import Rowmap.Proofs.Conduct
import Rowmap.Proofs.StatementText

/-! The statements of a type agree. A definition goes over the fields for names and types, an insertion for names,
for markers and for values, and a query for names, each on its own. Still the columns are the same in all of them,
in the same order, and whatever stands at some place of a list is of the field at that place, over fields of any
number. Where markers carry types, they are those that the table is created with. -/

namespace Rowmap

open TableText

namespace Statement

theorem length_markers (marker : Nat → Kind → String) (i : Nat) (fs : List Field) :
    (markers marker i fs).length = fs.length := by
  induction fs generalizing i with
  | nil => rfl
  | cons f fs ih => rw [markers, List.length_cons, ih, List.length_cons]

theorem getElem?_markers (marker : Nat → Kind → String) (i k : Nat) (fs : List Field) :
    (markers marker i fs)[k]? = fs[k]?.map fun f => marker (i + k) f.kind := by
  induction fs generalizing i k with
  | nil => rfl
  | cons f fs ih =>
    cases k with
    | zero => rfl
    | succ k =>
      rw [markers, List.getElem?_cons_succ, ih, List.getElem?_cons_succ, Nat.add_right_comm]
      rfl

/-- Typed markers are numbers with the types of columns, if those come from the same fields. -/
theorem markers_typed {columnType : Kind → ColumnType} {fs : List Field} {cs : List Column}
    (h : cs.map Column.type = fs.map fun f => columnType f.kind) (i : Nat) :
    markers (Backend.typedMarker columnType) i fs = ((cs.zipIdx i).map fun p => (p.2, p.1.type)).map typed := by
  induction fs generalizing cs i with
  | nil =>
    rw [List.map_nil, List.map_eq_nil_iff] at h
    rw [h]
    rfl
  | cons f fs ih =>
    obtain ⟨c, cs, rfl, hc, hcs⟩ := List.map_eq_cons_iff.1 h
    have htype : c.type = columnType f.kind := hc
    rw [markers, ih hcs, Backend.typedMarker, ← htype]
    rfl

end Statement

/-- The columns of a definition and what an insertion has for them: one column, one marker and one parameter for
each field, in its place. Places count from one in the markers. -/
structure Aligned {t : RecordType} (o : Record t) (columnType : Kind → ColumnType)
    (marker : Nat → Kind → String) (columns : List Column) (markers : List String) : Prop where
  names : columns.map Column.name = t.memberNames
  length_markers : markers.length = t.memberNames.length
  length_params : (o.insertion marker).params.length = t.memberNames.length
  place : ∀ k f, t.fields[k]? = some f →
    columns[k]?.map Column.type = some (columnType f.kind) ∧ t.memberNames[k]? = some f.name ∧
      markers[k]? = some (marker (k + 1) f.kind) ∧
      ∃ x, Members.at? t.fields o k = some ⟨f, x⟩ ∧ (o.insertion marker).params[k]? = some (f.type.toValue x)

/-- What the statements of a table tell, read from their texts. -/
structure ToldAlike (t : RecordType) (d : Table) (creation insertion : String) : Prop where
  creation : table? creation.toList = some d
  insertion : insertion? insertion.toList =
    some (d.name, d.columns.map Column.name, (d.columns.zipIdx 1).map fun p => (p.2, p.1.type))
  select : ∀ (q : Query) text, q.select t = .ok text →
    selection? text.toList = some (d.name, d.columns.map Column.name)
  count : ∀ (q : Query) text, q.count t = .ok text → tableAfter? "SELECT COUNT(*) FROM " text.toList = some d.name
  drop : tableAfter? "DROP TABLE IF EXISTS " t.dropSql.toList = some d.name

namespace RecordType

variable {t : RecordType}

theorem names_ofRecordType (t : RecordType) (s : ConstraintStore) (columnType : Kind → ColumnType) :
    (Table.ofRecordType t s columnType).columns.map Column.name = t.memberNames := by
  rw [Table.ofRecordType, List.map_map]
  rfl

theorem types_ofRecordType (t : RecordType) (s : ConstraintStore) (columnType : Kind → ColumnType) :
    (Table.ofRecordType t s columnType).columns.map Column.type = t.fields.map fun f => columnType f.kind := by
  rw [Table.ofRecordType, List.map_map]
  rfl

theorem aligned (o : Record t) (s : ConstraintStore) (columnType : Kind → ColumnType)
    (marker : Nat → Kind → String) :
    Aligned o columnType marker (Table.ofRecordType t s columnType).columns
      (Statement.markers marker 1 t.fields) := by
  constructor
  case names => exact names_ofRecordType t s columnType
  case length_markers => rw [Statement.length_markers, length_memberNames]
  case length_params =>
    rw [length_memberNames]
    exact Members.length_values t.fields o
  case place =>
    intro k f hf
    refine ⟨?_, ?_, ?_, ?_⟩
    · rw [← List.getElem?_map, types_ofRecordType, List.getElem?_map, hf]
      rfl
    · rw [memberNames, List.getElem?_map, hf]
      rfl
    · rw [Statement.getElem?_markers, hf, Nat.add_comm]
      rfl
    · obtain ⟨x, hx⟩ := Members.exists_at? hf o
      refine ⟨x, hx, ?_⟩
      show (Members.values t.fields o)[k]? = _
      rw [Members.getElem?_values, hx]
      rfl

theorem toldAlike {s : ConstraintStore} {columnType : Kind → ColumnType}
    (hplain : (Table.ofRecordType t s columnType).IsPlain) (hne : t.fields ≠ []) :
    ToldAlike t (Table.ofRecordType t s columnType) (Table.ofRecordType t s columnType).sql
      (t.insertSql (Backend.typedMarker columnType)) := by
  have hnames := names_ofRecordType t s columnType
  have htypes := types_ofRecordType t s columnType
  have htable : isPlain t.tableName = true := hplain.name
  have hmembers : ∀ n ∈ t.memberNames, isPlain n = true := by
    intro n hn
    rw [← hnames] at hn
    obtain ⟨c, hc, rfl⟩ := List.mem_map.1 hn
    exact hplain.columns c hc
  have hmembersNe : t.memberNames ≠ [] := fun h => hne (List.map_eq_nil_iff.1 h)
  have hmarkersNe : ((Table.ofRecordType t s columnType).columns.zipIdx 1).map
      (fun p => (p.2, p.1.type)) ≠ [] := by
    intro h
    rw [List.map_eq_nil_iff, List.zipIdx_eq_nil_iff] at h
    rw [h] at hnames
    exact hmembersNe hnames.symm
  constructor
  case creation => exact table?_sql hplain
  case insertion =>
    rw [hnames]
    show insertion? (Insertion.sql ⟨t.tableName, t.memberNames, Statement.markers _ 1 t.fields⟩).toList = _
    rw [Statement.markers_typed htypes, insertion?_sql htable hmembers hmembersNe hmarkersNe]
    rfl
  case select =>
    intro q text h
    obtain ⟨rest, htext, hrest⟩ := Query.continues_select h
    rw [htext, selection?_append htable hmembers hmembersNe hrest.ends, hnames]
    rfl
  case count =>
    intro q text h
    obtain ⟨rest, htext, hrest⟩ := Query.continues_count h
    rw [htext, tableAfter?_append _ htable hrest.ends]
    rfl
  case drop =>
    have hread := tableAfter?_append "DROP TABLE IF EXISTS " htable (r := []) nofun
    rw [List.append_nil] at hread
    exact hread

end RecordType

namespace Remote

theorem log_createTable {t : RecordType} {a : Session Remote} {sql : String}
    (h : a.registry.createSql t ColumnType.ofKindWide = .ok sql) :
    (Action.after (Session.createTable t a)).backend.log = a.backend.log ++ [(sql, [])] := by
  have hafter : Action.after (Session.createTable t a) =
      Action.after (Session.onBackend (Backend.execute (Statement.plain sql)) a) := by
    rw [Session.createTable_of_ok h]
    exact Action.after_bind_lift _ (fun _ => .ok ()) a
  rw [hafter, Session.onBackend, Action.after_on]
  show (Action.after (send (.plain sql) _ a.backend)).log = _
  rw [after_send]
  rfl

theorem log_insert {t : RecordType} (o : Record t) (b : Session Remote) :
    (Action.after (Session.insert o b)).backend.log = b.backend.log ++
      [(t.insertSql (Backend.typedMarker ColumnType.ofKindWide), o.values.map Parameter.ofValue)] := by
  rw [Session.insert, Action.get_bind, Session.onBackend, Action.after_on]
  show (Action.after (send (o.insertion _) _ b.backend)).log = _
  rw [after_send]
  rfl

end Remote

namespace RecordType

/-- If the table of a type can be created, its statements agree on the table, its columns and the markers; where names
are plain, all this is read back from their texts. -/
theorem statements_aligned {t : RecordType} {s : ConstraintStore} {columnType : Kind → ColumnType} {sql : String}
    (h : t.createSql s columnType = .ok sql) (o : Record t) (marker : Nat → Kind → String) :
    (∃ markers, Aligned o columnType marker (Table.ofRecordType t s columnType).columns markers ∧
      sql = (Table.ofRecordType t s columnType).sql ∧ (Table.ofRecordType t s columnType).name = t.tableName ∧
      ∀ o' : Record t, (o'.insertion marker).sql = Insertion.sql ⟨t.tableName, t.memberNames, markers⟩) ∧
    (∀ (q : Query) text, q.select t = .ok text →
      Continues ("SELECT " ++ Table.commas t.memberNames ++ " FROM " ++ t.tableName) text) ∧
    (∀ (q : Query) text, q.count t = .ok text → Continues ("SELECT COUNT(*) FROM " ++ t.tableName) text) ∧
    t.dropSql = "DROP TABLE IF EXISTS " ++ t.tableName ∧
    ∀ a b : Session Remote, ∃ (d : Table) (creation insertion : String) (markers : List String),
      (Action.after (Session.createTable t a)).backend.log = a.backend.log ++ [(creation, [])] ∧
      (Action.after (Session.insert o b)).backend.log =
        b.backend.log ++ [(insertion, o.values.map Parameter.ofValue)] ∧
      d = Table.ofRecordType t (a.registry.constraints t) ColumnType.ofKindWide ∧ creation = d.sql ∧
      insertion = Insertion.sql ⟨d.name, d.columns.map Column.name, markers⟩ ∧
      markers.length = d.columns.length ∧
      (∀ k c, d.columns[k]? = some c → markers[k]? = some ("$" ++ toString (k + 1) ++ "::" ++ c.type.sql)) ∧
      (d.IsPlain → t.fields ≠ [] → ToldAlike t d creation insertion) := by
  obtain ⟨hcheck, hsql⟩ := createSql_eq_ok_iff.1 h
  refine ⟨⟨_, aligned o s columnType marker, hsql, rfl, fun _ => rfl⟩, fun _ _ => Query.continues_select,
    fun _ _ => Query.continues_count, rfl, ?_⟩
  intro a b
  have hcreate : a.registry.createSql t ColumnType.ofKindWide =
      .ok (Table.ofRecordType t (a.registry.constraints t) ColumnType.ofKindWide).sql :=
    createSql_eq_ok_iff.2 ⟨hcheck, rfl⟩
  have hnames := names_ofRecordType t (a.registry.constraints t) ColumnType.ofKindWide
  have htypes := types_ofRecordType t (a.registry.constraints t) ColumnType.ofKindWide
  refine ⟨_, _, _, Statement.markers (Backend.typedMarker ColumnType.ofKindWide) 1 t.fields,
    Remote.log_createTable hcreate, Remote.log_insert o b, rfl, rfl, ?_, ?_, ?_, toldAlike⟩
  · rw [hnames]
    rfl
  · rw [Statement.length_markers, Table.ofRecordType, List.length_map]
  · intro k c hc
    rw [Statement.markers_typed htypes, List.getElem?_map, List.getElem?_map, List.getElem?_zipIdx, hc,
      Nat.add_comm k 1]
    rfl

def assorted : RecordType := ⟨0, "store::Assorted", 4,
  [⟨"id", .integer .int32, 0⟩, ⟨"ratio", .double, 8⟩, ⟨"note", .text, 16⟩, ⟨"code", .fixedText 8, 40⟩]⟩

def sample : Record assorted := (⟨51, by decide⟩, .zero, "in stock", .ofString 8 "A-7", ())

def reopened : Session Remote := ⟨.empty, { log := [("DROP TABLE IF EXISTS Assorted", [])] }⟩

theorem isPlain_assorted :
    (Table.ofRecordType assorted (reopened.registry.constraints assorted) ColumnType.ofKindWide).IsPlain := by
  constructor
  case name => exact isPlain_of_wordParts (n := "Assorted") (by decide)
  case columns =>
    intro c hc
    obtain ⟨f, hf, rfl⟩ := List.mem_map.1 hc
    simp only [assorted, List.mem_cons, List.not_mem_nil, or_false] at hf
    rcases hf with rfl | rfl | rfl | rfl <;> exact isPlain_of_wordParts (by decide)
  case primaryKey => exact nofun
  case foreignKeys => exact nofun

/-- Reals are of four bytes where nothing is said of the server, and of eight on it, in the table and in the
markers. -/
theorem statements_aligned_assorted :
    assorted.createSql .empty ColumnType.ofKind =
      .ok "CREATE TABLE IF NOT EXISTS Assorted (id INTEGER, ratio REAL, note VARCHAR, code CHAR(8))" ∧
    ∃ creation insertion,
      (Action.after (Session.createTable assorted reopened)).backend.log =
        reopened.backend.log ++ [(creation, [])] ∧
      (Action.after (Session.insert sample reopened)).backend.log = reopened.backend.log ++
        [(insertion, [.int8 51, .float8 .zero, .text "in stock", .text "A-7"])] ∧
      (table? creation.toList).map (fun d => d.columns.map Column.type) =
        some [.integer, .double, .varchar, .char 8] ∧
      insertion? insertion.toList = some ("Assorted", ["id", "ratio", "note", "code"],
        [(1, .integer), (2, .double), (3, .varchar), (4, .char 8)]) := by
  have hsql : assorted.createSql .empty ColumnType.ofKind =
      .ok "CREATE TABLE IF NOT EXISTS Assorted (id INTEGER, ratio REAL, note VARCHAR, code CHAR(8))" := rfl
  obtain ⟨-, -, -, -, hserver⟩ := statements_aligned hsql sample Backend.questionMark
  obtain ⟨_, creation, insertion, _, hcreate, hinsert, rfl, -, -, -, -, htold⟩ := hserver reopened reopened
  have hread := htold isPlain_assorted nofun
  refine ⟨hsql, creation, insertion, hcreate, hinsert.trans rfl, ?_, hread.insertion.trans rfl⟩
  rw [hread.creation]
  rfl

end RecordType
end Rowmap
