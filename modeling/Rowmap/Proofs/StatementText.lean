import Rowmap.Backend.Basic
import Rowmap.Proofs.DefinitionText
import Rowmap.Proofs.WhereClause

/-! What the other statements of a table tell: the table, the columns in their order and, of an insertion with
typed markers, the number and the type of each marker. A query names its table before its first clause, and the
first clause begins with a blank. -/

namespace Rowmap

open TableText

structure Insertion where
  table : String
  columns : List String
  markers : List String

def Insertion.sql (i : Insertion) : String :=
  "INSERT INTO " ++ i.table ++ " (" ++ Table.commas i.columns ++ ") VALUES (" ++ Table.commas i.markers ++ ")"

namespace TableText

def marker? (s : List Char) : Option ((Nat × ColumnType) × List Char) := do
  let s ← after? "$" s
  let (n, s) := size s
  let s ← after? "::" s
  let (ty, s) ← type? s
  return ((n, ty), s)

/-- Reads an insertion with typed markers. -/
def insertion? (s : List Char) : Option (String × List String × List (Nat × ColumnType)) := do
  let s ← after? "INSERT INTO " s
  let (table, s) := name s
  let s ← after? " (" s
  let (columns, s) ← listed? (fun s => some (name s)) s
  let s ← after? ") VALUES (" s
  let (markers, s) ← listed? marker? s
  if s = [')'] then some (table, columns, markers) else none

def selection? (s : List Char) : Option (String × List String) := do
  let s ← after? "SELECT " s
  let (columns, s) ← listed? (fun s => some (name s)) s
  let s ← after? " FROM " s
  return ((name s).1, columns)

/-- The table of a statement that begins so and names no columns. -/
def tableAfter? (start : String) (s : List Char) : Option String :=
  (after? start s).map fun s => (name s).1

def typed (m : Nat × ColumnType) : String := "$" ++ toString m.1 ++ "::" ++ m.2.sql

theorem marker?_typed (m : Nat × ColumnType) (r : List Char) : marker? ((typed m).toList ++ r) = some (m, r) := by
  obtain ⟨n, ty⟩ := m
  have htext : (typed (n, ty)).toList ++ r =
      "$".toList ++ ((toString n).toList ++ ("::".toList ++ (ty.sql.toList ++ r))) := by
    simp [typed]
  have hout : ∀ c ∈ ("::".toList ++ (ty.sql.toList ++ r)).head?, c.isDigit = false := by
    rintro c ⟨⟩
    rfl
  rw [htext, marker?, after?_append]
  simp only [Option.bind_eq_bind, Option.bind_some, size_append n hout, after?_append, type?_append]
  rfl

theorem insertion?_sql {table : String} {columns : List String} {markers : List (Nat × ColumnType)}
    (htable : isPlain table = true) (hcolumns : ∀ n ∈ columns, isPlain n = true) (hne : columns ≠ [])
    (hmarkers : markers ≠ []) :
    insertion? (Insertion.sql ⟨table, columns, markers.map typed⟩).toList = some (table, columns, markers) := by
  have htext : (Insertion.sql ⟨table, columns, markers.map typed⟩).toList = "INSERT INTO ".toList ++
      (table.toList ++ (" (".toList ++ ((Table.commas columns).toList ++ (") VALUES (".toList ++
        ((Table.commas (markers.map typed)).toList ++ [')']))))) := by
    unfold Insertion.sql
    generalize "INSERT INTO " = a, " (" = b, ") VALUES (" = c
    simp
  have hlist : listed? marker? ((Table.commas (markers.map typed)).toList ++ [')']) = some (markers, [')']) :=
    listed?_commas (P := fun _ => True) (fun m _ r _ => marker?_typed m r) (fun _ => trivial) hmarkers trivial rfl
  rw [htext, insertion?, after?_append]
  simp only [Option.bind_eq_bind, Option.bind_some, name_append htable (ends_append (p := " (") rfl _),
    after?_append, listed?_names hne hcolumns (ends_append (p := ") VALUES (") rfl _) rfl, hlist, if_true]

theorem selection?_append {table : String} {columns : List String} (htable : isPlain table = true)
    (hcolumns : ∀ n ∈ columns, isPlain n = true) (hne : columns ≠ []) {r : List Char} (hr : Ends r) :
    selection? (("SELECT " ++ Table.commas columns ++ " FROM " ++ table).toList ++ r) = some (table, columns) := by
  have htext : ("SELECT " ++ Table.commas columns ++ " FROM " ++ table).toList ++ r = "SELECT ".toList ++
      ((Table.commas columns).toList ++ (" FROM ".toList ++ (table.toList ++ r))) := by
    generalize "SELECT " = a, " FROM " = b
    simp
  rw [htext, selection?, after?_append]
  simp only [Option.bind_eq_bind, Option.bind_some, name_append htable hr, after?_append,
    listed?_names hne hcolumns (ends_append (p := " FROM ") rfl _) rfl]
  rfl

theorem tableAfter?_append (start : String) {table : String} (htable : isPlain table = true) {r : List Char}
    (hr : Ends r) : tableAfter? start ((start ++ table).toList ++ r) = some table := by
  rw [String.toList_append, List.append_assoc, tableAfter?, after?_append, Option.map_some,
    name_append htable hr]

end TableText

/-- A text that, if anything of it is there, begins with a blank. -/
def BlankLed (s : List Char) : Prop := ∀ c ∈ s.head?, c = ' '

theorem blankLed_append {p : String} (hp : p.toList.head? = some ' ') (s : String) : BlankLed (p ++ s).toList := by
  intro c hc
  rw [String.toList_append, List.head?_append, hp] at hc
  exact (Option.some.inj hc).symm

theorem BlankLed.append {s r : List Char} (hs : BlankLed s) (hr : BlankLed r) : BlankLed (s ++ r) := by
  cases s with
  | nil => exact hr
  | cons c s => exact hs

theorem BlankLed.ends {s : List Char} (h : BlankLed s) : Ends s := by
  intro c hc
  rw [h c hc]
  rfl

def Continues (start text : String) : Prop := ∃ rest, text.toList = start.toList ++ rest ∧ BlankLed rest

namespace Query

variable {t : RecordType} {q : Query}

theorem blankLed_conditions {fs : List Filter} {w : String} (h : conditions t fs = .ok w) :
    BlankLed w.toList := by
  cases fs with
  | nil =>
    cases h
    exact nofun
  | cons f fs =>
    obtain ⟨c, rest, -, -, -, rfl⟩ := conditions_cons h
    rw [String.append_assoc]
    apply blankLed_append
    cases f.connective with
    | none => rfl
    | some k => cases k <;> rfl

theorem blankLed_clauses {o : String} (h : orderClause t q.order = .ok o) : BlankLed (q.clauses o) := by
  rcases clauses_cases h with hs | ⟨w, -, s, hs⟩
  · rw [hs]
    exact nofun
  · rw [hs]
    rintro d ⟨⟩
    rfl

theorem continues_select {text : String} (h : q.select t = .ok text) :
    Continues ("SELECT " ++ Table.commas t.memberNames ++ " FROM " ++ t.tableName) text := by
  obtain ⟨w, o, hw, ho, htext⟩ := select_eq_ok h
  exact ⟨_, htext, (blankLed_conditions hw).append (blankLed_clauses ho)⟩

theorem continues_count {text : String} (h : q.count t = .ok text) :
    Continues ("SELECT COUNT(*) FROM " ++ t.tableName) text := by
  obtain ⟨w, hw, h⟩ := bind_eq_ok.1 h
  cases h
  exact ⟨w.toList, String.toList_append, blankLed_conditions hw⟩

end Query

end Rowmap
