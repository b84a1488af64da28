import Rowmap.Proofs.Tokens
import Rowmap.Schema.Table

/-! A reader of table definitions, clause by clause. A name goes as far as a blank, a comma or a parenthesis, so
it is read back whatever follows it. Each reader gives back the text behind what it has read. -/

namespace Rowmap
namespace TableText

/-- A character that no name has in it. -/
def isBreak (c : Char) : Bool := c = ' ' || c = ',' || c = '(' || c = ')'

/-- Identifiers are plain, keywords and all. -/
def isPlain (n : String) : Bool := n.toList.all (!isBreak ·)

def name (s : List Char) : String × List Char :=
  (String.ofList (s.takeWhile (!isBreak ·)), s.dropWhile (!isBreak ·))

def after? (p : String) (s : List Char) : Option (List Char) := p.toList.isPrefixOf? s

def flag (p : String) (s : List Char) : Bool × List Char :=
  match after? p s with
  | some r => (true, r)
  | none => (false, s)

def size (s : List Char) : Nat × List Char :=
  (Decimal.natOf 0 (s.takeWhile Char.isDigit), s.dropWhile Char.isDigit)

def type? (s : List Char) : Option (ColumnType × List Char) :=
  match s with
  | 'I' :: _ => (after? "INTEGER" s).map (.integer, ·)
  | 'R' :: _ => (after? "REAL" s).map (.real, ·)
  | 'D' :: _ => (after? "DOUBLE PRECISION" s).map (.double, ·)
  | 'V' :: _ => (after? "VARCHAR" s).map (.varchar, ·)
  | _ => do
    let s ← after? "CHAR(" s
    let (n, s) := size s
    let s ← after? ")" s
    return (.char n, s)

def column? (s : List Char) : Option (Column × List Char) := do
  let (n, s) := name s
  let s ← after? " " s
  let (ty, s) ← type? s
  let (notNull, s) := flag " NOT NULL" s
  let (unique, s) := flag " UNIQUE" s
  return (⟨n, ty, notNull, unique⟩, s)

def foreignKey? (s : List Char) : Option (ForeignKey × List Char) := do
  let (column, s) := name s
  let s ← after? ") REFERENCES " s
  let (table, s) := name s
  let s ← after? "(" s
  let (target, s) := name s
  let s ← after? ")" s
  return (⟨column, table, target⟩, s)

/-- One item, and one more after each comma. -/
def listed? {α : Type} (item? : List Char → Option (α × List Char)) (s : List Char) :
    Option (List α × List Char) :=
  match item? s with
  | none => none
  | some (a, rest) =>
    match after? ", " rest with
    | none => some ([a], rest)
    | some more =>
      if more.length < s.length then (listed? item? more).map fun p => (a :: p.1, p.2) else none
termination_by s.length

def primaryKey? (s : List Char) : Option (List String × List Char) := do
  let (names, s) ← listed? (fun s => some (name s)) s
  let s ← after? ")" s
  return (names, s)

/-- A text in front of which a name ends. -/
def Ends (s : List Char) : Prop := ∀ c ∈ s.head?, isBreak c = true

def Closes (s : List Char) : Prop := ∀ c ∈ s.head?, c = ',' ∨ c = ')'

theorem ends_append {p : String} (hp : p.toList.head?.any isBreak = true) (r : List Char) :
    Ends (p.toList ++ r) := by
  intro c hc
  cases h : p.toList with
  | nil =>
    rw [h] at hp
    cases hp
  | cons d s =>
    rw [h] at hp hc
    cases hc
    exact hp

theorem closes_comma (s : List Char) : Closes (',' :: s) := by
  rintro d ⟨⟩
  exact Or.inl rfl

theorem closes_parenthesis (s : List Char) : Closes (')' :: s) := by
  rintro d ⟨⟩
  exact Or.inr rfl

theorem Closes.ends {s : List Char} (h : Closes s) : Ends s := by
  intro c hc
  rcases h c hc with rfl | rfl <;> rfl

theorem isPlain_of_wordParts {n : String} (h : n.toList.all Token.isWordPart = true) : isPlain n = true := by
  rw [isPlain, List.all_eq_true]
  intro c hc
  have hpart := List.all_eq_true.1 h c hc
  rw [Bool.not_eq_true', isBreak]
  simp only [Bool.or_eq_false_iff, decide_eq_false_iff_not]
  refine ⟨⟨⟨?_, ?_⟩, ?_⟩, ?_⟩ <;> rintro rfl <;> exact absurd hpart (by decide)

theorem after?_append (p : String) (r : List Char) : after? p (p.toList ++ r) = some r := by
  unfold after?
  induction p.toList with
  | nil => rfl
  | cons c p ih =>
    show (if c == c then p.isPrefixOf? (p ++ r) else none) = some r
    rw [beq_self_eq_true, if_pos rfl, ih]

theorem name_append {n : String} (hn : isPlain n = true) {r : List Char} (hr : Ends r) :
    name (n.toList ++ r) = (n, r) := by
  have hin : ∀ c ∈ n.toList, (!isBreak c) = true := List.all_eq_true.1 hn
  have hout : ∀ c ∈ r.head?, (!isBreak c) = false := fun c hc => by rw [hr c hc]; rfl
  rw [name, Token.takeWhile_append_ends hin hout, Token.dropWhile_append_ends hin hout, String.ofList_toList]

theorem size_append (n : Nat) {r : List Char} (hr : ∀ c ∈ r.head?, c.isDigit = false) :
    size ((toString n).toList ++ r) = (n, r) := by
  have htext : (toString n).toList = Decimal.natText n := Nat.toList_repr
  have hin : ∀ c ∈ Decimal.natText n, c.isDigit = true := fun c hc => Decimal.isDigit_of_mem_natText hc
  rw [size, htext, Token.takeWhile_append_ends hin hr, Token.dropWhile_append_ends hin hr,
    Decimal.natOf_natText]

theorem type?_append (t : ColumnType) (r : List Char) : type? (t.sql.toList ++ r) = some (t, r) := by
  cases t with
  | integer => rfl
  | real => rfl
  | double => rfl
  | varchar => rfl
  | char n =>
    have htext : (ColumnType.char n).sql.toList ++ r = "CHAR(".toList ++ ((toString n).toList ++ ')' :: r) := by
      simp [ColumnType.sql]
    have hout : ∀ c ∈ (')' :: r).head?, c.isDigit = false := by
      rintro c ⟨⟩
      rfl
    rw [htext]
    show (do
      let s ← after? "CHAR(" ("CHAR(".toList ++ ((toString n).toList ++ ')' :: r))
      let s' ← after? ")" (size s).2
      return (ColumnType.char (size s).1, s')) = some (.char n, r)
    rw [after?_append]
    simp only [Option.bind_eq_bind, Option.bind_some, size_append n hout]
    rfl

theorem flag_append {p : String} {r : List Char} (hr : after? p r = none) (b : Bool) :
    flag p ((if b then p else "").toList ++ r) = (b, r) := by
  cases b with
  | true => simp only [if_true, flag, after?_append]
  | false =>
    show flag p r = (false, r)
    simp only [flag, hr]

theorem after?_of_closes {s : List Char} (h : Closes s) :
    after? " NOT NULL" s = none ∧ after? " UNIQUE" s = none := by
  cases s with
  | nil => exact ⟨rfl, rfl⟩
  | cons c s => rcases h c rfl with rfl | rfl <;> exact ⟨rfl, rfl⟩

theorem column?_sql {c : Column} (hc : isPlain c.name = true) {r : List Char} (hr : Closes r) :
    column? (c.sql.toList ++ r) = some (c, r) := by
  have htext : c.sql.toList ++ r = c.name.toList ++ (" ".toList ++ (c.type.sql.toList ++
      ((if c.notNull then " NOT NULL" else "").toList ++ ((if c.unique then " UNIQUE" else "").toList ++ r)))) := by
    simp [Column.sql]
  have hnull : after? " NOT NULL" ((if c.unique then " UNIQUE" else "").toList ++ r) = none := by
    cases c.unique with
    | true => rfl
    | false => exact (after?_of_closes hr).1
  rw [htext, column?, name_append hc (ends_append (p := " ") rfl _)]
  simp only [after?_append, type?_append, flag_append hnull, flag_append (after?_of_closes hr).2,
    Option.bind_eq_bind, Option.bind_some]
  rfl

theorem foreignKey?_sql {k : ForeignKey} (hc : isPlain k.column = true) (ht : isPlain k.table = true)
    (hf : isPlain k.target = true) (r : List Char) :
    (after? "FOREIGN KEY (" (k.sql.toList ++ r)).bind foreignKey? = some (k, r) := by
  have htext : k.sql.toList ++ r = "FOREIGN KEY (".toList ++ (k.column.toList ++ (") REFERENCES ".toList ++
      (k.table.toList ++ ("(".toList ++ (k.target.toList ++ (")".toList ++ r)))))) := by
    unfold ForeignKey.sql
    -- the literals are set aside, as they would be compared character by character
    generalize "FOREIGN KEY (" = a, ") REFERENCES " = b, "(" = c, ")" = d
    simp only [String.toList_append, List.append_assoc]
  rw [htext, after?_append, Option.bind_some, foreignKey?,
    name_append hc (ends_append (p := ") REFERENCES ") rfl _)]
  simp only [after?_append, Option.bind_eq_bind, Option.bind_some, name_append ht (ends_append (p := "(") rfl _),
    name_append hf (ends_append (p := ")") rfl _)]
  rfl

/-- If items are read back in front of what may follow them, so is the list of them, up to where no comma
follows. -/
theorem listed?_commas {α : Type} {item? : List Char → Option (α × List Char)} {print : α → String}
    {P : List Char → Prop} {as : List α}
    (hitem : ∀ a ∈ as, ∀ r, P r → item? ((print a).toList ++ r) = some (a, r))
    (hcomma : ∀ s, P (',' :: s)) (hne : as ≠ []) {r : List Char} (hr : P r)
    (hend : after? ", " r = none) :
    listed? item? ((Table.commas (as.map print)).toList ++ r) = some (as, r) := by
  induction as with
  | nil => exact absurd rfl hne
  | cons a as ih =>
    have ha := hitem a (List.mem_cons_self ..)
    cases as with
    | nil =>
      rw [List.map_singleton, Table.commas, String.intercalate_singleton, listed?, ha r hr]
      simp only [hend]
    | cons b as =>
      have hrest := ih (fun c hc => hitem c (List.mem_cons_of_mem _ hc)) (List.cons_ne_nil _ _)
      have htext : (Table.commas ((a :: b :: as).map print)).toList ++ r =
          (print a).toList ++ (", ".toList ++ ((Table.commas ((b :: as).map print)).toList ++ r)) := by
        simp [Table.commas, String.intercalate_cons_cons]
      have hmore : P (", ".toList ++ ((Table.commas ((b :: as).map print)).toList ++ r)) := hcomma _
      rw [htext, listed?, ha _ hmore]
      simp only [after?_append, hrest, Option.map_some]
      rw [if_pos (by simp; omega)]

theorem listed?_names {names : List String} (hne : names ≠ []) (hnames : ∀ n ∈ names, isPlain n = true)
    {r : List Char} (hr : Ends r) (hend : after? ", " r = none) :
    listed? (fun s => some (name s)) ((Table.commas names).toList ++ r) = some (names, r) := by
  have hread : listed? (fun s => some (name s)) ((Table.commas (names.map id)).toList ++ r) = some (names, r) :=
    listed?_commas (P := Ends) (fun n hn _ hr => congrArg some (name_append (hnames n hn) hr))
      (fun s => (closes_comma s).ends) hne hr hend
  rwa [List.map_id] at hread

theorem primaryKey?_commas {names : List String} (hne : names ≠ []) (hnames : ∀ n ∈ names, isPlain n = true)
    (r : List Char) : primaryKey? ((Table.commas names).toList ++ ')' :: r) = some (names, r) := by
  rw [primaryKey?, listed?_names hne hnames (closes_parenthesis r).ends rfl]
  rfl

end TableText
end Rowmap
