import Rowmap.Command.Basic
import Rowmap.Command.Token
/-! The commands that a text stands for. The lexemes are cut at semicolons, commas and connectives,
and every piece has to be one of a few forms. -/

namespace Rowmap.Command

def cutAt {α : Type} (cuts : α → Bool) : List α → List (List α)
  | [] => [[]]
  | a :: as =>
    if cuts a then [] :: cutAt cuts as
    else
      match cutAt cuts as with
      | [] => [[a]]
      | p :: ps => (a :: p) :: ps

/-- The pieces between the commas outside parentheses; `depth` parentheses are open. -/
def cutOutside : Nat → List Lexeme → List (List Lexeme)
  | _, [] => [[]]
  | depth, l :: ls =>
    if l.token = .comma ∧ depth = 0 then [] :: cutOutside 0 ls
    else
      let inner := match l.token with
        | .openParen => depth + 1
        | .closeParen => depth - 1
        | _ => depth
      match cutOutside inner ls with
      | [] => [[l]]
      | p :: ps => (l :: p) :: ps

def tokens (ls : List Lexeme) : List Token := ls.map Lexeme.token

/-- The text of some lexemes, without the blanks behind the last one. -/
def spanned : List Lexeme → String
  | [] => ""
  | [l] => l.text
  | l :: ls => l.text ++ l.blanks ++ spanned ls

def spannedToNext (ls : List Lexeme) : String :=
  let text := ls.flatMap fun l => l.text.toList ++ l.blanks.toList
  String.ofList (text.reverse.dropWhile Token.isMoreSpace).reverse

def isWord (w : String) : Token → Bool
  | .word s => s.toUpper = w
  | _ => false

def name? : Token → Option String
  | .word s => some s
  | .quoted _ s => some s
  | .text s => some s
  | _ => none

def lone? : List Token → Option String
  | [t] => name? t
  | _ => none

def names? (ts : List Token) : Option (List String) := (cutAt (· = .comma) ts).mapM lone?

/-- Words that join tables. They can be names, but not in every place. -/
def joinWords : List String := ["CROSS", "FULL", "INNER", "LEFT", "NATURAL", "OUTER", "RIGHT", "INDEXED"]

def operatorWords : List String := ["GLOB", "LIKE", "MATCH", "REGEXP"]

/-- Words that begin an expression of their own. -/
def startWords : List String := ["CAST", "CURRENT_DATE", "CURRENT_TIME", "CURRENT_TIMESTAMP", "RAISE"]

def nameBut? (words : List String) : Token → Option String
  | .word s => if s.toUpper ∈ words then none else some s
  | t => name? t

def table? : List Token → Option (TableName × Nat)
  | t :: .dot :: u :: _ => do return (⟨some (← name? t), ← name? u⟩, 3)
  | t :: _ => do return (⟨none, ← name? t⟩, 1)
  | [] => none

def closed? (ts : List Token) : Option (List Token × List Token) :=
  match ts.dropWhile (· ≠ .closeParen) with
  | [] => none
  | _ :: rest => some (ts.takeWhile (· ≠ .closeParen), rest)

/-! Definitions of tables -/

def typeNames : List String := ["ANY", "BLOB", "INT", "INTEGER", "REAL", "TEXT"]

/-- A type as it is kept: without marks around it, and in upper case if it is a common one. -/
def typeText (s : String) : String :=
  let bare := match s.toList with
    | c :: r =>
      if c = '\'' ∨ c = '"' ∨ c = '\x60' ∨ c = '[' then
        match Text.Quoted.body? (if c = '[' then ']' else c) r with
        | some (t, _) => String.ofList t
        | none => s
      else s
    | [] => s
  if bare.toUpper ∈ typeNames then bare.toUpper else bare

def isSize : List Token → Bool
  | [.number _] => true
  | [.minus, .number _] => true
  | [.plus, .number _] => true
  | _ => false

/-- The lexemes of a type at the start: names, and behind them a size or two in parentheses. -/
def typeLength? (ls : List Lexeme) : Option Nat :=
  let n := (ls.takeWhile fun l => (nameBut? joinWords l.token).isSome).length
  match tokens (ls.drop n) with
  | .openParen :: ts => do
    let (sizes, _) ← closed? ts
    let pieces := cutAt (· = .comma) sizes
    if 0 < n ∧ pieces.length ≤ 2 ∧ pieces.all isSize then some (n + sizes.length + 2) else none
  | _ => some n

def constrained? (c : ColumnDefinition) : List Token → Option ColumnDefinition
  | [] => some c
  | .reserved "NOT" :: .reserved "NULL" :: ts => constrained? { c with notNull := true } ts
  | .reserved "UNIQUE" :: ts => constrained? { c with unique := true } ts
  | _ => none

def column? : List Lexeme → Option ColumnDefinition
  | [] => none
  | l :: ls => do
    let name ← name? l.token
    let n ← typeLength? ls
    constrained? ⟨name, typeText (spanned (ls.take n)), false, false⟩ (tokens (ls.drop n))

/-- A column of a key; in a key it is an expression. -/
def keyName? : List Token → Option String
  | [t] => nameBut? startWords t
  | _ => none

def clause? (d : Definition) : List Token → Option Definition
  | .reserved "PRIMARY" :: key :: .openParen :: ts => do
    let (names, rest) ← closed? ts
    let names ← (cutAt (· = .comma) names).mapM keyName?
    if isWord "KEY" key ∧ rest = [] ∧ d.primaryKey = [] then some { d with primaryKey := names }
    else none
  | [.reserved "FOREIGN", key, .openParen, column, .closeParen, .reserved "REFERENCES", table,
      .openParen, target, .closeParen] => do
    let k : ForeignKey := ⟨← name? column, ← name? table, ← name? target⟩
    if isWord "KEY" key then some { d with foreignKeys := d.foreignKeys ++ [k] } else none
  | _ => none

def isClause (ls : List Lexeme) : Bool :=
  match tokens (ls.take 1) with
  | [.reserved _] => true
  | _ => false

def create? (strict : Bool) (ls : List Lexeme) : Option Command := do
  let (t, n) ← table? (tokens ls)
  let pieces := cutOutside 0 (ls.drop (n + 1)).dropLast
  if tokens ((ls.drop n).take 1) = [.openParen] ∧ (tokens ls).getLast? = some .closeParen then
    let columns ← (pieces.takeWhile (!isClause ·)).mapM column?
    let clauses := (pieces.dropWhile (!isClause ·)).map tokens
    let d ← clauses.foldlM clause? ⟨t.name, columns, [], [], spanned (ls.drop (n - 1))⟩
    if columns = [] then none else some (.create t.schema d strict)
  else none

/-! Changes -/

def insert? (ts : List Token) : Option Command := do
  let (table, n) ← table? ts
  let rest ← match ts.drop n with
    | .reserved "AS" :: t :: ts => (name? t).map fun _ => ts
    | ts => some ts
  match rest with
  | .openParen :: ts =>
    let (columns, rest) ← closed? ts
    match rest with
    | .reserved "VALUES" :: .openParen :: rest =>
      let (markers, rest) ← closed? rest
      let columns ← names? columns
      if rest = [] ∧ cutAt (· = .comma) markers = List.replicate columns.length [.question] then
        some (.insert table columns)
      else none
    | _ => none
  | _ => none

def drop? (strict : Bool) (ts : List Token) : Option Command := do
  let (table, n) ← table? ts
  if ts.drop n = [] then some (.drop table strict) else none

/-! Queries -/

def integer? (s : String) : Option Nat :=
  if s.toList.all Char.isDigit then some (Decimal.natOf 0 s.toList) else none

def operand? : List Token → Option Operand
  | [.reserved "NULL"] => some .null
  | [.number s] => do return .integer (← integer? s)
  | [.minus, .number s] => do return .integer (-(← integer? s))
  | [.text s] => some (.text s)
  | _ => none

def columnName? : List Token → Option ColumnName
  | [.word s] => do return ⟨none, ← nameBut? startWords (.word s), false⟩
  | [.quoted mark s] => some ⟨none, s, mark = '"'⟩
  | [t, .dot, u] => do return ⟨some ⟨none, ← nameBut? startWords t⟩, ← name? u, false⟩
  | [s, .dot, t, .dot, u] => do
    return ⟨some ⟨some (← nameBut? startWords s), ← name? t⟩, ← name? u, false⟩
  | _ => none

def scalar? (ts : List Token) : Option Scalar :=
  (columnName? ts).map .column <|> (operand? ts).map .literal

/-- What is left of a list of tokens without a name that is given at its end. -/
def named? (words : List String) (ts : List Token) : Option (List Token × Option String) :=
  match ts.reverse with
  | t :: .reserved "AS" :: rest => do return (rest.reverse, some (← name? t))
  | t :: rest => do return (rest.reverse, some (← nameBut? words t))
  | [] => none

def item? (ls : List Lexeme) : Option Item :=
  match tokens ls with
  | [.star] => some (.all none)
  | [t, .dot, .star] => do return .all (some ⟨none, ← name? t⟩)
  | [f, .openParen, .star, .closeParen] =>
    if isWord "COUNT" f then some (.count (spannedToNext ls)) else none
  | ts =>
    match scalar? ts with
    | some s => some (.value s none (spannedToNext ls))
    | none => do
      let (rest, label) ← named? (joinWords ++ operatorWords) ts
      return .value (← scalar? rest) label (spannedToNext ls)

def isComparison : Token → Bool
  | .compare _ => true
  | _ => false

def comparison? (ts : List Token) : Option Comparison :=
  match ts.dropWhile (!isComparison ·) with
  | .compare op :: right => do
    return ⟨← scalar? (ts.takeWhile (!isComparison ·)), op, ← operand? right⟩
  | _ => none

def depthLimit : Nat := 1000

def widthLimit : Nat := 2000

def condition? (ts : List Token) : Option Condition := do
  let c ← (cutAt (· = .reserved "OR") ts).mapM fun a =>
    (cutAt (· = .reserved "AND") a).mapM comparison?
  if Condition.depth c ≤ depthLimit then some c else none

def sortKey? (ts : List Token) : Option (Scalar × Direction) :=
  match ts.reverse with
  | .word w :: rest =>
    if w.toUpper = "ASC" then do return (← scalar? rest.reverse, .ascending)
    else if w.toUpper = "DESC" then do return (← scalar? rest.reverse, .descending)
    else none
  | _ => none

def whereClause? : List Token → Option Condition
  | [] => some [[]]
  | .reserved "WHERE" :: ts => condition? ts
  | _ => none

def orderClause? : List Token → Option (List (Scalar × Direction))
  | [] => some []
  | .reserved "ORDER" :: by_ :: ts => do
    let keys ← (cutAt (· = .comma) ts).mapM sortKey?
    if isWord "BY" by_ ∧ keys.length ≤ widthLimit then some keys else none
  | _ => none

/-- An offset has to follow a limit. -/
def limitClause? : List Token → Option (Option Nat × Option Nat)
  | [] => some (none, none)
  | [.reserved "LIMIT", .number n] => do return (some (← integer? n), none)
  | [.reserved "LIMIT", .number n, word, .number m] =>
    if isWord "OFFSET" word then do return (some (← integer? n), some (← integer? m)) else none
  | _ => none

def isOrder (t : Token) : Bool := t = .reserved "ORDER"

def isLimit (t : Token) : Bool := t = .reserved "LIMIT"

def isClauseStart (t : Token) : Bool := t = .reserved "WHERE" || isOrder t || isLimit t

/-- A query, by what stands between `SELECT` and `FROM` and what stands behind. -/
def select? (what : List Lexeme) (ts : List Token) : Option Command := do
  let pieces := cutAt (·.token = .comma) what
  let items ← if pieces.length ≤ widthLimit then pieces.mapM item? else none
  let (table, n) ← table? ts
  let label ← match (ts.drop n).takeWhile (!isClauseStart ·) with
    | [] => some none
    | [.reserved "AS", t] => (name? t).map some
    | [t] => (nameBut? joinWords t).map some
    | _ => none
  let rest := (ts.drop n).dropWhile (!isClauseStart ·)
  let condition ← whereClause? (rest.takeWhile fun t => !isOrder t && !isLimit t)
  let rest := rest.dropWhile fun t => !isOrder t && !isLimit t
  let order ← orderClause? (rest.takeWhile fun t => !isLimit t)
  let (limit, offset) ← limitClause? (rest.dropWhile fun t => !isLimit t)
  return .select ⟨items, table, label, condition, order, limit, offset⟩

def isFrom (l : Lexeme) : Bool := l.token = .reserved "FROM"

/-- The name that stands between parentheses as an argument: a name, a number, or one of a few
reserved words. -/
def argument? : List Token → Option String
  | [.reserved s] => if s ∈ ["DEFAULT", "DELETE", "ON"] then some s else none
  | [.number s] => some s
  | [.plus, .number s] => some s
  | [.minus, .number s] => some ("-" ++ s)
  | ts => lone? ts

def describe? : List Token → Option Command
  | what :: .openParen :: ts => do
    let (argument, rest) ← closed? ts
    if isWord "TABLE_INFO" what ∧ rest = [] then (argument? argument).map .describe else none
  | _ => none

def ofLexemes? (ls : List Lexeme) : Option Command :=
  match tokens ls with
  | .reserved "CREATE" :: .reserved "TABLE" :: t :: ts =>
    if isWord "IF" t then
      if ts.take 2 = [.reserved "NOT", .reserved "EXISTS"] then create? false (ls.drop 5) else none
    else create? true (ls.drop 2)
  | .reserved "DROP" :: .reserved "TABLE" :: t :: ts =>
    if isWord "IF" t then
      if ts.take 1 = [.reserved "EXISTS"] then drop? false (ts.drop 1) else none
    else drop? true (t :: ts)
  | .reserved "INSERT" :: .reserved "INTO" :: ts => insert? ts
  | .word w :: ts => if isWord "PRAGMA" (.word w) then describe? ts else none
  | .reserved "SELECT" :: _ =>
    match (ls.drop 1).dropWhile (!isFrom ·) with
    | _ :: rest => select? ((ls.drop 1).takeWhile (!isFrom ·)) (tokens rest)
    | [] => none
  | _ => none

/-- Reads a text as commands, one after another. The others do not suffer from one that cannot be
read. -/
def read (sql : String) : List (Option Command) :=
  ((cutAt (·.token = .semicolon) (Token.scan sql.toList)).filter (· ≠ [])).map ofLexemes?

end Rowmap.Command
