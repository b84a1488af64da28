import Rowmap.Expr.Basic
import Rowmap.Number.Decimal
import Rowmap.Text.Basic
/-! The words, numerals, quoted texts and signs of a command text. A reserved word is a token of
its own in any mix of letter case, and never a name unless it is quoted. Every token is kept with
its text and the blanks behind it, so that parts of the text can be put together again. -/

namespace Rowmap

inductive Token where
  | word (s : String)
  /-- A name between marks other than the single quote. -/
  | quoted (mark : Char) (s : String)
  | reserved (s : String)
  | number (s : String)
  | text (s : String)
  | compare (op : Operator)
  | minus
  | plus
  | comma
  | star
  | question
  | dot
  | semicolon
  | openParen
  | closeParen
  /-- All that is left where no token can be read. -/
  | unknown
deriving DecidableEq, Repr

structure Lexeme where
  token : Token
  text : String
  blanks : String
deriving DecidableEq, Repr

namespace Token

def isSpace (c : Char) : Bool := c = ' ' || c = '\t' || c = '\n' || c = '\x0c' || c = '\r'

/-- Behind a space a vertical tab is one more. -/
def isMoreSpace (c : Char) : Bool := isSpace c || c = '\x0b'

/-- What follows the end of a comment between slashes and stars; it may be left open. -/
def afterComment : List Char → List Char
  | [] => []
  | '*' :: '/' :: s => s
  | _ :: s => afterComment s

/-- What follows one stretch of space, comment or byte order mark at the start. -/
def blank? : List Char → Option (List Char)
  | [] => none
  | '\ufeff' :: s => some s
  | '-' :: '-' :: s => some (s.dropWhile (· ≠ '\n'))
  | '/' :: '*' :: c :: s => some (afterComment (c :: s))
  | c :: s => if isSpace c then some (s.dropWhile isMoreSpace) else none

def afterBlanks (s : List Char) : List Char :=
  match blank? s with
  | some r => if r.length < s.length then afterBlanks r else r
  | none => s
termination_by s.length

/-- Letters, the underscore, and everything outside ASCII. -/
def isWordStart (c : Char) : Bool := c.isAlpha || c = '_' || 0x80 ≤ c.toNat

def isWordPart (c : Char) : Bool := isWordStart c || c.isDigit || c = '$'

def reservedWords : List String :=
  ["ADD", "ALL", "ALTER", "AND", "AS", "AUTOINCREMENT", "BETWEEN", "CASE", "CHECK", "COLLATE",
   "COMMIT", "CONSTRAINT", "CREATE", "DEFAULT", "DEFERRABLE", "DELETE", "DISTINCT", "DROP", "ELSE",
   "ESCAPE", "EXCEPT", "EXISTS", "FOREIGN", "FROM", "GROUP", "HAVING", "IN", "INDEX", "INSERT",
   "INTERSECT", "INTO", "IS", "ISNULL", "JOIN", "LIMIT", "NOT", "NOTHING", "NOTNULL", "NULL", "ON",
   "OR", "ORDER", "PRIMARY", "REFERENCES", "RETURNING", "SELECT", "SET", "TABLE", "THEN", "TO",
   "TRANSACTION", "UNION", "UNIQUE", "UPDATE", "USING", "VALUES", "WHEN", "WHERE"]

def ofWord (s : String) : Token :=
  if s.toUpper ∈ reservedWords then .reserved s.toUpper else .word s

def isHexDigit (c : Char) : Bool :=
  c.isDigit || ('a' ≤ c && c ≤ 'f') || ('A' ≤ c && c ≤ 'F')

/-- What follows the exponent of a numeral; one without a digit is none. -/
def afterExponent (s : List Char) : List Char :=
  let digits := match s.drop 1 with
    | '+' :: r => r
    | '-' :: r => r
    | r => r
  if (s.head?.any fun c => c = 'e' || c = 'E') && digits.head?.any Char.isDigit then
    digits.dropWhile Char.isDigit
  else s

/-- What follows a numeral. A word may not follow directly, except behind hexadecimal digits. -/
def afterNumeral? (s : List Char) : Option (List Char) :=
  match s with
  | '0' :: x :: d :: r =>
    if (x = 'x' ∨ x = 'X') ∧ isHexDigit d then some (r.dropWhile isHexDigit) else decimal? s
  | _ => decimal? s
where
  decimal? (s : List Char) : Option (List Char) :=
    let rest := match s.dropWhile Char.isDigit with
      | '.' :: r => afterExponent (r.dropWhile Char.isDigit)
      | r => afterExponent r
    if rest.head?.any isWordPart then none else some rest

def sign? : List Char → Option (Token × List Char)
  | '<' :: '>' :: s => some (.compare .ne, s)
  | '<' :: '=' :: s => some (.compare .le, s)
  | '>' :: '=' :: s => some (.compare .ge, s)
  | '=' :: '=' :: s => some (.compare .eq, s)
  | '!' :: '=' :: s => some (.compare .ne, s)
  | '<' :: s => some (.compare .lt, s)
  | '>' :: s => some (.compare .gt, s)
  | '=' :: s => some (.compare .eq, s)
  | '-' :: s => some (.minus, s)
  | '+' :: s => some (.plus, s)
  | ',' :: s => some (.comma, s)
  | '*' :: s => some (.star, s)
  | '?' :: s => some (.question, s)
  | '.' :: s => some (.dot, s)
  | ';' :: s => some (.semicolon, s)
  | '(' :: s => some (.openParen, s)
  | ')' :: s => some (.closeParen, s)
  | _ => none

def before (s rest : List Char) : String := String.ofList (s.take (s.length - rest.length))

def number? (s : List Char) : Option (Token × List Char) :=
  (afterNumeral? s).map fun rest => (.number (before s rest), rest)

/-- A word; one that marks a quoted text as bytes is no word. -/
def word? (s : List Char) : Option (Token × List Char) :=
  let w := s.takeWhile isWordPart
  let rest := s.dropWhile isWordPart
  if rest.head? = some '\'' ∧ (w = ['x'] ∨ w = ['X']) then none
  else some (ofWord (String.ofList w), rest)

def enclosed? (mark : Char) (s : List Char) : Option (Token × List Char) :=
  if mark = '[' then
    match s.dropWhile (· ≠ ']') with
    | [] => none
    | _ :: rest => some (.quoted mark (String.ofList (s.takeWhile (· ≠ ']'))), rest)
  else
    (Text.Quoted.body? mark s).map fun p =>
      (if mark = '\'' then .text (String.ofList p.1) else .quoted mark (String.ofList p.1), p.2)

def next? : List Char → Option (Token × List Char)
  | [] => none
  | c :: s =>
    if isWordStart c then word? (c :: s)
    else if c.isDigit || (c = '.' && s.head?.any Char.isDigit) then number? (c :: s)
    else if c = '\'' || c = '"' || c = '\x60' || c = '[' then enclosed? c s
    else sign? (c :: s)

def unread (s : List Char) : Lexeme := ⟨.unknown, String.ofList s, ""⟩

def scanFrom (s : List Char) : List Lexeme :=
  if s = [] then []
  else
    match next? s with
    | none => [unread s]
    | some (t, r) =>
      let rest := afterBlanks r
      if rest.length < s.length then ⟨t, before s r, before r rest⟩ :: scanFrom rest
      else [unread s]
termination_by s.length

/-- All tokens of a text. In a text with a zero character nothing can be read. -/
def scan (s : List Char) : List Lexeme :=
  if '\x00' ∈ s then [unread s] else scanFrom (afterBlanks s)

end Token

end Rowmap
