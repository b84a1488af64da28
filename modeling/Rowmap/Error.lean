import Rowmap.Expr.Basic
import Rowmap.Value
/-! What can go wrong, by cause, and the sentence that tells it. -/

namespace Rowmap

inductive Error.Category where
  | schema | fieldNotFound | invalidExpression | typeMapping | query | connection | decoding | driver
deriving DecidableEq, Repr

inductive SchemaFault where
  | memberCount (type : String) (declared registered : Nat)
  | repeatedMember (type field : String)

inductive ExprFault where
  | comparisonRight (found : Expr)
  | operatorInQuery (op : Operator)
  | notPredicate (found : Expr)
  | undeclaredField (index declared : Nat)
  | notField (found : Expr)
  | unresolvedReference (r : Reference)
  | assignmentRight (found : Expr)
  | notAssignment (found : Expr)
  | unregisteredField (index : Nat) (table : String)
  | constraintInQuery (c : Constraint)
  | assignmentInQuery
  | literalInConfiguration (l : Literal)
  | operatorInConfiguration (op : Operator)
  | noTarget
  | notApplied (table : String)

inductive ConnectionFault where
  | unsupportedAddress (address : String)
  | tooMany
  | noneIdle

inductive Error where
  | schema (why : SchemaFault)
  | fieldNotFound (table field : String)
  | invalidExpression (why : ExprFault)
  /-- The value cannot be held by a field of the type named. -/
  | mismatch (found : Value) (type : String)
  /-- The statement gave no integer. -/
  | noInteger (sql : String)
  | connection (why : ConnectionFault)
  | decoding
  | driver
  /-- A backend failed in its own words. -/
  | reported (category : Error.Category) (words : String)

def SchemaFault.message : SchemaFault → String
  | memberCount t d r =>
    t ++ " declares " ++ toString d ++ " members but " ++ toString r ++ " fields were registered"
  | repeatedMember t f => t ++ " registers field " ++ f ++ " more than once"

def ExprFault.message : ExprFault → String
  | comparisonRight e => "comparison expects a literal on the right, found " ++ e.inspect
  | operatorInQuery op => "operator " ++ op.symbol ++ " is not allowed in a query"
  | notPredicate e => e.inspect ++ " is not a query predicate"
  | undeclaredField i n =>
    "placeholder " ++ toString i ++ " is outside the " ++ toString n ++ " declared fields"
  | notField e => "expected a field placeholder, found " ++ e.inspect
  | unresolvedReference r =>
    "foreign key placeholder " ++ toString r.index ++ " is outside the fields of " ++ r.table
  | assignmentRight e => "assignment expects a constraint on the right, found " ++ e.inspect
  | notAssignment e => e.inspect ++ " is not a configuration assignment"
  | unregisteredField i t => "placeholder " ++ toString i ++ " is outside the fields of " ++ t
  | constraintInQuery c => "constraint " ++ c.inspect ++ " cannot appear in a query"
  | assignmentInQuery => "assignment cannot appear in a query"
  | literalInConfiguration l => "literal " ++ l.inspect ++ " cannot appear in a configuration"
  | operatorInConfiguration op => "operator " ++ op.symbol ++ " cannot appear in a configuration"
  | noTarget => "constraint has no target field"
  | notApplied t => "configuration of " ++ t ++ " was not applied"

def ConnectionFault.message : ConnectionFault → String
  | unsupportedAddress a => "unsupported url: " ++ a
  | tooMany => "too many connections"
  | noneIdle => "no idle session in pool"

namespace Error

def category : Error → Category
  | schema _ => .schema
  | fieldNotFound _ _ => .fieldNotFound
  | invalidExpression _ => .invalidExpression
  | mismatch _ _ => .typeMapping
  | noInteger _ => .query
  | connection _ => .connection
  | decoding => .decoding
  | driver => .driver
  | reported c _ => c

/-- Whether the database or the way to it failed, and not the caller. -/
def isExecution (e : Error) : Bool :=
  e.category = .connection || e.category = .driver

/-- The sentence of a family about some matter. Decoding and driver errors are told in the words of
others and have none here. -/
def sentence (c : Category) (words : String) : Option String :=
  match c with
  | .schema => some ("Schema error: " ++ words)
  | .fieldNotFound => some ("Field not found: " ++ words)
  | .invalidExpression => some ("Invalid expression: " ++ words)
  | .typeMapping => some ("Type mapping error: " ++ words)
  | .query => some ("Query error: " ++ words)
  | .connection => some ("Connection error: " ++ words)
  | .decoding => none
  | .driver => none

def words : Error → String
  | schema f => f.message
  | fieldNotFound t f => t ++ "." ++ f
  | invalidExpression f => f.message
  | mismatch v t => "cannot convert " ++ v.compact ++ " to " ++ t
  | noInteger sql => "no integer result for: " ++ sql
  | connection f => f.message
  | decoding => ""
  | driver => ""
  | reported .fieldNotFound w => w ++ "." ++ w
  | reported _ w => w

def message (e : Error) : Option String := sentence e.category e.words

end Error

theorem bind_eq_ok {α β : Type} {x : Except Error α} {f : α → Except Error β} {b : β} :
    x >>= f = .ok b ↔ ∃ a, x = .ok a ∧ f a = .ok b := by
  constructor
  · intro h
    cases x with
    | ok a => exact ⟨a, rfl, h⟩
    | error e => cases h
  · rintro ⟨a, rfl, h⟩
    exact h

theorem bind_eq_error {α β : Type} {x : Except Error α} {f : α → Except Error β} {e : Error} :
    x >>= f = .error e ↔ x = .error e ∨ ∃ a, x = .ok a ∧ f a = .error e := by
  constructor
  · intro h
    cases x with
    | ok a => exact Or.inr ⟨a, rfl, h⟩
    | error e' =>
      cases h
      exact Or.inl rfl
  · rintro (rfl | ⟨a, rfl, h⟩)
    · rfl
    · exact h

theorem map_eq_ok {α β : Type} {x : Except Error α} {f : α → β} {b : β} :
    x.map f = .ok b ↔ ∃ a, x = .ok a ∧ f a = b := by
  cases x with
  | ok a => simp [Except.map]
  | error e => simp [Except.map]

theorem map_eq_error {α β : Type} {x : Except Error α} {f : α → β} {e : Error} :
    x.map f = .error e ↔ x = .error e := by
  cases x with
  | ok a => simp [Except.map]
  | error e' => simp [Except.map]

end Rowmap
