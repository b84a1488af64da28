/-! The constraints registered for one record type. Every collection keeps the order of arrival and
holds a field once; nothing is taken out. -/

namespace Rowmap

structure Target where
  table : String
  column : String
deriving DecidableEq, Repr

/-- Adds a name that is not there yet, at the end. -/
def addOnce (names : List String) (name : String) : List String :=
  if name ∈ names then names else names ++ [name]

structure ConstraintStore where
  notNull : List String := []
  unique : List String := []
  primaryKey : List String := []
  foreignKeys : List (String × Target) := []
deriving DecidableEq, Repr

namespace ConstraintStore

def empty : ConstraintStore := {}

def isNotNull (s : ConstraintStore) (field : String) : Bool := field ∈ s.notNull

def isUnique (s : ConstraintStore) (field : String) : Bool := field ∈ s.unique

def isPrimaryKey (s : ConstraintStore) (field : String) : Bool := field ∈ s.primaryKey

def foreignKey? (s : ConstraintStore) (field : String) : Option Target := s.foreignKeys.lookup field

def isEmpty (s : ConstraintStore) : Bool :=
  s.notNull.isEmpty && s.unique.isEmpty && s.primaryKey.isEmpty && s.foreignKeys.isEmpty

def addNotNull (s : ConstraintStore) (field : String) : ConstraintStore :=
  { s with notNull := addOnce s.notNull field }

def addUnique (s : ConstraintStore) (field : String) : ConstraintStore :=
  { s with unique := addOnce s.unique field }

def addPrimaryKey (s : ConstraintStore) (field : String) : ConstraintStore :=
  { s with primaryKey := addOnce s.primaryKey field }

/-- A field keeps its first reference. -/
def addForeignKey (s : ConstraintStore) (field : String) (target : Target) : ConstraintStore :=
  if (s.foreignKey? field).isSome then s
  else { s with foreignKeys := s.foreignKeys ++ [(field, target)] }

inductive Addition where
  | notNull (field : String)
  | unique (field : String)
  | primaryKey (field : String)
  | foreignKey (field : String) (target : Target)
deriving DecidableEq, Repr

def add (s : ConstraintStore) : Addition → ConstraintStore
  | .notNull f => s.addNotNull f
  | .unique f => s.addUnique f
  | .primaryKey f => s.addPrimaryKey f
  | .foreignKey f t => s.addForeignKey f t

/-- Whether an addition would change the store. -/
def lacks (s : ConstraintStore) : Addition → Bool
  | .notNull f => !s.isNotNull f
  | .unique f => !s.isUnique f
  | .primaryKey f => !s.isPrimaryKey f
  | .foreignKey f _ => (s.foreignKey? f).isNone

end ConstraintStore

end Rowmap
