import Rowmap.Backend.Basic
import Rowmap.Query
import Rowmap.Schema.Registry
/-! A session: a connection together with the registry that its tables are defined by. Every operation writes its
statement first and sends it then, so one that cannot be written sends nothing. Connections can share one registry; a
session on them is a number that leads to a connection, so a copy of a session is the same number again. -/

namespace Rowmap

structure Session (β : Type) where
  registry : Registry
  backend : β

namespace Session

variable {β α : Type} [Backend β]

def onRegistry (x : Action Registry α) : Action (Session β) α :=
  Action.on registry (fun r s => { s with registry := r }) x

def onBackend (x : Action β α) : Action (Session β) α :=
  Action.on backend (fun b s => { s with backend := b }) x

def configure (t : RecordType) (es : List Expr) : Action (Session β) Unit :=
  onRegistry (Registry.configure t es)

def createTable (t : RecordType) : Action (Session β) Unit := do
  let s ← get
  let sql ← s.registry.createSql t (Backend.columnType s.backend)
  let _ ← onBackend (Backend.execute (Statement.plain sql))

def createTableWith (t : RecordType) (es : List Expr) : Action (Session β) Unit := do
  configure t es
  createTable t

def dropTable (t : RecordType) : Action (Session β) Unit := do
  let _ ← onBackend (Backend.execute (Statement.plain t.dropSql))

def insert {t : RecordType} (o : Record t) : Action (Session β) Nat := do
  let s ← get
  onBackend (Backend.execute (o.insertion (Backend.marker s.backend)))

/-- Inserts records one by one, up to the first that fails; the rows before it stay. -/
def insertAll {t : RecordType} : List (Record t) → Action (Session β) Nat
  | [] => pure 0
  | o :: os => do
    let n ← insert o
    let m ← insertAll os
    return n + m

def readAll (t : RecordType) : List Row → Except Error (List (Record t))
  | [] => .ok []
  | r :: rs => do
    let o ← Record.ofRow t r
    let os ← readAll t rs
    return o :: os

def objects (t : RecordType) (q : Query) : Action (Session β) (List (Record t)) := do
  let sql ← q.select t
  let rows ← onBackend (Backend.query sql)
  readAll t rows

/-- The first record that matches; a query without a limit is cut to one row. -/
def object (t : RecordType) (q : Query) : Action (Session β) (Option (Record t)) := do
  let os ← objects t (if q.limit.isSome then q else { q with limit := some 1 })
  return os.head?

def count (t : RecordType) (q : Query) : Action (Session β) Int := do
  let sql ← q.count t
  onBackend (Backend.scalar sql)

def execute (sql : String) : Action (Session β) Nat :=
  onBackend (Backend.execute (Statement.plain sql))

def query (sql : String) : Action (Session β) (List Row) := onBackend (Backend.query sql)

def isConnected (s : Session β) : Bool := Backend.connected s.backend

def inspect (s : Session β) : String :=
  "Session \x7b registry: " ++ s.registry.inspect ++ ", .. \x7d"

/-- Opens a session with a registry of its own. -/
def connect {σ : Type} (connection : Action σ β) : Action σ (Session β) := do
  let b ← connection
  return ⟨.empty, b⟩

/-- Opens a session, or tells why there is none. -/
def connectOrReport {σ : Type} (connection : Action σ β) : Action σ (Session β ⊕ Option String) :=
  tryCatch (Sum.inl <$> connect connection) fun e => pure (.inr e.message)

end Session

inductive Operation where
  | configure (t : RecordType) (es : List Expr)
  | createTable (t : RecordType)
  | createTableWith (t : RecordType) (es : List Expr)
  | dropTable (t : RecordType)
  | insert (t : RecordType) (o : Record t)
  | insertAll (t : RecordType) (os : List (Record t))
  | objects (t : RecordType) (q : Query)
  | object (t : RecordType) (q : Query)
  | count (t : RecordType) (q : Query)
  | execute (sql : String)
  | query (sql : String)

inductive Answer where
  | done
  | number (n : Int)
  | records (t : RecordType) (os : List (Record t))
  | record (t : RecordType) (o : Option (Record t))
  | rows (rs : List Row)

def Operation.run {β : Type} [Backend β] : Operation → Action (Session β) Answer
  | configure t es => do Session.configure t es; return .done
  | createTable t => do Session.createTable t; return .done
  | createTableWith t es => do Session.createTableWith t es; return .done
  | dropTable t => do Session.dropTable t; return .done
  | insert _ o => do return .number (← Session.insert o)
  | insertAll _ os => do return .number (← Session.insertAll os)
  | objects t q => do return .records t (← Session.objects t q)
  | object t q => do return .record t (← Session.object t q)
  | count t q => do return .number (← Session.count t q)
  | execute sql => do return .number (← Session.execute sql)
  | query sql => do return .rows (← Session.query sql)

structure Shared (β : Type) where
  registry : Registry
  connections : List β

namespace Shared

variable {β α : Type}

def session? (w : Shared β) (c : Nat) : Option (Session β) :=
  w.connections[c]?.map (⟨w.registry, ·⟩)

def put (w : Shared β) (c : Nat) (s : Session β) : Shared β :=
  ⟨s.registry, w.connections.set c s.backend⟩

def modify (w : Shared β) (c : Nat) (f : β → β) : Shared β :=
  { w with connections := w.connections.modify c f }

/-- Runs an action on the session of a connection, if there is such a connection. -/
def run? (w : Shared β) (c : Nat) (x : Action (Session β) α) : Option (Except Error α × Shared β) :=
  (w.session? c).map fun s => (Action.outcome (x s), w.put c (Action.after (x s)))

end Shared

/-- Numbered sessions that share one registry. -/
structure Group (β : Type) extends Shared β where
  sessions : List Nat

namespace Group

variable {β : Type}

def ofSession (s : Session β) : Group β := ⟨⟨s.registry, [s.backend]⟩, [0]⟩

def copy (g : Group β) (connection : Nat) : Group β :=
  { g with sessions := g.sessions ++ [connection] }

def join (g : Group β) (b : β) : Group β where
  registry := g.registry
  connections := g.connections ++ [b]
  sessions := g.sessions ++ [g.connections.length]

end Group

end Rowmap
