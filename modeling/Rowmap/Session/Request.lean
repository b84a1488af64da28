import Rowmap.Session.Basic
/-! What an operation asks of its connection. The statements can all be written before the first of them is
sent; they are sent in turn, up to one that fails, and the operation answers from the replies. -/

namespace Rowmap

inductive Request where
  | execute (s : Statement)
  | query (sql : String)
  | scalar (sql : String)

inductive Reply where
  | done (changed : Nat)
  | rows (rs : List Row)
  | integer (n : Int)

namespace Reply

def changed : Reply → Nat
  | done n => n
  | _ => 0

def found : Reply → List Row
  | rows rs => rs
  | _ => []

def value : Reply → Int
  | integer n => n
  | _ => 0

def total : List Reply → Nat
  | [] => 0
  | r :: rs => r.changed + total rs

def first : List Reply → Int
  | [] => 0
  | r :: _ => r.value

end Reply

namespace Request

variable {β : Type} [Backend β]

def statement : Request → Statement
  | execute s => s
  | query sql => .plain sql
  | scalar sql => .plain sql

def send : Request → Action β Reply
  | execute s => .done <$> Backend.execute s
  | query sql => .rows <$> Backend.query sql
  | scalar sql => .integer <$> Backend.scalar sql

/-- Sends requests in turn, up to the first that fails. -/
def sendAll : List Request → Action β (List Reply)
  | [] => pure []
  | q :: qs => do
    let r ← send q
    let rs ← sendAll qs
    return r :: rs

end Request

namespace Operation

def batch? : Operation → Option (RecordType × List Expr)
  | configure t es => some (t, es)
  | createTableWith t es => some (t, es)
  | _ => none

def registryAfter (r : Registry) (op : Operation) : Registry :=
  match op.batch? with
  | some (t, es) => Action.after (Registry.configure t es r)
  | none => r

/-- What an operation sends, for a registry, the markers and the column types of a connection. -/
def requests (r : Registry) (marker : Nat → Kind → String) (columnType : Kind → ColumnType) :
    Operation → Except Error (List Request)
  | configure t es => do
    Action.outcome (Registry.configure t es r)
    return []
  | createTable t => do
    let sql ← r.createSql t columnType
    return [.execute (.plain sql)]
  | createTableWith t es => do
    Action.outcome (Registry.configure t es r)
    let sql ← (Action.after (Registry.configure t es r)).createSql t columnType
    return [.execute (.plain sql)]
  | dropTable t => .ok [.execute (.plain t.dropSql)]
  | insert _ o => .ok [.execute (o.insertion marker)]
  | insertAll _ os => .ok (os.map fun o => .execute (o.insertion marker))
  | objects t q => do
    let sql ← q.select t
    return [.query sql]
  | object t q => do
    let sql ← (if q.limit.isSome then q else { q with limit := some 1 }).select t
    return [.query sql]
  | count t q => do
    let sql ← q.count t
    return [.scalar sql]
  | execute sql => .ok [.execute (.plain sql)]
  | query sql => .ok [.query sql]

def written {β : Type} [Backend β] (s : Session β) (op : Operation) : Except Error (List Request) :=
  op.requests s.registry (Backend.marker s.backend) (Backend.columnType s.backend)

/-- What an operation makes of the replies when none of its requests fails. -/
def answer (rs : List Reply) : Operation → Except Error Answer
  | configure _ _ | createTable _ | createTableWith _ _ | dropTable _ => .ok .done
  | insert _ _ | insertAll _ _ | execute _ => .ok (.number (Reply.total rs))
  | objects t _ => .records t <$> Session.readAll t (rs.flatMap Reply.found)
  | object t _ => (fun os => .record t os.head?) <$> Session.readAll t (rs.flatMap Reply.found)
  | count _ _ => .ok (.number (Reply.first rs))
  | query _ => .ok (.rows (rs.flatMap Reply.found))

def conduct {β : Type} [Backend β] (op : Operation) (qs : List Request) : Action (Session β) Answer := do
  let rs ← Session.onBackend (Request.sendAll qs)
  op.answer rs

end Operation

/-- A backend that writes down every statement it is given, one that fails as well. -/
class Recording (β : Type) extends Backend β where
  log : β → List Statement
  log_send : ∀ (q : Request) (b : β), log (Action.after (q.send b)) = log b ++ [q.statement]
  marker_send : ∀ (q : Request) (b : β), Backend.marker (Action.after (q.send b)) = Backend.marker b

end Rowmap
