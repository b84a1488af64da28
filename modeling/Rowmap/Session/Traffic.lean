import Rowmap.Session.Basic
/-! Sessions at work at the same time, with one registry. A configuration is over in one step. The creation of
a table takes several: it gets hold of its connection, writes its statement with the constraints of that
moment, and sends it. Between its steps others take theirs. -/

namespace Rowmap

/-- How far the creation of a table has come. -/
inductive Creation.Stage where
  /-- The batch that it came with is still to be registered. -/
  | registering
  | waiting
  /-- The connection is its own until it is over. -/
  | holding
  | written (sql : String)
  | finished (outcome : Except Error Unit)

def Creation.Stage.isHolding : Creation.Stage → Bool
  | .holding | .written _ => true
  | _ => false

/-- The creation of a table, with the batch that is registered first. -/
structure Creation where
  connection : Nat
  type : RecordType
  batch : List Expr
  stage : Creation.Stage

inductive Happening where
  | configured (t : RecordType) (es : List Expr) (outcome : Except Error Unit)
  | sent (creation : Nat) (sql : String)

structure Traffic (β : Type) extends Group β where
  creations : List Creation
  history : List Happening

namespace Traffic

variable {β : Type}

/-- Sessions that have done nothing yet, with a registry that is new to all of them. -/
def new (connections : List β) (sessions : List Nat) : Traffic β where
  registry := .empty
  connections := connections
  sessions := sessions
  creations := []
  history := []

def isHeld (w : Traffic β) (c : Nat) : Bool :=
  w.creations.any fun k => k.connection = c && k.stage.isHolding

def setStage (w : Traffic β) (i : Nat) (s : Creation.Stage) : Traffic β :=
  { w with creations := w.creations.modify i ({ · with stage := s }) }

def add (w : Traffic β) (k : Creation) : Traffic β := { w with creations := w.creations ++ [k] }

def begin (w : Traffic β) (session : Nat) (k : Nat → Creation) : Traffic β :=
  match w.sessions[session]? with
  | some c => w.add (k c)
  | none => w

def configure (w : Traffic β) (t : RecordType) (es : List Expr) : Traffic β :=
  let r := Registry.configure t es w.registry
  { w with
    registry := Action.after r
    history := w.history ++ [.configured t es (Action.outcome r)] }

def register (w : Traffic β) (i : Nat) (k : Creation) : Traffic β :=
  (w.configure k.type k.batch).setStage i
    (match Action.outcome (Registry.configure k.type k.batch w.registry) with
      | .ok () => .waiting
      | .error e => .finished (.error e))

variable [Backend β]

def write (w : Traffic β) (i : Nat) (k : Creation) : Traffic β :=
  match w.connections[k.connection]? with
  | some b =>
    w.setStage i
      (match w.registry.createSql k.type (Backend.columnType b) with
        | .ok sql => .written sql
        | .error e => .finished (.error e))
  | none => w

def deliver (w : Traffic β) (i c : Nat) (b : β) (sql : String) : Traffic β :=
  { w with
    connections := w.connections.set c (Action.after (Backend.execute (Statement.plain sql) b))
    history := w.history ++ [.sent i sql] }

def send (w : Traffic β) (i : Nat) (k : Creation) (sql : String) : Traffic β :=
  match w.connections[k.connection]? with
  | some b =>
    (w.deliver i k.connection b sql).setStage i
      (.finished ((Action.outcome (Backend.execute (Statement.plain sql) b)).map fun _ => ()))
  | none => w

/-- The next step of a creation. One that waits for a connection goes on when nobody holds it. -/
def advance (w : Traffic β) (i : Nat) : Traffic β :=
  match w.creations[i]? with
  | none => w
  | some k =>
    match k.stage with
    | .registering => w.register i k
    | .waiting => if w.isHeld k.connection then w else w.setStage i .holding
    | .holding => w.write i k
    | .written sql => w.send i k sql
    | .finished _ => w

inductive Event (β : Type) where
  | copy (session : Nat)
  | join (b : β)
  | configure (t : RecordType) (es : List Expr)
  | create (session : Nat) (t : RecordType)
  | createWith (session : Nat) (t : RecordType) (es : List Expr)
  | advance (creation : Nat)
  /-- Whatever else is done with a connection. -/
  | use (session : Nat) (f : β → β)

/-- A step that cannot be taken changes nothing. -/
def step (w : Traffic β) : Event β → Traffic β
  | .copy s =>
    match w.sessions[s]? with
    | some c => { w with toGroup := w.toGroup.copy c }
    | none => w
  | .join b => { w with toGroup := w.toGroup.join b }
  | .configure t es => w.configure t es
  | .create s t => w.begin s (⟨·, t, [], .waiting⟩)
  | .createWith s t es => w.begin s (⟨·, t, es, .registering⟩)
  | .advance i => w.advance i
  | .use s f =>
    match w.sessions[s]? with
    | some c => if w.isHeld c then w else { w with toShared := w.toShared.modify c f }
    | none => w

def run (w : Traffic β) (evs : List (Event β)) : Traffic β := evs.foldl step w

end Traffic

end Rowmap
