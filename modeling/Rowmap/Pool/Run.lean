import Rowmap.Pool.Basic
/-! What borrowers do with a pool, one step after another. Between the checks of one loan that is being let
go others go on. -/

namespace Rowmap
namespace Pool

inductive Handle where
  | loan (i : Nat)
  | copy (k : Nat)

inductive Event (β : Type) where
  | lend
  | lendNothing
  | copy (h : Handle)
  | dropCopy (k : Nat)
  /-- Whatever is done to a connection by a handle, also to disconnect it. -/
  | use (h : Handle) (f : β → β)
  | lock (h : Handle)
  | unlock (c : Nat)
  | close
  | beginRelease (i : Nat)
  | continueRelease (i : Nat)
  /-- A connection changes and nobody has touched it. -/
  | fault (c : Nat) (f : β → β)

def Event.isFault {β : Type} : Event β → Bool
  | .fault _ _ => true
  | _ => false

variable {β : Type}

/-- The connection that a handle leads to. A loan that is being let go leads nowhere. -/
def reach? (p : Pool β) : Handle → Option Nat
  | .loan i => (p.loan i).usable?
  | .copy k => p.copy? k

def withHandle (p : Pool β) (h : Handle) (f : Nat → Pool β) : Pool β :=
  match p.reach? h with
  | some c => f c
  | none => p

def modify (p : Pool β) (c : Nat) (f : β → β) : Pool β := { p with toShared := p.toShared.modify c f }

/-- A step that cannot be taken, as there is no such loan or copy, changes nothing. -/
def step [Backend β] (p : Pool β) : Event β → Pool β
  | .lend => if p.isOpen then p.lend else p
  | .lendNothing => p.lendNothing
  | .copy h => p.withHandle h p.copy
  | .dropCopy k => p.dropCopy k
  | .use h f => p.withHandle h (p.modify · f)
  | .lock h => p.withHandle h p.lock
  | .unlock c => { p with locked := p.locked.erase c }
  | .close => p.close
  | .beginRelease i => p.beginRelease i
  | .continueRelease i => p.continueRelease i
  | .fault c f => p.modify c f

def run [Backend β] (p : Pool β) (evs : List (Event β)) : Pool β := evs.foldl step p

end Pool
end Rowmap
