import Rowmap.Session.Basic
/-! A set number of connections that are lent out one at a time.

A connection on loan comes back when the loan is let go, provided the pool is still open, nobody
else holds the connection, and it is free and connected. These checks are separate moments, and what
others do can come between them. -/

namespace Rowmap

/-- What a loan that is being let go has still to pass. -/
inductive Pool.Stage where
  | owner
  | connected
  | handBack
  /-- It has failed a check, and its connection is let go. -/
  | discard
deriving DecidableEq, Repr

inductive Loan where
  | empty
  | held (connection : Nat)
  | leaving (connection : Nat) (stage : Pool.Stage)
  | gone
deriving DecidableEq, Repr

def Loan.connection? : Loan → Option Nat
  | .held c => some c
  | .leaving c _ => some c
  | _ => none

def Loan.usable? : Loan → Option Nat
  | .held c => some c
  | _ => none

def Loan.isLeaving : Loan → Bool
  | .leaving _ _ => true
  | _ => false

structure Pool (β : Type) extends Shared β where
  /-- Connections to lend, the next one first. -/
  idle : List Nat
  isOpen : Bool
  loans : List Loan
  /-- Copies that borrowers have made of their sessions; none where one was dropped. -/
  copies : List (Option Nat)
  /-- Connections that are held by a statement for good. -/
  locked : List Nat

namespace Pool

variable {β σ : Type}

/-- Opens connections one after another; the first failure ends it. -/
def openAll (connection : Action σ β) : Nat → Action σ (List β)
  | 0 => pure []
  | n + 1 => do
    let b ← connection
    let bs ← openAll connection n
    return b :: bs

def create (connection : Action σ β) (size : Nat) (r : Registry) : Action σ (Pool β) := do
  let bs ← openAll connection size
  return { registry := r, connections := bs, idle := List.range size, isOpen := true, loans := [],
           copies := [], locked := [] }

def size (p : Pool β) : Nat := p.idle.length

/-- Lends the connection that has been idle longest, or nothing. -/
def lend (p : Pool β) : Pool β :=
  match p.idle with
  | [] => { p with loans := p.loans ++ [.empty] }
  | c :: cs => { p with idle := cs, loans := p.loans ++ [.held c] }

def lendNothing (p : Pool β) : Pool β := { p with loans := p.loans ++ [.empty] }

def loan (p : Pool β) (i : Nat) : Loan := p.loans[i]?.getD .gone

def borrowed (p : Pool β) (i : Nat) : Except Error Nat :=
  match (p.loan i).usable? with
  | some c => .ok c
  | none => .error (.connection .noneIdle)

def isEmpty (p : Pool β) (i : Nat) : Bool := (p.loan i).usable?.isNone

def copy (p : Pool β) (c : Nat) : Pool β := { p with copies := p.copies ++ [some c] }

def copy? (p : Pool β) (k : Nat) : Option Nat := p.copies[k]?.join

def dropCopy (p : Pool β) (k : Nat) : Pool β := { p with copies := p.copies.set k none }

def lock (p : Pool β) (c : Nat) : Pool β := { p with locked := c :: p.locked }

/-- Whether the pool is still there: a loan that is being let go keeps it until it is through. -/
def isAlive (p : Pool β) : Bool := p.isOpen || p.loans.any Loan.isLeaving

/-- A pool that nobody keeps is gone, and with it the connections that are idle. -/
def settle (p : Pool β) : Pool β := if p.isAlive then p else { p with idle := [] }

def close (p : Pool β) : Pool β := settle { p with isOpen := false }

/-- How many hold the connection: the idle list, loans and copies. -/
def holders (p : Pool β) (c : Nat) : Nat :=
  p.idle.count c + (p.loans.map Loan.connection?).count (some c) + p.copies.count (some c)

def setLoan (p : Pool β) (i : Nat) (l : Loan) : Pool β := { p with loans := p.loans.set i l }

variable [Backend β]

def isConnected (p : Pool β) (c : Nat) : Bool := (p.connections[c]?).any Backend.connected

def beginRelease (p : Pool β) (i : Nat) : Pool β :=
  match p.loan i with
  | .held c => p.setLoan i (if p.isAlive then .leaving c .owner else .gone)
  | .empty => p.setLoan i .gone
  | _ => p

/-- The next check of a loan that is being let go; past the last one its connection is idle. -/
def continueRelease (p : Pool β) (i : Nat) : Pool β :=
  match p.loan i with
  | .leaving c .owner => p.setLoan i (.leaving c (if p.holders c = 1 then .connected else .discard))
  | .leaving c .connected =>
    p.setLoan i (.leaving c (if p.isConnected c ∧ c ∉ p.locked then .handBack else .discard))
  | .leaving c .handBack => settle { p.setLoan i .gone with idle := p.idle ++ [c] }
  | .leaving _ .discard => settle (p.setLoan i .gone)
  | _ => p

def release (p : Pool β) (i : Nat) : Pool β :=
  (((p.beginRelease i).continueRelease i).continueRelease i).continueRelease i

end Pool

end Rowmap
