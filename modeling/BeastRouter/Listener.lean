import Mathlib.Tactic.SplitIfs
import BeastRouter.Base.ErrorCode
import BeastRouter.Foundation.Transition

namespace BeastRouter

structure Completion where
  ec : ErrorCode
  socket : Option ℕ
  deriving DecidableEq, Repr

-- `result` is there once the operation is over and its handler has not been called yet; `atClose`
-- marks the operations that were outstanding when the acceptor was closed.
structure Accept where
  result : Option Completion
  atClose : Bool
  deriving DecidableEq, Repr

inductive OnAccept where
  | entered (c : Completion)
  | posted
  deriving DecidableEq, Repr

structure Setup where
  openEc : ErrorCode
  setOptionEc : ErrorCode
  bindEc : ErrorCode
  listenEc : ErrorCode
  deriving DecidableEq, Repr

def Setup.failed (setup : Setup) : Bool :=
  setup.openEc.failed || setup.setOptionEc.failed || setup.bindEc.failed || setup.listenEc.failed

structure Listener where
  onError : Bool
  launched : Bool
  isOpen : Bool
  closed : Bool
  accepts : List Accept
  calls : List OnAccept
  strand : List Completion
  started : ℕ
  accepted : List ℕ
  delivered : List ℕ
  errors : List (ErrorCode × String)
  deriving DecidableEq, Repr

namespace Listener

inductive Event where
  | loop (setup : Setup)
  | close
  | acceptReady (i : ℕ) (ec : ErrorCode)
  | acceptCompleted (i : ℕ)
  | post (i : ℕ)
  | rearm (i : ℕ)
  | runStrand
  deriving DecidableEq, Repr

def init (onError : Bool) : Listener :=
  ⟨onError, false, false, false, [], [], [], 0, [], [], []⟩

def report (ec : ErrorCode) (what : String) (s : Listener) : Listener :=
  if s.onError then { s with errors := s.errors ++ [(ec, what)] } else s

def doAccept (s : Listener) : Listener :=
  { s with
    started := s.started + 1
    accepts :=
      s.accepts ++ [⟨if s.isOpen then none else some ⟨.badDescriptor, none⟩, false⟩] }

def loop (setup : Setup) (s : Listener) : Listener :=
  let s := { s with launched := true }
  if setup.openEc.failed then s.report setup.openEc "open/loop"
  else
    let s := { s with isOpen := true }
    if setup.setOptionEc.failed then s.report setup.setOptionEc "set_option/loop"
    else if setup.bindEc.failed then s.report setup.bindEc "bind/loop"
    else if setup.listenEc.failed then s.report setup.listenEc "listen/loop"
    else s.doAccept

def abort (a : Accept) : Accept := ⟨a.result.or (some ⟨.operationAborted, none⟩), true⟩

def close (s : Listener) : Listener :=
  { s with isOpen := false, closed := true, accepts := s.accepts.map abort }

def acceptReady (i : ℕ) (ec : ErrorCode) (s : Listener) : Listener :=
  let socket := if ec.failed then none else some s.accepted.length
  { s with
    accepts := s.accepts.modify i fun a => { a with result := some ⟨ec, socket⟩ }
    accepted := s.accepted ++ socket.toList }

def enterOnAccept (i : ℕ) (c : Completion) (s : Listener) : Listener :=
  { s with accepts := s.accepts.eraseIdx i, calls := s.calls ++ [.entered c] }

def postSpawnConnect (i : ℕ) (c : Completion) (s : Listener) : Listener :=
  { s with strand := s.strand ++ [c], calls := s.calls.set i .posted }

def leaveOnAccept (i : ℕ) (s : Listener) : Listener :=
  doAccept { s with calls := s.calls.eraseIdx i }

def onSpawnConnect (c : Completion) (s : Listener) : Listener :=
  if c.ec.failed then s.report c.ec "accept/loop"
  else { s with delivered := s.delivered ++ c.socket.toList }

-- `loop` runs inside `launch`, before anyone has the pointer to call `close` through.
def step (s : Listener) : Event → Option Listener
  | .loop setup => if s.launched then none else some (s.loop setup)
  | .close => if s.launched then some s.close else none
  | .acceptReady i ec =>
    match s.accepts[i]? with
    | some ⟨none, _⟩ => some (s.acceptReady i ec)
    | _ => none
  | .acceptCompleted i =>
    match s.accepts[i]? with
    | some ⟨some c, _⟩ => some (s.enterOnAccept i c)
    | _ => none
  | .post i =>
    match s.calls[i]? with
    | some (.entered c) => some (s.postSpawnConnect i c)
    | _ => none
  | .rearm i =>
    match s.calls[i]? with
    | some .posted => some (s.leaveOnAccept i)
    | _ => none
  | .runStrand =>
    match s.strand with
    | [] => none
    | c :: strand => some (onSpawnConnect c { s with strand := strand })

abbrev run := Transition.run step

end Listener
end BeastRouter
