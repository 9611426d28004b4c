import BeastRouter.Base.ErrorCode
import BeastRouter.Base.ConnQueue
import BeastRouter.Common.Timer
import BeastRouter.Foundation.Transition

namespace BeastRouter

inductive ShutdownType where
  | shutdownReceive
  | shutdownSend
  | shutdownBoth
  deriving DecidableEq, Repr

inductive Call (M : Type) where
  | recv
  | recvFor (duration : ℤ)
  | send (message : M)
  | sendFor (message : M) (duration : ℤ)
  deriving DecidableEq, Repr

def Call.messages {M : Type} : Call M → List M
  | .send message => [message]
  | .sendFor message _ => [message]
  | _ => []

def Call.duration {M : Type} : Call M → Option ℤ
  | .recvFor duration => some duration
  | .sendFor _ duration => some duration
  | _ => none

structure Write (M : Type) where
  item : Item M
  close : Bool
  deriving DecidableEq, Repr

-- `func` is what the function given to `handshake` calls on the context it receives.
structure Handshake (M : Type) where
  func : List (Call M)
  deadline : Option ℤ
  deriving DecidableEq, Repr

structure Parser (Rq : Type) where
  message : Rq
  complete : Bool
  deriving DecidableEq, Repr

inductive Action (M Rq : Type) where
  | push (item : Item M)
  | popEmpty
  | asyncWrite (item : Item M)
  | asyncRead
  | asyncHandshake
  | expiresFromNow (duration : ℤ)
  | asyncWait
  | timerCancel
  | shutdown (type : ShutdownType)
  | processRequest (message : Rq)
  | onError (ec : ErrorCode) (what : String)
  deriving DecidableEq, Repr

namespace Action
variable {M Rq : Type}

@[simp] def asPush : Action M Rq → Option (Item M)
  | push item => some item
  | _ => none

@[simp] def asWrite : Action M Rq → Option (Item M)
  | asyncWrite item => some item
  | _ => none

@[simp] def asDispatch : Action M Rq → Option Rq
  | processRequest message => some message
  | _ => none

@[simp] def isPopEmpty : Action M Rq → Bool
  | popEmpty => true
  | _ => false

@[simp] def isControl : Action M Rq → Bool
  | expiresFromNow _ => true
  | asyncWait => true
  | timerCancel => true
  | shutdown _ => true
  | onError _ _ => true
  | _ => false

def isReport : Action M Rq → Bool
  | onError _ _ => true
  | _ => false

def isTimeout : Action M Rq → Bool
  | onError .timedOut _ => true
  | shutdown _ => true
  | _ => false

end Action

-- What the session takes from Beast and Asio. `parse` finds the first message in a byte string
-- and the bytes after it; `movedFrom m` is what stays in a parser whose `m` was released;
-- `shutdownResult n` is the outcome of the n-th shutdown of the socket.
structure Platform (M Rq B : Type) where
  needEof : M → Bool
  emptyMessage : Rq
  parse : List B → Option (Rq × List B)
  movedFrom : Rq → Rq
  shutdownResult : ℕ → ErrorCode

def Platform.tokens {Rq : Type} (blank : Rq) : Platform ℕ Rq Rq where
  needEof m := m == 0
  emptyMessage := blank
  parse
    | [] => none
    | m :: rest => some (m, rest)
  movedFrom _ := blank
  shutdownResult n := if n = 0 then .success else .other 107

def Platform.sample : Platform ℕ ℕ ℕ := .tokens 0

structure Session (M Rq B : Type) where
  isSsl : Bool
  onError : Bool
  isOpen : Bool
  shutdowns : ℕ
  now : ℤ
  timer : Timer
  buffer : List B
  parser : Parser Rq
  queue : List (Item M)
  allocated : ℕ
  serializer : Option (Item M)
  reads : List (Option ℤ)
  writes : List (Write M)
  handshakes : List (Handshake M)
  timedOut : Bool
  log : List (Action M Rq)
  deriving DecidableEq, Repr

inductive Event (M B Rq : Type) where
  | call (c : Call M)
  | handshake (func : List (Call M))
  | handshakeFor (func : List (Call M)) (duration : ℤ)
  | readCompleted (i : ℕ) (ec : ErrorCode) (received : List B) (partialMessage : Rq)
  | writeCompleted (i : ℕ) (ec : ErrorCode)
  | handshakeCompleted (i : ℕ) (ec : ErrorCode)
  | waitCompleted (i : ℕ)
  | elapse (ticks : ℕ)
  | closeSocket
  deriving DecidableEq, Repr

namespace Event
variable {M B Rq : Type}

def isRead : Event M B Rq → Bool
  | readCompleted _ _ _ _ => true
  | _ => false

def isWholeRead : Event M B Rq → Bool
  | readCompleted _ ec _ _ => !ec.failed
  | _ => false

def isFailedRead : Event M B Rq → Bool
  | readCompleted _ ec _ _ => ec.failed && ec != .endOfStream
  | _ => false

def received : Event M B Rq → List B
  | readCompleted _ _ received _ => received
  | _ => []

end Event

namespace Session
variable {M Rq B : Type}

def init (P : Platform M Rq B) (isSsl onError isOpen : Bool) (now : ℤ) : Session M Rq B where
  isSsl := isSsl
  onError := onError
  isOpen := isOpen
  shutdowns := 0
  now := now
  timer := .new
  buffer := []
  parser := ⟨P.emptyMessage, false⟩
  queue := []
  allocated := 0
  serializer := none
  reads := []
  writes := []
  handshakes := []
  timedOut := false
  log := []

def emit (a : Action M Rq) (s : Session M Rq B) : Session M Rq B := { s with log := s.log ++ [a] }

def report (ec : ErrorCode) (what : String) (s : Session M Rq B) : Session M Rq B :=
  if s.onError then s.emit (.onError ec what) else s

def cancelTimer (s : Session M Rq B) : Session M Rq B :=
  emit .timerCancel { s with timer := s.timer.cancel s.now }

def expiresFromNow (duration : ℤ) (s : Session M Rq B) : Session M Rq B :=
  emit (.expiresFromNow duration) { s with timer := s.timer.expiresFromNow s.now duration }

def asyncWait (s : Session M Rq B) : Session M Rq B :=
  emit .asyncWait { s with timer := s.timer.asyncWait }

def doTimer (duration : ℤ) (s : Session M Rq B) : Session M Rq B :=
  (s.expiresFromNow duration).asyncWait

def doRead (deadline : Option ℤ) (s : Session M Rq B) : Session M Rq B :=
  emit .asyncRead { s with reads := s.reads ++ [deadline] }

def doWrite (P : Platform M Rq B) (item : Item M) (s : Session M Rq B) : Session M Rq B :=
  emit (.asyncWrite item)
    { s with
      serializer := some item
      writes := s.writes ++ [⟨item, P.needEof item.message⟩] }

def handled (P : Platform M Rq B) (next : Option (Item M)) (s : Session M Rq B) : Session M Rq B :=
  match next with
  | none => s
  | some item => s.doWrite P item

def enqueue (P : Platform M Rq B) (message : M) (deadline : Option ℤ) (s : Session M Rq B) :
    Session M Rq B :=
  let item : Item M := ⟨s.allocated, message, deadline⟩
  let next := ConnQueue.push s.queue item
  handled P next.2 (emit (.push item) { s with queue := next.1, allocated := s.allocated + 1 })

def queueOnWrite (P : Platform M Rq B) (s : Session M Rq B) : Session M Rq B :=
  match ConnQueue.onWrite s.queue with
  | none => s.emit .popEmpty
  | some (items, next) => handled P next { s with queue := items }

def dropRead (i : ℕ) (s : Session M Rq B) : Session M Rq B :=
  { s with reads := s.reads.eraseIdx i }

def dropWrite (i : ℕ) (s : Session M Rq B) : Session M Rq B :=
  { s with writes := s.writes.eraseIdx i }

def dropHandshake (i : ℕ) (s : Session M Rq B) : Session M Rq B :=
  { s with handshakes := s.handshakes.eraseIdx i }

def dropWait (i : ℕ) (s : Session M Rq B) : Session M Rq B :=
  { s with timer := s.timer.drop i }

def recv (s : Session M Rq B) : Session M Rq B := s.doRead none

def recvFor (duration : ℤ) (s : Session M Rq B) : Session M Rq B :=
  (s.doTimer duration).doRead (some (s.now + duration))

def send (P : Platform M Rq B) (message : M) (s : Session M Rq B) : Session M Rq B :=
  s.enqueue P message none

def sendFor (P : Platform M Rq B) (message : M) (duration : ℤ) (s : Session M Rq B) :
    Session M Rq B :=
  (s.doTimer duration).enqueue P message (some (s.now + duration))

def call (P : Platform M Rq B) (s : Session M Rq B) : Call M → Session M Rq B
  | .recv => s.recv
  | .recvFor duration => s.recvFor duration
  | .send message => s.send P message
  | .sendFor message duration => s.sendFor P message duration

def calls (P : Platform M Rq B) (s : Session M Rq B) (func : List (Call M)) : Session M Rq B :=
  func.foldl (call P) s

def doEof (P : Platform M Rq B) (type : ShutdownType) (s : Session M Rq B) : Session M Rq B :=
  if !s.isOpen then s
  else
    let ec := P.shutdownResult s.shutdowns
    let s := emit (.shutdown type) { s with shutdowns := s.shutdowns + 1 }
    if ec.failed && s.onError then s.emit (.onError ec "shutdown/eof") else s

def onTimer (P : Platform M Rq B) (ec : ErrorCode) (s : Session M Rq B) : Session M Rq B :=
  if ec.failed && ec != .operationAborted then
    s.report ec "async_timer/on_timer"
  else if s.timer.expiry ≤ s.now then
    let s := report .timedOut "async_timer/on_timer" { s with timedOut := s.timedOut || s.isOpen }
    s.doEof P .shutdownBoth
  else s

def doProcessRequest (P : Platform M Rq B) (s : Session M Rq B) : Session M Rq B :=
  emit (.processRequest s.parser.message)
    { s with parser := { s.parser with message := P.movedFrom s.parser.message } }

def onRead (P : Platform M Rq B) (ec : ErrorCode) (s : Session M Rq B) : Session M Rq B :=
  let s := s.cancelTimer
  if ec = .endOfStream then s.doEof P .shutdownBoth
  else
    let s := if ec.failed && s.onError then s.emit (.onError ec "async_read/on_read") else s
    s.doProcessRequest P

def onWrite (P : Platform M Rq B) (ec : ErrorCode) (close : Bool) (s : Session M Rq B) :
    Session M Rq B :=
  let s := s.cancelTimer
  if ec = .endOfStream then s.doEof P .shutdownBoth
  else if ec.failed && s.onError then s.emit (.onError ec "async_write/on_write")
  else if close then s.doEof P .shutdownBoth
  else s.queueOnWrite P

def onHandshake (P : Platform M Rq B) (ec : ErrorCode) (s : Session M Rq B) : Session M Rq B :=
  let s := s.cancelTimer
  if ec = .endOfStream then s.doEof P .shutdownBoth
  else if ec.failed && s.onError then s.emit (.onError ec "async_handshake/on_handshake")
  else s

def doHandshake (func : List (Call M)) (deadline : Option ℤ) (s : Session M Rq B) :
    Session M Rq B :=
  emit .asyncHandshake { s with handshakes := s.handshakes ++ [⟨func, deadline⟩] }

-- Only the expiry is set here: `do_handshake` with a duration starts no wait.
def doHandshakeFor (func : List (Call M)) (duration : ℤ) (s : Session M Rq B) :
    Session M Rq B :=
  (s.expiresFromNow duration).doHandshake func (some (s.now + duration))

def handshakeDone (P : Platform M Rq B) (func : List (Call M)) (ec : ErrorCode)
    (s : Session M Rq B) : Session M Rq B :=
  let s := s.onHandshake P ec
  if ec.failed then s else s.calls P func

-- A read into a complete parser succeeds without touching the stream; any other read that
-- succeeds has found one whole message in the buffer and the bytes received.
def parseInto (P : Platform M Rq B) (ec : ErrorCode) (received : List B) (partialMessage : Rq)
    (s : Session M Rq B) : Option (Session M Rq B) :=
  if ec.failed then
    some { s with
      parser := if s.parser.complete then s.parser else ⟨partialMessage, false⟩
      buffer := s.buffer ++ received }
  else if s.parser.complete then
    if received.isEmpty then some s else none
  else
    (P.parse (s.buffer ++ received)).map fun (message, rest) =>
      { s with parser := ⟨message, true⟩, buffer := rest }

def readDone (P : Platform M Rq B) (i : ℕ) (ec : ErrorCode) (received : List B)
    (partialMessage : Rq) (s : Session M Rq B) : Option (Session M Rq B) :=
  if i < s.reads.length then
    ((s.dropRead i).parseInto P ec received partialMessage).map (onRead P ec)
  else none

def waitDone (P : Platform M Rq B) (i : ℕ) (s : Session M Rq B) : Option (Session M Rq B) :=
  (s.timer.waits[i]?.bind (Wait.result s.now)).map fun ec => (s.dropWait i).onTimer P ec

def step (P : Platform M Rq B) (s : Session M Rq B) : Event M B Rq → Option (Session M Rq B)
  | .call c => some (s.call P c)
  | .handshake func => if s.isSsl then some (s.doHandshake func none) else none
  | .handshakeFor func duration =>
    if s.isSsl then some (s.doHandshakeFor func duration) else none
  | .readCompleted i ec received partialMessage => s.readDone P i ec received partialMessage
  | .writeCompleted i ec => s.writes[i]?.map fun w => (s.dropWrite i).onWrite P ec w.close
  | .handshakeCompleted i ec =>
    s.handshakes[i]?.map fun h => (s.dropHandshake i).handshakeDone P h.func ec
  | .waitCompleted i => s.waitDone P i
  | .elapse ticks => some { s with now := s.now + ticks }
  | .closeSocket => some { s with isOpen := false }

abbrev run (P : Platform M Rq B) := Transition.run (step P)

def sends (s : Session M Rq B) : Event M B Rq → List M
  | .call c => c.messages
  | .handshakeCompleted i .success =>
    s.handshakes[i]?.elim [] fun h => h.func.flatMap Call.messages
  | _ => []

def pushed (s : Session M Rq B) : List (Item M) := s.log.filterMap Action.asPush

def written (s : Session M Rq B) : List (Item M) := s.log.filterMap Action.asWrite

def dispatched (s : Session M Rq B) : List Rq := s.log.filterMap Action.asDispatch

def underflows (s : Session M Rq B) : ℕ := s.log.countP Action.isPopEmpty

end Session
end BeastRouter
