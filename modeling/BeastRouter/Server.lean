import BeastRouter.Session.Dispatch
import BeastRouter.Session.WriteQueue

namespace BeastRouter

structure Outbox (V M : Type) where
  data : V
  isOpen : Bool
  calls : List (Call M)

def Outbox.start {V M : Type} (data : V) (isOpen : Bool) : Outbox V M := ⟨data, isOpen, []⟩

namespace Handler
variable {M Rq B U Sm V R : Type} (P : Platform M Rq B)

-- `asio::dispatch` from a handler runs at once: the handler is on the strand of its session.
def play (f : Scope U (Outbox V M) → R × Scope U (Outbox V M))
    (s : Scope U (V × Session M Rq B)) : R × Scope U (V × Session M Rq B) :=
  let r := f (s.1, .start s.2.1 s.2.2.isOpen)
  (r.1, r.2.1, r.2.2.data, s.2.2.calls P r.2.2.calls)

def onSession (h : Handler Rq U Sm (Outbox V M)) : Handler Rq U Sm (V × Session M Rq B) where
  type := h.type
  result := h.result
  invocable := h.invocable
  body :=
    match h.body with
    | .messageContextMatch f => .messageContextMatch fun request sm => play P (f request sm)
    | .messageContext f => .messageContext fun request => play P (f request)
    | .contextOnly f => .contextOnly (play P f)

theorem callbackImpl_onSession (h : Handler Rq U Sm (Outbox V M)) (request : Rq) (sm : Sm) :
    (h.onSession P).callbackImpl request sm = play P (h.callbackImpl request sm) := by
  obtain ⟨type, result, invocable, body⟩ := h
  cases body <;> rfl

end Handler

namespace Registration
variable {M Rq B U Sm V : Type} (P : Platform M Rq B)

def onSessionChain (chain : Chain Rq U Sm (Outbox V M)) : Chain Rq U Sm (V × Session M Rq B) :=
  ⟨chain.1.map (Handler.onSession P), by simpa using chain.2⟩

def onSession :
    Registration Rq U Sm (Outbox V M) → Registration Rq U Sm (V × Session M Rq B)
  | .get path onRequest => .get path (onSessionChain P onRequest)
  | .put path onRequest => .put path (onSessionChain P onRequest)
  | .post path onRequest => .post path (onSessionChain P onRequest)
  | .delete_ path onRequest => .delete_ path (onSessionChain P onRequest)
  | .notFound onAction => .notFound (onSessionChain P onAction)
  | .handleResponse onAction => .handleResponse (onSessionChain P onAction)

theorem onSession_method (reg : Registration Rq U Sm (Outbox V M)) :
    (reg.onSession P).method = reg.method := by
  cases reg <;> rfl

theorem onSession_path (reg : Registration Rq U Sm (Outbox V M)) :
    (reg.onSession P).path = reg.path := by
  cases reg <;> rfl

theorem onSession_chain (reg : Registration Rq U Sm (Outbox V M)) :
    (reg.onSession P).chain = onSessionChain P reg.chain := by
  cases reg <;> rfl

end Registration

structure Setting (M Rq B U Sm V : Type) where
  platform : Platform M Rq B
  http : Http Rq Sm Unit
  response : StringResponse → M
  order : ArgumentOrder
  iteration : IterationOrder Rq U Sm (V × Session M Rq B)
  isRequest : Bool

namespace Setting
variable {M Rq B U Sm V : Type} (C : Setting M Rq B U Sm V)

def onOutbox : Http Rq Sm (Outbox V M) :=
  ⟨C.http.method, C.http.target, C.http.version, C.http.regex, C.http.emptyMatch,
    fun response o => { o with calls := o.calls ++ [.send (C.response response)] }⟩

def onSession : Http Rq Sm (V × Session M Rq B) :=
  ⟨C.http.method, C.http.target, C.http.version, C.http.regex, C.http.emptyMatch,
    fun response w => (w.1, w.2.send C.platform (C.response response))⟩

def sample {M Rq B : Type} (blank : Rq) (method : Rq → Verb) (target : Rq → String)
    (response : StringResponse → M) (read : B → Option Rq) (isRequest : Bool) :
    Setting M Rq B Unit Unit Unit where
  platform :=
    { needEof := fun _ => false
      emptyMessage := blank
      parse := fun
        | [] => none
        | b :: rest => (read b).map fun message => (message, rest)
      movedFrom := fun _ => blank
      shutdownResult := fun _ => .success }
  http :=
    { method := method
      target := target
      version := fun _ => 11
      regex := fun path => some fun target => if target = path then some () else none
      emptyMatch := ()
      send := fun _ _ => () }
  response := response
  order := .leftToRight
  iteration := .asStored
  isRequest := isRequest

def sampleServer : Setting StringResponse (Verb × String) (Verb × String) Unit Unit Unit :=
  .sample (.unknown, "") Prod.fst Prod.snd id some true

end Setting

-- A program that holds one router and the sessions it has made with it. `registered` records what
-- the router was given; `thrown` is the pattern `std::regex` has thrown over, out of the event
-- loop. Its events are handled one after another, as by the one thread of a default event loop.
structure Host (M Rq B U Sm V : Type) where
  heap : Heap Rq U Sm (V × Session M Rq B)
  router : Router
  registered : List (Registration Rq U Sm (Outbox V M))
  data : V
  sessions : List (Session M Rq B)
  thrown : Option String

namespace Host
variable {M Rq B U Sm V : Type} (C : Setting M Rq B U Sm V)

inductive Event (M Rq B U Sm V : Type) where
  | register (reg : Registration Rq U Sm (Outbox V M))
  | initContext (isSsl onError isOpen : Bool) (now : ℤ)
  | session (i : ℕ) (e : BeastRouter.Event M B Rq)

def init (data : V) : Host M Rq B U Sm V :=
  let (router, heap) := Router.new C.onSession C.order C.isRequest ⟨[]⟩
  ⟨heap, router, [], data, [], none⟩

def dispatch (message : Rq) (s : Session M Rq B) (h : Host M Rq B U Sm V) :
    Option (Dispatch Rq U Sm (V × Session M Rq B)) :=
  let dispatcher := Dispatcher.new h.router
  if C.isRequest then
    dispatcher.doProcessRequest C.onSession C.iteration h.heap message (h.data, s)
  else dispatcher.doProcessResponse C.onSession h.heap message (h.data, s)

-- `messages` is what the strand hands to the dispatcher, at most one message an event. There is no
-- next state where the code reads the end iterator.
def process (i : ℕ) (messages : List Rq) (s : Session M Rq B) (h : Host M Rq B U Sm V) :
    Option (Host M Rq B U Sm V) :=
  match messages with
  | [] => some { h with sessions := h.sessions.set i s }
  | message :: _ =>
    (h.dispatch C message s).map fun d =>
      { h with
        data := d.world.1, sessions := h.sessions.set i d.world.2, thrown := d.regexError }

def step (h : Host M Rq B U Sm V) : Event M Rq B U Sm V → Option (Host M Rq B U Sm V)
  | .register reg =>
    if h.thrown.isSome || !reg.available C.isRequest then none
    else
      some { h with
        heap := h.router.register C.order h.heap (reg.onSession C.platform)
        registered := h.registered ++ [reg] }
  | .initContext isSsl onError isOpen now =>
    if h.thrown.isSome then none
    else some { h with sessions := h.sessions ++ [.init C.platform isSsl onError isOpen now] }
  | .session i e =>
    if h.thrown.isSome then none
    else
      h.sessions[i]?.bind fun s =>
        (s.step C.platform e).bind fun t => h.process C i (s.newDispatches t) t

abbrev run := Transition.run (step C)

def sampleRequest : List (Event StringResponse (Verb × String) (Verb × String) Unit Unit Unit) :=
  [.initContext false true true 0, .session 0 (.call .recv),
    .session 0 (.readCompleted 0 .success [(.get, "a")] (.unknown, ""))]

end Host
end BeastRouter
