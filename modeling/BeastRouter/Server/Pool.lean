import BeastRouter.Router.Sequential
import BeastRouter.Server.Runs

namespace BeastRouter

def Setting.deployment {M Rq B U Sm V : Type} (C : Setting M Rq B U Sm V) :
    Deployment Rq U Sm (V × Session M Rq B) :=
  ⟨C.onSession, C.order, C.iteration, C.isRequest, ⟨[]⟩⟩

inductive Job (M Rq U Sm : Type) where
  | register (reg : Registration Rq U Sm (Outbox Unit M))
  | session (i : ℕ)

inductive Move where
  | lock
  | update
  | visit
  | runChain
  | unlock
  deriving DecidableEq, Repr

def Move.event {T Rq U Sm W : Type} (t : T) : Move → System.Event T Rq U Sm W
  | lock => .lock t
  | update => .update t
  | visit => .visit t
  | runChain => .runChain t
  | unlock => .unlock t

-- The program of `Host` on any number of threads. `strands` has what runs on the strand of a
-- session; the world of `system` is the session of the thread whose turn it is. As in `Host`, the
-- clock of a session stands still while one of its handlers runs, and the handlers share no data.
structure Pool (T M Rq B U Sm : Type) where
  system : System T Rq U Sm (Unit × Session M Rq B)
  sessions : List (Session M Rq B)
  strands : ℕ → Option (BeastRouter.Event M B Rq)
  jobs : T → Option (Job M Rq U Sm)
  thrown : Option String

namespace Pool
variable {T M Rq B U Sm : Type} (C : Setting M Rq B U Sm Unit)

inductive Event (T M Rq B U Sm : Type) where
  | start (t : T) (e : Host.Event M Rq B U Sm Unit)
  | go (t : T) (m : Move)

def init : Pool T M Rq B U Sm where
  system := .init C.deployment ((), .init C.platform false false false 0)
  sessions := []
  strands _ := none
  jobs _ := none
  thrown := none

variable [DecidableEq T]

def start (t : T) (p : Pool T M Rq B U Sm) :
    Host.Event M Rq B U Sm Unit → Option (Pool T M Rq B U Sm)
  | .register reg =>
    if !reg.available C.isRequest then none
    else
      (p.system.step C.deployment (.call t (.register (reg.onSession C.platform)))).map fun sys =>
        { p with system := sys, jobs := Function.update p.jobs t (some (.register reg)) }
  | .initContext isSsl onError isOpen now =>
    some { p with sessions := p.sessions ++ [.init C.platform isSsl onError isOpen now] }
  | .session i e =>
    if (p.strands i).isSome then none
    else
      p.sessions[i]?.bind fun s => (s.step C.platform e).bind fun u =>
        match s.newDispatches u with
        | [] => some { p with sessions := p.sessions.set i u }
        | message :: _ =>
          (p.system.step C.deployment (.call t (.processRequest message))).map fun sys =>
            { p with
              system := sys
              sessions := p.sessions.set i u
              strands := Function.update p.strands i (some e)
              jobs := Function.update p.jobs t (some (.session i)) }

def resume (t : T) (m : Move) (p : Pool T M Rq B U Sm) :
    Job M Rq U Sm → Option (Pool T M Rq B U Sm)
  | .register _ =>
    (p.system.step C.deployment (m.event t)).map fun sys => { p with system := sys }
  | .session i =>
    p.sessions[i]?.bind fun s =>
      (System.step C.deployment { p.system with world := ((), s) } (m.event t)).map fun sys =>
        { p with system := sys, sessions := p.sessions.set i sys.world.2 }

def leave (t : T) (p : Pool T M Rq B U Sm) : Job M Rq U Sm → Pool T M Rq B U Sm
  | .register _ => { p with jobs := Function.update p.jobs t none }
  | .session i =>
    { p with
      strands := Function.update p.strands i none
      jobs := Function.update p.jobs t none
      thrown := p.system.done.getLast?.bind fun x => x.2.dispatch.regexError }

def step (p : Pool T M Rq B U Sm) : Event T M Rq B U Sm → Option (Pool T M Rq B U Sm)
  | .start t e => if p.thrown.isSome || (p.jobs t).isSome then none else p.start C t e
  | .go t m =>
    if p.thrown.isSome then none
    else
      (p.jobs t).bind fun job => (p.resume C t m job).map fun q =>
        if (q.system.threads t).isEmpty then q.leave t job else q

abbrev run := Transition.run (step (T := T) C)

def sampleRequests :
    List (Event Bool StringResponse (Verb × String) (Verb × String) Unit Unit) :=
  [.start true (.initContext false true true 0), .start true (.initContext false true true 0),
    .start true (.session 0 (.call .recv)), .start true (.session 1 (.call .recv)),
    .start true (.session 0 (.readCompleted 0 .success [(.get, "a")] (.unknown, ""))),
    .start false (.session 1 (.readCompleted 0 .success [(.get, "b")] (.unknown, ""))),
    .go true .lock, .go false .lock, .go true .visit, .go false .visit, .go false .runChain,
    .go true .runChain, .go false .unlock, .go true .unlock]

-- The moment at which what a thread does takes effect for the others: a registration when the table
-- is written, a handler that dispatches when it leaves the lock.
def committed (p : Pool T M Rq B U Sm) :
    Event T M Rq B U Sm → List (Host.Event M Rq B U Sm Unit)
  | .start t e => (p.step C (.start t e)).elim [] fun q => if (q.jobs t).isSome then [] else [e]
  | .go t m =>
    match p.jobs t, m with
    | some (.register reg), .update => [.register reg]
    | some (.session i), .unlock => (p.strands i).toList.map (.session i)
    | _, _ => []

inductive Moves (p : Pool T M Rq B U Sm) : Event T M Rq B U Sm → Pool T M Rq B U Sm → Prop where
  | register (t : T) (reg : Registration Rq U Sm (Outbox Unit M)) (hjob : p.jobs t = none)
    (hreg : reg.available C.isRequest = true) (ht : p.system.threads t = []) :
    Moves p (.start t (.register reg)) { p with
      system := p.system.setFrames t [.addResource (reg.onSession C.platform)]
      jobs := Function.update p.jobs t (some (.register reg)) }
  | initContext (t : T) (isSsl onError isOpen : Bool) (now : ℤ) (hjob : p.jobs t = none) :
    Moves p (.start t (.initContext isSsl onError isOpen now))
      { p with sessions := p.sessions ++ [.init C.platform isSsl onError isOpen now] }
  | quiet (t : T) (i : ℕ) (e : BeastRouter.Event M B Rq) (s u : Session M Rq B)
    (hjob : p.jobs t = none) (hfree : p.strands i = none) (hs : p.sessions[i]? = some s)
    (hu : s.step C.platform e = some u) (hnone : s.newDispatches u = []) :
    Moves p (.start t (.session i e)) { p with sessions := p.sessions.set i u }
  | called (t : T) (i : ℕ) (e : BeastRouter.Event M B Rq) (s u : Session M Rq B) (message : Rq)
    (hjob : p.jobs t = none) (hfree : p.strands i = none) (hs : p.sessions[i]? = some s)
    (hu : s.step C.platform e = some u) (hmessage : s.newDispatches u = [message])
    (ht : p.system.threads t = []) :
    Moves p (.start t (.session i e)) { p with
      system := p.system.setFrames t [.processRequest message]
      sessions := p.sessions.set i u
      strands := Function.update p.strands i (some e)
      jobs := Function.update p.jobs t (some (.session i)) }
  | go (t : T) (m : Move) (job : Job M Rq U Sm) (q : Pool T M Rq B U Sm)
    (hjob : p.jobs t = some job) (hq : p.resume C t m job = some q) :
    Moves p (.go t m) (if (q.system.threads t).isEmpty then q.leave t job else q)

theorem calls_of_step {D : Deployment Rq U Sm (Unit × Session M Rq B)} {t : T}
    {op : Operation Rq U Sm (Unit × Session M Rq B)}
    {s s' : System T Rq U Sm (Unit × Session M Rq B)} (h : s.step D (.call t op) = some s') :
    s.threads t = [] ∧ s' = s.setFrames t [op.frame] := by
  cases System.moves_of_step D h with
  | call t op ht => exact ⟨ht, rfl⟩

theorem moves_of_step {p q : Pool T M Rq B U Sm} {e : Event T M Rq B U Sm}
    (h : p.step C e = some q) : p.thrown = none ∧ Moves C p e q := by
  cases hthrown : p.thrown with
  | some path => cases e <;> simp [step, hthrown] at h
  | none =>
    refine ⟨rfl, ?_⟩
    cases e with
    | start t e =>
      simp only [step, hthrown, Option.isSome_none, Bool.false_or] at h
      split_ifs at h with hjob
      have hidle : p.jobs t = none := Option.not_isSome_iff_eq_none.mp hjob
      cases e with
      | register reg =>
        simp only [start] at h
        split_ifs at h with hreg
        obtain ⟨sys, hsys, rfl⟩ := Option.map_eq_some_iff.mp h
        obtain ⟨ht, rfl⟩ := calls_of_step hsys
        exact .register t reg hidle (by simpa using hreg) ht
      | initContext isSsl onError isOpen now =>
        exact Option.some.inj h ▸ .initContext t isSsl onError isOpen now hidle
      | session i e =>
        simp only [start] at h
        split_ifs at h with hstrand
        have hfree : p.strands i = none := Option.not_isSome_iff_eq_none.mp hstrand
        obtain ⟨s, hs, h⟩ := Option.bind_eq_some_iff.mp h
        obtain ⟨u, hu, h⟩ := Option.bind_eq_some_iff.mp h
        rcases (Session.newDispatches_step C.platform hu).2 with hnone | ⟨message, hmessage⟩
        · rw [hnone] at h
          exact Option.some.inj h ▸ .quiet t i e s u hidle hfree hs hu hnone
        · rw [hmessage] at h
          obtain ⟨sys, hsys, rfl⟩ := Option.map_eq_some_iff.mp h
          obtain ⟨ht, rfl⟩ := calls_of_step hsys
          exact .called t i e s u message hidle hfree hs hu hmessage ht
    | go t m =>
      simp only [step, hthrown, Option.isSome_none, Bool.false_eq_true, if_false] at h
      obtain ⟨job, hjob, h⟩ := Option.bind_eq_some_iff.mp h
      obtain ⟨u, hu, rfl⟩ := Option.map_eq_some_iff.mp h
      exact .go t m job u hjob hu

theorem isEmpty_move {D : Deployment Rq U Sm (Unit × Session M Rq B)} {t : T} {m : Move}
    {frame : Frame Rq U Sm (Unit × Session M Rq B)}
    {s s' : System T Rq U Sm (Unit × Session M Rq B)} (ht : s.threads t = [frame])
    (h : s.step D (m.event t) = some s') : (s'.threads t).isEmpty = (m == .unlock) := by
  cases m with
  | lock =>
    cases System.moves_of_step D h with
    | lockWrite => rw [System.threads_self]; rfl
    | lockRead => rw [System.threads_self]; rfl
  | update =>
    cases System.moves_of_step D h with
    | update => rw [System.threads_self]; rfl
  | visit =>
    cases System.moves_of_step D h with
    | visit => rw [System.threads_self]; rfl
  | runChain =>
    cases System.moves_of_step D h with
    | runChain => rw [System.threads_self]; rfl
  | unlock =>
    cases System.moves_of_step D h with
    | unlockWrite _ frames ht' | unlockRead _ _ frames ht' =>
      obtain ⟨-, rfl⟩ := List.cons.inj (ht.symm.trans ht')
      rw [System.threads_self]
      rfl

def begun (i : ℕ) : Event T M Rq B U Sm → Option (BeastRouter.Event M B Rq)
  | .start _ (.session j e) => if j = i then some e else none
  | _ => none

end Pool

def Host.Event.of {M Rq B U Sm V : Type} (i : ℕ) :
    Host.Event M Rq B U Sm V → Option (BeastRouter.Event M B Rq)
  | .session j e => if j = i then some e else none
  | _ => none

end BeastRouter
