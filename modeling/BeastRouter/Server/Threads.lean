import BeastRouter.Server.Reduction
import BeastRouter.Server.Service

namespace BeastRouter

structure Threads (T M Rq B U Sm : Type) where
  listener : Listener
  pool : Pool T M Rq B U Sm

namespace Threads
variable {T M Rq B U Sm : Type} [DecidableEq T] (C : Setting M Rq B U Sm Unit) (S : Service)

inductive Event (T M Rq B U Sm : Type) where
  | register (t : T) (reg : Registration Rq U Sm (Outbox Unit M))
  | listener (t : T) (e : Listener.Event) (now : ℤ)
  | session (t : T) (i : ℕ) (e : BeastRouter.Event M B Rq)
  | go (t : T) (m : Move)

def init (onError : Bool) : Threads T M Rq B U Sm := ⟨.init onError, .init C⟩

-- A session is opened at once: its timer does not expire before `recv` has returned.
def onAccept (t : T) (now : ℤ) (p : Pool T M Rq B U Sm) : Option (Pool T M Rq B U Sm) :=
  Pool.run C p
    [.start t (.initContext S.isSsl S.onError true now),
      .start t (.session p.sessions.length S.opening)]

def step (p : Threads T M Rq B U Sm) : Event T M Rq B U Sm → Option (Threads T M Rq B U Sm)
  | .register t reg =>
    (p.pool.step C (.start t (.register reg))).map fun pool => { p with pool := pool }
  | .listener t e now =>
    if p.pool.thrown.isSome then none
    else
      (p.listener.step e).bind fun listener =>
        match listener.delivered.drop p.listener.delivered.length with
        | [] => some { p with listener := listener }
        | _ :: _ => (onAccept C S t now p.pool).map fun pool => ⟨listener, pool⟩
  | .session t i e =>
    if e.isOwner then none
    else (p.pool.step C (.start t (.session i e))).map fun pool => { p with pool := pool }
  | .go t m => (p.pool.step C (.go t m)).map fun pool => { p with pool := pool }

abbrev run := Transition.run (step (T := T) C S)

def sampleRequest : List (Event ℕ StringResponse (Verb × String) (Verb × String) Unit Unit) :=
  [.listener 0 (.loop ⟨.success, .success, .success, .success⟩) 0,
    .listener 0 (.acceptReady 0 .success) 0, .listener 0 (.acceptCompleted 0) 0,
    .listener 0 (.post 0) 0, .listener 0 .runStrand 7,
    .session 1 0 (.readCompleted 0 .success [(.get, "a")] (.unknown, "")), .go 1 .lock,
    .listener 0 (.rearm 0) 7, .go 1 .visit, .go 1 .runChain, .go 1 .unlock]

def lift : Host.Event M Rq B U Sm Unit → Option (Program.Event M Rq B U Sm Unit)
  | .register reg => some (.register reg)
  | .initContext _ _ _ _ => none
  | .session i e => some (.session i e)

def committed (p : Threads T M Rq B U Sm) :
    Event T M Rq B U Sm → List (Program.Event M Rq B U Sm Unit)
  | .register t reg => (p.pool.committed C (.start t (.register reg))).filterMap lift
  | .listener _ e now => [.listener e now]
  | .session t i e => (p.pool.committed C (.start t (.session i e))).filterMap lift
  | .go t m => (p.pool.committed C (.go t m)).filterMap lift

def Served : Host.Event M Rq B U Sm Unit → Prop
  | .register _ => True
  | .initContext _ _ _ _ => False
  | .session _ e => e.isOwner = false

theorem run_lift {l : Listener} {evs : List (Host.Event M Rq B U Sm Unit)}
    (hevs : ∀ ev ∈ evs, Served ev) {h k : Host M Rq B U Sm Unit}
    (hr : Host.run C h evs = some k) :
    Program.run C S ⟨l, h⟩ (evs.filterMap lift) = some ⟨l, k⟩ := by
  induction evs generalizing h with
  | nil => exact congrArg (fun k => some (Program.mk l k)) (Option.some.inj hr)
  | cons ev evs ih =>
    obtain ⟨g, hg, hr⟩ := Transition.run_cons.mp hr
    obtain ⟨hev, hevs⟩ := List.forall_mem_cons.mp hevs
    have hrest := ih hevs hr
    cases ev with
    | register reg =>
      refine Transition.run_cons.mpr ⟨⟨l, g⟩, ?_, hrest⟩
      simp [Program.step, hg]
    | initContext isSsl onError isOpen now => exact hev.elim
    | session i e =>
      refine Transition.run_cons.mpr ⟨⟨l, g⟩, ?_, hrest⟩
      simp [Program.step, show e.isOwner = false from hev, hg]

theorem isOwner_of_dispatch {P : Platform M Rq B} {s u : Session M Rq B}
    {e : BeastRouter.Event M B Rq} {message : Rq} (hu : s.step P e = some u)
    (hmessage : s.newDispatches u = [message]) : e.isOwner = false := by
  cases e with
  | readCompleted | writeCompleted | handshakeCompleted | waitCompleted | elapse | closeSocket =>
      rfl
  | call | handshake | handshakeFor =>
    have hsame := congrArg (fun a => a.2.2) (Session.incoming_step P rfl hu)
    rw [Session.newDispatches, show u.dispatched = s.dispatched from hsame, List.drop_length]
      at hmessage
    cases hmessage

structure Reduced (p : Threads T M Rq B U Sm) (q : Program M Rq B U Sm Unit) : Prop where
  listener : q.listener = p.listener
  pool : Pool.Reduced C p.pool q.host

theorem reduced_start {p : Threads T M Rq B U Sm} {q : Program M Rq B U Sm Unit}
    (hr : Reduced C p q) {t : T} (ev : Host.Event M Rq B U Sm Unit) (hev : Served ev)
    {pool : Pool T M Rq B U Sm} (hpool : p.pool.step C (.start t ev) = some pool) :
    ∃ q', Program.run C S q ((p.pool.committed C (.start t ev)).filterMap lift) = some q' ∧
      Reduced C { p with pool := pool } q' := by
  obtain ⟨host, hhost, hreduced⟩ := Pool.reduced_step C _ _ _ _ hr.pool hpool
  refine ⟨⟨q.listener, host⟩, run_lift C S ?_ hhost, hr.listener, hreduced⟩
  rw [Pool.committed_start C hpool]
  split_ifs
  · exact nofun
  · exact List.forall_mem_singleton.mpr hev

theorem reduced_go {p : Threads T M Rq B U Sm} {q : Program M Rq B U Sm Unit}
    (hr : Reduced C p q) {t : T} {m : Move} {pool : Pool T M Rq B U Sm}
    (hpool : p.pool.step C (.go t m) = some pool) :
    ∃ q', Program.run C S q ((p.pool.committed C (.go t m)).filterMap lift) = some q' ∧
      Reduced C { p with pool := pool } q' := by
  obtain ⟨host, hhost, hreduced⟩ := Pool.reduced_step C _ _ _ _ hr.pool hpool
  refine ⟨⟨q.listener, host⟩, run_lift C S ?_ hhost, hr.listener, hreduced⟩
  cases (Pool.moves_of_step C hpool).2 with
  | go _ _ job next hjob hnext =>
    cases hr.pool.working t job hjob with
    | register reg frame =>
      cases m <;> simp [Pool.committed, hjob, Served]
    | session i e s u w message frame hstrand hs hu hmessage =>
      have howner := isOwner_of_dispatch hu hmessage
      cases m <;> simp [Pool.committed, hjob, hstrand, Served, howner]

theorem reduced_onAccept {p r : Pool T M Rq B U Sm} {h : Host M Rq B U Sm Unit}
    (hr : Pool.Reduced C p h) {t : T} {now : ℤ} (hp : onAccept C S t now p = some r) :
    ∃ k, Program.onAccept C S now h = some k ∧ Pool.Reduced C r k := by
  obtain ⟨u, hu, hrest⟩ := Transition.run_cons.mp hp
  rw [Transition.run_singleton] at hrest
  obtain ⟨g, hg, hmade⟩ := Pool.reduced_step C _ _ _ _ hr hu
  obtain ⟨k, hk, hopened⟩ := Pool.reduced_step C _ _ _ _ hmade hrest
  rw [Pool.committed_start C hu] at hg
  rw [Pool.committed_start C hrest] at hk
  have hfirst : (u.jobs t).isSome = false := by
    cases (Pool.moves_of_step C hu).2 with
    | initContext _ _ _ _ _ hjob => simp [hjob]
  have hsecond : (r.jobs t).isSome = false := by
    cases (Pool.moves_of_step C hu).2 with
    | initContext _ _ _ _ _ hjob =>
      cases (Pool.moves_of_step C hrest).2 with
      | quiet => simp [hjob]
      | called _ _ _ s v message _ hfree hs hv hmessage ht =>
        rw [List.getElem?_concat_length, Option.some.injEq] at hs
        subst hs
        have hopen := (Program.step_opening C S now).symm.trans hv
        obtain rfl := Option.some.inj hopen
        rw [Session.newDispatches, Program.dispatched_opened] at hmessage
        cases hmessage
  rw [hfirst] at hg
  rw [hsecond] at hk
  refine ⟨k, ?_, hopened⟩
  rw [Program.onAccept, hr.count]
  exact Transition.run_append_some.mpr ⟨g, hg, hk⟩

theorem reduced_step (p : Threads T M Rq B U Sm) (q : Program M Rq B U Sm Unit)
    (e : Event T M Rq B U Sm) (r : Threads T M Rq B U Sm) (hr : Reduced C p q)
    (h : p.step C S e = some r) :
    ∃ q', Program.run C S q (p.committed C e) = some q' ∧ Reduced C r q' := by
  cases e with
  | register t reg =>
    obtain ⟨pool, hpool, rfl⟩ := Option.map_eq_some_iff.mp h
    exact reduced_start C S hr (.register reg) trivial hpool
  | listener t e now =>
    simp only [step] at h
    split_ifs at h with hthrown
    obtain ⟨listener, hlistener, h⟩ := Option.bind_eq_some_iff.mp h
    have hgoes : q.host.thrown.isSome = false := by
      rw [hr.pool.thrown]
      exact Bool.eq_false_iff.mpr hthrown
    simp only [committed, Transition.run_singleton]
    cases hdrop : listener.delivered.drop p.listener.delivered.length with
    | nil =>
      rw [hdrop] at h
      obtain rfl := Option.some.inj h
      refine ⟨{ q with listener := listener }, ?_, rfl, hr.pool⟩
      simp [Program.step, hgoes, hr.listener, hlistener, hdrop]
    | cons socket sockets =>
      rw [hdrop] at h
      obtain ⟨pool, hpool, rfl⟩ := Option.map_eq_some_iff.mp h
      obtain ⟨k, hk, hreduced⟩ := reduced_onAccept C S hr.pool hpool
      refine ⟨⟨listener, k⟩, ?_, rfl, hreduced⟩
      simp [Program.step, hgoes, hr.listener, hlistener, hdrop, hk]
  | session t i e =>
    simp only [step] at h
    split_ifs at h with he
    obtain ⟨pool, hpool, rfl⟩ := Option.map_eq_some_iff.mp h
    exact reduced_start C S hr (.session i e) (Bool.eq_false_iff.mpr he) hpool
  | go t m =>
    obtain ⟨pool, hpool, rfl⟩ := Option.map_eq_some_iff.mp h
    exact reduced_go C S hr hpool

end Threads
end BeastRouter
