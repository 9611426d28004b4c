import BeastRouter.Listener.Delivery
import BeastRouter.Server.NotFound
import BeastRouter.Session.Work

namespace BeastRouter

structure Service where
  isSsl : Bool
  onError : Bool
  duration : Option ℤ
  deriving DecidableEq, Repr

namespace Service
variable {M Rq B : Type} (P : Platform M Rq B)

def receive (S : Service) : Call M := S.duration.elim .recv .recvFor

def opening (S : Service) : Event M B Rq :=
  if S.isSsl then .handshake [S.receive] else .call S.receive

def opened (S : Service) (now : ℤ) : Session M Rq B :=
  let s := Session.init P S.isSsl S.onError true now
  if S.isSsl then s.doHandshake [S.receive] none else s.call P S.receive

end Service

namespace Listener

theorem delivered_step {s t : Listener} {e : Event} (h : s.step e = some t) :
    t.delivered = s.delivered ∨ ∃ socket, t.delivered = s.delivered ++ [socket] := by
  cases moves_of_step h with
  | loop setup =>
    rcases loop_cases setup s with ⟨-, isOpen, errors, heq⟩ | ⟨-, heq⟩
    · exact .inl (by rw [heq])
    · exact .inl (by rw [heq]; rfl)
  | runStrand c strand hstrand =>
    unfold onSpawnConnect report
    split_ifs
    · exact .inl rfl
    · exact .inl rfl
    · cases hsocket : c.socket with
      | none => exact .inl (List.append_nil _)
      | some socket => exact .inr ⟨socket, rfl⟩
  | close | acceptReady | acceptCompleted | post | rearm => exact .inl rfl

theorem Orderly.delivered_eq {s : Listener} (hs : s.Orderly) :
    s.delivered = List.range s.delivered.length := by
  obtain ⟨-, haccepted, hnumbered⟩ := hs
  have hprefix : s.delivered <+: List.range s.accepted.length := by
    rw [← hnumbered]
    exact ⟨_, haccepted.symm⟩
  have hlen := hprefix.length_le
  rw [List.length_range] at hlen
  have htake := List.prefix_iff_eq_take.mp hprefix
  rw [List.take_range, Nat.min_eq_left hlen] at htake
  exact htake

end Listener

-- A server: a listener, and for every socket it hands over a session on the one router. The context
-- that `recv` returns is dropped.
structure Program (M Rq B U Sm V : Type) where
  listener : Listener
  host : Host M Rq B U Sm V

namespace Program
variable {M Rq B U Sm V : Type} (C : Setting M Rq B U Sm V) (S : Service)

inductive Event (M Rq B U Sm V : Type) where
  | register (reg : Registration Rq U Sm (Outbox V M))
  | listener (e : Listener.Event) (now : ℤ)
  | session (i : ℕ) (e : BeastRouter.Event M B Rq)

def init (onError : Bool) (data : V) : Program M Rq B U Sm V :=
  ⟨.init onError, .init C data⟩

def onAccept (now : ℤ) (h : Host M Rq B U Sm V) : Option (Host M Rq B U Sm V) :=
  Host.run C h
    [.initContext S.isSsl S.onError true now, .session h.sessions.length S.opening]

def step (p : Program M Rq B U Sm V) : Event M Rq B U Sm V → Option (Program M Rq B U Sm V)
  | .register reg => (p.host.step C (.register reg)).map fun host => { p with host := host }
  | .listener e now =>
    if p.host.thrown.isSome then none
    else
      (p.listener.step e).bind fun listener =>
        match listener.delivered.drop p.listener.delivered.length with
        | [] => some { p with listener := listener }
        | _ :: _ => (onAccept C S now p.host).map fun host => ⟨listener, host⟩
  | .session i e =>
    if e.isOwner then none
    else (p.host.step C (.session i e)).map fun host => { p with host := host }

abbrev run := Transition.run (step C S)

def sampleRequest : List (Event StringResponse (Verb × String) (Verb × String) Unit Unit Unit) :=
  [.listener (.loop ⟨.success, .success, .success, .success⟩) 0,
    .listener (.acceptReady 0 .success) 0, .listener (.acceptCompleted 0) 0, .listener (.post 0) 0,
    .listener .runStrand 7, .session 0 (.readCompleted 0 .success [(.get, "a")] (.unknown, ""))]

theorem step_opening (now : ℤ) :
    (Session.init C.platform S.isSsl S.onError true now).step C.platform S.opening =
      some (S.opened C.platform now) := by
  unfold Service.opening Service.opened
  cases hssl : S.isSsl with
  | true => rfl
  | false => rfl

theorem dispatched_opened (now : ℤ) : (S.opened C.platform now).dispatched = [] := by
  have hread : (S.opening : BeastRouter.Event M B Rq).isRead = false := by
    unfold Service.opening
    split_ifs <;> rfl
  have hsame := Session.incoming_step C.platform hread (step_opening C S now)
  exact congrArg (fun a => a.2.2) hsame

theorem onAccept_eq {h : Host M Rq B U Sm V} (hthrown : h.thrown = none) (now : ℤ) :
    onAccept C S now h =
      some { h with sessions := h.sessions ++ [S.opened C.platform now] } := by
  have hgoes : h.thrown.isSome = false := by rw [hthrown]; rfl
  have hnone : Session.newDispatches (Session.init C.platform S.isSsl S.onError true now)
      (S.opened C.platform now) = [] := by
    rw [Session.newDispatches, dispatched_opened]
    rfl
  simp [onAccept, Transition.run, Host.step, hgoes, step_opening, hnone, Host.process]

inductive Moves (p : Program M Rq B U Sm V) :
    Event M Rq B U Sm V → Program M Rq B U Sm V → Prop where
  | register (reg : Registration Rq U Sm (Outbox V M)) (host : Host M Rq B U Sm V)
    (hhost : p.host.step C (.register reg) = some host) :
    Moves p (.register reg) { p with host := host }
  | quiet (e : Listener.Event) (now : ℤ) (listener : Listener)
    (hlistener : p.listener.step e = some listener)
    (hsame : listener.delivered = p.listener.delivered) :
    Moves p (.listener e now) { p with listener := listener }
  | accepted (e : Listener.Event) (now : ℤ) (listener : Listener) (socket : ℕ)
    (hlistener : p.listener.step e = some listener)
    (hsocket : listener.delivered = p.listener.delivered ++ [socket]) :
    Moves p (.listener e now)
      ⟨listener, { p.host with sessions := p.host.sessions ++ [S.opened C.platform now] }⟩
  | session (i : ℕ) (e : BeastRouter.Event M B Rq) (host : Host M Rq B U Sm V)
    (he : e.isOwner = false) (hhost : p.host.step C (.session i e) = some host) :
    Moves p (.session i e) { p with host := host }

theorem moves_of_step {p q : Program M Rq B U Sm V} {e : Event M Rq B U Sm V}
    (h : p.step C S e = some q) : Moves C S p e q := by
  cases e with
  | register reg =>
    obtain ⟨host, hhost, rfl⟩ := Option.map_eq_some_iff.mp h
    exact .register reg host hhost
  | listener e now =>
    simp only [step] at h
    split_ifs at h with hthrown
    obtain ⟨listener, hlistener, h⟩ := Option.bind_eq_some_iff.mp h
    rcases Listener.delivered_step hlistener with hsame | ⟨socket, hsocket⟩
    · rw [hsame, List.drop_length] at h
      exact Option.some.inj h ▸ .quiet e now listener hlistener hsame
    · have hnone : p.host.thrown = none := by simpa using hthrown
      rw [hsocket, List.drop_left, onAccept_eq C S hnone] at h
      exact Option.some.inj h ▸ .accepted e now listener socket hlistener hsocket
  | session i e =>
    simp only [step] at h
    split_ifs at h with he
    obtain ⟨host, hhost, rfl⟩ := Option.map_eq_some_iff.mp h
    exact .session i e host (Bool.eq_false_iff.mpr he) hhost

def hostEvents (p : Program M Rq B U Sm V) :
    Event M Rq B U Sm V → List (Host.Event M Rq B U Sm V)
  | .register reg => [.register reg]
  | .listener e now =>
    match p.listener.step e with
    | none => []
    | some listener =>
      (listener.delivered.drop p.listener.delivered.length).flatMap fun _ =>
        [.initContext S.isSsl S.onError true now, .session p.host.sessions.length S.opening]
  | .session i e => [.session i e]

theorem host_step {p q : Program M Rq B U Sm V} (hthrown : p.host.thrown = none)
    {e : Event M Rq B U Sm V} (h : p.step C S e = some q) :
    Host.run C p.host (p.hostEvents S e) = some q.host := by
  cases moves_of_step C S h with
  | register reg host hhost => exact (Transition.run_singleton _ _ _).trans hhost
  | quiet e now listener hlistener hsame =>
    simp only [hostEvents, hlistener, hsame, List.drop_length, List.flatMap_nil]
    rfl
  | accepted e now listener socket hlistener hsocket =>
    simp only [hostEvents, hlistener, hsocket, List.drop_left, List.flatMap_singleton]
    exact onAccept_eq C S hthrown now
  | session i e host he hhost => exact (Transition.run_singleton _ _ _).trans hhost

theorem thrown_of_step {p q : Program M Rq B U Sm V} {e : Event M Rq B U Sm V}
    (h : p.step C S e = some q) : p.host.thrown = none := by
  cases hthrown : p.host.thrown with
  | none => rfl
  | some path =>
    cases e <;> simp [step, Host.step, hthrown] at h

theorem host_run {p q : Program M Rq B U Sm V} {es : List (Event M Rq B U Sm V)}
    (hr : run C S p es = some q) :
    Host.run C p.host (Transition.collect (step C S) (hostEvents S) p es) = some q.host :=
  Transition.run_collect (f := Program.host)
    (fun _ _ _ h => host_step C S (thrown_of_step C S h) h) hr

structure Sound (p : Program M Rq B U Sm V) : Prop where
  listener : p.listener.Sound
  orderly : p.listener.Orderly
  built : p.host.Built C
  paired : p.host.sessions.length = p.listener.delivered.length
  opening : ∀ s ∈ p.host.sessions, ∀ h ∈ s.handshakes, h.func = [S.receive]

theorem sound_init (onError : Bool) (data : V) :
    (init C onError data : Program M Rq B U Sm V).Sound C S where
  listener := Listener.sound_init onError
  orderly := Listener.orderly_init onError
  built := Host.built_init C data
  paired := rfl
  opening := nofun

theorem handshakes_opened (now : ℤ) :
    ∀ h ∈ (S.opened C.platform now).handshakes, h.func = [S.receive] := by
  unfold Service.opened
  intro h hh
  split_ifs at hh
  · rw [List.mem_singleton.mp hh]
  · have hsame := (Session.extends_call C.platform S.receive
      (Session.init C.platform S.isSsl S.onError true now)).handshakes
    rw [hsame] at hh
    cases hh

theorem opening_set {sessions : List (Session M Rq B)} {i : ℕ} {s t : Session M Rq B}
    (hs : ∀ s ∈ sessions, ∀ h ∈ s.handshakes, h.func = [S.receive])
    (hi : sessions[i]? = some s)
    (ht : ∀ h ∈ t.handshakes, h ∈ s.handshakes) :
    ∀ u ∈ sessions.set i t, ∀ h ∈ u.handshakes, h.func = [S.receive] := by
  intro u hu h hh
  rcases List.mem_or_eq_of_mem_set hu with hmem | rfl
  · exact hs u hmem h hh
  · exact hs s (List.mem_of_getElem? hi) h (ht h hh)

theorem sound_step (p : Program M Rq B U Sm V) (e : Event M Rq B U Sm V)
    (q : Program M Rq B U Sm V) (hs : p.Sound C S) (h : p.step C S e = some q) : q.Sound C S := by
  obtain ⟨hlistener, horderly, hbuilt, hpaired, hopening⟩ := hs
  cases moves_of_step C S h with
  | register reg host hhost =>
    refine ⟨hlistener, horderly, Host.built_step C hbuilt hhost, ?_, ?_⟩
    · cases (Host.moves_of_step C hbuilt hhost).2
      exact hpaired
    · cases (Host.moves_of_step C hbuilt hhost).2
      exact hopening
  | quiet e now listener hstep hsame =>
    exact ⟨Listener.sound_step _ _ _ hlistener hstep,
      Listener.orderly_step _ _ _ hlistener horderly hstep, hbuilt, hsame.symm ▸ hpaired,
      hopening⟩
  | accepted e now listener socket hstep hsocket =>
    refine ⟨Listener.sound_step _ _ _ hlistener hstep,
      Listener.orderly_step _ _ _ hlistener horderly hstep,
        ⟨hbuilt.allocated, hbuilt.find_table⟩,
      ?_, ?_⟩
    · simp [hsocket, hpaired]
    · intro s hs
      rcases List.mem_append.mp hs with hs | hs
      · exact hopening s hs
      · rw [List.mem_singleton.mp hs]
        exact handshakes_opened C S now
  | session i e host he hhost =>
    have hbuilt' := Host.built_step C hbuilt hhost
    cases (Host.moves_of_step C hbuilt hhost).2 with
    | quiet i e s t hi ht hnone =>
      refine ⟨hlistener, horderly, hbuilt', ?_, ?_⟩
      · exact List.length_set.trans hpaired
      · exact opening_set S hopening hi (Session.handshakes_subset C.platform he ht)
    | dispatched i e s t message hi ht hmessage =>
      refine ⟨hlistener, horderly, hbuilt', ?_, ?_⟩
      · exact List.length_set.trans hpaired
      · apply opening_set S hopening hi
        rw [(Session.extends_calls C.platform _ t).handshakes]
        exact Session.handshakes_subset C.platform he ht

theorem sound_run {onError : Bool} {data : V} {es : List (Event M Rq B U Sm V)}
    {q : Program M Rq B U Sm V} (hr : run C S (init C onError data) es = some q) : q.Sound C S :=
  Transition.run_invariant (sound_step C S) (sound_init C S onError data) hr

end Program
end BeastRouter
