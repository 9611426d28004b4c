import BeastRouter.Foundation.Inevitable
import BeastRouter.Router.Termination
import BeastRouter.Server.Reduction

namespace BeastRouter

namespace System
variable {Rq U Sm W : Type} {D : Deployment Rq U Sm W}

def Founded (D : Deployment Rq U Sm W) (heap : Heap Rq U Sm W) : Prop :=
  ∃ storage, (table D heap).find .unknown "" = some storage

theorem founded_init (hserver : D.isRequest = true) :
    Founded D (Router.new D.http D.order D.isRequest D.base).2 := by
  rw [hserver]
  exact Dispatcher.find_unknown_server D.http D.order D.base [] []

theorem founded_register {heap : Heap Rq U Sm W} (hfounded : Founded D heap)
    (hallocated : (router D).methodMap < heap.maps.length) (reg : Registration Rq U Sm W) :
    Founded D ((router D).register D.order heap reg) := by
  obtain ⟨storage, hstorage⟩ := hfounded
  have htable : table D ((router D).register D.order heap reg) =
      (table D heap).addResource reg.path reg.method (.new D.order reg.chain.1) :=
    Router.load_register D.order (router D) hallocated reg
  rw [Founded, htable, MethodMap.find_addResource]
  split_ifs
  · exact ⟨_, rfl⟩
  · exact ⟨storage, hstorage⟩

theorem nextResource_isSome {heap : Heap Rq U Sm W} (hfounded : Founded D heap)
    (p : Progress Rq U Sm W) : ∃ frame, nextResource D (table D heap) p = some frame := by
  obtain ⟨storage, hstorage⟩ := hfounded
  unfold nextResource
  split
  · split
    · exact ⟨_, rfl⟩
    · split
      · exact ⟨_, rfl⟩
      · exact ⟨_, rfl⟩
  · split_ifs
    · exact ⟨_, rfl⟩
    · obtain ⟨resourceMap, hunknown, -⟩ := Option.bind_eq_some_iff.mp hstorage
      rw [hunknown]
      exact ⟨_, rfl⟩

theorem founded_step {T : Type} [DecidableEq T] {s s' : System T Rq U Sm W}
    {e : Event T Rq U Sm W} (hs : s.Sound D) (hfounded : Founded D s.heap)
    (h : s.step D e = some s') : Founded D s'.heap := by
  cases moves_of_step D h with
  | update t reg frames ht => exact founded_register hfounded hs.allocated reg
  | _ => exact hfounded

end System

namespace Pool
variable {T M Rq B U Sm : Type} [DecidableEq T] (C : Setting M Rq B U Sm Unit)

structure Live (p : Pool T M Rq B U Sm) : Prop where
  reduced : ∃ h, Reduced C p h
  founded : System.Founded C.deployment p.system.heap

theorem live_init (hserver : C.isRequest = true) : Live C (init C : Pool T M Rq B U Sm) where
  reduced := ⟨_, reduced_init C⟩
  founded := System.founded_init hserver

theorem live_step {p q : Pool T M Rq B U Sm} {e : Event T M Rq B U Sm} (hp : Live C p)
    (h : p.step C e = some q) : Live C q := by
  obtain ⟨⟨host, hr⟩, hfounded⟩ := hp
  obtain ⟨k, -, hk⟩ := reduced_step C p host e q hr h
  refine ⟨⟨k, hk⟩, ?_⟩
  cases (moves_of_step C h).2 with
  | register | initContext | quiet | called => exact hfounded
  | go t m job u hjob hu =>
    have hheap : System.Founded C.deployment u.system.heap := by
      cases job with
      | register reg =>
        obtain ⟨sys, hsys, rfl⟩ := Option.map_eq_some_iff.mp hu
        exact System.founded_step hr.sound hfounded hsys
      | session i =>
        obtain ⟨s, -, hu⟩ := Option.bind_eq_some_iff.mp hu
        obtain ⟨sys, hsys, rfl⟩ := Option.map_eq_some_iff.mp hu
        exact System.founded_step (sound_load C hr.sound ((), s)) hfounded hsys
    split_ifs
    · cases job <;> exact hheap
    · exact hheap

def Goes (p q : Pool T M Rq B U Sm) : Prop := ∃ t m, p.step C (.go t m) = some q

theorem goes_of_resume {p q : Pool T M Rq B U Sm} (hgoes : p.thrown = none) {t : T} {m : Move}
    {job : Job M Rq U Sm} (hjob : p.jobs t = some job) (hq : p.resume C t m job = some q) :
    ∃ r, Goes C p r := by
  refine ⟨if (q.system.threads t).isEmpty then q.leave t job else q, t, m, ?_⟩
  simp [step, hgoes, hjob, hq]

theorem goes_of_register {p : Pool T M Rq B U Sm} (hgoes : p.thrown = none) {t : T}
    {reg : Registration Rq U Sm (Outbox Unit M)} (hjob : p.jobs t = some (.register reg))
    {m : Move} {sys : System T Rq U Sm (Unit × Session M Rq B)}
    (hsys : p.system.step C.deployment (m.event t) = some sys) : ∃ r, Goes C p r :=
  goes_of_resume C hgoes hjob (Option.map_eq_some_iff.mpr ⟨sys, hsys, rfl⟩)

theorem goes_of_session {p : Pool T M Rq B U Sm} (hgoes : p.thrown = none) {t : T} {i : ℕ}
    (hjob : p.jobs t = some (.session i)) {w : Session M Rq B} (hw : p.sessions[i]? = some w)
    {m : Move} {sys : System T Rq U Sm (Unit × Session M Rq B)}
    (hsys : System.step C.deployment { p.system with world := ((), w) } (m.event t) = some sys) :
    ∃ r, Goes C p r :=
  goes_of_resume C hgoes hjob (Option.bind_eq_some_iff.mpr
    ⟨w, hw, Option.map_eq_some_iff.mpr ⟨sys, hsys, rfl⟩⟩)

theorem goes_of_reading {p : Pool T M Rq B U Sm} {h : Host M Rq B U Sm Unit} (hr : Reduced C p h)
    (hfounded : System.Founded C.deployment p.system.heap) (hgoes : p.thrown = none) {t : T}
    (hreader : t ∈ p.system.lock.readers) : ∃ r, Goes C p r := by
  have hcount : 0 < (p.system.threads t).countP Frame.isReading := by
    rw [hr.sound.reading]
    exact List.count_pos_iff.mpr hreader
  cases hjob : p.jobs t with
  | none =>
    rw [hr.idle t hjob] at hcount
    cases hcount
  | some job =>
    cases hr.working t job hjob with
    | register reg frame hreg ht hframe =>
      rw [ht] at hcount
      cases hframe <;> cases hcount
    | session i e s u w message frame hstrand hs hu hmessage hw ht hframe =>
      rw [ht] at hcount
      cases frame with
      | addResource | update | leaveWrite | processRequest => cases hcount
      | loop pr =>
        obtain ⟨frame, hnext⟩ := System.nextResource_isSome hfounded pr
        have hsys : System.step C.deployment { p.system with world := ((), w) } (.visit t) =
            some (System.setFrames t [frame] { p.system with world := ((), w) }) := by
          simp [System.step, ht, hnext]
        exact goes_of_session C hgoes hjob hw (m := .visit) hsys
      | chain pr v fallback =>
        have hsys := System.step_runChain C.deployment (t := t)
          (s := { p.system with world := ((), w) }) ht
        exact goes_of_session C hgoes hjob hw (m := .runChain) hsys
      | leaveRead pr =>
        have hsys : System.step C.deployment { p.system with world := ((), w) } (.unlock t) =
            some (System.setFrames t [] { p.system with
              world := ((), w)
              lock := { p.system.lock with readers := p.system.lock.readers.erase t }
              done := p.system.done ++ [(t, pr)] }) := by
          simp [System.step, ht, RwLock.Lock.unlockShared, hreader]
        exact goes_of_session C hgoes hjob hw (m := .unlock) hsys

theorem goes_of_writing {p : Pool T M Rq B U Sm} {h : Host M Rq B U Sm Unit} (hr : Reduced C p h)
    (hgoes : p.thrown = none) {t : T} (hwriter : p.system.lock.writer = some t) :
    ∃ r, Goes C p r := by
  have hwriting := (hr.sound.writing t).mpr hwriter
  cases hjob : p.jobs t with
  | none =>
    rw [hr.idle t hjob] at hwriting
    cases hwriting
  | some job =>
    cases hr.working t job hjob with
    | register reg frame hreg ht hframe =>
      rw [ht] at hwriting
      cases hframe with
      | waiting => cases hwriting
      | writing =>
        have hsys : p.system.step C.deployment (.update t) = some (System.setFrames t [.leaveWrite]
            { p.system with
              heap := (System.router C.deployment).register C.deployment.order p.system.heap
                (reg.onSession C.platform) }) := by
          simp [System.step, ht]
        exact goes_of_register C hgoes hjob (m := .update) hsys
      | leaving =>
        have hsys : p.system.step C.deployment (.unlock t) = some (System.setFrames t []
            { p.system with lock := { p.system.lock with writer := none } }) := by
          simp [System.step, ht, RwLock.Lock.unlock, hwriter]
        exact goes_of_register C hgoes hjob (m := .unlock) hsys
    | session i e s u w message frame hstrand hs hu hmessage hw ht hframe =>
      rw [ht] at hwriting
      cases frame with
      | update | leaveWrite => cases (Serving.isReading hframe rfl).2
      | _ => cases hwriting

theorem can_go {p : Pool T M Rq B U Sm} (hp : Live C p) (hgoes : p.thrown = none) {t : T}
    {job : Job M Rq U Sm} (hjob : p.jobs t = some job) : ∃ r, Goes C p r := by
  obtain ⟨⟨h, hr⟩, hfounded⟩ := hp
  cases hwriter : p.system.lock.writer with
  | some u => exact goes_of_writing C hr hgoes hwriter
  | none =>
    cases hreaders : p.system.lock.readers with
    | cons u readers =>
      exact goes_of_reading C hr hfounded hgoes (hreaders ▸ List.mem_cons_self)
    | nil =>
      cases hr.working t job hjob with
      | register reg frame hreg ht hframe =>
        cases hframe with
        | waiting =>
          have hsys : p.system.step C.deployment (.lock t) = some (System.setFrames t
              [.update (reg.onSession C.platform)]
              { p.system with
                lock := { p.system.lock with writer := some t }
                log := p.system.log ++ [(t, reg.onSession C.platform)] }) := by
            simp [System.step, ht, System.enterToWrite, RwLock.Lock.lock, hwriter, hreaders]
          exact goes_of_register C hgoes hjob (m := .lock) hsys
        | writing | leaving =>
          have hwrites := hr.sound.writer_eq_some ht rfl
          rw [hwriter] at hwrites
          cases hwrites
      | session i e s u w message frame hstrand hs hu hmessage hw ht hframe =>
        cases hreading : frame.isReading with
        | true =>
          have hmem : frame ∈ p.system.threads t := by
            rw [ht]
            exact .head []
          exact absurd hreaders (hr.sound.readers_ne_nil hmem hreading)
        | false =>
          obtain ⟨-, rfl⟩ := Serving.isReading hframe hreading
          have hsys : System.step C.deployment { p.system with world := ((), w) } (.lock t) =
              some (System.setFrames t
                [.loop ⟨message, p.system.log.map Prod.snd, 0, ⟨[], false, ((), w), none⟩⟩]
                { p.system with
                  world := ((), w)
                  lock := { p.system.lock with readers := t :: p.system.lock.readers } }) := by
            simp [System.step, ht, System.enterToRead, RwLock.Lock.lockShared, hwriter]
          exact goes_of_session C hgoes hjob hw (m := .lock) hsys

theorem debt_of_goes [Fintype T] {p q : Pool T M Rq B U Sm} (h : Goes C p q) :
    q.system.debt C.deployment < p.system.debt C.deployment := by
  obtain ⟨t, m, h⟩ := h
  have hinner : ((m.event t : System.Event T Rq U Sm (Unit × Session M Rq B))).isInner = true := by
    cases m <;> rfl
  cases (moves_of_step C h).2 with
  | go _ _ job u hjob hu =>
    have hless : u.system.debt C.deployment < p.system.debt C.deployment := by
      cases job with
      | register reg =>
        obtain ⟨sys, hsys, rfl⟩ := Option.map_eq_some_iff.mp hu
        exact System.debt_step C.deployment hinner hsys
      | session i =>
        obtain ⟨s, -, hu⟩ := Option.bind_eq_some_iff.mp hu
        obtain ⟨sys, hsys, rfl⟩ := Option.map_eq_some_iff.mp hu
        exact System.debt_step C.deployment (s := { p.system with world := ((), s) }) hinner hsys
    split_ifs
    · cases job <;> exact hless
    · exact hless

theorem all_begun_ends [Fintype T] (hserver : C.isRequest = true) (es : List (Event T M Rq B U Sm))
    (p : Pool T M Rq B U Sm) (hr : run C (init C) es = some p) :
    Transition.Inevitable (Goes C) (fun q => q.thrown.isSome ∨ ∀ t, q.jobs t = none) p := by
  have hlive : Live C p := Transition.run_invariant (fun _ _ _ => live_step C)
    (live_init C hserver) hr
  refine Transition.inevitable_of_measure (fun q => q.system.debt C.deployment) ?_
    (fun q r _ hgoes => debt_of_goes C hgoes) ?_ hlive
  · rintro q r hq ⟨t, m, h⟩
    exact live_step C hq h
  · intro q hq
    cases hthrown : q.thrown with
    | some path => exact .inl (.inl rfl)
    | none =>
      by_cases hidle : ∀ t, q.jobs t = none
      · exact .inl (.inr hidle)
      · obtain ⟨t, ht⟩ := not_forall.mp hidle
        obtain ⟨job, hjob⟩ := Option.ne_none_iff_exists'.mp ht
        exact .inr (can_go C hq hthrown hjob)

theorem all_begun_ends_requests :
    ∃ p, run .sampleServer (init .sampleServer) (sampleRequests.take 8) = some p ∧
      (p.jobs true).isSome ∧ (p.jobs false).isSome ∧
      Transition.Inevitable (Goes .sampleServer)
        (fun q => q.thrown.isSome ∨ ∀ t, q.jobs t = none) p :=
  ⟨_, rfl, rfl, rfl, all_begun_ends .sampleServer rfl (sampleRequests.take 8) _ rfl⟩

end Pool
end BeastRouter
