import BeastRouter.Server.Pool

namespace BeastRouter

inductive Registering {Rq U Sm W : Type} (reg : Registration Rq U Sm W) :
    Frame Rq U Sm W → Prop where
  | waiting : Registering reg (.addResource reg)
  | writing : Registering reg (.update reg)
  | leaving : Registering reg .leaveWrite

inductive Serving {M Rq B U Sm : Type} (D : Deployment Rq U Sm (Unit × Session M Rq B))
    (heap : Heap Rq U Sm (Unit × Session M Rq B)) (message : Rq) (u : Session M Rq B) :
    Session M Rq B → Frame Rq U Sm (Unit × Session M Rq B) → Prop where
  | called : Serving D heap message u u (.processRequest message)
  | inside (w : Session M Rq B) (frame : Frame Rq U Sm (Unit × Session M Rq B))
    (hframe : System.Underway D (System.table D heap) ((), w)
      (System.sequential D heap message ((), u)) frame) : Serving D heap message u w frame

namespace Pool
variable {T M Rq B U Sm : Type} (C : Setting M Rq B U Sm Unit)

inductive AtWork (p : Pool T M Rq B U Sm) (h : Host M Rq B U Sm Unit) (t : T) :
    Job M Rq U Sm → Prop where
  | register (reg : Registration Rq U Sm (Outbox Unit M))
    (frame : Frame Rq U Sm (Unit × Session M Rq B)) (hreg : reg.available C.isRequest = true)
    (ht : p.system.threads t = [frame]) (hframe : Registering (reg.onSession C.platform) frame) :
    AtWork p h t (.register reg)
  | session (i : ℕ) (e : BeastRouter.Event M B Rq) (s u w : Session M Rq B) (message : Rq)
    (frame : Frame Rq U Sm (Unit × Session M Rq B)) (hstrand : p.strands i = some e)
    (hs : h.sessions[i]? = some s) (hu : s.step C.platform e = some u)
    (hmessage : s.newDispatches u = [message]) (hw : p.sessions[i]? = some w)
    (ht : p.system.threads t = [frame])
    (hframe : Serving C.deployment p.system.heap message u w frame) : AtWork p h t (.session i)

theorem Serving.isReading {D : Deployment Rq U Sm (Unit × Session M Rq B)}
    {heap : Heap Rq U Sm (Unit × Session M Rq B)} {message : Rq} {u w : Session M Rq B}
    {frame : Frame Rq U Sm (Unit × Session M Rq B)} (h : Serving D heap message u w frame)
    (hframe : frame.isReading = false) : w = u ∧ frame = .processRequest message := by
  cases h with
  | called => exact ⟨rfl, rfl⟩
  | inside _ _ hunderway =>
    obtain ⟨⟨p, hp, -⟩, -, -⟩ := hunderway
    rw [Frame.isReading, hp, Option.isSome_some] at hframe
    cases hframe

theorem AtWork.frame {p q : Pool T M Rq B U Sm} {h k : Host M Rq B U Sm Unit} {t : T}
    {job : Job M Rq U Sm} (hwork : AtWork C p h t job)
    (hthreads : q.system.threads t = p.system.threads t)
    (hheap : q.system.heap = p.system.heap ∨
      ∀ frame ∈ p.system.threads t, frame.isReading = false)
    (hsession : ∀ i, job = .session i → q.strands i = p.strands i ∧
      q.sessions[i]? = p.sessions[i]? ∧ k.sessions[i]? = h.sessions[i]?) :
    AtWork C q k t job := by
  cases hwork with
  | register reg frame hreg ht hframe => exact .register reg frame hreg (hthreads.trans ht) hframe
  | session i e s u w message frame hstrand hs hu hmessage hw ht hframe =>
    obtain ⟨hstrands, hsessions, hbefore⟩ := hsession i rfl
    refine .session i e s u w message frame (hstrands.trans hstrand) (hbefore.trans hs) hu hmessage
      (hsessions.trans hw) (hthreads.trans ht) ?_
    rcases hheap with hsame | hidle
    · exact hsame ▸ hframe
    · have hmem : frame ∈ p.system.threads t := by
        rw [ht]
        exact .head []
      obtain ⟨rfl, rfl⟩ := Serving.isReading hframe (hidle frame hmem)
      exact .called

theorem AtWork.beside {p q : Pool T M Rq B U Sm} {h k : Host M Rq B U Sm Unit} {t : T}
    {job : Job M Rq U Sm} (hwork : AtWork C p h t job) {i : ℕ} (hne : job ≠ .session i)
    (hthreads : q.system.threads t = p.system.threads t) (hheap : q.system.heap = p.system.heap)
    (hstrands : ∀ j, j ≠ i → q.strands j = p.strands j)
    (hsessions : ∀ j, j ≠ i → q.sessions[j]? = p.sessions[j]?)
    (hbefore : ∀ j, j ≠ i → k.sessions[j]? = h.sessions[j]?) : AtWork C q k t job := by
  refine hwork.frame C hthreads (.inl hheap) ?_
  rintro j rfl
  have hj : j ≠ i := fun heq => hne (congrArg Job.session heq)
  exact ⟨hstrands j hj, hsessions j hj, hbefore j hj⟩

variable [DecidableEq T]

structure Reduced (p : Pool T M Rq B U Sm) (h : Host M Rq B U Sm Unit) : Prop where
  sound : p.system.Sound C.deployment
  heap : h.heap = p.system.heap
  router : h.router = System.router C.deployment
  thrown : h.thrown = p.thrown
  count : h.sessions.length = p.sessions.length
  rest : ∀ i, p.strands i = none → h.sessions[i]? = p.sessions[i]?
  idle : ∀ t, p.jobs t = none → p.system.threads t = []
  working : ∀ t job, p.jobs t = some job → AtWork C p h t job
  alone : ∀ t u i, p.jobs t = some (.session i) → p.jobs u = some (.session i) → t = u

theorem Reduced.of_thread {p q : Pool T M Rq B U Sm} {h k : Host M Rq B U Sm Unit}
    (hr : Reduced C p h) (t : T) (hsound : q.system.Sound C.deployment)
    (hheap : k.heap = q.system.heap) (hrouter : k.router = h.router) (hthrown : k.thrown = q.thrown)
    (hcount : k.sessions.length = q.sessions.length)
    (hrest : ∀ i, q.strands i = none → k.sessions[i]? = q.sessions[i]?)
    (hidle : q.jobs t = none → q.system.threads t = [])
    (hworking : ∀ job, q.jobs t = some job → AtWork C q k t job)
    (halone : ∀ u i, u ≠ t → q.jobs t = some (.session i) → p.jobs u ≠ some (.session i))
    (hjobs : ∀ u, u ≠ t → q.jobs u = p.jobs u)
    (hthreads : ∀ u, u ≠ t → q.system.threads u = p.system.threads u)
    (hothers : ∀ u job, u ≠ t → AtWork C p h u job → p.jobs u = some job →
      AtWork C q k u job) :
    Reduced C q k where
  sound := hsound
  heap := hheap
  router := hrouter.trans hr.router
  thrown := hthrown
  count := hcount
  rest := hrest
  idle := by
    intro u hu
    by_cases hut : u = t
    · subst hut
      exact hidle hu
    · exact (hthreads u hut).trans (hr.idle u ((hjobs u hut).symm.trans hu))
  working := by
    intro u job hu
    by_cases hut : u = t
    · subst hut
      exact hworking job hu
    · have hjob : p.jobs u = some job := (hjobs u hut).symm.trans hu
      exact hothers u job hut (hr.working u job hjob) hjob
  alone := by
    intro u v i hu hv
    by_cases hut : u = t
    · subst hut
      by_contra hne
      have hvu : v ≠ u := fun heq => hne heq.symm
      exact halone v i hvu hu ((hjobs v hvu).symm.trans hv)
    · by_cases hvt : v = t
      · subst hvt
        exact absurd ((hjobs u hut).symm.trans hu) (halone u i hut hv)
      · exact hr.alone u v i ((hjobs u hut).symm.trans hu) ((hjobs v hvt).symm.trans hv)

theorem reduced_init :
    Reduced C (init C : Pool T M Rq B U Sm) (Host.init C () : Host M Rq B U Sm Unit) where
  sound := System.sound_init C.deployment _
  heap := rfl
  router := rfl
  thrown := rfl
  count := rfl
  rest := fun _ _ => rfl
  idle := fun _ _ => rfl
  working := nofun
  alone := nofun

theorem sound_load {p : Pool T M Rq B U Sm} (hs : p.system.Sound C.deployment)
    (w : Unit × Session M Rq B) :
    System.Sound C.deployment { p.system with world := w } :=
  ⟨hs.allocated, hs.exclusive, hs.stacked, hs.reading, hs.writing⟩

theorem sound_call {p : Pool T M Rq B U Sm} {h : Host M Rq B U Sm Unit} (hr : Reduced C p h)
    {t : T} (ht : p.system.threads t = [])
    (op : Operation Rq U Sm (Unit × Session M Rq B)) :
    (p.system.setFrames t [op.frame]).Sound C.deployment := by
  have hcall : p.system.step C.deployment (.call t op) =
    some (p.system.setFrames t [op.frame]) := by
    simp [System.step, ht]
  exact System.sound_step C.deployment _ _ _ hr.sound hcall

theorem reduced_register {p : Pool T M Rq B U Sm} {h : Host M Rq B U Sm Unit} (hr : Reduced C p h)
    {t : T} {reg : Registration Rq U Sm (Outbox Unit M)} (hreg : reg.available C.isRequest = true)
    (ht : p.system.threads t = []) :
    Reduced C { p with
      system := p.system.setFrames t [.addResource (reg.onSession C.platform)]
      jobs := Function.update p.jobs t (some (.register reg)) } h := by
  refine hr.of_thread C t (sound_call C hr ht (.register (reg.onSession C.platform))) hr.heap rfl
    hr.thrown hr.count hr.rest ?_ ?_ ?_ ?_ ?_ ?_
  · simp
  · intro job hjob
    simp only [Function.update_self, Option.some.injEq] at hjob
    exact hjob ▸ .register reg _ hreg (System.threads_self _ _ _) .waiting
  · simp
  · exact fun u hu => Function.update_of_ne hu _ _
  · exact fun u hu => System.threads_other hu _ _
  · intro u job hu hwork _
    exact hwork.frame C (System.threads_other hu _ _) (.inl rfl) fun i _ => ⟨rfl, rfl, rfl⟩

theorem reduced_initContext {p : Pool T M Rq B U Sm} {h : Host M Rq B U Sm Unit}
    (hr : Reduced C p h) (s : Session M Rq B) :
    Reduced C { p with sessions := p.sessions ++ [s] }
      { h with sessions := h.sessions ++ [s] } where
  sound := hr.sound
  heap := hr.heap
  router := hr.router
  thrown := hr.thrown
  count := by simp [hr.count]
  rest := by
    intro i hi
    simp only [List.getElem?_append, hr.count, hr.rest i hi]
  idle := hr.idle
  working := by
    intro t job hjob
    refine (hr.working t job hjob).frame C rfl (.inl rfl) ?_
    rintro i rfl
    cases hr.working t _ hjob with
    | session _ e r u w message frame hstrand hs hu hmessage hw ht hframe =>
      refine ⟨rfl, List.getElem?_append_left ?_, List.getElem?_append_left ?_⟩
      · exact (List.getElem?_eq_some_iff.mp hw).1
      · exact (List.getElem?_eq_some_iff.mp hs).1
  alone := hr.alone

theorem Reduced.ne_of_free {p : Pool T M Rq B U Sm} {h : Host M Rq B U Sm Unit}
    (hr : Reduced C p h) {i : ℕ} (hfree : p.strands i = none) (t : T) :
    p.jobs t ≠ some (.session i) := by
  intro hjob
  cases hr.working t _ hjob with
  | session _ e s u w message frame hstrand =>
    rw [hfree] at hstrand
    cases hstrand

theorem reduced_quiet {p : Pool T M Rq B U Sm} {h : Host M Rq B U Sm Unit} (hr : Reduced C p h)
    {i : ℕ} (hfree : p.strands i = none) (u : Session M Rq B) :
    Reduced C { p with sessions := p.sessions.set i u }
      { h with sessions := h.sessions.set i u } where
  sound := hr.sound
  heap := hr.heap
  router := hr.router
  thrown := hr.thrown
  count := by simp [hr.count]
  rest := by
    intro j hj
    simp only [List.getElem?_set, hr.count, hr.rest j hj]
  idle := hr.idle
  working := by
    intro t job hjob
    have hne : job ≠ .session i := by
      rintro rfl
      exact hr.ne_of_free C hfree t hjob
    exact (hr.working t job hjob).beside C hne rfl rfl (fun _ _ => rfl)
      (fun j hj => List.getElem?_set_ne hj.symm) fun j hj => List.getElem?_set_ne hj.symm
  alone := hr.alone

theorem reduced_called {p : Pool T M Rq B U Sm} {h : Host M Rq B U Sm Unit} (hr : Reduced C p h)
    {t : T} {i : ℕ} {e : BeastRouter.Event M B Rq} {s u : Session M Rq B} {message : Rq}
    (hfree : p.strands i = none) (hs : p.sessions[i]? = some s) (hu : s.step C.platform e = some u)
    (hmessage : s.newDispatches u = [message]) (ht : p.system.threads t = []) :
    Reduced C { p with
      system := p.system.setFrames t [.processRequest message]
      sessions := p.sessions.set i u
      strands := Function.update p.strands i (some e)
      jobs := Function.update p.jobs t (some (.session i)) } h := by
  have hlt : i < p.sessions.length := (List.getElem?_eq_some_iff.mp hs).1
  refine hr.of_thread C t (sound_call C hr ht (.processRequest message)) hr.heap rfl hr.thrown
    ?_ ?_ ?_ ?_ ?_ ?_ ?_ ?_
  · simp [hr.count]
  · intro j hj
    have hne : j ≠ i := by
      rintro rfl
      simp at hj
    simp only [Function.update_of_ne hne] at hj
    exact (hr.rest j hj).trans (List.getElem?_set_ne hne.symm).symm
  · simp
  · intro job hjob
    simp only [Function.update_self, Option.some.injEq] at hjob
    exact hjob ▸ .session i e s u u message _ (Function.update_self i _ _)
      ((hr.rest i hfree).trans hs) hu hmessage (List.getElem?_set_self hlt)
      (System.threads_self _ _ _) .called
  · intro v j hv hj
    simp only [Function.update_self, Option.some.injEq, Job.session.injEq] at hj
    exact hj ▸ hr.ne_of_free C hfree v
  · exact fun v hv => Function.update_of_ne hv _ _
  · exact fun v hv => System.threads_other hv _ _
  · intro v job hv hwork hjob
    have hne : job ≠ .session i := by
      rintro rfl
      exact hr.ne_of_free C hfree v hjob
    exact hwork.beside C hne (System.threads_other hv _ _) rfl
      (fun j hj => Function.update_of_ne hj _ _) (fun j hj => List.getElem?_set_ne hj.symm)
      fun _ _ => rfl

theorem Reduced.wrote {p : Pool T M Rq B U Sm} {h k : Host M Rq B U Sm Unit} (hr : Reduced C p h)
    {t : T} {reg : Registration Rq U Sm (Outbox Unit M)} (hjob : p.jobs t = some (.register reg))
    {sys : System T Rq U Sm (Unit × Session M Rq B)} (hsound : sys.Sound C.deployment)
    {frames : List (Frame Rq U Sm (Unit × Session M Rq B))}
    (hthreads : sys.threads = Function.update p.system.threads t frames)
    (hheap : k.heap = sys.heap) (hrouter : k.router = h.router) (hthrown : k.thrown = h.thrown)
    (hsessions : k.sessions = h.sessions)
    (hothers : sys.heap = p.system.heap ∨
      ∀ u, u ≠ t → ∀ frame ∈ p.system.threads u, frame.isReading = false)
    {jobs : T → Option (Job M Rq U Sm)} (hjobs : ∀ u, u ≠ t → jobs u = p.jobs u)
    (hnext : (jobs t = none ∧ frames = []) ∨ (jobs t = some (.register reg) ∧
      ∃ frame, frames = [frame] ∧ Registering (reg.onSession C.platform) frame)) :
    Reduced C { p with system := sys, jobs := jobs } k := by
  have hself : sys.threads t = frames := by rw [hthreads, Function.update_self]
  have hother (u : T) (hu : u ≠ t) : sys.threads u = p.system.threads u := by
    rw [hthreads, Function.update_of_ne hu]
  have hnot (i : ℕ) : jobs t ≠ some (.session i) := by
    rcases hnext with ⟨hnone, -⟩ | ⟨hsome, -⟩
    · rw [hnone]
      exact (Option.some_ne_none _).symm
    · rw [hsome]
      nofun
  refine hr.of_thread C t hsound hheap hrouter (hthrown.trans hr.thrown)
    ((congrArg List.length hsessions).trans hr.count) ?_ ?_ ?_ ?_ hjobs hother ?_
  · intro i hi
    rw [hsessions]
    exact hr.rest i hi
  · intro hnone
    rcases hnext with ⟨-, rfl⟩ | ⟨hsome, -⟩
    · exact hself
    · exact absurd (hsome.symm.trans hnone) (Option.some_ne_none _)
  · intro job hjob'
    rcases hnext with ⟨hnone, -⟩ | ⟨hsome, frame, rfl, hframe⟩
    · exact absurd (hjob'.symm.trans hnone) (Option.some_ne_none _)
    · obtain rfl := Option.some.inj (hsome.symm.trans hjob')
      cases hr.working t _ hjob with
      | register _ before hreg => exact .register reg frame hreg hself hframe
  · exact fun u i _ hjob' => absurd hjob' (hnot i)
  · intro u job hu hwork _
    refine hwork.frame C (hother u hu) (hothers.imp_right fun h => h u hu) fun i _ =>
      ⟨rfl, rfl, ?_⟩
    rw [hsessions]

theorem isEmpty_resume {p q : Pool T M Rq B U Sm} {h : Host M Rq B U Sm Unit}
    (hr : Reduced C p h) {t : T} {m : Move} {job : Job M Rq U Sm} (hjob : p.jobs t = some job)
    (hq : p.resume C t m job = some q) : (q.system.threads t).isEmpty = (m == .unlock) := by
  cases hr.working t job hjob with
  | register reg frame hreg ht hframe =>
    obtain ⟨sys, hsys, rfl⟩ := Option.map_eq_some_iff.mp hq
    exact isEmpty_move ht hsys
  | session i e s u w message frame hstrand hs hu hmessage hw ht hframe =>
    obtain ⟨w', -, hq⟩ := Option.bind_eq_some_iff.mp hq
    obtain ⟨sys, hsys, rfl⟩ := Option.map_eq_some_iff.mp hq
    exact isEmpty_move (s := { p.system with world := ((), w') }) ht hsys

theorem reduced_registers {p q : Pool T M Rq B U Sm} {h : Host M Rq B U Sm Unit}
    (hr : Reduced C p h) (hgoes : p.thrown = none) {t : T} {m : Move}
    {reg : Registration Rq U Sm (Outbox Unit M)} (hjob : p.jobs t = some (.register reg))
    (hq : p.resume C t m (.register reg) = some q) :
    ∃ k, Host.run C h (p.committed C (.go t m)) = some k ∧
      Reduced C (if (q.system.threads t).isEmpty then q.leave t (.register reg) else q) k := by
  rw [isEmpty_resume C hr hjob hq]
  obtain ⟨sys, hsys, rfl⟩ := Option.map_eq_some_iff.mp hq
  have hsound := System.sound_step C.deployment _ _ _ hr.sound hsys
  cases hr.working t _ hjob with
  | register _ frame hreg ht hframe =>
    cases m with
    | lock =>
      cases System.moves_of_step C.deployment hsys with
      | lockWrite _ _ frames ht' hwriter hreaders =>
        obtain ⟨rfl, rfl⟩ := List.cons.inj (ht.symm.trans ht')
        cases hframe
        refine ⟨h, by simp [committed, hjob], ?_⟩
        exact hr.wrote C hjob hsound rfl hr.heap rfl rfl rfl (.inl rfl) (fun _ _ => rfl)
          (.inr ⟨hjob, _, rfl, .writing⟩)
      | lockRead _ request frames ht' hwriter =>
        obtain ⟨rfl, rfl⟩ := List.cons.inj (ht.symm.trans ht')
        cases hframe
    | update =>
      cases System.moves_of_step C.deployment hsys with
      | update _ _ frames ht' =>
        obtain ⟨rfl, rfl⟩ := List.cons.inj (ht.symm.trans ht')
        cases hframe
        let k : Host M Rq B U Sm Unit := { h with
          heap := h.router.register C.order h.heap (reg.onSession C.platform)
          registered := h.registered ++ [reg] }
        have hstep : h.step C (.register reg) = some k := by
          simp [Host.step, hr.thrown, hgoes, hreg, k]
        refine ⟨k, ?_, ?_⟩
        · simpa only [committed, hjob, Transition.run_singleton] using hstep
        · refine hr.wrote C (k := k) hjob hsound rfl ?_ rfl rfl rfl (.inr ?_) (fun _ _ => rfl)
            (.inr ⟨hjob, _, rfl, .leaving⟩)
          · simp only [k, hr.heap, hr.router]
            rfl
          · intro u hu frame hmem
            have hwriter := hr.sound.writer_eq_some ht rfl
            cases hreading : frame.isReading with
            | false => rfl
            | true =>
              rw [hr.sound.exclusive (hr.sound.readers_ne_nil hmem hreading)] at hwriter
              cases hwriter
    | visit =>
      cases System.moves_of_step C.deployment hsys with
      | visit _ pr frame' frames ht' hnext =>
        obtain ⟨rfl, rfl⟩ := List.cons.inj (ht.symm.trans ht')
        cases hframe
    | runChain =>
      cases System.moves_of_step C.deployment hsys with
      | runChain _ pr v fallback frames ht' =>
        obtain ⟨rfl, rfl⟩ := List.cons.inj (ht.symm.trans ht')
        cases hframe
    | unlock =>
      cases System.moves_of_step C.deployment hsys with
      | unlockWrite _ frames ht' hwriter =>
        obtain ⟨rfl, rfl⟩ := List.cons.inj (ht.symm.trans ht')
        refine ⟨h, by simp [committed, hjob], ?_⟩
        exact hr.wrote C hjob hsound rfl hr.heap rfl rfl rfl (.inl rfl)
          (fun u hu => Function.update_of_ne hu _ _) (.inl ⟨Function.update_self _ _ _, rfl⟩)
      | unlockRead _ pr frames ht' hreader =>
        obtain ⟨rfl, rfl⟩ := List.cons.inj (ht.symm.trans ht')
        cases hframe

theorem Reduced.served {p : Pool T M Rq B U Sm} {h : Host M Rq B U Sm Unit} (hr : Reduced C p h)
    {t : T} {i : ℕ} {e : BeastRouter.Event M B Rq} {s u w w' : Session M Rq B} {message : Rq}
    {frame : Frame Rq U Sm (Unit × Session M Rq B)}
    (hjob : p.jobs t = some (.session i)) (hstrand : p.strands i = some e)
    (hs : h.sessions[i]? = some s) (hu : s.step C.platform e = some u)
    (hmessage : s.newDispatches u = [message]) (hw : p.sessions[i]? = some w)
    {sys : System T Rq U Sm (Unit × Session M Rq B)} (hsound : sys.Sound C.deployment)
    (hthreads : sys.threads = Function.update p.system.threads t [frame])
    (hheap : sys.heap = p.system.heap)
    (hframe : Serving C.deployment p.system.heap message u w' frame) :
    Reduced C { p with system := sys, sessions := p.sessions.set i w' } h := by
  have hlt : i < p.sessions.length := (List.getElem?_eq_some_iff.mp hw).1
  have hself : sys.threads t = [frame] := by rw [hthreads, Function.update_self]
  have hother (v : T) (hv : v ≠ t) : sys.threads v = p.system.threads v := by
    rw [hthreads, Function.update_of_ne hv]
  refine hr.of_thread C t hsound (hr.heap.trans hheap.symm) rfl hr.thrown ?_ ?_ ?_ ?_ ?_
    (fun _ _ => rfl) hother ?_
  · simp [hr.count]
  · intro j hj
    have hne : j ≠ i := by
      rintro rfl
      rw [hstrand] at hj
      cases hj
    exact (hr.rest j hj).trans (List.getElem?_set_ne hne.symm).symm
  · exact fun hnone => absurd (hjob.symm.trans hnone) (Option.some_ne_none _)
  · intro job hjob'
    obtain rfl := Option.some.inj (hjob.symm.trans hjob')
    exact .session i e s u w' message frame hstrand hs hu hmessage (List.getElem?_set_self hlt)
      hself (hheap ▸ hframe)
  · intro v j hv hj hvj
    obtain rfl := Job.session.inj (Option.some.inj (hjob.symm.trans hj))
    exact hv (hr.alone v t i hvj hjob)
  · intro v job hv hwork hvjob
    have hne : job ≠ .session i := by
      rintro rfl
      exact hv (hr.alone v t i hvjob hjob)
    exact hwork.beside C hne (hother v hv) hheap (fun _ _ => rfl)
      (fun j hj => List.getElem?_set_ne hj.symm) fun _ _ => rfl

theorem Reduced.left {p : Pool T M Rq B U Sm} {h : Host M Rq B U Sm Unit} (hr : Reduced C p h)
    {t : T} {i : ℕ} {w : Session M Rq B} (thrown : Option String)
    (hjob : p.jobs t = some (.session i)) (hw : p.sessions[i]? = some w)
    {sys : System T Rq U Sm (Unit × Session M Rq B)} (hsound : sys.Sound C.deployment)
    (hthreads : sys.threads = Function.update p.system.threads t [])
    (hheap : sys.heap = p.system.heap) :
    Reduced C { p with
        system := sys
        sessions := p.sessions.set i w
        strands := Function.update p.strands i none
        jobs := Function.update p.jobs t none
        thrown := thrown }
      { h with sessions := h.sessions.set i w, thrown := thrown } := by
  have hlt : i < p.sessions.length := (List.getElem?_eq_some_iff.mp hw).1
  have hself : sys.threads t = [] := by rw [hthreads, Function.update_self]
  have hother (v : T) (hv : v ≠ t) : sys.threads v = p.system.threads v := by
    rw [hthreads, Function.update_of_ne hv]
  refine hr.of_thread C t hsound (hr.heap.trans hheap.symm) rfl rfl ?_ ?_ (fun _ => hself) ?_ ?_
    (fun v hv => Function.update_of_ne hv _ _) hother ?_
  · simp [hr.count]
  · intro j hj
    by_cases hne : j = i
    · subst hne
      exact (List.getElem?_set_self (hr.count ▸ hlt)).trans (List.getElem?_set_self hlt).symm
    · simp only [Function.update_of_ne hne] at hj
      rw [List.getElem?_set_ne (Ne.symm hne)]
      exact (hr.rest j hj).trans (List.getElem?_set_ne (Ne.symm hne)).symm
  · simp
  · simp
  · intro v job hv hwork hvjob
    have hne : job ≠ .session i := by
      rintro rfl
      exact hv (hr.alone v t i hvjob hjob)
    exact hwork.beside C hne (hother v hv) hheap (fun j hj => Function.update_of_ne hj _ _)
      (fun j hj => List.getElem?_set_ne hj.symm) fun j hj => List.getElem?_set_ne hj.symm

theorem dispatch_eq {p : Pool T M Rq B U Sm} {h : Host M Rq B U Sm Unit} (hr : Reduced C p h)
    (message : Rq) (u : Session M Rq B) :
    h.dispatch C message u = System.sequential C.deployment p.system.heap message ((), u) := by
  simp only [Host.dispatch, System.sequential, System.dispatcher, hr.heap, hr.router]
  rfl

theorem reduced_dispatches {p q : Pool T M Rq B U Sm} {h : Host M Rq B U Sm Unit}
    (hr : Reduced C p h) (hgoes : p.thrown = none) {t : T} {m : Move} {i : ℕ}
    (hjob : p.jobs t = some (.session i)) (hq : p.resume C t m (.session i) = some q) :
    ∃ k, Host.run C h (p.committed C (.go t m)) = some k ∧
      Reduced C (if (q.system.threads t).isEmpty then q.leave t (.session i) else q) k := by
  rw [isEmpty_resume C hr hjob hq]
  obtain ⟨w', hw', hq⟩ := Option.bind_eq_some_iff.mp hq
  obtain ⟨sys, hsys, rfl⟩ := Option.map_eq_some_iff.mp hq
  cases hr.working t _ hjob with
  | session _ e s u w message frame hstrand hs hu hmessage hw ht hframe =>
    obtain rfl := Option.some.inj (hw.symm.trans hw')
    have hsound := System.sound_step C.deployment _ _ _ (sound_load C hr.sound ((), w)) hsys
    cases m with
    | lock =>
      cases System.moves_of_step C.deployment hsys with
      | lockWrite _ reg frames ht' hwriter hreaders =>
        obtain ⟨rfl, rfl⟩ := List.cons.inj (ht.symm.trans ht')
        cases (Serving.isReading hframe rfl).2
      | lockRead _ request frames ht' hwriter =>
        obtain ⟨rfl, rfl⟩ := List.cons.inj (ht.symm.trans ht')
        obtain ⟨rfl, heq⟩ := Serving.isReading hframe rfl
        cases heq
        refine ⟨h, by simp [committed, hjob], ?_⟩
        exact hr.served C hjob hstrand hs hu hmessage hw hsound rfl rfl
          (.inside _ _ (System.underway_enter C.deployment _ _ _ _))
    | update =>
      cases System.moves_of_step C.deployment hsys with
      | update _ reg frames ht' =>
        obtain ⟨rfl, rfl⟩ := List.cons.inj (ht.symm.trans ht')
        cases (Serving.isReading hframe rfl).2
    | visit =>
      cases System.moves_of_step C.deployment hsys with
      | visit _ pr frame' frames ht' hnext =>
        obtain ⟨rfl, rfl⟩ := List.cons.inj (ht.symm.trans ht')
        cases hframe with
        | inside _ _ hunderway =>
          refine ⟨h, by simp [committed, hjob], ?_⟩
          exact hr.served C hjob hstrand hs hu hmessage hw hsound rfl rfl
            (.inside _ _ (System.underway_visit C.deployment hunderway hnext))
    | runChain =>
      cases System.moves_of_step C.deployment hsys with
      | runChain _ pr v fallback frames ht' =>
        obtain ⟨rfl, rfl⟩ := List.cons.inj (ht.symm.trans ht')
        cases hframe with
        | inside _ _ hunderway =>
          refine ⟨h, by simp [committed, hjob], ?_⟩
          exact hr.served C hjob hstrand hs hu hmessage hw hsound rfl rfl
            (.inside _ _ (System.underway_runChain C.deployment hunderway))
    | unlock =>
      cases System.moves_of_step C.deployment hsys with
      | unlockWrite _ frames ht' hwriter =>
        obtain ⟨rfl, rfl⟩ := List.cons.inj (ht.symm.trans ht')
        cases (Serving.isReading hframe rfl).2
      | unlockRead _ pr frames ht' hreader =>
        obtain ⟨rfl, rfl⟩ := List.cons.inj (ht.symm.trans ht')
        cases hframe with
        | inside _ _ hunderway =>
          obtain ⟨⟨_, hpr, hworld⟩, -, hresult⟩ := hunderway
          obtain rfl := Option.some.inj hpr
          have hdispatch : h.dispatch C message u = some pr.dispatch :=
            (dispatch_eq C hr message u).trans hresult.symm
          have hstep : h.step C (.session i e) = some { h with
              sessions := h.sessions.set i w, thrown := pr.dispatch.regexError } := by
            simp [Host.step, hr.thrown, hgoes, hs, hu, hmessage, Host.process, hdispatch, hworld]
          refine ⟨_, by simpa [committed, hjob, hstrand, Transition.run] using hstep, ?_⟩
          have hleft := hr.left C pr.dispatch.regexError hjob hw hsound rfl rfl
          simpa [leave, System.setFrames] using hleft

theorem committed_start {p q : Pool T M Rq B U Sm} {t : T} {e : Host.Event M Rq B U Sm Unit}
    (hstep : p.step C (.start t e) = some q) :
    p.committed C (.start t e) = if (q.jobs t).isSome then [] else [e] := by
  rw [committed, hstep, Option.elim_some]

theorem reduced_step (p : Pool T M Rq B U Sm) (h : Host M Rq B U Sm Unit)
    (e : Event T M Rq B U Sm) (q : Pool T M Rq B U Sm) (hr : Reduced C p h)
    (hstep : p.step C e = some q) :
    ∃ k, Host.run C h (p.committed C e) = some k ∧ Reduced C q k := by
  obtain ⟨hgoes, hmoves⟩ := moves_of_step C hstep
  cases hmoves with
  | register t reg hjob hreg ht =>
    rw [committed_start C hstep]
    exact ⟨h, by simp, reduced_register C hr hreg ht⟩
  | initContext t isSsl onError isOpen now hjob =>
    rw [committed_start C hstep]
    exact ⟨_, by simp [hjob, Transition.run, Host.step, hr.thrown, hgoes],
      reduced_initContext C hr _⟩
  | quiet t i e s u hjob hfree hs hu hnone =>
    rw [committed_start C hstep]
    refine ⟨_, ?_, reduced_quiet C hr hfree u⟩
    have hbefore := (hr.rest i hfree).trans hs
    simp [hjob, Transition.run, Host.step, hr.thrown, hgoes, hbefore, hu, hnone, Host.process]
  | called t i e s u message hjob hfree hs hu hmessage ht =>
    rw [committed_start C hstep]
    exact ⟨h, by simp, reduced_called C hr hfree hs hu hmessage ht⟩
  | go t m job u hjob hu =>
    cases job with
    | register reg => exact reduced_registers C hr hgoes hjob hu
    | session i => exact reduced_dispatches C hr hgoes hjob hu

theorem strands_resume {p q : Pool T M Rq B U Sm} {t : T} {m : Move} {job : Job M Rq U Sm}
    (hq : p.resume C t m job = some q) : q.strands = p.strands := by
  cases job with
  | register reg =>
    obtain ⟨sys, -, rfl⟩ := Option.map_eq_some_iff.mp hq
    rfl
  | session i =>
    obtain ⟨s, -, hq⟩ := Option.bind_eq_some_iff.mp hq
    obtain ⟨sys, -, rfl⟩ := Option.map_eq_some_iff.mp hq
    rfl

theorem strands_step {p q : Pool T M Rq B U Sm} {h : Host M Rq B U Sm Unit}
    (hr : Reduced C p h) {e : Event T M Rq B U Sm} (hstep : p.step C e = some q) (i : ℕ) :
    (p.strands i).toList ++ (begun i e).toList =
      (p.committed C e).filterMap (Host.Event.of i) ++ (q.strands i).toList := by
  cases (moves_of_step C hstep).2 with
  | register t reg hjob hreg ht => simp [committed_start C hstep, begun]
  | initContext t isSsl onError isOpen now hjob =>
    simp [committed_start C hstep, begun, hjob, Host.Event.of]
  | quiet t j e s u hjob hfree hs hu hnone =>
    simp only [committed_start C hstep, begun, hjob, Option.isSome_none, Bool.false_eq_true,
      if_false, List.filterMap_cons, List.filterMap_nil, Host.Event.of]
    split_ifs with hji
    · subst hji
      simp [hfree]
    · simp
  | called t j e s u message hjob hfree hs hu hmessage ht =>
    simp only [committed_start C hstep, begun, Function.update_self, Option.isSome_some, if_true,
      List.filterMap_nil, List.nil_append]
    split_ifs with hji
    · subst hji
      simp [hfree]
    · simp [Function.update_of_ne (Ne.symm hji)]
  | go t m job u hjob hu =>
    have hsame := strands_resume C hu
    rw [isEmpty_resume C hr hjob hu]
    cases hr.working t job hjob with
    | register reg frame hreg ht hframe =>
      cases m <;> simp [begun, committed, hjob, hsame, leave, Host.Event.of]
    | session j e s u w message frame hstrand hs hu hmessage hw ht hframe =>
      cases m with
      | lock | update | visit | runChain => simp [begun, committed, hjob, hsame]
      | unlock =>
        simp only [begun, committed, hjob, hstrand, leave, hsame, beq_self_eq_true, if_true,
          Option.toList_some, Option.toList_none, List.map_singleton, List.filterMap_cons,
          List.filterMap_nil, List.append_nil, Host.Event.of]
        split_ifs with hji
        · subst hji
          simp [hstrand]
        · simp [Function.update_of_ne (Ne.symm hji)]

theorem reduces (es : List (Event T M Rq B U Sm)) (p : Pool T M Rq B U Sm)
    (hr : run C (init C) es = some p) :
    ∃ h, Host.run C (Host.init C ())
        (Transition.collect (step C) (committed C) (init C) es) = some h ∧
      h.heap = p.system.heap ∧ h.thrown = p.thrown ∧
      (∀ i, p.strands i = none → h.sessions[i]? = p.sessions[i]?) ∧
      ∀ i, es.filterMap (begun i) =
        (Transition.collect (step C) (committed C) (init C) es).filterMap (Host.Event.of i) ++
          (p.strands i).toList := by
  obtain ⟨h, hrun, hreduced⟩ := Transition.run_simulates (reduced_step C) (reduced_init C) hr
  refine ⟨h, hrun, hreduced.heap, hreduced.thrown, hreduced.rest, fun i => ?_⟩
  have hkept (p : Pool T M Rq B U Sm) (e : Event T M Rq B U Sm) (q : Pool T M Rq B U Sm)
      (hp : ∃ h, Reduced C p h) (hstep : p.step C e = some q) : ∃ h, Reduced C q h := by
    obtain ⟨h, hp⟩ := hp
    obtain ⟨k, -, hk⟩ := reduced_step C p h e q hp hstep
    exact ⟨k, hk⟩
  have hline (p : Pool T M Rq B U Sm) (e : Event T M Rq B U Sm) (q : Pool T M Rq B U Sm)
      (hp : ∃ h, Reduced C p h) (hstep : p.step C e = some q) :
      (p.strands i).toList ++ (begun i e).toList =
        (p.committed C e).filterMap (Host.Event.of i) ++ (q.strands i).toList := by
    obtain ⟨h, hp⟩ := hp
    exact strands_step C hp hstep i
  have hconserved := Transition.collect_conserved hkept hline ⟨_, reduced_init C⟩ hr
  rw [Transition.collect_eq_flatMap (fun e => (begun i e).toList) hr,
    Transition.collect_filterMap] at hconserved
  simpa [List.filterMap_eq_flatMap_toList, init] using hconserved

theorem reduces_requests :
    ∃ p h, run .sampleServer (init .sampleServer) sampleRequests = some p ∧
      Host.run .sampleServer (Host.init .sampleServer ())
        [.initContext false true true 0, .initContext false true true 0, .session 0 (.call .recv),
          .session 1 (.call .recv),
          .session 1 (.readCompleted 0 .success [(.get, "b")] (.unknown, "")),
          .session 0 (.readCompleted 0 .success [(.get, "a")] (.unknown, ""))] = some h ∧
      h.sessions[0]? = p.sessions[0]? ∧ h.sessions[1]? = p.sessions[1]? := by
  obtain ⟨h, hrun, -, -, hrest, -⟩ := reduces .sampleServer sampleRequests _ rfl
  exact ⟨_, h, rfl, hrun, hrest 0 rfl, hrest 1 rfl⟩

end Pool
end BeastRouter
