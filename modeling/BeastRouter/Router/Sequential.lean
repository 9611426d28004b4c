import BeastRouter.Router.Consistency

namespace BeastRouter.System
open RwLock (Lock)
variable {T Rq U Sm W : Type} (D : Deployment Rq U Sm W)

def afterLoop (map : MethodMap Rq U Sm W) (request : Rq) (d : Dispatch Rq U Sm W) :
    Option (Dispatch Rq U Sm W) :=
  if d.regexError.isSome then some d
  else if d.isHandled then some d
  else Dispatcher.executeUnknown D.http map request d

def sequential (heap : Heap Rq U Sm W) (request : Rq) (w : W) : Option (Dispatch Rq U Sm W) :=
  if D.isRequest then Dispatcher.doProcessRequest D.http D.iteration heap (dispatcher D) request w
  else Dispatcher.doProcessResponse D.http heap (dispatcher D) request w

theorem sequential_eq (heap : Heap Rq U Sm W) (request : Rq) (w : W) :
    sequential D heap request w =
      afterLoop D (table D heap) request
        ((resources D (table D heap) request).foldl (Dispatcher.visitResource D.http request)
          ⟨[], false, w, none⟩) := by
  unfold sequential resources
  split_ifs
  · simp only [Dispatcher.doProcessRequest, Dispatcher.executeMethod_eq]
    rfl
  · rfl

variable [DecidableEq T]

theorem step_visit {t : T} {s : System T Rq U Sm W} {p : Progress Rq U Sm W}
    {frame : Frame Rq U Sm W} (ht : s.threads t = [.loop p])
    (hnext : nextResource D (table D s.heap) p = some frame) :
    s.step D (.visit t) = some (s.setFrames t [frame]) := by
  simp [step, ht, hnext]

theorem step_runChain {t : T} {s : System T Rq U Sm W} {p : Progress Rq U Sm W}
    {v : Visit Rq U Sm W} {fallback : Bool} (ht : s.threads t = [.chain p v fallback]) :
    s.step D (.runChain t) =
      some (setFrames t [afterChain p fallback (ran s.world p v)]
        { s with world := (ran s.world p v).world }) := by
  simp [step, ht]

theorem ran_eq {w : W} {p : Progress Rq U Sm W} (hworld : p.dispatch.world = w)
    (v : Visit Rq U Sm W) :
    ran w p v = Dispatcher.enter p.request v.method v.path v.storage v.sm p.dispatch := by
  rw [ran, ← hworld]

def Event.within : Event T Rq U Sm W → Option T
  | .call _ _ => none
  | .handlerRegisters _ _ => none
  | .lock t => some t
  | .update t => some t
  | .visit t => some t
  | .runChain t => some t
  | .unlock t => some t

def Finishes (t : T) (s : System T Rq U Sm W) (d : Dispatch Rq U Sm W) : Prop :=
  ∃ es s' p, (∀ e ∈ es, e.within = some t) ∧ run D s es = some s' ∧
    s'.threads t = [.leaveRead p] ∧ p.dispatch = d ∧ s'.lock = s.lock ∧ s'.done = s.done

theorem finishes_leaveRead {t : T} {s : System T Rq U Sm W} {p : Progress Rq U Sm W}
    (ht : s.threads t = [.leaveRead p]) : Finishes D t s p.dispatch :=
  ⟨[], s, p, nofun, rfl, ht, rfl, rfl, rfl⟩

theorem finishes_step {t : T} {s u : System T Rq U Sm W} {d : Dispatch Rq U Sm W}
    {e : Event T Rq U Sm W} (he : e.within = some t) (h : s.step D e = some u)
    (hlock : u.lock = s.lock) (hdone : u.done = s.done) (hu : Finishes D t u d) :
    Finishes D t s d := by
  obtain ⟨es, s', p, hes, hr, ht, hp, hlock', hdone'⟩ := hu
  exact ⟨e :: es, s', p, List.forall_mem_cons.mpr ⟨he, hes⟩,
    Transition.run_cons.mpr ⟨u, h, hr⟩,
    ht, hp, hlock'.trans hlock, hdone'.trans hdone⟩

theorem finishes_afterLoop {t : T} {s : System T Rq U Sm W} {p : Progress Rq U Sm W}
    (ht : s.threads t = [.loop p])
    (hget : (resources D (table D s.heap) p.request)[p.position]? = none)
    (hworld : p.dispatch.world = s.world) (herror : p.dispatch.regexError = none)
    {d : Dispatch Rq U Sm W} (hd : afterLoop D (table D s.heap) p.request p.dispatch = some d) :
    Finishes D t s d := by
  have hleft (hnext : nextResource D (table D s.heap) p = some (.leaveRead p)) :
      Finishes D t s p.dispatch :=
    finishes_step D rfl (step_visit D ht hnext) rfl rfl (finishes_leaveRead D (threads_self _ _ _))
  rw [afterLoop, herror, Option.isSome_none, if_neg Bool.false_ne_true] at hd
  cases hhandled : p.dispatch.isHandled with
  | true =>
    rw [hhandled, if_pos rfl, Option.some.injEq] at hd
    exact hd ▸ hleft (by simp [nextResource, hget, hhandled])
  | false =>
    rw [hhandled, if_neg Bool.false_ne_true] at hd
    obtain ⟨resourceMap, hunknown, hfound⟩ := Option.map_eq_some_iff.mp hd
    cases hstorage : resourceMap.lookup "" with
    | none =>
      rw [hstorage] at hfound
      exact hfound ▸ hleft (by simp [nextResource, hget, hhandled, hunknown, hstorage])
    | some storage =>
      rw [hstorage] at hfound
      let v : Visit Rq U Sm W := ⟨.unknown, "", storage, D.http.emptyMatch⟩
      have hnext : nextResource D (table D s.heap) p = some (.chain p v true) := by
        simp [nextResource, hget, hhandled, hunknown, hstorage, v]
      have hran : ran s.world p v = d := (ran_eq hworld v).trans hfound
      refine finishes_step D rfl (step_visit D ht hnext) rfl rfl ?_
      refine finishes_step D rfl (step_runChain D (threads_self _ _ _)) rfl rfl ?_
      exact hran ▸ finishes_leaveRead D (threads_self _ _ _)

inductive VisitCase (map : MethodMap Rq U Sm W) (p : Progress Rq U Sm W)
    (d : Dispatch Rq U Sm W) : Prop where
  | thrown (path : String) (hd : d = { p.dispatch with regexError := some path })
    (hnext : nextResource D map p = some (.leaveRead { p with dispatch := d }))
  | skipped (hd : d = p.dispatch)
    (hnext : nextResource D map p = some (.loop { p with position := p.position + 1 }))
  | chained (v : Visit Rq U Sm W) (hd : d = ran p.dispatch.world p v)
    (hnext : nextResource D map p = some (.chain p v false))

theorem visit_cases {map : MethodMap Rq U Sm W} {p : Progress Rq U Sm W}
    {val : Σ _ : String, Storage Rq U Sm W}
    (hget : (resources D map p.request)[p.position]? = some val)
    (herror : p.dispatch.regexError = none) :
    VisitCase D map p (Dispatcher.visitResource D.http p.request p.dispatch val) := by
  cases hre : D.http.regex val.1 with
  | none =>
    have hthrow : Dispatcher.visitResource D.http p.request p.dispatch val =
        { p.dispatch with regexError := some val.1 } := by
      simp [Dispatcher.visitResource, herror, hre]
    exact .thrown val.1 hthrow (by simp [nextResource, hget, hre, hthrow])
  | some re =>
    cases hsm : re (D.http.target p.request) with
    | none =>
      exact .skipped (by simp [Dispatcher.visitResource, herror, hre, hsm])
        (by simp [nextResource, hget, hre, hsm])
    | some sm =>
      refine .chained ⟨D.http.method p.request, val.1, val.2, sm⟩ ?_
        (by simp [nextResource, hget, hre, hsm])
      rw [ran_eq rfl]
      simp [Dispatcher.visitResource, herror, hre, hsm]

def remaining (map : MethodMap Rq U Sm W) : Frame Rq U Sm W → Option (Dispatch Rq U Sm W)
  | .loop p =>
    afterLoop D map p.request (((resources D map p.request).drop p.position).foldl
      (Dispatcher.visitResource D.http p.request) p.dispatch)
  | .chain p v false =>
    afterLoop D map p.request (((resources D map p.request).drop (p.position + 1)).foldl
      (Dispatcher.visitResource D.http p.request) (ran p.dispatch.world p v))
  | .chain p v true => some (ran p.dispatch.world p v)
  | .leaveRead p => some p.dispatch
  | _ => none

theorem drop_resources {map : MethodMap Rq U Sm W} {p : Progress Rq U Sm W}
    {val : Σ _ : String, Storage Rq U Sm W}
    (hget : (resources D map p.request)[p.position]? = some val) :
    (resources D map p.request).drop p.position =
      val :: (resources D map p.request).drop (p.position + 1) := by
  obtain ⟨hlt, rfl⟩ := List.getElem?_eq_some_iff.mp hget
  exact List.drop_eq_getElem_cons hlt

structure Underway (map : MethodMap Rq U Sm W) (w : W) (d : Option (Dispatch Rq U Sm W))
    (frame : Frame Rq U Sm W) : Prop where
  world : ∃ p, frame.progress = some p ∧ p.dispatch.world = w
  clean : ∀ p, frame.progress = some p → p.dispatch.regexError = none ∨ frame = .leaveRead p
  result : remaining D map frame = d

theorem underway_enter (heap : Heap Rq U Sm W) (request : Rq)
    (before : List (Registration Rq U Sm W)) (w : W) :
    Underway D (table D heap) w (sequential D heap request w)
      (.loop ⟨request, before, 0, ⟨[], false, w, none⟩⟩) where
  world := ⟨_, rfl, rfl⟩
  clean := fun _ hq => .inl (Option.some.inj hq ▸ rfl)
  result := (sequential_eq D heap request w).symm

theorem underway_leaveRead (map : MethodMap Rq U Sm W) (p : Progress Rq U Sm W) :
    Underway D map p.dispatch.world (some p.dispatch) (.leaveRead p) where
  world := ⟨p, rfl, rfl⟩
  clean := fun _ hq => .inr (congrArg Frame.leaveRead (Option.some.inj hq))
  result := rfl

theorem underway_afterLoop {map : MethodMap Rq U Sm W} {p : Progress Rq U Sm W}
    {frame : Frame Rq U Sm W} (hget : (resources D map p.request)[p.position]? = none)
    (herror : p.dispatch.regexError = none) (hnext : nextResource D map p = some frame) :
    Underway D map p.dispatch.world (afterLoop D map p.request p.dispatch) frame := by
  simp only [nextResource, hget] at hnext
  rw [afterLoop, herror, Option.isSome_none, if_neg Bool.false_ne_true]
  split_ifs at hnext ⊢ with hhandled
  · exact Option.some.inj hnext ▸ underway_leaveRead D map p
  · obtain ⟨resourceMap, hunknown, rfl⟩ := Option.map_eq_some_iff.mp hnext
    rw [Dispatcher.executeUnknown, hunknown, Option.map_some]
    cases hstorage : resourceMap.lookup "" with
    | none => exact underway_leaveRead D map p
    | some storage =>
      refine ⟨⟨p, rfl, rfl⟩, fun q hq => .inl (Option.some.inj hq ▸ herror), ?_⟩
      exact congrArg some (ran_eq rfl _)

theorem underway_visit {map : MethodMap Rq U Sm W} {p : Progress Rq U Sm W} {w : W}
    {d : Option (Dispatch Rq U Sm W)} {frame : Frame Rq U Sm W}
    (h : Underway D map w d (.loop p)) (hnext : nextResource D map p = some frame) :
    Underway D map w d frame := by
  obtain ⟨⟨q, hq, rfl⟩, hclean, rfl⟩ := h
  obtain rfl := Option.some.inj hq
  have herror : p.dispatch.regexError = none := (hclean p rfl).resolve_right nofun
  rw [remaining]
  cases hget : (resources D map p.request)[p.position]? with
  | none =>
    rw [List.drop_eq_nil_of_le (List.getElem?_eq_none_iff.mp hget), List.foldl_nil]
    exact underway_afterLoop D hget herror hnext
  | some val =>
    rw [drop_resources D hget, List.foldl_cons]
    cases visit_cases D hget herror with
    | thrown path hthrow hthrown =>
      rw [hthrow] at hthrown ⊢
      rw [Dispatcher.foldl_of_error D.http p.request _ rfl, afterLoop, Option.isSome_some,
        if_pos rfl]
      exact Option.some.inj (hthrown.symm.trans hnext) ▸ underway_leaveRead D map
        { p with dispatch := { p.dispatch with regexError := some path } }
    | skipped hskip hskipped =>
      rw [hskip]
      refine Option.some.inj (hskipped.symm.trans hnext) ▸ ⟨⟨_, rfl, rfl⟩, ?_, rfl⟩
      exact fun q hq => .inl (Option.some.inj hq ▸ herror)
    | chained v hran hchained =>
      rw [hran]
      refine Option.some.inj (hchained.symm.trans hnext) ▸ ⟨⟨_, rfl, rfl⟩, ?_, rfl⟩
      exact fun q hq => .inl (Option.some.inj hq ▸ herror)

theorem underway_runChain {map : MethodMap Rq U Sm W} {p : Progress Rq U Sm W} {w : W}
    {d : Option (Dispatch Rq U Sm W)} {v : Visit Rq U Sm W} {fallback : Bool}
    (h : Underway D map w d (.chain p v fallback)) :
    Underway D map (ran w p v).world d (afterChain p fallback (ran w p v)) := by
  obtain ⟨⟨q, hq, rfl⟩, hclean, rfl⟩ := h
  obtain rfl := Option.some.inj hq
  have herror : p.dispatch.regexError = none := (hclean p rfl).resolve_right nofun
  cases fallback with
  | false =>
    exact ⟨⟨_, rfl, rfl⟩, fun q hq => .inl (Option.some.inj hq ▸ herror), rfl⟩
  | true => exact underway_leaveRead D map { p with dispatch := ran p.dispatch.world p v }

theorem finishes_loop {t : T} (vals : List (Σ _ : String, Storage Rq U Sm W))
    (s : System T Rq U Sm W) (p : Progress Rq U Sm W) (ht : s.threads t = [.loop p])
    (hvals : (resources D (table D s.heap) p.request).drop p.position = vals)
    (hworld : p.dispatch.world = s.world) (herror : p.dispatch.regexError = none)
    {d : Dispatch Rq U Sm W}
    (hd : afterLoop D (table D s.heap) p.request
      (vals.foldl (Dispatcher.visitResource D.http p.request) p.dispatch) = some d) :
    Finishes D t s d := by
  induction vals generalizing s p with
  | nil =>
    have hget : (resources D (table D s.heap) p.request)[p.position]? = none :=
      List.getElem?_eq_none_iff.mpr (List.drop_eq_nil_iff.mp hvals)
    exact finishes_afterLoop D ht hget hworld herror hd
  | cons val vals ih =>
    have hget : (resources D (table D s.heap) p.request)[p.position]? = some val := by
      rw [← List.head?_drop, hvals, List.head?_cons]
    have hrest : (resources D (table D s.heap) p.request).drop (p.position + 1) = vals := by
      rw [← List.drop_drop, hvals, List.drop_one, List.tail_cons]
    rw [List.foldl_cons] at hd
    cases visit_cases D hget herror with
    | thrown path hthrow hnext =>
      rw [hthrow] at hd hnext
      rw [Dispatcher.foldl_of_error D.http p.request vals rfl, afterLoop, Option.isSome_some,
        if_pos rfl, Option.some.injEq] at hd
      refine finishes_step D rfl (step_visit D ht hnext) rfl rfl ?_
      exact hd ▸ finishes_leaveRead D (threads_self _ _ _)
    | skipped hskip hnext =>
      rw [hskip] at hd
      refine finishes_step D rfl (step_visit D ht hnext) rfl rfl ?_
      exact ih _ { p with position := p.position + 1 } (threads_self _ _ _) hrest hworld herror hd
    | chained v hran hnext =>
      rw [hran, hworld] at hd
      refine finishes_step D rfl (step_visit D ht hnext) rfl rfl ?_
      refine finishes_step D rfl (step_runChain D (threads_self _ _ _)) rfl rfl ?_
      exact ih _ { p with position := p.position + 1, dispatch := ran s.world p v }
        (threads_self _ _ _) hrest rfl herror hd

theorem processRequest_alone {t : T} {s : System T Rq U Sm W} {request : Rq}
    (ht : s.threads t = [.processRequest request]) (hwriter : s.lock.writer = none)
    {d : Dispatch Rq U Sm W} (hd : sequential D s.heap request s.world = some d) :
    ∃ es s' p, (∀ e ∈ es, e.within = some t) ∧ run D s es = some s' ∧
      s'.threads t = [] ∧ s'.lock = s.lock ∧
      s'.done = s.done ++ [(t, p)] ∧ p.dispatch = d := by
  rw [sequential_eq] at hd
  let p : Progress Rq U Sm W := ⟨request, s.log.map Prod.snd, 0, ⟨[], false, s.world, none⟩⟩
  let u : System T Rq U Sm W :=
    setFrames t [.loop p] { s with lock := { s.lock with readers := t :: s.lock.readers } }
  have hlock : s.step D (.lock t) = some u := by
    simp [step, ht, enterToRead, Lock.lockShared, hwriter, u, p]
  obtain ⟨es, s', p', hes, hr, ht', hp', hlock', hdone'⟩ :=
    finishes_loop D _ u p (threads_self _ _ _) rfl rfl rfl hd
  have hunlock : s'.step D (.unlock t) =
      some (setFrames t [] { s' with lock := s.lock, done := s'.done ++ [(t, p')] }) := by
    simp [step, ht', hlock', Lock.unlockShared, u, setFrames]
  refine ⟨.lock t :: (es ++ [.unlock t]),
    setFrames t [] { s' with lock := s.lock, done := s'.done ++ [(t, p')] }, p', ?_, ?_,
    threads_self _ _ _, rfl, congrArg (· ++ [(t, p')]) hdone', hp'⟩
  · exact List.forall_mem_cons.mpr ⟨rfl, List.forall_mem_append.mpr
      ⟨hes, List.forall_mem_singleton.mpr rfl⟩⟩
  · exact Transition.run_cons.mpr ⟨u, hlock, Transition.run_append_some.mpr
      ⟨s', hr, (Transition.run_singleton _ _ _).trans hunlock⟩⟩

theorem processRequest_alone_get :
    ∃ d es s p,
      sequential sample (init sample [] : System ℕ _ _ _ _).heap (.get, "a") [] = some d ∧
      (∀ e ∈ es, e.within = some 1) ∧ run sample (init sample [])
        (.call 1 (.processRequest (.get, "a")) :: es : List (Event ℕ _ _ _ _)) = some s ∧
      s.threads 1 = [] ∧ s.done = [(1, p)] ∧ p.dispatch = d := by
  obtain ⟨es, s, p, hes, hr, hthreads, -, hdone, hdispatch⟩ :=
    processRequest_alone sample
      (threads_self 1 [.processRequest (.get, "a")] (init sample [])) rfl rfl
  exact ⟨_, es, s, p, rfl, hes, Transition.run_cons.mpr ⟨_, rfl, hr⟩, hthreads, hdone,
    hdispatch⟩

end BeastRouter.System
