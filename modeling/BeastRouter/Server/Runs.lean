import BeastRouter.Server.Answers

namespace BeastRouter

namespace Session
variable {M Rq B : Type} (P : Platform M Rq B)

theorem newDispatches_step {s t : Session M Rq B} {e : Event M B Rq} (h : s.step P e = some t) :
    t.dispatched = s.dispatched ++ s.newDispatches t ∧
      (s.newDispatches t = [] ∨ ∃ message, s.newDispatches t = [message]) := by
  cases he : e.isRead with
  | false =>
    have hsame : t.dispatched = s.dispatched :=
      congrArg (fun a => a.2.2) (incoming_step P he h)
    simp [newDispatches, hsame]
  | true =>
    cases moves_of_step P h with
    | readCompleted i ec received partialMessage u hu =>
      have hbefore : u.dispatched = s.dispatched := by
        rw [parseInto_eq P hu]
        rfl
      rw [newDispatches_onRead P hu, dispatched_onRead, hbefore]
      split_ifs <;> simp
    | _ => cases he

theorem run_calls (cs : List (Call M)) (s : Session M Rq B) :
    run P s (cs.map .call) = some (s.calls P cs) := by
  induction cs generalizing s with
  | nil => rfl
  | cons c cs ih => exact Transition.run_cons.mpr ⟨s.call P c, rfl, ih _⟩

theorem pushed_calls (cs : List (Call M)) (s : Session M Rq B) :
    (s.calls P cs).pushed.map Item.message =
      s.pushed.map Item.message ++ cs.flatMap Call.messages := by
  induction cs generalizing s with
  | nil => exact (List.append_nil _).symm
  | cons c cs ih =>
    have hfirst : (s.call P c).pushed.map Item.message =
        s.pushed.map Item.message ++ c.messages :=
      @pushed_step _ _ _ P s (s.call P c) (.call c) rfl
    have hrest := ih (s.call P c)
    rw [hfirst, List.append_assoc] at hrest
    exact hrest

end Session

namespace Host
variable {M Rq B U Sm V : Type} (C : Setting M Rq B U Sm V)

inductive Moves (h : Host M Rq B U Sm V) : Event M Rq B U Sm V → Host M Rq B U Sm V → Prop where
  | register (reg : Registration Rq U Sm (Outbox V M)) (hreg : reg.available C.isRequest = true) :
    Moves h (.register reg) { h with
      heap := h.router.register C.order h.heap (reg.onSession C.platform)
      registered := h.registered ++ [reg] }
  | initContext (isSsl onError isOpen : Bool) (now : ℤ) :
    Moves h (.initContext isSsl onError isOpen now)
      { h with sessions := h.sessions ++ [.init C.platform isSsl onError isOpen now] }
  | quiet (i : ℕ) (e : BeastRouter.Event M B Rq) (s t : Session M Rq B)
    (hs : h.sessions[i]? = some s) (ht : s.step C.platform e = some t)
    (hnone : s.newDispatches t = []) :
    Moves h (.session i e) { h with sessions := h.sessions.set i t }
  | dispatched (i : ℕ) (e : BeastRouter.Event M B Rq) (s t : Session M Rq B) (message : Rq)
    (hs : h.sessions[i]? = some s) (ht : s.step C.platform e = some t)
    (hmessage : s.newDispatches t = [message]) :
    Moves h (.session i e) { h with
      data := (h.answer C message t).data
      sessions := h.sessions.set i (t.calls C.platform (h.answer C message t).calls)
      thrown := (h.answer C message t).thrown }

theorem moves_of_step {h t : Host M Rq B U Sm V} (hb : h.Built C) {e : Event M Rq B U Sm V}
    (hstep : h.step C e = some t) : h.thrown = none ∧ Moves C h e t := by
  cases hthrown : h.thrown with
  | some path => cases e <;> simp [step, hthrown] at hstep
  | none =>
    have hgoes : h.thrown.isSome = false := by rw [hthrown]; rfl
    refine ⟨rfl, ?_⟩
    cases e with
    | register reg =>
      simp only [step, hgoes, Bool.false_or] at hstep
      cases hreg : reg.available C.isRequest with
      | false => simp [hreg] at hstep
      | true =>
        simp only [hreg, Bool.not_true, Bool.false_eq_true, if_false, Option.some.injEq] at hstep
        exact hstep ▸ .register reg hreg
    | initContext isSsl onError isOpen now =>
      simp only [step, hgoes, Bool.false_eq_true, if_false, Option.some.injEq] at hstep
      exact hstep ▸ .initContext isSsl onError isOpen now
    | session i e =>
      simp only [step, hgoes, Bool.false_eq_true, if_false] at hstep
      obtain ⟨s, hs, hstep⟩ := Option.bind_eq_some_iff.mp hstep
      obtain ⟨u, hu, hprocess⟩ := Option.bind_eq_some_iff.mp hstep
      rcases (Session.newDispatches_step C.platform hu).2 with hnone | ⟨message, hmessage⟩
      · rw [hnone] at hprocess
        exact Option.some.inj hprocess ▸ .quiet i e s u hs hu hnone
      · rw [hmessage] at hprocess
        exact process_cons C hb hprocess ▸ .dispatched i e s u message hs hu hmessage

theorem built_init (data : V) : (init C data : Host M Rq B U Sm V).Built C := by
  have hempty : Router.installed C.onSession C.isRequest ([] ++ []) =
      (Router.installed C.onOutbox C.isRequest []).map (Registration.onSession C.platform) :=
    Router.installed_onSession C []
  constructor
  · change 0 < _
    unfold init Router.new
    split_ifs <;> simp [Router.notFound, Router.addResource, Heap.length_update]
  · intro method path
    have hfind := Dispatcher.find_deployed C.onSession C.order C.isRequest
      (⟨[]⟩ : Heap Rq U Sm (V × Session M Rq B)) [] [] method path
    rw [hempty, Router.lastRegistered_onSession, Option.map_map] at hfind
    exact hfind

theorem built_step {h t : Host M Rq B U Sm V} (hb : h.Built C) {e : Event M Rq B U Sm V}
    (hstep : h.step C e = some t) : t.Built C := by
  cases (moves_of_step C hb hstep).2 with
  | register reg hreg =>
    constructor
    · rw [Router.length_register]
      exact hb.allocated
    · intro method path
      have hregs : Router.installed C.onOutbox C.isRequest (h.registered ++ [reg]) =
          h.installed C ++ [reg] := by
        unfold Router.installed installed Router.installed
        split_ifs <;> rfl
      have hfind := hb.find_table method path
      unfold table at hfind ⊢
      rw [Router.load_register C.order h.router hb.allocated, MethodMap.find_addResource, hfind]
      simp only [installed, hregs]
      rw [Router.lastRegistered_append_singleton, Registration.onSession_method,
        Registration.onSession_path, Registration.onSession_chain]
      split_ifs <;> rfl
  | initContext isSsl onError isOpen now => exact ⟨hb.allocated, hb.find_table⟩
  | quiet i e s u hs hu hnone => exact ⟨hb.allocated, hb.find_table⟩
  | dispatched i e s u message hs hu hmessage => exact ⟨hb.allocated, hb.find_table⟩

theorem built_run {data : V} {es : List (Event M Rq B U Sm V)} {t : Host M Rq B U Sm V}
    (hr : run C (init C data) es = some t) : t.Built C :=
  Transition.run_invariant (fun _ _ _ hb hstep => built_step C hb hstep) (built_init C data) hr

def replies (i : ℕ) (e : BeastRouter.Event M B Rq) (h : Host M Rq B U Sm V) : List (Call M) :=
  (h.sessions[i]?.bind fun s => (s.step C.platform e).map fun t =>
    (s.newDispatches t).flatMap fun message => (h.answer C message t).calls).getD []

def enacted (i : ℕ) (h : Host M Rq B U Sm V) :
    Event M Rq B U Sm V → List (BeastRouter.Event M B Rq)
  | .session j e => if j = i then e :: (h.replies C i e).map .call else []
  | _ => []

theorem replies_eq {h : Host M Rq B U Sm V} {i : ℕ} {e : BeastRouter.Event M B Rq}
    {s t : Session M Rq B} (hs : h.sessions[i]? = some s) (ht : s.step C.platform e = some t) :
    h.replies C i e = (s.newDispatches t).flatMap fun message => (h.answer C message t).calls := by
  rw [replies, hs, Option.bind_some, ht]
  rfl

theorem enacted_step {h t : Host M Rq B U Sm V} (hb : h.Built C) {e : Event M Rq B U Sm V}
    (hstep : h.step C e = some t) {i : ℕ} {s : Session M Rq B} (hs : h.sessions[i]? = some s) :
    ∃ u, t.sessions[i]? = some u ∧ Session.run C.platform s (h.enacted C i e) = some u := by
  have hlt : i < h.sessions.length := (List.getElem?_eq_some_iff.mp hs).1
  cases (moves_of_step C hb hstep).2 with
  | register reg hreg => exact ⟨s, hs, rfl⟩
  | initContext isSsl onError isOpen now =>
    exact ⟨s, (List.getElem?_append_left hlt).trans hs, rfl⟩
  | quiet j e s' u hs' hu hnone =>
    simp only [enacted]
    split_ifs with hj
    · subst hj
      obtain rfl := Option.some.inj (hs'.symm.trans hs)
      refine ⟨u, List.getElem?_set_self hlt, Transition.run_cons.mpr ⟨u, hu, ?_⟩⟩
      rw [replies_eq C hs' hu, hnone]
      rfl
    · exact ⟨s, (List.getElem?_set_ne hj).trans hs, rfl⟩
  | dispatched j e s' u message hs' hu hmessage =>
    simp only [enacted]
    split_ifs with hj
    · subst hj
      obtain rfl := Option.some.inj (hs'.symm.trans hs)
      refine ⟨_, List.getElem?_set_self hlt, Transition.run_cons.mpr ⟨u, hu, ?_⟩⟩
      rw [replies_eq C hs' hu, hmessage, List.flatMap_singleton]
      exact Session.run_calls C.platform _ u
    · exact ⟨s, (List.getElem?_set_ne hj).trans hs, rfl⟩

theorem enacted_run {h t : Host M Rq B U Sm V} (hb : h.Built C) {es : List (Event M Rq B U Sm V)}
    (hr : run C h es = some t) {i : ℕ} {s : Session M Rq B} (hs : h.sessions[i]? = some s) :
    ∃ u, t.sessions[i]? = some u ∧
      Session.run C.platform s (Transition.collect (step C) (enacted C i) h es) = some u := by
  induction es generalizing h s with
  | nil =>
    obtain rfl := Option.some.inj hr
    exact ⟨s, hs, rfl⟩
  | cons e es ih =>
    obtain ⟨g, hg, hr⟩ := Transition.run_cons.mp hr
    obtain ⟨u, hu, hfirst⟩ := enacted_step C hb hg hs
    obtain ⟨v, hv, hrest⟩ := ih (built_step C hb hg) hr hu
    refine ⟨v, hv, ?_⟩
    rw [Transition.collect, hg, Option.elim_some]
    exact Transition.run_append_some.mpr ⟨u, hfirst, hrest⟩

def created : Event M Rq B U Sm V → Option (Bool × Bool × Bool × ℤ)
  | .initContext isSsl onError isOpen now => some (isSsl, onError, isOpen, now)
  | _ => none

def Born (p : Bool × Bool × Bool × ℤ) : Session M Rq B :=
  .init C.platform p.1 p.2.1 p.2.2.1 p.2.2.2

theorem sessions_step {h t : Host M Rq B U Sm V} (hb : h.Built C) {e : Event M Rq B U Sm V}
    (hstep : h.step C e = some t) {i : ℕ} (hi : h.sessions[i]? = none) :
    (t.sessions[i]? = none ∨ ∃ p, created e = some p ∧ t.sessions[i]? = some (Born C p)) ∧
      t.sessions.length = h.sessions.length + (created e).toList.length ∧
      h.enacted C i e = [] := by
  have hle : h.sessions.length ≤ i := List.getElem?_eq_none_iff.mp hi
  have hne {j : ℕ} {s : Session M Rq B} (hs : h.sessions[j]? = some s) : j ≠ i := by
    rintro rfl
    rw [hi] at hs
    cases hs
  cases (moves_of_step C hb hstep).2 with
  | register reg hreg => exact ⟨.inl hi, rfl, rfl⟩
  | initContext isSsl onError isOpen now =>
    refine ⟨?_, by simp [created], rfl⟩
    rcases hle.eq_or_lt with rfl | hlt
    · exact .inr ⟨_, rfl, by simp [Born]⟩
    · refine .inl (List.getElem?_eq_none_iff.mpr ?_)
      rw [List.length_append]
      exact hlt
  | quiet j e s u hs hu hnone =>
    refine ⟨.inl ?_, by simp [created], if_neg (hne hs)⟩
    exact (List.getElem?_set_ne (hne hs)).trans hi
  | dispatched j e s u message hs hu hmessage =>
    refine ⟨.inl ?_, by simp [created], if_neg (hne hs)⟩
    exact (List.getElem?_set_ne (hne hs)).trans hi

theorem enacted_from_birth {h t : Host M Rq B U Sm V} (hb : h.Built C)
    {es : List (Event M Rq B U Sm V)} (hr : run C h es = some t) {i : ℕ} {s : Session M Rq B}
    (hi : h.sessions[i]? = none) (hs : t.sessions[i]? = some s) :
    ∃ p, (es.filterMap created)[i - h.sessions.length]? = some p ∧
      Session.run C.platform (Born C p) (Transition.collect (step C) (enacted C i) h es) =
        some s := by
  induction es generalizing h with
  | nil =>
    obtain rfl := Option.some.inj hr
    rw [hi] at hs
    cases hs
  | cons e es ih =>
    obtain ⟨g, hg, hr⟩ := Transition.run_cons.mp hr
    obtain ⟨hborn, hlen, hnil⟩ := sessions_step C hb hg hi
    have hle : h.sessions.length ≤ i := List.getElem?_eq_none_iff.mp hi
    rw [Transition.collect, hg, Option.elim_some, hnil, List.nil_append]
    rcases hborn with hnone | ⟨p, hp, hsome⟩
    · obtain ⟨q, hq, hrun⟩ := ih (built_step C hb hg) hr hnone
      refine ⟨q, ?_, hrun⟩
      have hle' : g.sessions.length ≤ i := List.getElem?_eq_none_iff.mp hnone
      rw [← hq, List.filterMap_cons, hlen]
      cases hc : created e with
      | none => simp
      | some p =>
        rw [hlen, hc] at hle'
        have hsucc : i - h.sessions.length = i - (h.sessions.length + 1) + 1 := by
          simp only [Option.toList_some, List.length_singleton] at hle'
          omega
        simp only [Option.toList_some, List.length_singleton, hsucc, List.getElem?_cons_succ]
    · obtain ⟨u, hu, hrun⟩ := enacted_run C (built_step C hb hg) hr hsome
      obtain rfl := Option.some.inj (hu.symm.trans hs)
      refine ⟨p, ?_, hrun⟩
      have hlast : i = h.sessions.length := by
        have hlt : i < g.sessions.length := (List.getElem?_eq_some_iff.mp hsome).1
        rw [hlen, hp] at hlt
        simp only [Option.toList_some, List.length_singleton] at hlt
        omega
      simp [hp, hlast]

theorem session_of_host (data : V) (es : List (Event M Rq B U Sm V)) (t : Host M Rq B U Sm V)
    (hr : run C (init C data) es = some t) (i : ℕ) (s : Session M Rq B)
    (hs : t.sessions[i]? = some s) :
    ∃ p, (es.filterMap created)[i]? = some p ∧
      Session.run C.platform (Born C p)
        (Transition.collect (step C) (enacted C i) (init C data) es) = some s :=
  enacted_from_birth C (built_init C data) hr rfl hs

theorem session_of_host_get :
    ∃ t s, run .sampleServer (init .sampleServer ()) sampleRequest = some t ∧
      t.sessions[0]? = some s ∧
      Session.run Setting.sampleServer.platform (Born .sampleServer (false, true, true, 0))
        [.call .recv, .readCompleted 0 .success [(.get, "a")] (.unknown, ""),
          .call (.send ⟨404, 11, "Not Found", "text/html"⟩)] = some s := by
  refine ⟨_, _, rfl, rfl, ?_⟩
  obtain ⟨p, hp, hrun⟩ := session_of_host .sampleServer () sampleRequest _ rfl 0 _ rfl
  obtain rfl := Option.some.inj hp
  exact hrun

theorem elim_getElem?_append {A O : Type} {f : A → O} {o : O} {x : A} (hx : f x = o) (xs : List A)
    (k : ℕ) : (xs ++ [x])[k]?.elim o f = xs[k]?.elim o f := by
  rcases Nat.lt_trichotomy k xs.length with hlt | rfl | hgt
  · rw [List.getElem?_append_left hlt]
  · simp [hx]
  · rw [List.getElem?_eq_none_iff.mpr (by rw [List.length_append]; exact hgt),
      List.getElem?_eq_none_iff.mpr hgt.le]

def spoken (i : ℕ) (h : Host M Rq B U Sm V) : List M :=
  h.sessions[i]?.elim [] fun s => s.pushed.map Item.message

def said (i : ℕ) (h : Host M Rq B U Sm V) : Event M Rq B U Sm V → List M
  | .session j e =>
    if j = i then
      (h.sessions[i]?.elim [] fun s => s.sends e) ++ (h.replies C i e).flatMap Call.messages
    else []
  | _ => []

theorem spoken_step {h t : Host M Rq B U Sm V} (hb : h.Built C) {e : Event M Rq B U Sm V}
    (hstep : h.step C e = some t) (i : ℕ) : t.spoken i = h.spoken i ++ h.said C i e := by
  cases (moves_of_step C hb hstep).2 with
  | register reg hreg => exact (List.append_nil _).symm
  | initContext isSsl onError isOpen now =>
    have hnew := elim_getElem?_append (f := fun s : Session M Rq B => s.pushed.map Item.message)
      (x := Session.init C.platform isSsl onError isOpen now) rfl h.sessions i
    exact hnew.trans (List.append_nil _).symm
  | quiet j e s u hs hu hnone =>
    have hlt : j < h.sessions.length := (List.getElem?_eq_some_iff.mp hs).1
    simp only [spoken, said]
    split_ifs with hj
    · subst hj
      rw [List.getElem?_set_self hlt, hs, replies_eq C hs hu, hnone]
      simpa using Session.pushed_step C.platform hu
    · rw [List.getElem?_set_ne hj, List.append_nil]
  | dispatched j e s u message hs hu hmessage =>
    have hlt : j < h.sessions.length := (List.getElem?_eq_some_iff.mp hs).1
    simp only [spoken, said]
    split_ifs with hj
    · subst hj
      rw [List.getElem?_set_self hlt, hs, replies_eq C hs hu, hmessage, List.flatMap_singleton]
      simp only [Option.elim_some]
      rw [Session.pushed_calls, Session.pushed_step C.platform hu, List.append_assoc]
    · rw [List.getElem?_set_ne hj, List.append_nil]

theorem spoken_run {data : V} {es : List (Event M Rq B U Sm V)} {t : Host M Rq B U Sm V}
    (hr : run C (init C data) es = some t) (i : ℕ) :
    t.spoken i = Transition.collect (step C) (said C i) (init C data) es :=
  Transition.collect_eq_invariant (fun _ _ _ hb hstep => built_step C hb hstep)
    (fun _ _ _ hb hstep => spoken_step C hb hstep i) (built_init C data) hr

theorem wire_of_host (data : V) (es : List (Event M Rq B U Sm V)) (t : Host M Rq B U Sm V)
    (hr : run C (init C data) es = some t) (i : ℕ) (s : Session M Rq B)
    (hs : t.sessions[i]? = some s) :
    s.written <+: s.pushed ∧
      s.pushed.map Item.message = Transition.collect (step C) (said C i) (init C data) es := by
  constructor
  · obtain ⟨p, -, hrun⟩ := enacted_from_birth C (built_init C data) hr rfl hs
    have hsound := Session.sound_of_run C.platform hrun
    exact hsound.started_prefix
  · rw [← spoken_run C hr, spoken, hs]
    rfl

theorem wire_of_host_get :
    ∃ t s, run .sampleServer (init .sampleServer ()) sampleRequest = some t ∧
      t.sessions[0]? = some s ∧ s.written <+: s.pushed ∧
      s.pushed.map Item.message = [⟨404, 11, "Not Found", "text/html"⟩] :=
  ⟨_, _, rfl, rfl, wire_of_host .sampleServer () sampleRequest _ rfl 0 _ rfl⟩

end Host
end BeastRouter
