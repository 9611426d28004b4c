import BeastRouter.Server.Runs

namespace BeastRouter.Host
variable {M Rq B U Sm V : Type} (C : Setting M Rq B U Sm V)

def heard (i : ℕ) (h : Host M Rq B U Sm V) : List Rq :=
  h.sessions[i]?.elim [] Session.dispatched

def replied (i : ℕ) (h : Host M Rq B U Sm V) : Event M Rq B U Sm V → List M
  | .session j e => if j = i then (h.replies C i e).flatMap Call.messages else []
  | _ => []

def exchanged (i : ℕ) (h : Host M Rq B U Sm V) : Event M Rq B U Sm V → List (Rq × List M)
  | .session j e =>
    if j = i then
      (h.sessions[i]?.bind fun s => (s.step C.platform e).map fun t =>
        (s.newDispatches t).map fun message =>
          (message, (h.answer C message t).calls.flatMap Call.messages)).getD []
    else []
  | _ => []

theorem exchanged_eq {h : Host M Rq B U Sm V} {i : ℕ} {e : BeastRouter.Event M B Rq}
    {s t : Session M Rq B} (hs : h.sessions[i]? = some s) (ht : s.step C.platform e = some t) :
    h.exchanged C i (.session i e) = (s.newDispatches t).map fun message =>
      (message, (h.answer C message t).calls.flatMap Call.messages) := by
  simp only [exchanged, if_true, hs, Option.bind_some, ht, Option.map_some, Option.getD_some]

theorem exchanged_other {h : Host M Rq B U Sm V} {i j : ℕ} (hj : j ≠ i)
    (e : BeastRouter.Event M B Rq) : h.exchanged C i (.session j e) = [] := if_neg hj

theorem answer_of_exchanged {h : Host M Rq B U Sm V} {i : ℕ} {e : Event M Rq B U Sm V}
    {x : Rq × List M} (hx : x ∈ h.exchanged C i e) :
    ∃ s, x.2 = (h.answer C x.1 s).calls.flatMap Call.messages := by
  cases e with
  | session j e =>
    by_cases hj : j = i
    · subst hj
      cases hs : h.sessions[j]? with
      | none => simp [exchanged, hs] at hx
      | some s =>
        cases ht : s.step C.platform e with
        | none => simp [exchanged, hs, ht] at hx
        | some t =>
          rw [exchanged_eq C hs ht] at hx
          obtain ⟨message, -, rfl⟩ := List.mem_map.mp hx
          exact ⟨t, rfl⟩
    · rw [exchanged_other C hj] at hx
      cases hx
  | _ => cases hx

theorem replied_eq (i : ℕ) (h : Host M Rq B U Sm V) (e : Event M Rq B U Sm V) :
    h.replied C i e = (h.exchanged C i e).flatMap Prod.snd := by
  cases e with
  | session j e =>
    simp only [replied, exchanged]
    split_ifs
    · unfold replies
      cases h.sessions[i]? with
      | none => rfl
      | some s =>
        rw [Option.bind_some, Option.bind_some]
        cases s.step C.platform e with
        | none => rfl
        | some t => simp [List.flatMap_assoc, List.flatMap_map]
    · rfl
  | _ => rfl

theorem heard_step {h t : Host M Rq B U Sm V} (hb : h.Built C) {e : Event M Rq B U Sm V}
    (hstep : h.step C e = some t) (i : ℕ) :
    t.heard i = h.heard i ++ (h.exchanged C i e).map Prod.fst := by
  have hsame {u : Host M Rq B U Sm V} {j : ℕ} {s : Session M Rq B} (hj : j ≠ i)
      (hu : u.sessions = h.sessions.set j s) : u.heard i = h.heard i ++ [] := by
    unfold heard
    rw [hu, List.getElem?_set_ne hj, List.append_nil]
  have hmessages {s u : Session M Rq B} {j : ℕ} {e : BeastRouter.Event M B Rq}
      (hs : h.sessions[j]? = some s) (hu : s.step C.platform e = some u) :
      (h.exchanged C j (.session j e)).map Prod.fst = s.newDispatches u := by
    rw [exchanged_eq C hs hu, List.map_map]
    exact List.map_id _
  cases (moves_of_step C hb hstep).2 with
  | register reg hreg => exact (List.append_nil _).symm
  | initContext isSsl onError isOpen now =>
    have hnew := elim_getElem?_append (f := Session.dispatched)
      (x := Session.init C.platform isSsl onError isOpen now) rfl h.sessions i
    exact hnew.trans (List.append_nil _).symm
  | quiet j e s u hs hu hnone =>
    by_cases hj : j = i
    · subst hj
      have hlt : j < h.sessions.length := (List.getElem?_eq_some_iff.mp hs).1
      rw [hmessages hs hu]
      simp only [heard, List.getElem?_set_self hlt, hs, Option.elim_some]
      exact (Session.newDispatches_step C.platform hu).1
    · rw [exchanged_other C hj]
      exact hsame hj rfl
  | dispatched j e s u message hs hu hmessage =>
    by_cases hj : j = i
    · subst hj
      have hlt : j < h.sessions.length := (List.getElem?_eq_some_iff.mp hs).1
      have hcalls (cs : List (Call M)) : (u.calls C.platform cs).dispatched = u.dispatched :=
        congrArg (fun a => a.2.2) (Session.flow_calls C.platform cs u).incoming_eq
      rw [hmessages hs hu]
      simp only [heard, List.getElem?_set_self hlt, hs, Option.elim_some, hcalls]
      exact (Session.newDispatches_step C.platform hu).1
    · rw [exchanged_other C hj]
      exact hsame hj rfl

theorem heard_run {data : V} {es : List (Event M Rq B U Sm V)} {t : Host M Rq B U Sm V}
    (hr : run C (init C data) es = some t) (i : ℕ) :
    t.heard i =
      (Transition.collect (step C) (exchanged C i) (init C data) es).map Prod.fst := by
  have hheard := Transition.collect_eq_invariant (fun _ _ _ hb hstep => built_step C hb hstep)
    (fun _ _ _ hb hstep => heard_step C hb hstep i) (built_init C data) hr
  simp only [List.map_eq_flatMap] at hheard
  rw [List.map_eq_flatMap, Transition.collect_flatMap]
  exact hheard

theorem replied_run (i : ℕ) (h : Host M Rq B U Sm V) (es : List (Event M Rq B U Sm V)) :
    Transition.collect (step C) (replied C i) h es =
      (Transition.collect (step C) (exchanged C i) h es).flatMap Prod.snd := by
  rw [Transition.collect_flatMap]
  exact congrArg (fun f => Transition.collect (step C) f h es)
    (funext fun h => funext fun e => replied_eq C i h e)

theorem paths_nodup (message : Rq) (h : Host M Rq B U Sm V) : (h.paths C message).Nodup :=
  Dispatcher.nodupKeys_visited C.iteration h.table (C.http.method message)

theorem mem_paths_iff {h : Host M Rq B U Sm V} (hb : h.Built C) (message : Rq) (path : String) :
    path ∈ h.paths C message ↔
      ∃ reg ∈ h.installed C, reg.method = C.http.method message ∧ reg.path = path := by
  have hnodup := Dispatcher.nodupKeys_visited C.iteration h.table (C.http.method message)
  have hlookup : (Dispatcher.visited C.iteration h.table (C.http.method message)).dlookup path =
      (Router.lastRegistered (h.installed C) (C.http.method message) path).map
        (Dispatcher.stored C) :=
    (Dispatcher.dlookup_visited C.iteration h.table _ path).trans (hb.find_table _ path)
  have hmem : path ∈ h.paths C message ↔
      ((Dispatcher.visited C.iteration h.table (C.http.method message)).dlookup path).isSome :=
    List.dlookup_isSome.symm
  rw [hmem, hlookup, Option.isSome_map]
  constructor
  · intro hsome
    obtain ⟨chain, hchain⟩ := Option.isSome_iff_exists.mp hsome
    obtain ⟨reg, hreg, hmethod, hpath, -⟩ := Router.lastRegistered_mem hchain
    exact ⟨reg, hreg, hmethod, hpath⟩
  · rintro ⟨reg, hreg, hmethod, hpath⟩
    obtain ⟨chain, hchain⟩ := Router.lastRegistered_isSome hreg
    rw [hmethod, hpath] at hchain
    rw [hchain]
    rfl

def Unrouted (regs : List (Registration Rq U Sm (Outbox V M))) (message : Rq) : Prop :=
  ∀ reg ∈ regs, reg.method = C.http.method message →
    ∃ re, C.http.regex reg.path = some re ∧ re (C.http.target message) = none

def notFoundResponse (message : Rq) : M :=
  C.response (makeStringResponse 404 (C.http.version message) "Not Found" "text/html")

theorem routesAnswer_of_unrouted {regs : List (Registration Rq U Sm (Outbox V M))} {message : Rq}
    {paths : List String}
    (hpaths : ∀ path ∈ paths,
      ∃ re, C.http.regex path = some re ∧ re (C.http.target message) = none)
    (isOpen : Bool) (v : V) :
    routesAnswer C.http regs message isOpen paths v = ⟨[], v, false, none⟩ := by
  induction paths with
  | nil => rfl
  | cons path paths ih =>
    obtain ⟨re, hre, hnone⟩ := hpaths path (.head _)
    simp only [routesAnswer, hre, hnone]
    exact ih fun p hp => hpaths p (.tail _ hp)

theorem lastRegistered_default {h : Host M Rq B U Sm V} (hserver : C.isRequest = true)
    (hroutes : ∀ reg ∈ h.registered, reg.method ≠ .unknown) :
    Router.lastRegistered (h.installed C) .unknown "" =
      some ⟨[Router.notFoundHandler C.onOutbox], by simp⟩ := by
  have hlast : Router.lastRegistered h.registered .unknown "" = none := by
    cases hlast : Router.lastRegistered h.registered .unknown "" with
    | none => rfl
    | some chain =>
      obtain ⟨reg, hreg, hmethod, -⟩ := Router.lastRegistered_mem hlast
      exact absurd hmethod (hroutes reg hreg)
  rw [installed, hserver, Router.lastRegistered_installed_unknown, Router.notFoundChain, hlast]
  rfl

theorem answer_of_unrouted {h : Host M Rq B U Sm V} (hb : h.Built C)
    (hserver : C.isRequest = true) (hroutes : ∀ reg ∈ h.registered, reg.method ≠ .unknown)
    {message : Rq} (hnone : Unrouted C (h.installed C) message) (s : Session M Rq B) :
    (h.answer C message s).calls.flatMap Call.messages = [notFoundResponse C message] := by
  have hpaths (path : String) (hpath : path ∈ h.paths C message) :
      ∃ re, C.http.regex path = some re ∧ re (C.http.target message) = none := by
    obtain ⟨reg, hreg, hmethod, rfl⟩ := (mem_paths_iff C hb message path).mp hpath
    exact hnone reg hreg hmethod
  rw [answer, if_pos hserver]
  simp only [requestAnswer, routesAnswer_of_unrouted C hpaths, fallbackAnswer,
    lastRegistered_default C hserver hroutes]
  rfl

def given : Event M Rq B U Sm V → List (Registration Rq U Sm (Outbox V M))
  | .register reg => [reg]
  | _ => []

theorem registered_run {data : V} {es : List (Event M Rq B U Sm V)} {t : Host M Rq B U Sm V}
    (hr : run C (init C data) es = some t) : t.registered = es.flatMap given := by
  have hstep (h : Host M Rq B U Sm V) (e : Event M Rq B U Sm V) (t : Host M Rq B U Sm V)
      (hb : h.Built C) (hstep : h.step C e = some t) :
      t.registered = h.registered ++ given e := by
    cases (moves_of_step C hb hstep).2 with
    | register reg hreg => rfl
    | _ => exact (List.append_nil _).symm
  have hcollect := Transition.collect_eq_invariant (fun _ _ _ hb hstep => built_step C hb hstep)
    hstep (built_init C data) hr
  rw [Transition.collect_eq_flatMap given hr] at hcollect
  exact hcollect

theorem installed_mono {data : V} {es' es : List (Event M Rq B U Sm V)}
    {u t : Host M Rq B U Sm V} (hes : es' <+: es) (hu : run C (init C data) es' = some u)
    (ht : run C (init C data) es = some t) :
    u.registered <+: t.registered ∧ u.installed C <+: t.installed C := by
  have hregs : u.registered <+: t.registered := by
    obtain ⟨fs, rfl⟩ := hes
    rw [registered_run C hu, registered_run C ht, List.flatMap_append]
    exact List.prefix_append _ _
  refine ⟨hregs, ?_⟩
  unfold installed Router.installed
  split_ifs
  · exact (List.prefix_cons_inj _).mpr hregs
  · exact hregs

theorem not_found_each (hserver : C.isRequest = true) (data : V)
    (es : List (Event M Rq B U Sm V)) (t : Host M Rq B U Sm V)
    (hr : run C (init C data) es = some t) (i : ℕ)
    (hroutes : ∀ reg ∈ t.registered, reg.method ≠ .unknown)
    (hnone : ∀ message ∈ t.heard i, Unrouted C (t.installed C) message) :
    Transition.collect (step C) (replied C i) (init C data) es =
      (t.heard i).map (notFoundResponse C) := by
  have hheard := heard_run C hr i
  have hreply (x : Rq × List M)
      (hx : x ∈ Transition.collect (step C) (exchanged C i) (init C data) es) :
      x.2 = [notFoundResponse C x.1] := by
    obtain ⟨es', e, u, hes, hu, hmem⟩ := Transition.mem_collect hx
    obtain ⟨s, hsent⟩ := answer_of_exchanged C hmem
    have hbefore : es' <+: es := (List.prefix_append es' [e]).trans hes
    obtain ⟨hregs, hinstalled⟩ := installed_mono C hbefore hu hr
    have hm : x.1 ∈ t.heard i := hheard ▸ List.mem_map_of_mem hx
    rw [hsent]
    apply answer_of_unrouted C (built_run C hu) hserver
    · exact fun reg hreg => hroutes reg (hregs.subset hreg)
    · exact fun reg hreg => hnone x.1 hm reg (hinstalled.subset hreg)
  rw [replied_run, hheard, List.map_map, List.map_eq_flatMap]
  exact List.flatMap_congr hreply

theorem not_found_each_get :
    ∃ t, run .sampleServer (init .sampleServer ()) sampleRequest = some t ∧
      Transition.collect (step .sampleServer) (replied .sampleServer 0) (init .sampleServer ())
          sampleRequest = [⟨404, 11, "Not Found", "text/html"⟩] := by
  refine ⟨_, rfl, not_found_each .sampleServer rfl () sampleRequest _ rfl 0
    (fun _ hreg => by cases hreg) ?_⟩
  intro message hm reg hreg hmethod
  obtain rfl : message = (.get, "a") := List.mem_singleton.mp hm
  obtain rfl := List.mem_singleton.mp hreg
  cases hmethod

end BeastRouter.Host
