import BeastRouter.Server.NotFound

namespace BeastRouter

section
variable {M Rq U Sm V : Type}

theorem CppType.invokeResult_lambda (result : ReturnType) :
    (CppType.plain (.lambda result)).invokeResult = some result := rfl

def Handler.lambda (f : Rq → Outbox V M → Outbox V M) : Handler Rq U Sm (Outbox V M) where
  type := .plain (.lambda .void)
  result := .void
  invocable := CppType.invokeResult_lambda .void
  body := .messageContext fun message s => ((), s.1, f message s.2)

def lambdaChain (f : Rq → Outbox V M → Outbox V M) : Chain Rq U Sm (Outbox V M) :=
  ⟨[.lambda f], by simp⟩

theorem chainAnswer_lambda (f : Rq → Outbox V M → Outbox V M) (message : Rq) (sm : Sm)
    (isOpen : Bool) (ctx : Context U) (v : V) :
    chainAnswer message sm isOpen (lambdaChain f : Chain Rq U Sm (Outbox V M)).1 ctx v =
      ⟨(f message (.start v isOpen)).calls,
        (f message (.start v isOpen)).data, true, none⟩ := by
  have hpass : ((Handler.lambda f : Handler Rq U Sm (Outbox V M)).callbackImpl message sm
      (ctx, .start v isOpen)).1 = true := rfl
  refine (chainAnswer_pass hpass []).trans ?_
  simp only [chainAnswer, List.append_nil]
  rfl

theorem obeys_lambda {R : V → List (Call M) → V → Prop} {f : Rq → Outbox V M → Outbox V M}
    (hf : ∀ message v isOpen,
      R v (f message (.start v isOpen)).calls (f message (.start v isOpen)).data) :
    ∀ h ∈ (lambdaChain f : Chain Rq U Sm (Outbox V M)).1, h.Obeys R := by
  intro h hh message sm ctx v isOpen
  obtain rfl := List.mem_singleton.mp hh
  exact hf message v isOpen

end

namespace Host
variable {M Rq B U Sm V : Type} (C : Setting M Rq B U Sm V)

def Misses (message : Rq) (path : String) : Prop :=
  ∃ re, C.http.regex path = some re ∧ re (C.http.target message) = none

theorem routesAnswer_of_one {regs : List (Registration Rq U Sm (Outbox V M))} {message : Rq}
    {path : String} {re : String → Option Sm} {sm : Sm} {chain : Chain Rq U Sm (Outbox V M)}
    (hre : C.http.regex path = some re) (hsm : re (C.http.target message) = some sm)
    (hchain : Router.lastRegistered regs (C.http.method message) path = some chain)
    (isOpen : Bool) {paths : List String} (hnodup : paths.Nodup) (hpath : path ∈ paths)
    (hothers : ∀ other ∈ paths, other ≠ path → Misses C message other) (v : V) :
    routesAnswer C.http regs message isOpen paths v =
      chainAnswer message sm isOpen chain.1 ⟨none⟩ v := by
  induction paths with
  | nil => cases hpath
  | cons other paths ih =>
    obtain ⟨hfresh, hnodup⟩ := List.nodup_cons.mp hnodup
    have hlater (p : String) (hp : p ∈ paths) (hne : p ≠ path) : Misses C message p :=
      hothers p (.tail other hp) hne
    rcases List.mem_cons.mp hpath with rfl | hpath
    · have hrest : ∀ p ∈ paths, Misses C message p :=
        fun p hp => hlater p hp fun heq => hfresh (heq ▸ hp)
      have hthrown := thrown_chainAnswer message sm isOpen chain.1 ⟨none⟩ v
      simp only [routesAnswer, hre, hsm, hchain, routesAnswer_of_unrouted C hrest,
        List.append_nil, Bool.or_false]
      rw [← hthrown]
    · have hne : other ≠ path := fun heq => hfresh (heq ▸ hpath)
      obtain ⟨re', hre', hnone⟩ := hothers other (.head paths) hne
      simp only [routesAnswer, hre', hnone]
      exact ih hnodup hpath hlater

theorem answer_of_route {h : Host M Rq B U Sm V} (hb : h.Built C) (hserver : C.isRequest = true)
    {message : Rq} {path : String} {re : String → Option Sm} {sm : Sm}
    {chain : Chain Rq U Sm (Outbox V M)} (hre : C.http.regex path = some re)
    (hsm : re (C.http.target message) = some sm)
    (hchain : Router.lastRegistered (h.installed C) (C.http.method message) path = some chain)
    (hothers : ∀ reg ∈ h.installed C, reg.method = C.http.method message →
      reg.path ≠ path →
      Misses C message reg.path)
    (s : Session M Rq B)
    (hhandled : (chainAnswer message sm s.isOpen chain.1 ⟨none⟩ h.data).handled = true) :
    h.answer C message s = chainAnswer message sm s.isOpen chain.1 ⟨none⟩ h.data := by
  have hpath : path ∈ h.paths C message := by
    obtain ⟨reg, hreg, hmethod, hregpath, -⟩ := Router.lastRegistered_mem hchain
    exact (mem_paths_iff C hb message path).mpr ⟨reg, hreg, hmethod, hregpath⟩
  have hmisses (other : String) (hother : other ∈ h.paths C message) (hne : other ≠ path) :
      Misses C message other := by
    obtain ⟨reg, hreg, hmethod, rfl⟩ := (mem_paths_iff C hb message other).mp hother
    exact hothers reg hreg hmethod hne
  have hroutes := routesAnswer_of_one C hre hsm hchain s.isOpen (paths_nodup C message h) hpath
    hmisses h.data
  rw [answer, if_pos hserver]
  simp only [requestAnswer, hroutes, hhandled, Bool.or_true, if_true]

theorem answer_of_no_route {h : Host M Rq B U Sm V} (hb : h.Built C)
    (hserver : C.isRequest = true) {message : Rq}
    (hnone : Unrouted C (h.installed C) message) (s : Session M Rq B) :
    h.answer C message s =
      fallbackAnswer C.http (h.installed C) message s.isOpen h.data := by
  have hpaths (path : String) (hpath : path ∈ h.paths C message) : Misses C message path := by
    obtain ⟨reg, hreg, hmethod, rfl⟩ := (mem_paths_iff C hb message path).mp hpath
    exact hnone reg hreg hmethod
  rw [answer, if_pos hserver]
  simp only [requestAnswer, routesAnswer_of_unrouted C hpaths]
  rfl

theorem misses_of_pattern {path : String} {p : String → Bool}
    (hpath : ∃ re, C.http.regex path = some re ∧ ∀ target, (re target).isSome = p target)
    {message : Rq} (hnone : p (C.http.target message) = false) : Misses C message path := by
  obtain ⟨re, hre, hp⟩ := hpath
  refine ⟨re, hre, Option.not_isSome_iff_eq_none.mp ?_⟩
  rw [hp, hnone]
  exact Bool.false_ne_true

theorem matches_of_pattern {path : String} {p : String → Bool}
    (hpath : ∃ re, C.http.regex path = some re ∧ ∀ target, (re target).isSome = p target)
    {message : Rq} (hsome : p (C.http.target message) = true) :
    ∃ re sm, C.http.regex path = some re ∧ re (C.http.target message) = some sm := by
  obtain ⟨re, hre, hp⟩ := hpath
  obtain ⟨sm, hsm⟩ := Option.isSome_iff_exists.mp ((hp _).trans hsome)
  exact ⟨re, sm, hre, hsm⟩

section
variable {h : Host M Rq B U Sm V} (hb : h.Built C) (hserver : C.isRequest = true) {message : Rq}
include hb hserver

theorem answer_of_lambda (hroute : (C.http.method message).isRoute = true) {path : String}
    {f : Rq → Outbox V M → Outbox V M}
    (hchain : Router.lastRegistered h.registered (C.http.method message) path =
      some (lambdaChain f))
    (hmatch : ∃ re sm, C.http.regex path = some re ∧ re (C.http.target message) = some sm)
    (hothers : ∀ reg ∈ h.registered, reg.method = C.http.method message →
      reg.path ≠ path →
      Misses C message reg.path)
    (s : Session M Rq B) :
    let o := f message (.start h.data s.isOpen)
    h.answer C message s = ⟨o.calls, o.data, true, none⟩ := by
  obtain ⟨re, sm, hre, hsm⟩ := hmatch
  have heq := chainAnswer_lambda f message sm s.isOpen (⟨none⟩ : Context U) h.data
  refine Eq.trans ?_ heq
  apply answer_of_route C hb hserver hre hsm
  · rw [installed, Router.lastRegistered_installed_route _ _ _ hroute, hchain]
  · rw [installed, Router.installed, if_pos hserver]
    intro reg hreg hmethod hne
    rcases List.mem_cons.mp hreg with rfl | hreg
    · rw [← hmethod] at hroute
      cases hroute
    · exact hothers reg hreg hmethod hne
  · rw [heq]

theorem answer_of_default (hroutes : ∀ reg ∈ h.registered, reg.method ≠ .unknown)
    (hempty : ∃ re, C.http.regex "" = some re ∧ ∀ target, (re target).isSome = (target == ""))
    (hmisses : ∀ reg ∈ h.registered, reg.method = C.http.method message →
      Misses C message reg.path) (s : Session M Rq B) :
    h.answer C message s = ⟨[.send (notFoundResponse C message)], h.data, true, none⟩ := by
  have hchain : Router.lastRegistered (h.installed C) .unknown "" =
      some ⟨[Router.notFoundHandler C.onOutbox], by simp⟩ :=
        lastRegistered_default C hserver hroutes
  have hanswer (sm : Sm) : chainAnswer message sm s.isOpen
      [Router.notFoundHandler C.onOutbox] (⟨none⟩ : Context U) h.data =
        ⟨[.send (notFoundResponse C message)], h.data, true, none⟩ := rfl
  have hregs : h.installed C =
      .notFound ⟨[Router.notFoundHandler C.onOutbox], by simp⟩ :: h.registered := by
    rw [installed, Router.installed, if_pos hserver]
  by_cases hunknown : C.http.method message = .unknown ∧ C.http.target message = ""
  · -- the table has the fallback under a method and a path of its own
    obtain ⟨re, sm, hre, hsm⟩ := matches_of_pattern C hempty (beq_iff_eq.mpr hunknown.2)
    rw [answer_of_route C hb hserver hre hsm (hunknown.1 ▸ hchain), hanswer sm]
    · rw [hregs, hunknown.1]
      intro reg hreg hmethod hne
      rcases List.mem_cons.mp hreg with rfl | hreg
      · exact absurd rfl hne
      · exact absurd hmethod (hroutes reg hreg)
    · rw [hanswer sm]
  · have hnone : Unrouted C (h.installed C) message := by
      rw [hregs]
      intro reg hreg hmethod
      rcases List.mem_cons.mp hreg with rfl | hreg
      · refine misses_of_pattern C hempty (beq_eq_false_iff_ne.mpr fun htarget => ?_)
        exact hunknown ⟨hmethod.symm, htarget⟩
      · exact hmisses reg hreg hmethod
    rw [answer_of_no_route C hb hserver hnone, fallbackAnswer, hchain]
    exact hanswer C.http.emptyMatch

end

section
variable {R : V → List (Call M) → V → Prop} (hR : Composes R)
include hR

theorem effect_run (hown : ∀ v message, R v [.send message] v) {h t : Host M Rq B U Sm V}
    (hb : h.Built C) {es : List (Event M Rq B U Sm V)} (hr : run C h es = some t)
    (hregs : ObeyedBy R t.registered) :
    h.registered ⊆ t.registered ∧ ∃ cs, R h.data cs t.data := by
  induction es generalizing h with
  | nil =>
    obtain rfl := Option.some.inj hr
    exact ⟨List.Subset.refl _, [], hR.nil _⟩
  | cons e es ih =>
    obtain ⟨u, hu, hrest⟩ := Transition.run_cons.mp hr
    obtain ⟨hsubset, cs, hlater⟩ := ih (built_step C hb hu) hrest
    cases (moves_of_step C hb hu).2 with
    | register reg hreg =>
      exact ⟨List.Subset.trans (List.subset_append_left _ _) hsubset, cs, hlater⟩
    | initContext isSsl onError isOpen now => exact ⟨hsubset, cs, hlater⟩
    | quiet i e s t hs ht hnone => exact ⟨hsubset, cs, hlater⟩
    | dispatched i e s t message hs ht hmessage =>
      have hfirst := obeys_answer (h := h) hR C (fun reg hreg => hregs reg (hsubset hreg)) hown
        message t
      exact ⟨hsubset, _, hR.append hfirst hlater⟩

end

end Host
end BeastRouter
