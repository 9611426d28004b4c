import BeastRouter.Server

namespace BeastRouter

structure Answer (V M : Type) where
  calls : List (Call M)
  data : V
  handled : Bool
  thrown : Option String

section
variable {M Rq U Sm V : Type}

def chainAnswer (request : Rq) (sm : Sm) (isOpen : Bool) :
    List (Handler Rq U Sm (Outbox V M)) → Context U → V → Answer V M
  | [], _, v => ⟨[], v, true, none⟩
  | h :: hs, ctx, v =>
    let r := h.callbackImpl request sm (ctx, .start v isOpen)
    if r.1 then
      let rest := chainAnswer request sm isOpen hs r.2.1 r.2.2.data
      { rest with calls := r.2.2.calls ++ rest.calls }
    else ⟨r.2.2.calls, r.2.2.data, false, none⟩

theorem chainAnswer_pass {request : Rq} {sm : Sm} {isOpen : Bool}
    {h : Handler Rq U Sm (Outbox V M)} {ctx : Context U} {v : V}
    (hr : (h.callbackImpl request sm (ctx, .start v isOpen)).1 = true)
    (hs : List (Handler Rq U Sm (Outbox V M))) :
    chainAnswer request sm isOpen (h :: hs) ctx v =
      let r := (h.callbackImpl request sm (ctx, .start v isOpen)).2
      let rest := chainAnswer request sm isOpen hs r.1 r.2.data
      { rest with calls := r.2.calls ++ rest.calls } := by
  simp only [chainAnswer, if_pos hr]

theorem chainAnswer_break {request : Rq} {sm : Sm} {isOpen : Bool}
    {h : Handler Rq U Sm (Outbox V M)} {ctx : Context U} {v : V}
    (hr : (h.callbackImpl request sm (ctx, .start v isOpen)).1 = false)
    (hs : List (Handler Rq U Sm (Outbox V M))) :
    chainAnswer request sm isOpen (h :: hs) ctx v =
      let r := (h.callbackImpl request sm (ctx, .start v isOpen)).2
      ⟨r.2.calls, r.2.data, false, none⟩ := by
  simp only [chainAnswer, hr, Bool.false_eq_true, if_false]

theorem thrown_chainAnswer (request : Rq) (sm : Sm) (isOpen : Bool)
    (hs : List (Handler Rq U Sm (Outbox V M))) (ctx : Context U) (v : V) :
    (chainAnswer request sm isOpen hs ctx v).thrown = none := by
  induction hs generalizing ctx v with
  | nil => rfl
  | cons h hs ih =>
    cases hr : (h.callbackImpl request sm (ctx, .start v isOpen)).1 with
    | false => rw [chainAnswer_break hr]
    | true =>
      rw [chainAnswer_pass hr]
      exact ih _ _

variable (http : Http Rq Sm Unit)

def routesAnswer (regs : List (Registration Rq U Sm (Outbox V M))) (request : Rq)
    (isOpen : Bool) : List String → V → Answer V M
  | [], v => ⟨[], v, false, none⟩
  | path :: paths, v =>
    match http.regex path with
    | none => ⟨[], v, false, some path⟩
    | some re =>
      match re (http.target request), Router.lastRegistered regs (http.method request) path with
      | some sm, some chain =>
        let first := chainAnswer request sm isOpen chain.1 ⟨none⟩ v
        let rest := routesAnswer regs request isOpen paths first.data
        { rest with calls := first.calls ++ rest.calls, handled := first.handled || rest.handled }
      | _, _ => routesAnswer regs request isOpen paths v

def fallbackAnswer (regs : List (Registration Rq U Sm (Outbox V M))) (request : Rq)
    (isOpen : Bool) (v : V) : Answer V M :=
  match Router.lastRegistered regs .unknown "" with
  | none => ⟨[], v, false, none⟩
  | some chain => chainAnswer request http.emptyMatch isOpen chain.1 ⟨none⟩ v

theorem thrown_fallbackAnswer (regs : List (Registration Rq U Sm (Outbox V M))) (request : Rq)
    (isOpen : Bool) (v : V) : (fallbackAnswer http regs request isOpen v).thrown = none := by
  unfold fallbackAnswer
  split
  · rfl
  · exact thrown_chainAnswer _ _ _ _ _ _

def requestAnswer (regs : List (Registration Rq U Sm (Outbox V M))) (paths : List String)
    (request : Rq) (isOpen : Bool) (v : V) : Answer V M :=
  let routes := routesAnswer http regs request isOpen paths v
  if routes.thrown.isSome || routes.handled then routes
  else
    let rest := fallbackAnswer http regs request isOpen routes.data
    { rest with calls := routes.calls ++ rest.calls }

end

namespace Session
variable {M Rq B : Type} (P : Platform M Rq B)

theorem calls_append (s : Session M Rq B) (cs ds : List (Call M)) :
    s.calls P (cs ++ ds) = (s.calls P cs).calls P ds := List.foldl_append

theorem isOpen_calls (s : Session M Rq B) (cs : List (Call M)) :
    (s.calls P cs).isOpen = s.isOpen :=
  congrArg (fun a => a.2.2.1) (flow_calls P cs s).ambient_eq

end Session

section
variable {M Rq B U Sm V : Type} (P : Platform M Rq B)

theorem runFrom_onSession (request : Rq) (sm : Sm) (hs : List (Handler Rq U Sm (Outbox V M)))
    (i : ℕ) (ctx : Context U) (v : V) (s : Session M Rq B) :
    let o := ShortCircuit.runFrom i
      (((hs.map (Handler.onSession P)).map Handler.callbackImpl).map fun clb => clb request sm)
      (ctx, v, s)
    let a := chainAnswer request sm s.isOpen hs ctx v
    o.verdict = a.handled ∧ o.final.2 = (a.data, s.calls P a.calls) := by
  induction hs generalizing i ctx v s with
  | nil => exact ⟨rfl, rfl⟩
  | cons h hs ih =>
    have hplay : (h.onSession P).callbackImpl request sm (ctx, v, s) =
        Handler.play P (h.callbackImpl request sm) (ctx, v, s) := by
      rw [Handler.callbackImpl_onSession]
    rw [List.map_cons, List.map_cons, List.map_cons]
    cases hr : (h.callbackImpl request sm (ctx, .start v s.isOpen)).1 with
    | false =>
      rw [ShortCircuit.runFrom_break (by rw [hplay]; exact hr), hplay, chainAnswer_break hr]
      exact ⟨rfl, rfl⟩
    | true =>
      let r := (h.callbackImpl request sm (ctx, .start v s.isOpen)).2
      rw [ShortCircuit.runFrom_pass (by rw [hplay]; exact hr), hplay, chainAnswer_pass hr]
      obtain ⟨hverdict, hfinal⟩ := ih (i + 1) r.1 r.2.data (s.calls P r.2.calls)
      rw [Session.isOpen_calls] at hverdict hfinal
      refine ⟨hverdict, hfinal.trans ?_⟩
      rw [← Session.calls_append]

theorem beginExecute_onSession (order : ArgumentOrder) (chain : Chain Rq U Sm (Outbox V M))
    (request : Rq) (sm : Sm) (ctx : Context U) (v : V) (s : Session M Rq B) :
    let o := (Storage.new order (Registration.onSessionChain P chain).1).beginExecute request ctx sm
      (v, s)
    let a := chainAnswer request sm s.isOpen chain.1 ctx v
    o.verdict = a.handled ∧ o.final.2 = (a.data, s.calls P a.calls) := by
  simp only [Storage.beginExecute, Storage.clbs_new]
  exact runFrom_onSession P request sm chain.1 0 ctx v s

end

namespace Router
variable {M Rq B U Sm V : Type} (P : Platform M Rq B)

theorem lastRegistered_onSession (regs : List (Registration Rq U Sm (Outbox V M))) (method : Verb)
    (path : String) :
    lastRegistered (regs.map (Registration.onSession P)) method path =
      (lastRegistered regs method path).map (Registration.onSessionChain P) := by
  induction regs using List.reverseRecOn with
  | nil => rfl
  | append_singleton regs reg ih =>
    rw [List.map_append, List.map_singleton, lastRegistered_append_singleton,
      lastRegistered_append_singleton, ih, Registration.onSession_method,
      Registration.onSession_path, Registration.onSession_chain]
    split_ifs <;> rfl

theorem installed_onSession (C : Setting M Rq B U Sm V)
    (regs : List (Registration Rq U Sm (Outbox V M))) :
    installed C.onSession C.isRequest (regs.map (Registration.onSession C.platform)) =
      (installed C.onOutbox C.isRequest regs).map (Registration.onSession C.platform) := by
  unfold installed
  split_ifs <;> rfl

end Router

namespace Dispatcher
variable {M Rq B U Sm V : Type} (C : Setting M Rq B U Sm V)

def stored (chain : Chain Rq U Sm (Outbox V M)) : Storage Rq U Sm (V × Session M Rq B) :=
  .new C.order (Registration.onSessionChain C.platform chain).1

theorem enter_onSession (request : Rq) (method : Verb) (path : String)
    (chain : Chain Rq U Sm (Outbox V M)) (sm : Sm) (d : Dispatch Rq U Sm (V × Session M Rq B)) :
    let o := enter request method path (stored C chain) sm d
    let a := chainAnswer request sm d.world.2.isOpen chain.1 ⟨none⟩ d.world.1
    o.regexError = d.regexError ∧ o.isHandled = (a.handled || d.isHandled) ∧
      o.world = (a.data, d.world.2.calls C.platform a.calls) := by
  obtain ⟨hverdict, hfinal⟩ := beginExecute_onSession C.platform C.order chain request sm
    ⟨none⟩
    d.world.1 d.world.2
  refine ⟨rfl, ?_, hfinal⟩
  rw [← hverdict]
  rfl

theorem foldl_onSession (regs : List (Registration Rq U Sm (Outbox V M))) (request : Rq)
    (vals : List (Σ _ : String, Storage Rq U Sm (V × Session M Rq B)))
    (hvals : ∀ val ∈ vals, ∃ chain,
      Router.lastRegistered regs (C.http.method request) val.1 = some chain ∧
        val.2 = stored C chain)
    (d : Dispatch Rq U Sm (V × Session M Rq B)) (hd : d.regexError = none) :
    let o := vals.foldl (visitResource C.onSession request) d
    let a := routesAnswer C.http regs request d.world.2.isOpen (vals.map Sigma.fst) d.world.1
    o.regexError = a.thrown ∧ o.isHandled = (d.isHandled || a.handled) ∧
      o.world = (a.data, d.world.2.calls C.platform a.calls) := by
  induction vals generalizing d with
  | nil => exact ⟨hd, (Bool.or_false _).symm, rfl⟩
  | cons val vals ih =>
    obtain ⟨chain, hchain, hstorage⟩ := hvals val (.head _)
    have hrest := ih fun v hv => hvals v (.tail _ hv)
    have hnone : d.regexError.isSome = false := by rw [hd]; rfl
    rw [List.foldl_cons, List.map_cons]
    cases hre : C.http.regex val.1 with
    | none =>
      have hvisit : visitResource C.onSession request d val =
          { d with regexError := some val.1 } := by
        simp only [visitResource, hnone, Bool.false_eq_true, if_false, Setting.onSession, hre]
      have hanswer :
          routesAnswer C.http regs request d.world.2.isOpen (val.1 :: vals.map Sigma.fst)
            d.world.1 = ⟨[], d.world.1, false, some val.1⟩ := by
        simp only [routesAnswer, hre]
      rw [hvisit, foldl_of_error C.onSession request vals rfl, hanswer]
      exact ⟨rfl, (Bool.or_false _).symm, rfl⟩
    | some re =>
      cases hsm : re (C.http.target request) with
      | none =>
        have hvisit : visitResource C.onSession request d val = d := by
          simp only [visitResource, hnone, Bool.false_eq_true, if_false, Setting.onSession, hre,
            hsm]
        rw [hvisit]
        simp only [routesAnswer, hre, hsm]
        exact hrest d hd
      | some sm =>
        have hvisit : visitResource C.onSession request d val =
            enter request (C.http.method request) val.1 (stored C chain) sm d := by
          simp only [visitResource, hnone, Bool.false_eq_true, if_false, Setting.onSession, hre,
            hsm, hstorage]
        obtain ⟨herror, hhandled, hworld⟩ :=
          enter_onSession C request (C.http.method request) val.1 chain sm d
        rw [hvisit]
        simp only [routesAnswer, hre, hsm, hchain]
        obtain ⟨herror', hhandled', hworld'⟩ :=
          hrest (enter request (C.http.method request) val.1 (stored C chain) sm d)
            (herror.trans hd)
        rw [hworld, Session.isOpen_calls] at herror' hhandled' hworld'
        refine ⟨herror', hhandled'.trans ?_, hworld'.trans ?_⟩
        · rw [hhandled, Bool.or_comm _ d.isHandled, Bool.or_assoc]
        · rw [← Session.calls_append]

theorem doProcessRequest_cases {W : Type} (http : Http Rq Sm W)
    {iteration : IterationOrder Rq U Sm W} {heap : Heap Rq U Sm W} {this : Dispatcher}
    {request : Rq} {w : W} {d : Dispatch Rq U Sm W}
    (h : doProcessRequest http iteration heap this request w = some d) :
    ∃ o, o = (visited iteration (heap.load this.methodMap) (http.method request)).foldl
        (visitResource http request) ⟨[], false, w, none⟩ ∧
      ((o.regexError.isSome || o.isHandled) = true ∧ d = o ∨
        (o.regexError.isSome || o.isHandled) = false ∧
          executeUnknown http (heap.load this.methodMap) request o = some d) := by
  simp only [doProcessRequest, executeMethod_eq] at h
  refine ⟨_, rfl, ?_⟩
  split_ifs at h with herror hhandled
  · rw [herror]
    exact .inl ⟨rfl, (Option.some.inj h).symm⟩
  · rw [hhandled, Bool.or_true]
    exact .inl ⟨rfl, (Option.some.inj h).symm⟩
  · rw [Bool.eq_false_iff.mpr herror, Bool.eq_false_iff.mpr hhandled]
    exact .inr ⟨rfl, h⟩

theorem executeUnknown_onSession (regs : List (Registration Rq U Sm (Outbox V M))) (request : Rq)
    {map : MethodMap Rq U Sm (V × Session M Rq B)}
    (hmap : map.find .unknown "" = (Router.lastRegistered regs .unknown "").map (stored C))
    {d o : Dispatch Rq U Sm (V × Session M Rq B)}
    (h : executeUnknown C.onSession map request d = some o) :
    let a := fallbackAnswer C.http regs request d.world.2.isOpen d.world.1
    o.regexError = d.regexError ∧ o.world = (a.data, d.world.2.calls C.platform a.calls) := by
  obtain ⟨resourceMap, hresource, rfl⟩ := Option.map_eq_some_iff.mp h
  rw [MethodMap.find, hresource, Option.bind_some] at hmap
  rw [hmap, fallbackAnswer]
  cases Router.lastRegistered regs .unknown "" with
  | none => exact ⟨rfl, rfl⟩
  | some chain =>
    obtain ⟨herror, -, hworld⟩ := enter_onSession C request .unknown "" chain C.http.emptyMatch
      d
    exact ⟨herror, hworld⟩

theorem doProcessRequest_onSession (regs : List (Registration Rq U Sm (Outbox V M)))
    (heap : Heap Rq U Sm (V × Session M Rq B)) (this : Dispatcher)
    (hfind : ∀ method path, (heap.load this.methodMap).find method path =
      (Router.lastRegistered regs method path).map (stored C))
    {request : Rq} {v : V} {s : Session M Rq B} {d : Dispatch Rq U Sm (V × Session M Rq B)}
    (h : doProcessRequest C.onSession C.iteration heap this request (v, s) = some d) :
    let vals := visited C.iteration (heap.load this.methodMap) (C.http.method request)
    let a := requestAnswer C.http regs (vals.map Sigma.fst) request s.isOpen v
    d.regexError = a.thrown ∧ d.world = (a.data, s.calls C.platform a.calls) := by
  intro vals a
  have hvals (val : Σ _ : String, Storage Rq U Sm (V × Session M Rq B)) (hval : val ∈ vals) :
      ∃ chain, Router.lastRegistered regs (C.http.method request) val.1 = some chain ∧
        val.2 = stored C chain := by
    have hval := find_of_visited hval
    rw [hfind] at hval
    obtain ⟨chain, hchain, hstored⟩ := Option.map_eq_some_iff.mp hval
    exact ⟨chain, hchain, hstored.symm⟩
  obtain ⟨o, ho, hcases⟩ := doProcessRequest_cases C.onSession h
  obtain ⟨routes, hroutes⟩ :
      ∃ routes, routes = routesAnswer C.http regs request s.isOpen (vals.map Sigma.fst) v :=
    ⟨_, rfl⟩
  have hloop : o.regexError = routes.thrown ∧ o.isHandled = routes.handled ∧
      o.world = (routes.data, s.calls C.platform routes.calls) := by
    rw [ho, hroutes]
    have hfold := foldl_onSession C regs request vals hvals ⟨[], false, (v, s), none⟩ rfl
    simp only [Bool.false_or] at hfold
    exact hfold
  have hanswer : a = if routes.thrown.isSome || routes.handled then routes
      else
        let rest := fallbackAnswer C.http regs request s.isOpen routes.data
        { rest with calls := routes.calls ++ rest.calls } := by
    rw [hroutes]
    rfl
  obtain ⟨herror, hhandled, hworld⟩ := hloop
  rw [herror, hhandled] at hcases
  rw [hanswer]
  rcases hcases with ⟨hend, rfl⟩ | ⟨hgo, hnotFound⟩
  · rw [if_pos hend]
    exact ⟨herror, hworld⟩
  · obtain ⟨herror', hworld'⟩ :=
      executeUnknown_onSession C regs request (hfind .unknown "") hnotFound
    have hnone : routes.thrown = none := by
      cases hthrown : routes.thrown with
      | none => rfl
      | some path => simp [hthrown] at hgo
    rw [hworld] at hworld'
    rw [if_neg (Bool.eq_false_iff.mp hgo)]
    simp only [Session.isOpen_calls, ← Session.calls_append] at hworld'
    exact ⟨(herror'.trans herror).trans (hnone.trans (thrown_fallbackAnswer C.http _ _ _ _).symm),
      hworld'⟩

end Dispatcher

namespace Host
variable {M Rq B U Sm V : Type} (C : Setting M Rq B U Sm V)

def table (h : Host M Rq B U Sm V) : MethodMap Rq U Sm (V × Session M Rq B) :=
  h.heap.load h.router.methodMap

def installed (h : Host M Rq B U Sm V) : List (Registration Rq U Sm (Outbox V M)) :=
  Router.installed C.onOutbox C.isRequest h.registered

def paths (message : Rq) (h : Host M Rq B U Sm V) : List String :=
  (Dispatcher.visited C.iteration h.table (C.http.method message)).map Sigma.fst

def answer (message : Rq) (s : Session M Rq B) (h : Host M Rq B U Sm V) : Answer V M :=
  if C.isRequest then
    requestAnswer C.http (h.installed C) (h.paths C message) message s.isOpen h.data
  else fallbackAnswer C.http (h.installed C) message s.isOpen h.data

structure Built (h : Host M Rq B U Sm V) : Prop where
  allocated : h.router.methodMap < h.heap.maps.length
  find_table : ∀ method path, h.table.find method path =
    (Router.lastRegistered (h.installed C) method path).map (Dispatcher.stored C)

theorem dispatch_eq {h : Host M Rq B U Sm V} (hb : h.Built C) {message : Rq}
    {s : Session M Rq B} {d : Dispatch Rq U Sm (V × Session M Rq B)}
    (hd : h.dispatch C message s = some d) :
    let a := h.answer C message s
    d.regexError = a.thrown ∧ d.world = (a.data, s.calls C.platform a.calls) := by
  unfold dispatch at hd
  unfold answer
  split_ifs at hd ⊢
  · exact Dispatcher.doProcessRequest_onSession C (h.installed C) h.heap (.new h.router)
      hb.find_table hd
  · obtain ⟨herror, hworld⟩ := Dispatcher.executeUnknown_onSession C (h.installed C) message
      (hb.find_table .unknown "") hd
    exact ⟨herror.trans (thrown_fallbackAnswer C.http _ _ _ _).symm, hworld⟩

theorem process_cons {h t : Host M Rq B U Sm V} (hb : h.Built C) {i : ℕ} {message : Rq}
    {messages : List Rq} {s : Session M Rq B}
    (hp : h.process C i (message :: messages) s = some t) :
    t = { h with
      data := (h.answer C message s).data
      sessions := h.sessions.set i (s.calls C.platform (h.answer C message s).calls)
      thrown := (h.answer C message s).thrown } := by
  obtain ⟨d, hd, heq⟩ := Option.map_eq_some_iff.mp hp
  obtain ⟨herror, hworld⟩ := dispatch_eq C hb hd
  rw [herror, hworld] at heq
  exact heq.symm

end Host

structure Composes {M V : Type} (R : V → List (Call M) → V → Prop) : Prop where
  nil : ∀ v, R v [] v
  append : ∀ {u v w cs ds}, R u cs v → R v ds w → R u (cs ++ ds) w

section
variable {M Rq U Sm V : Type} (R : V → List (Call M) → V → Prop)

def Handler.Obeys (h : Handler Rq U Sm (Outbox V M)) : Prop :=
  ∀ request sm ctx v isOpen,
    let o := (h.callbackImpl request sm (ctx, .start v isOpen)).2.2
    R v o.calls o.data

def ObeyedBy (regs : List (Registration Rq U Sm (Outbox V M))) : Prop :=
  ∀ reg ∈ regs, ∀ h ∈ reg.chain.1, Handler.Obeys R h

variable {R} (hR : Composes R)
include hR

theorem obeys_chainAnswer {hs : List (Handler Rq U Sm (Outbox V M))}
    (hobeys : ∀ h ∈ hs, h.Obeys R) (request : Rq) (sm : Sm) (isOpen : Bool) (ctx : Context U)
    (v : V) :
    let a := chainAnswer request sm isOpen hs ctx v
    R v a.calls a.data := by
  induction hs generalizing ctx v with
  | nil => exact hR.nil v
  | cons h hs ih =>
    have hfirst := hobeys h (.head hs) request sm ctx v isOpen
    cases hr : (h.callbackImpl request sm (ctx, .start v isOpen)).1 with
    | false =>
      rw [chainAnswer_break hr]
      exact hfirst
    | true =>
      rw [chainAnswer_pass hr]
      exact hR.append hfirst (ih (fun h' hh' => hobeys h' (.tail h hh')) _ _)

omit hR in
theorem obeys_lastRegistered {regs : List (Registration Rq U Sm (Outbox V M))}
    (hregs : ObeyedBy R regs) {method : Verb} {path : String} {chain : Chain Rq U Sm (Outbox V M)}
    (h : Router.lastRegistered regs method path = some chain) : ∀ h ∈ chain.1, h.Obeys R := by
  obtain ⟨reg, hreg, -, -, rfl⟩ := Router.lastRegistered_mem h
  exact hregs reg hreg

theorem obeys_routesAnswer (http : Http Rq Sm Unit)
    {regs : List (Registration Rq U Sm (Outbox V M))} (hregs : ObeyedBy R regs) (request : Rq)
    (isOpen : Bool) (paths : List String) (v : V) :
    let a := routesAnswer http regs request isOpen paths v
    R v a.calls a.data := by
  induction paths generalizing v with
  | nil => exact hR.nil v
  | cons path paths ih =>
    unfold routesAnswer
    split
    · exact hR.nil v
    · split
      · next sm chain hsm hchain =>
        exact hR.append (obeys_chainAnswer hR (obeys_lastRegistered hregs hchain) _ _ _ _ _) (ih _)
      · exact ih v

theorem obeys_fallbackAnswer (http : Http Rq Sm Unit)
    {regs : List (Registration Rq U Sm (Outbox V M))} (hregs : ObeyedBy R regs) (request : Rq)
    (isOpen : Bool) (v : V) :
    let a := fallbackAnswer http regs request isOpen v
    R v a.calls a.data := by
  unfold fallbackAnswer
  split
  · exact hR.nil v
  · next chain hchain =>
    exact obeys_chainAnswer hR (obeys_lastRegistered hregs hchain) _ _ _ _ _

theorem obeys_requestAnswer (http : Http Rq Sm Unit)
    {regs : List (Registration Rq U Sm (Outbox V M))} (hregs : ObeyedBy R regs)
    (paths : List String) (request : Rq) (isOpen : Bool) (v : V) :
    let a := requestAnswer http regs paths request isOpen v
    R v a.calls a.data := by
  have hroutes := obeys_routesAnswer hR http hregs request isOpen paths v
  unfold requestAnswer
  dsimp only
  split_ifs
  · exact hroutes
  · exact hR.append hroutes (obeys_fallbackAnswer hR http hregs request isOpen _)

variable {B : Type} (C : Setting M Rq B U Sm V)

theorem Host.obeys_answer {h : Host M Rq B U Sm V} (hregs : ObeyedBy R h.registered)
    (hown : ∀ v message, R v [.send message] v) (message : Rq) (s : Session M Rq B) :
    R h.data (h.answer C message s).calls (h.answer C message s).data := by
  have hinstalled : ObeyedBy R (h.installed C) := by
    unfold Host.installed Router.installed
    split_ifs
    · intro reg hreg
      rcases List.mem_cons.mp hreg with rfl | hreg
      · intro handler hhandler
        rw [List.mem_singleton.mp hhandler]
        intro request sm ctx v isOpen
        exact hown v _
      · exact hregs reg hreg
    · exact hregs
  unfold Host.answer
  split_ifs
  · exact obeys_requestAnswer hR C.http hinstalled _ _ _ _
  · exact obeys_fallbackAnswer hR C.http hinstalled _ _ _

end

abbrev MadeBy {M Rq U Sm V : Type} (Q : Call M → Prop)
    (regs : List (Registration Rq U Sm (Outbox V M))) : Prop :=
  ObeyedBy (fun _ cs _ => ∀ c ∈ cs, Q c) regs

theorem composes_calls {M V : Type} (Q : Call M → Prop) :
    Composes fun (_ : V) cs (_ : V) => ∀ c ∈ cs, Q c where
  nil := fun _ => nofun
  append := fun hcs hds => List.forall_mem_append.mpr ⟨hcs, hds⟩

end BeastRouter
