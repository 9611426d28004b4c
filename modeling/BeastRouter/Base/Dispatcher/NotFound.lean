import BeastRouter.Base.Dispatcher.Routes

namespace BeastRouter.Dispatcher
variable {Rq U Sm W : Type} (http : Http Rq Sm W) (order : ArgumentOrder)
  (iteration : IterationOrder Rq U Sm W)

def ResourceMatches (regs : List (Registration Rq U Sm W)) (request : Rq) : Prop :=
  ∃ path chain, Router.lastRegistered (Router.installed http true regs)
    (http.method request) path =
    some chain ∧ (matchOf http request path).isSome

def RouteMatches (regs : List (Registration Rq U Sm W)) (request : Rq) : Prop :=
  (http.method request).isRoute = true ∧
    ∃ path chain, Router.lastRegistered regs (http.method request) path = some chain ∧
      (matchOf http request path).isSome

def notFoundRuns (d : Dispatch Rq U Sm W) : List (Storage Rq U Sm W) :=
  (d.entered.filter fun e => e.method = .unknown ∧ e.path = "").map Entry.storage

def NotFoundExact (regs : List (Registration Rq U Sm W)) (request : Rq)
    (d : Dispatch Rq U Sm W) : Prop :=
  (RouteMatches http regs request → notFoundRuns d = []) ∧
    (¬ RouteMatches http regs request →
      notFoundRuns d = [.new order (Router.notFoundChain http regs).1])

def SomeChainGoesThrough (heap : Heap Rq U Sm W) (before after : List (Registration Rq U Sm W))
    (request : Rq) (w : W) : Prop :=
  ∃ e ∈ looped http order iteration true heap before after request w,
    ∃ chain : Chain Rq U Sm W, e.storage = .new order chain.1 ∧
      ShortCircuit.Held (chain.1.map (Handler.keptLink request e.sm)) (⟨none⟩, e.world)

theorem verdict_iff_held (request : Rq) {e : Entry Rq U Sm W} {chain : Chain Rq U Sm W}
    (hstorage : e.storage = .new order chain.1) (hctx : e.ctx = ⟨none⟩) :
    (e.outcome request).verdict = true ↔
      ShortCircuit.Held (chain.1.map (Handler.keptLink request e.sm)) (⟨none⟩, e.world) := by
  rw [Entry.outcome, hstorage, hctx, Storage.beginExecute_eq_muted]
  exact ShortCircuit.verdict_muted_iff 0 _ _

theorem matched_ne_nil_iff (request : Rq) (vals : List (Σ _ : String, Storage Rq U Sm W)) (w : W) :
    matched http request vals w ≠ [] ↔ ∃ val ∈ vals,
      (matchOf http request val.1).isSome := by
  induction vals generalizing w with
  | nil => simp [matched]
  | cons val vals ih =>
    rw [matched, List.exists_mem_cons_iff]
    cases hm : matchOf http request val.1 with
    | none => simpa using ih w
    | some sm => simp

theorem looped_ne_nil_iff (heap : Heap Rq U Sm W)
    (before after : List (Registration Rq U Sm W)) (request : Rq) (w : W) :
    looped http order iteration true heap before after request w ≠ [] ↔
      ResourceMatches http (before ++ after) request := by
  rw [matched_ne_nil_iff]
  constructor
  · rintro ⟨val, hval, hmatch⟩
    have hfind := find_of_visited hval
    rw [find_deployed] at hfind
    obtain ⟨chain, hchain, -⟩ := Option.map_eq_some_iff.mp hfind
    exact ⟨val.1, chain, hchain, hmatch⟩
  · rintro ⟨path, chain, hchain, hmatch⟩
    refine ⟨⟨path, .new order chain.1⟩, ?_, hmatch⟩
    apply List.of_mem_dlookup
    rw [dlookup_visited, find_deployed, hchain]
    rfl

theorem handled_iff (heap : Heap Rq U Sm W) (before after : List (Registration Rq U Sm W))
    (request : Rq) (w : W) :
    ((looped http order iteration true heap before after request w).any
        fun e => (e.outcome request).verdict) = true ↔
      SomeChainGoesThrough http order iteration heap before after request w := by
  rw [List.any_eq_true]
  constructor
  · rintro ⟨e, he, hverdict⟩
    obtain ⟨chain, -, hstorage⟩ := registered_of_matched http order iteration he
    have hctx := (of_mem_matched http he).2.1
    exact ⟨e, he, chain, hstorage, (verdict_iff_held order request hstorage hctx).mp hverdict⟩
  · rintro ⟨e, he, chain, hstorage, hheld⟩
    have hctx := (of_mem_matched http he).2.1
    exact ⟨e, he, (verdict_iff_held order request hstorage hctx).mpr hheld⟩

theorem routeMatches_iff {regs : List (Registration Rq U Sm W)} {request : Rq}
    (hroute : (http.method request).isRoute = true) :
    RouteMatches http regs request ↔ ResourceMatches http regs request := by
  unfold RouteMatches ResourceMatches
  simp only [Router.lastRegistered_installed_route http true regs hroute, hroute, true_and]

theorem registered_of_not_route {regs : List (Registration Rq U Sm W)} {method : Verb}
    {path : String} {chain : Chain Rq U Sm W} (hroute : method.isRoute = false)
    (h : Router.lastRegistered (Router.installed http true regs) method path = some chain) :
    method = .unknown ∧ path = "" ∧ chain = Router.notFoundChain http regs := by
  obtain ⟨reg, -, rfl, rfl, -⟩ := Router.lastRegistered_mem h
  have hkey : reg.method = .unknown ∧ reg.path = "" := by
    cases reg <;> first | exact ⟨rfl, rfl⟩ | cases hroute
  rw [hkey.1, hkey.2, Router.lastRegistered_installed_unknown] at h
  exact ⟨hkey.1, hkey.2, (Option.some.inj h).symm⟩

theorem notFound_of_matched (heap : Heap Rq U Sm W)
    (before after : List (Registration Rq U Sm W)) (request : Rq) (w : W)
    (hroute : (http.method request).isRoute = false) :
    let ms := looped http order iteration true heap before after request w
    ms ≠ [] → (ms.filter fun e => e.method = .unknown ∧ e.path = "").map Entry.storage =
      [.new order (Router.notFoundChain http (before ++ after)).1] := by
  intro ms hms
  have hkey (e : Entry Rq U Sm W) (he : e ∈ ms) : e.method = .unknown ∧ e.path = "" := by
    obtain ⟨chain, hchain, -⟩ := registered_of_matched http order iteration he
    obtain ⟨hmethod, hpath, -⟩ := registered_of_not_route http hroute hchain
    exact ⟨(of_mem_matched http he).1.trans hmethod, hpath⟩
  obtain ⟨path, chain, hchain, hmatch⟩ :=
    (looped_ne_nil_iff http order iteration heap before after request w).mp hms
  obtain ⟨hmethod, rfl, rfl⟩ := registered_of_not_route http hroute hchain
  obtain ⟨sm, hsm⟩ := Option.isSome_iff_exists.mp hmatch
  have hfilter := matched_filter http request _ w (nodupKeys_visited iteration
    (deployed http order true heap before after) (http.method request)) ""
  rw [dlookup_visited, find_deployed, hchain, hsm] at hfilter
  have hsame : ms.filter (fun e => e.method = .unknown ∧ e.path = "") =
      ms.filter fun e => e.path = "" := by
    apply List.filter_congr
    intro e he
    simp [hkey e he]
  rw [hsame]
  simpa using congrArg (List.map Prod.fst) hfilter

theorem someChainGoesThrough_of_no_ref (heap : Heap Rq U Sm W)
    (before after : List (Registration Rq U Sm W)) (request : Rq) (w : W)
    (href : ∀ reg ∈ before ++ after, ∀ h ∈ reg.chain.1, h.type.isRefToBoolFunction = false)
    (hmatch : ResourceMatches http (before ++ after) request) :
    SomeChainGoesThrough http order iteration heap before after request w := by
  rw [← looped_ne_nil_iff http order iteration heap before after request w]
    at hmatch
  obtain ⟨e, he⟩ := List.exists_mem_of_ne_nil _ hmatch
  obtain ⟨chain, hchain, hstorage⟩ := registered_of_matched http order iteration he
  obtain ⟨reg, hreg, -, -, rfl⟩ := Router.lastRegistered_mem hchain
  have hnone : ∀ h ∈ reg.chain.1, h.type.isRefToBoolFunction = false := by
    rcases List.mem_cons.mp hreg with rfl | hreg
    · intro h hh
      rw [List.mem_singleton.mp hh]
      rfl
    · exact href reg hreg
  refine ⟨e, he, reg.chain, hstorage, ShortCircuit.held_of_not_kept ?_ _⟩
  intro x hx
  obtain ⟨h, hh, rfl⟩ := List.mem_map.mp hx
  exact hnone h hh

theorem notFoundRuns_eq {d : Dispatch Rq U Sm W} {ms : List (Entry Rq U Sm W)} {handled : Bool}
    {storage : Storage Rq U Sm W} {w : W}
    (h : d.entered = ms ++ if handled then [] else [notFoundEntry http storage w]) :
    notFoundRuns d = (ms.filter fun e => e.method = .unknown ∧ e.path = "").map Entry.storage ++
      if handled then [] else [storage] := by
  rw [notFoundRuns, h, List.filter_append, List.map_append]
  cases handled <;> rfl

theorem notFoundExact_of_route {heap : Heap Rq U Sm W}
    {before after : List (Registration Rq U Sm W)} {request : Rq} {w : W} {d : Dispatch Rq U Sm W}
    (hroute : (http.method request).isRoute = true) :
    let ms := looped http order iteration true heap before after request w
    let handled := ms.any fun e => (e.outcome request).verdict
    notFoundRuns d = (ms.filter fun e => e.method = .unknown ∧ e.path = "").map Entry.storage ++
        (if handled then [] else [.new order (Router.notFoundChain http (before ++ after)).1]) →
      (NotFoundExact http order (before ++ after) request d ↔
        (ms ≠ [] → handled = true)) := by
  intro ms handled hruns
  have hnone : ms.filter (fun e => e.method = .unknown ∧ e.path = "") = [] := by
    refine List.filter_eq_nil_iff.mpr fun e he hkey => ?_
    have hunknown : e.method = .unknown := (of_decide_eq_true hkey).1
    rw [← (of_mem_matched http he).1, hunknown] at hroute
    cases hroute
  rw [NotFoundExact, hruns, routeMatches_iff http hroute,
    ← looped_ne_nil_iff http order iteration heap before after request w, hnone, List.map_nil,
    List.nil_append]
  cases hany : handled with
  | true =>
    have hms : ms ≠ [] := by
      intro hnil
      simp [handled, hnil] at hany
    simp [ms, hms]
  | false => simp [ms]

theorem notFoundExact_of_not_route {heap : Heap Rq U Sm W}
    {before after : List (Registration Rq U Sm W)} {request : Rq} {w : W} {d : Dispatch Rq U Sm W}
    (hroute : (http.method request).isRoute = false) :
    let ms := looped http order iteration true heap before after request w
    let handled := ms.any fun e => (e.outcome request).verdict
    notFoundRuns d = (ms.filter fun e => e.method = .unknown ∧ e.path = "").map Entry.storage ++
        (if handled then [] else [.new order (Router.notFoundChain http (before ++ after)).1]) →
      (NotFoundExact http order (before ++ after) request d ↔
        (ms ≠ [] → handled = true)) := by
  intro ms handled hruns
  have hno : ¬ RouteMatches http (before ++ after) request := by
    rintro ⟨h, -⟩
    rw [hroute] at h
    cases h
  rw [NotFoundExact, hruns]
  by_cases hms : ms = []
  · simp [handled, hms, hno]
  · rw [notFound_of_matched http order iteration heap before after request w hroute hms]
    cases hany : handled <;> simp [hno, hms]

theorem notFound_exact_iff (heap : Heap Rq U Sm W) (before after : List (Registration Rq U Sm W))
    (hwf : ∀ reg ∈ before ++ after, (http.regex reg.path).isSome)
    (hempty : (http.regex "").isSome) (request : Rq) (w : W) :
    ∃ d, doProcessRequest http iteration (deploy http order true heap before after).2
        (deploy http order true heap before after).1 request w = some d ∧
      (NotFoundExact http order (before ++ after) request d ↔
        (ResourceMatches http (before ++ after) request →
          SomeChainGoesThrough http order iteration heap before after request w)) := by
  obtain ⟨d, hd, -, hentered, -⟩ :=
    doProcessRequest_deploy http order iteration heap before after hwf hempty request w
  refine ⟨d, hd, ?_⟩
  have hruns := notFoundRuns_eq http hentered
  rw [← handled_iff, ← looped_ne_nil_iff http order iteration heap before after request w]
  cases hroute : (http.method request).isRoute with
  | true => exact notFoundExact_of_route http order iteration hroute hruns
  | false => exact notFoundExact_of_not_route http order iteration hroute hruns

theorem notFound_exact_after_lambda :
    ∃ d, doProcessRequest .sample .asStored
        (deploy .sample .leftToRight true ⟨[]⟩
          [refusingRoute (.plain (.lambda .bool)) rfl] []).2
        (deploy .sample .leftToRight true ⟨[]⟩
          [refusingRoute (.plain (.lambda .bool)) rfl] []).1
        (.get, "a") [] = some d ∧
      NotFoundExact .sample .leftToRight [refusingRoute (.plain (.lambda .bool)) rfl]
        (.get, "a") d := by
  obtain ⟨d, hd, hiff⟩ := notFound_exact_iff .sample .leftToRight .asStored ⟨[]⟩
    [refusingRoute (.plain (.lambda .bool)) rfl] [] (fun _ _ => rfl) rfl (.get, "a") []
  refine ⟨d, hd, hiff.mpr (someChainGoesThrough_of_no_ref _ _ _ _ _ _ _ _ ?_)⟩
  intro reg hreg h hh
  obtain rfl := List.mem_singleton.mp hreg
  obtain rfl := List.mem_singleton.mp hh
  rfl

theorem notFound_after_refusal :
    ¬ ∀ (regs : List (Registration (Verb × String) Unit Unit (List StringResponse)))
        (request : Verb × String) (d : Dispatch (Verb × String) Unit Unit (List StringResponse)),
      doProcessRequest .sample .asStored (deploy .sample .leftToRight true ⟨[]⟩ regs []).2
        (deploy .sample .leftToRight true ⟨[]⟩ regs []).1 request [] = some d →
      NotFoundExact .sample .leftToRight regs request d := by
  intro h
  have hexact := h [refusingRoute (.plain (.referenceWrapper (.function .bool false))) rfl]
    (.get, "a") _ rfl
  have hmatch : RouteMatches .sample
      [refusingRoute (.plain (.referenceWrapper (.function .bool false))) rfl] (.get, "a") :=
    ⟨rfl, "a", _, rfl, rfl⟩
  have hruns := congrArg List.length (hexact.1 hmatch)
  exact absurd hruns (by decide)

end BeastRouter.Dispatcher
