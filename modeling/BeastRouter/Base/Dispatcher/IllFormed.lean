import BeastRouter.Base.Dispatcher.NotFound

namespace BeastRouter.Dispatcher
variable {Rq U Sm W : Type} (http : Http Rq Sm W) (order : ArgumentOrder)
  (iteration : IterationOrder Rq U Sm W)

def wellFormed (regs : List (Registration Rq U Sm W)) : List (Registration Rq U Sm W) :=
  regs.filter fun reg => (http.regex reg.path).isSome

def IllFormedUnder (regs : List (Registration Rq U Sm W)) (method : Verb) : Prop :=
  ∃ reg ∈ regs, reg.method = method ∧ http.regex reg.path = none

theorem wellFormed_append (before after : List (Registration Rq U Sm W)) :
    wellFormed http before ++ wellFormed http after = wellFormed http (before ++ after) :=
  (List.filter_append _ _).symm

theorem isSome_of_wellFormed {regs : List (Registration Rq U Sm W)} :
    ∀ reg ∈ wellFormed http regs, (http.regex reg.path).isSome := fun _ hreg =>
  of_decide_eq_true (by simpa using (List.mem_filter.mp hreg).2)

theorem lookup_deployed_congr {isRequest : Bool} (heap : Heap Rq U Sm W)
    {before after before' after' : List (Registration Rq U Sm W)} {method : Verb}
    (h : (Router.installed http isRequest (before ++ after)).filter
        (fun reg => reg.method = method) =
      (Router.installed http isRequest (before' ++ after')).filter fun reg => reg.method = method) :
    (deployed http order isRequest heap before after).lookup method =
      (deployed http order isRequest heap before' after').lookup method := by
  have hlt : (⟨heap.maps.length⟩ : Router).methodMap <
      (⟨heap.maps ++ [∅]⟩ : Heap Rq U Sm W).maps.length := by simp
  have hlookup := Router.lookup_registerAll order ⟨heap.maps.length⟩
    (Router.installed http isRequest (before ++ after)) hlt method
  have hlookup' := Router.lookup_registerAll order ⟨heap.maps.length⟩
    (Router.installed http isRequest (before' ++ after')) hlt method
  rw [← h] at hlookup'
  rw [deployed, deployed, deploy_eq, deploy_eq]
  exact hlookup.trans hlookup'.symm

theorem doProcessRequest_congr {heap heap' : Heap Rq U Sm W} {this this' : Dispatcher}
    {request : Rq}
    (hmethod : (heap.load this.methodMap).lookup (http.method request) =
      (heap'.load this'.methodMap).lookup (http.method request))
    (hunknown : (heap.load this.methodMap).lookup .unknown =
      (heap'.load this'.methodMap).lookup .unknown) (w : W) :
    doProcessRequest http iteration heap this request w =
      doProcessRequest http iteration heap' this' request w := by
  have hloop (d : Dispatch Rq U Sm W) :
      executeMethod http iteration (heap.load this.methodMap) request d =
        executeMethod http iteration (heap'.load this'.methodMap) request d := by
    rw [executeMethod, executeMethod, hmethod]
  have hfallback (d : Dispatch Rq U Sm W) :
      executeUnknown http (heap.load this.methodMap) request d =
        executeUnknown http (heap'.load this'.methodMap) request d := by
    rw [executeUnknown, executeUnknown, hunknown]
  simp only [doProcessRequest, hloop, hfallback]

theorem filter_wellFormed {regs : List (Registration Rq U Sm W)} {method : Verb}
    (h : ¬ IllFormedUnder http regs method) :
    (wellFormed http regs).filter (fun reg => reg.method = method) =
      regs.filter fun reg => reg.method = method := by
  rw [wellFormed, List.filter_filter]
  refine List.filter_congr fun reg hreg => ?_
  by_cases hmethod : reg.method = method
  · have hsome : (http.regex reg.path).isSome = true :=
      Option.isSome_iff_ne_none.mpr fun hnone => h ⟨reg, hreg, hmethod, hnone⟩
    simp [hmethod, hsome]
  · simp [hmethod]

theorem filter_installed_wellFormed {regs : List (Registration Rq U Sm W)} {method : Verb}
    (h : ¬ IllFormedUnder http regs method) :
    (Router.installed http true (wellFormed http regs)).filter (fun reg => reg.method = method) =
      (Router.installed http true regs).filter fun reg => reg.method = method := by
  rw [Router.installed, Router.installed, if_pos rfl, if_pos rfl, List.filter_cons,
    List.filter_cons, filter_wellFormed http h]

theorem path_of_unknown {reg : Registration Rq U Sm W} (h : reg.method = .unknown) :
    reg.path = "" := by
  cases reg <;> first | rfl | cases h

theorem not_illFormedUnder_unknown (hempty : (http.regex "").isSome)
    (regs : List (Registration Rq U Sm W)) : ¬ IllFormedUnder http regs .unknown := by
  rintro ⟨reg, -, hmethod, hnone⟩
  rw [path_of_unknown hmethod] at hnone
  simp [hnone] at hempty

theorem illFormedUnder_installed (hempty : (http.regex "").isSome)
    (regs : List (Registration Rq U Sm W)) (method : Verb) :
    IllFormedUnder http (Router.installed http true regs) method ↔
      IllFormedUnder http regs method := by
  constructor
  · rintro ⟨reg, hreg, hmethod, hnone⟩
    rcases List.mem_cons.mp hreg with rfl | hreg
    · change http.regex "" = none at hnone
      simp [hnone] at hempty
    · exact ⟨reg, hreg, hmethod, hnone⟩
  · rintro ⟨reg, hreg, hmethod, hnone⟩
    exact ⟨reg, .tail _ hreg, hmethod, hnone⟩

theorem illFormed_visited (hempty : (http.regex "").isSome) (heap : Heap Rq U Sm W)
    (before after : List (Registration Rq U Sm W)) (method : Verb) :
    IllFormedUnder http (before ++ after) method ↔
      ∃ val ∈ visited iteration (deployed http order true heap before after) method,
        http.regex val.1 = none := by
  rw [← illFormedUnder_installed http hempty]
  constructor
  · rintro ⟨reg, hreg, rfl, hnone⟩
    obtain ⟨chain, hchain⟩ := Router.lastRegistered_isSome hreg
    refine ⟨⟨reg.path, .new order chain.1⟩, ?_, hnone⟩
    apply List.of_mem_dlookup
    rw [dlookup_visited, find_deployed, hchain]
    rfl
  · rintro ⟨val, hval, hnone⟩
    have hfind := find_of_visited hval
    rw [find_deployed] at hfind
    obtain ⟨chain, hchain, -⟩ := Option.map_eq_some_iff.mp hfind
    obtain ⟨reg, hreg, hmethod, hpath, -⟩ := Router.lastRegistered_mem hchain
    exact ⟨reg, hreg, hmethod, hpath ▸ hnone⟩

theorem isolated_of_wellFormed (hempty : (http.regex "").isSome) (heap : Heap Rq U Sm W)
    {before after : List (Registration Rq U Sm W)} {request : Rq}
    (h : ¬ IllFormedUnder http (before ++ after) (http.method request)) (w : W) :
    doProcessRequest http iteration (deploy http order true heap before after).2
        (deploy http order true heap before after).1 request w =
      doProcessRequest http iteration
        (deploy http order true heap (wellFormed http before) (wellFormed http after)).2
        (deploy http order true heap (wellFormed http before) (wellFormed http after)).1
        request w := by
  have hlookup (method : Verb) (hwf : ¬ IllFormedUnder http (before ++ after) method) :
      (deployed http order true heap before after).lookup method =
        (deployed http order true heap (wellFormed http before)
          (wellFormed http after)).lookup method := by
    apply lookup_deployed_congr
    rw [wellFormed_append, filter_installed_wellFormed http hwf]
  exact doProcessRequest_congr http iteration (hlookup _ h)
    (hlookup _ (not_illFormedUnder_unknown http hempty _)) w

theorem thrown_of_illFormed {heap : Heap Rq U Sm W} {this : Dispatcher} {request : Rq} (w : W)
    (h : ∃ val ∈ visited iteration (heap.load this.methodMap) (http.method request),
      http.regex val.1 = none) :
    ∃ d pre val post, doProcessRequest http iteration heap this request w = some d ∧
      visited iteration (heap.load this.methodMap) (http.method request) = pre ++ val :: post ∧
      (∀ v ∈ pre, (http.regex v.1).isSome) ∧ http.regex val.1 = none ∧
      d.regexError = some val.1 ∧ d.entered = matched http request pre w := by
  obtain ⟨val, hfind⟩ : ∃ val, (visited iteration (heap.load this.methodMap)
      (http.method request)).find? (fun v => (http.regex v.1).isNone) = some val := by
    obtain ⟨val, hval, hnone⟩ := h
    apply Option.isSome_iff_exists.mp
    apply List.find?_isSome.mpr
    exact ⟨val, hval, Option.isNone_iff_eq_none.mpr hnone⟩
  obtain ⟨hnone, pre, post, hvisited, hpre⟩ := List.find?_eq_some_iff_append.mp hfind
  have hnone := Option.isNone_iff_eq_none.mp hnone
  have hwf (v : Σ _ : String, Storage Rq U Sm W) (hv : v ∈ pre) : (http.regex v.1).isSome := by
    simpa using hpre v hv
  have hloop := foldl_visitResource http request pre hwf ⟨[], false, w, none⟩ rfl
  let d : Dispatch Rq U Sm W := pre.foldl (visitResource http request) ⟨[], false, w, none⟩
  have hthrow : visitResource http request d val = { d with regexError := some val.1 } := by
    have hd : d.regexError = none := congrArg Dispatch.regexError hloop
    simp [visitResource, hd, hnone]
  have hend : executeMethod http iteration (heap.load this.methodMap) request
      ⟨[], false, w, none⟩ = { d with regexError := some val.1 } := by
    rw [executeMethod_eq, hvisited, List.foldl_append, List.foldl_cons]
    change post.foldl _ (visitResource http request d val) = _
    rw [hthrow, foldl_of_error http request post rfl]
  refine ⟨{ d with regexError := some val.1 }, pre, val, post, ?_, hvisited, hwf, hnone, rfl,
    ?_⟩
  · simp only [doProcessRequest, hend, Option.isSome_some, if_true]
  · exact congrArg Dispatch.entered hloop

theorem notFound_run_of_no_match (heap : Heap Rq U Sm W)
    (before after : List (Registration Rq U Sm W)) (request : Rq) (w : W)
    (hnone : ¬ RouteMatches http (before ++ after) request) {d : Dispatch Rq U Sm W} :
    let ms := looped http order iteration true heap before after request w
    d.entered = ms ++ (if ms.any fun e => (e.outcome request).verdict then []
        else [notFoundEntry http (.new order (Router.notFoundChain http (before ++ after)).1)
          (worldAfter request w ms)]) →
    .new order (Router.notFoundChain http (before ++ after)).1 ∈ notFoundRuns d := by
  intro ms hentered
  rw [notFoundRuns_eq http hentered]
  by_cases hms : ms = []
  · simp [hms]
  · have hmatch := (looped_ne_nil_iff http order iteration heap before after request w).mp hms
    have hroute : (http.method request).isRoute = false := by
      by_contra hroute
      rw [Bool.not_eq_false] at hroute
      exact hnone ((routeMatches_iff http hroute).mpr hmatch)
    rw [notFound_of_matched http order iteration heap before after request w hroute hms]
    exact List.mem_append_left _ (.head _)

theorem regexError_iff_illFormed (heap : Heap Rq U Sm W)
    (before after : List (Registration Rq U Sm W)) (hempty : (http.regex "").isSome)
    (request : Rq) (w : W) :
    ∃ d, doProcessRequest http iteration (deploy http order true heap before after).2
        (deploy http order true heap before after).1 request w = some d ∧
      (d.regexError.isSome = true ↔
        IllFormedUnder http (before ++ after) (http.method request)) ∧
      (¬ IllFormedUnder http (before ++ after) (http.method request) →
        doProcessRequest http iteration
            (deploy http order true heap (wellFormed http before) (wellFormed http after)).2
            (deploy http order true heap (wellFormed http before) (wellFormed http after)).1
            request w = some d ∧
        (∀ method path, method.isRoute = true →
          (d.entered.filter fun e => e.method = method ∧ e.path = path).map
              (fun e => (e.storage, e.sm, e.ctx)) =
            (selected http order (wellFormed http (before ++ after))
              request method path).toList) ∧
        (¬ RouteMatches http (wellFormed http (before ++ after)) request →
          .new order (Router.notFoundChain http (wellFormed http (before ++ after))).1 ∈
            notFoundRuns d)) ∧
      (IllFormedUnder http (before ++ after) (http.method request) →
        ∃ pre val post,
          visited iteration (deployed http order true heap before after) (http.method request) =
            pre ++ val :: post ∧
          (∀ v ∈ pre, (http.regex v.1).isSome) ∧ http.regex val.1 = none ∧
          d.regexError = some val.1 ∧ d.entered = matched http request pre w) := by
  by_cases hill : IllFormedUnder http (before ++ after) (http.method request)
  · obtain ⟨d, pre, val, post, hd, hvisited, hwf, hnone, herror, hentered⟩ :=
      thrown_of_illFormed http iteration w
        ((illFormed_visited http order iteration hempty heap before after _).mp hill)
    refine ⟨d, hd, iff_of_true (by rw [herror]; rfl) hill, fun h => absurd hill h, fun _ => ?_⟩
    exact ⟨pre, val, post, hvisited, hwf, hnone, herror, hentered⟩
  · have hwf (reg : Registration Rq U Sm W)
        (hreg : reg ∈ wellFormed http before ++ wellFormed http after) :
        (http.regex reg.path).isSome := by
      rw [wellFormed_append] at hreg
      exact isSome_of_wellFormed http reg hreg
    have hisolated := isolated_of_wellFormed http order iteration hempty heap hill w
    obtain ⟨d, hd, herror, hentered, -⟩ :=
      doProcessRequest_deploy http order iteration heap _ _ hwf hempty request w
    refine ⟨d, hisolated.trans hd, iff_of_false (by rw [herror]; exact Bool.false_ne_true) hill,
      fun _ => ⟨hd, ?_, ?_⟩, fun h => absurd h hill⟩
    · intro method path hroute
      rw [filter_notFound http hroute path hentered, ← wellFormed_append]
      exact selected_of_looped http order iteration w hroute path
    · rw [← wellFormed_append]
      intro hnone
      exact notFound_run_of_no_match http order iteration heap _ _ request w hnone hentered

open Router (sampleRoute)

def rejecting (path : String) : Http (Verb × String) Unit (List StringResponse) :=
  { Http.sample with
    regex := fun path' =>
      if path' = path then none else some fun target => if target = path' then some () else none }

theorem regexError_iff_illFormed_other_method :
    ∃ d : Dispatch (Verb × String) Unit Unit (List StringResponse),
      doProcessRequest (rejecting "(") .asStored
        (deploy (rejecting "(") .leftToRight true ⟨[]⟩ [sampleRoute "("] []).2
        (deploy (rejecting "(") .leftToRight true ⟨[]⟩ [sampleRoute "("] []).1
        (.put, "a") [] = some d ∧
      (d.regexError.isSome = true ↔ IllFormedUnder (rejecting "(") [sampleRoute "("] .put) := by
  obtain ⟨d, hd, hiff, -⟩ := regexError_iff_illFormed (rejecting "(") .leftToRight .asStored
    ⟨[]⟩
    [sampleRoute "("] [] rfl (.put, "a") []
  exact ⟨d, hd, hiff⟩

theorem illFormed_not_isolated :
    ¬ ∀ (regs : List (Registration (Verb × String) Unit Unit (List StringResponse)))
        (request : Verb × String) (d : Dispatch (Verb × String) Unit Unit (List StringResponse)),
      doProcessRequest (rejecting "(") .asStored
        (deploy (rejecting "(") .leftToRight true ⟨[]⟩ regs []).2
        (deploy (rejecting "(") .leftToRight true ⟨[]⟩ regs []).1 request [] = some d →
      d.regexError = none := by
  intro h
  have hnone := h [sampleRoute "a", sampleRoute "("] (.get, "a") _ rfl
  exact absurd (congrArg Option.isSome hnone) (by decide)

end BeastRouter.Dispatcher
