import BeastRouter.Base.Dispatcher

namespace BeastRouter.Dispatcher
variable {Rq U Sm W : Type} (http : Http Rq Sm W) (order : ArgumentOrder)
  (iteration : IterationOrder Rq U Sm W)

theorem registered_of_matched {isRequest : Bool} {heap : Heap Rq U Sm W}
    {before after : List (Registration Rq U Sm W)} {request : Rq} {w : W} {e : Entry Rq U Sm W}
    (h : e ∈ looped http order iteration isRequest heap before after request w) :
    ∃ chain, Router.lastRegistered (Router.installed http isRequest (before ++ after))
        (http.method request) e.path = some chain ∧ e.storage = .new order chain.1 := by
  obtain ⟨-, -, hmem, -⟩ := of_mem_matched http h
  have hfind := find_of_visited hmem
  rw [find_deployed] at hfind
  obtain ⟨chain, hchain, hstorage⟩ := Option.map_eq_some_iff.mp hfind
  exact ⟨chain, hchain, hstorage.symm⟩

theorem looped_of_route {isRequest : Bool} {heap : Heap Rq U Sm W}
    {before after : List (Registration Rq U Sm W)} {request : Rq} (w : W)
    (hroute : (http.method request).isRoute = true) (path : String) :
    ((looped http order iteration isRequest heap before after request w).filter
        fun e => e.path = path).map (fun e => (e.storage, e.sm, e.ctx)) =
      (selected http order (before ++ after) request (http.method request) path).toList := by
  rw [matched_filter http request _ w (nodupKeys_visited _ _ _), dlookup_visited, find_deployed,
    Router.lastRegistered_installed_route http isRequest _ hroute, selected, if_pos rfl,
    Option.bind_map]
  rfl

theorem selected_of_looped {isRequest : Bool} {heap : Heap Rq U Sm W}
    {before after : List (Registration Rq U Sm W)} {request : Rq} (w : W) {method : Verb}
    (hroute : method.isRoute = true) (path : String) :
    ((looped http order iteration isRequest heap before after request w).filter
        fun e => e.method = method ∧ e.path = path).map (fun e => (e.storage, e.sm, e.ctx)) =
      (selected http order (before ++ after) request method path).toList := by
  by_cases hmethod : method = http.method request
  · subst hmethod
    rw [← looped_of_route http order iteration w hroute path]
    congr 1
    apply List.filter_congr
    intro e he
    simp [(of_mem_matched http he).1]
  · rw [selected, if_neg hmethod, Option.toList_none, List.map_eq_nil_iff, List.filter_eq_nil_iff]
    intro e he
    have hne : http.method request ≠ method := fun h => hmethod h.symm
    simp [(of_mem_matched http he).1, hne]

theorem filter_notFound {method : Verb} (hroute : method.isRoute = true) (path : String)
    {d : Dispatch Rq U Sm W} {ms : List (Entry Rq U Sm W)} {handled : Bool}
    {storage : Storage Rq U Sm W} {w : W}
    (h : d.entered = ms ++ if handled then [] else [notFoundEntry http storage w]) :
    d.entered.filter (fun e => e.method = method ∧ e.path = path) =
      ms.filter fun e => e.method = method ∧ e.path = path := by
  have hnot : ¬ ((notFoundEntry http storage w).method = method ∧
      (notFoundEntry http storage w).path = path) := by
    rintro ⟨rfl, -⟩
    cases hroute
  rw [h, List.filter_append]
  cases handled <;> simp [hnot]

def refusingRoute (type : CppType) (h : type.invokeResult = some .bool) :
    Registration (Verb × String) Unit Unit (List StringResponse) :=
  .get "a" ⟨[⟨type, .bool, h, .contextOnly fun s => (false, s)⟩], by simp⟩

end BeastRouter.Dispatcher
