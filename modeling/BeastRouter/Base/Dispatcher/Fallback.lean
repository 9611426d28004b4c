import BeastRouter.Base.Dispatcher

namespace BeastRouter.Dispatcher
variable {Rq U Sm W : Type} (http : Http Rq Sm W) (order : ArgumentOrder)
  (iteration : IterationOrder Rq U Sm W)

theorem find_unknown_server (heap : Heap Rq U Sm W) (before after : List (Registration Rq U Sm W)) :
    ∃ storage, (deployed http order true heap before after).find .unknown "" = some storage := by
  rw [find_deployed, Router.lastRegistered_installed_unknown]
  exact ⟨_, rfl⟩

theorem find_unknown_client (heap : Heap Rq U Sm W) {before after : List (Registration Rq U Sm W)}
    (havailable : ∀ reg ∈ before ++ after, reg.available false = true) :
    (deployed http order false heap before after).find .unknown "" = none ↔
      before ++ after = [] := by
  have hkey (reg : Registration Rq U Sm W) (hreg : reg ∈ before ++ after) :
      reg.method = .unknown ∧ reg.path = "" := by
    have hreg := havailable reg hreg
    cases reg <;> first | exact ⟨rfl, rfl⟩ | cases hreg
  have hinstalled : Router.installed http false (before ++ after) = before ++ after := rfl
  rw [find_deployed, hinstalled, Option.map_eq_none_iff]
  rcases List.eq_nil_or_concat' (before ++ after) with hnil | ⟨regs, last, hlast⟩
  · rw [hnil]
    exact iff_of_true rfl rfl
  · have hmem : last ∈ before ++ after := by simp [hlast]
    rw [hlast, Router.lastRegistered_append_singleton, if_pos (hkey last hmem)]
    exact iff_of_false (Option.some_ne_none _) (by simp)

theorem deployed_client_nil (heap : Heap Rq U Sm W) :
    deployed http order false heap [] [] = (∅ : MethodMap Rq U Sm W) := by
  simp [deployed, deploy, Router.new, new, Heap.load]

def dispatched (isRequest : Bool) (heap : Heap Rq U Sm W)
    (before after : List (Registration Rq U Sm W)) (message : Rq) (w : W) :
    Option (Dispatch Rq U Sm W) :=
  let (dispatcher, heap) := deploy http order isRequest heap before after
  if isRequest then dispatcher.doProcessRequest http iteration heap message w
  else dispatcher.doProcessResponse http heap message w

theorem fallback_found_iff (isRequest : Bool) (heap : Heap Rq U Sm W)
    (before after : List (Registration Rq U Sm W))
    (havailable : ∀ reg ∈ before ++ after, reg.available isRequest = true) (message : Rq)
    (w : W) :
    (dispatched http order iteration isRequest heap before after message w).isSome = true ↔
      isRequest = true ∨ before ++ after ≠ [] := by
  cases isRequest with
  | true =>
    obtain ⟨storage, hstorage⟩ := find_unknown_server http order heap before after
    refine iff_of_true ?_ (.inl rfl)
    exact doProcessRequest_isSome http iteration message w hstorage
  | false =>
    have hprocess : dispatched http order iteration false heap before after message w =
      executeUnknown http (deployed http order false heap before after) message
        ⟨[], false, w, none⟩ := rfl
    rw [hprocess]
    by_cases hnil : before ++ after = []
    · obtain ⟨rfl, rfl⟩ := List.append_eq_nil_iff.mp hnil
      refine iff_of_false ?_ (by simp)
      simp [deployed_client_nil, executeUnknown]
    · have hfound := (find_unknown_client http order heap havailable).not.mpr hnil
      obtain ⟨storage, hstorage⟩ := Option.ne_none_iff_exists'.mp hfound
      exact iff_of_true (executeUnknown_isSome http hstorage message _) (.inr hnil)

theorem fallback_found_after_handle_response :
    (dispatched (U := Unit) .sample .leftToRight .asStored false ⟨[]⟩ []
      [.handleResponse ⟨[Router.notFoundHandler .sample], by simp⟩]
      (.other 200, "") []).isSome = true :=
  (fallback_found_iff .sample .leftToRight .asStored false ⟨[]⟩ []
    [.handleResponse ⟨[Router.notFoundHandler .sample], by simp⟩]
    (by simp [Registration.available])
    (.other 200, "") []).mpr (.inr (by simp))

theorem fallback_missing_in_client :
    ¬ ∀ (isRequest : Bool)
        (regs : List (Registration (Verb × String) Unit Unit (List StringResponse)))
        (message : Verb × String), (∀ reg ∈ regs, reg.available isRequest = true) →
      (dispatched .sample .leftToRight .asStored isRequest ⟨[]⟩ [] regs message []).isSome =
        true := by
  intro h
  exact absurd (h false [] (.other 200, "") (by simp)) (by decide)

end BeastRouter.Dispatcher
