import BeastRouter.Router

namespace BeastRouter

structure Entry (Rq U Sm W : Type) where
  method : Verb
  path : String
  storage : Storage Rq U Sm W
  sm : Sm
  ctx : Context U
  world : W

def Entry.outcome {Rq U Sm W : Type} (request : Rq) (e : Entry Rq U Sm W) :
    ShortCircuit.Outcome (Scope U W) :=
  e.storage.beginExecute request e.ctx e.sm e.world

-- `regexError`: the pattern `std::regex` has thrown over.
structure Dispatch (Rq U Sm W : Type) where
  entered : List (Entry Rq U Sm W)
  isHandled : Bool
  world : W
  regexError : Option String

structure IterationOrder (Rq U Sm W : Type) where
  visit : ResourceMap Rq U Sm W → List (Σ _ : String, Storage Rq U Sm W)
  perm : ∀ resourceMap, (visit resourceMap).Perm resourceMap.entries

def IterationOrder.asStored {Rq U Sm W : Type} : IterationOrder Rq U Sm W :=
  ⟨AList.entries, fun _ => .refl _⟩

structure Dispatcher where
  methodMap : ℕ
  deriving DecidableEq, Repr

namespace Dispatcher
variable {Rq U Sm W : Type} (http : Http Rq Sm W)

def new (router : Router) : Dispatcher := ⟨router.methodMap⟩

def enter (request : Rq) (method : Verb) (path : String) (storage : Storage Rq U Sm W) (sm : Sm)
    (d : Dispatch Rq U Sm W) : Dispatch Rq U Sm W :=
  let e : Entry Rq U Sm W := ⟨method, path, storage, sm, ⟨none⟩, d.world⟩
  let o := e.outcome request
  { d with
    entered := d.entered ++ [e], isHandled := o.verdict || d.isHandled, world := o.final.2 }

def visitResource (request : Rq) (d : Dispatch Rq U Sm W)
    (val : Σ _ : String, Storage Rq U Sm W) : Dispatch Rq U Sm W :=
  if d.regexError.isSome then d
  else
    match http.regex val.1 with
    | none => { d with regexError := some val.1 }
    | some re =>
      match re (http.target request) with
      | none => d
      | some sm => enter request (http.method request) val.1 val.2 sm d

def executeMethod (iteration : IterationOrder Rq U Sm W) (map : MethodMap Rq U Sm W) (request : Rq)
    (d : Dispatch Rq U Sm W) : Dispatch Rq U Sm W :=
  match map.lookup (http.method request) with
  | none => d
  | some resourceMap => (iteration.visit resourceMap).foldl (visitResource http request) d

-- `none`: the assumption that the map has an entry for the unknown method does not hold.
def executeUnknown (map : MethodMap Rq U Sm W) (request : Rq) (d : Dispatch Rq U Sm W) :
    Option (Dispatch Rq U Sm W) :=
  (map.lookup .unknown).map fun resourceMap =>
    match resourceMap.lookup "" with
    | none => d
    | some storage => enter request .unknown "" storage http.emptyMatch d

def doProcessRequest (iteration : IterationOrder Rq U Sm W) (heap : Heap Rq U Sm W)
    (this : Dispatcher) (request : Rq) (w : W) : Option (Dispatch Rq U Sm W) :=
  let map := heap.load this.methodMap
  let d := executeMethod http iteration map request ⟨[], false, w, none⟩
  if d.regexError.isSome then some d
  else if d.isHandled then some d
  else executeUnknown http map request d

def doProcessResponse (heap : Heap Rq U Sm W) (this : Dispatcher) (response : Rq) (w : W) :
    Option (Dispatch Rq U Sm W) :=
  executeUnknown http (heap.load this.methodMap) response ⟨[], false, w, none⟩

def matchOf (request : Rq) (path : String) : Option Sm :=
  (http.regex path).bind fun re => re (http.target request)

def matched (request : Rq) :
    List (Σ _ : String, Storage Rq U Sm W) → W → List (Entry Rq U Sm W)
  | [], _ => []
  | val :: vals, w =>
    match matchOf http request val.1 with
    | none => matched request vals w
    | some sm =>
      let e : Entry Rq U Sm W := ⟨http.method request, val.1, val.2, sm, ⟨none⟩, w⟩
      e :: matched request vals (e.outcome request).final.2

def worldAfter (request : Rq) (w : W) : List (Entry Rq U Sm W) → W
  | [] => w
  | e :: es => worldAfter request (e.outcome request).final.2 es

theorem foldl_visitResource (request : Rq) (vals : List (Σ _ : String, Storage Rq U Sm W))
    (hwf : ∀ val ∈ vals, (http.regex val.1).isSome) (d : Dispatch Rq U Sm W)
    (hd : d.regexError = none) :
    vals.foldl (visitResource http request) d =
      { d with
        entered := d.entered ++ matched http request vals d.world
        isHandled := d.isHandled ||
          (matched http request vals d.world).any fun e => (e.outcome request).verdict
        world := worldAfter request d.world (matched http request vals d.world) } := by
  induction vals generalizing d with
  | nil => simp [matched, worldAfter]
  | cons val vals ih =>
    obtain ⟨re, hre⟩ := Option.isSome_iff_exists.mp (hwf val (.head _))
    have hwf' (v : Σ _ : String, Storage Rq U Sm W) (hv : v ∈ vals) : (http.regex v.1).isSome :=
      hwf v (.tail _ hv)
    have hvisit : visitResource http request d val =
        match re (http.target request) with
        | none => d
        | some sm => enter request (http.method request) val.1 val.2 sm d := by
      rw [visitResource, hd, hre]
      rfl
    rw [List.foldl_cons, hvisit, matched, matchOf, hre, Option.bind_some]
    cases re (http.target request) with
    | none => exact ih hwf' d hd
    | some sm =>
      dsimp only
      rw [ih hwf' (enter request (http.method request) val.1 val.2 sm d) hd]
      simp [enter, worldAfter, Bool.or_assoc, Bool.or_left_comm]

def visited (iteration : IterationOrder Rq U Sm W) (map : MethodMap Rq U Sm W) (method : Verb) :
    List (Σ _ : String, Storage Rq U Sm W) :=
  (map.lookup method).elim [] iteration.visit

theorem executeMethod_eq (iteration : IterationOrder Rq U Sm W) (map : MethodMap Rq U Sm W)
    (request : Rq) (d : Dispatch Rq U Sm W) :
    executeMethod http iteration map request d =
      (visited iteration map (http.method request)).foldl (visitResource http request) d := by
  unfold executeMethod visited
  cases map.lookup (http.method request) <;> rfl

theorem nodupKeys_visited (iteration : IterationOrder Rq U Sm W) (map : MethodMap Rq U Sm W)
    (method : Verb) : (visited iteration map method).NodupKeys := by
  unfold visited
  cases map.lookup method with
  | none => exact List.nodupKeys_nil
  | some resourceMap =>
    exact (List.perm_nodupKeys (iteration.perm resourceMap)).mpr resourceMap.nodupKeys

theorem dlookup_visited (iteration : IterationOrder Rq U Sm W) (map : MethodMap Rq U Sm W)
    (method : Verb) (path : String) :
    (visited iteration map method).dlookup path = map.find method path := by
  have hnodup := nodupKeys_visited iteration map method
  unfold visited at hnodup ⊢
  unfold MethodMap.find
  cases hlookup : map.lookup method with
  | none => rfl
  | some resourceMap =>
    rw [hlookup] at hnodup
    exact List.perm_dlookup path hnodup (iteration.perm resourceMap)

theorem find_of_visited {iteration : IterationOrder Rq U Sm W} {map : MethodMap Rq U Sm W}
    {method : Verb} {val : Σ _ : String, Storage Rq U Sm W}
    (h : val ∈ visited iteration map method) : map.find method val.1 = some val.2 := by
  rw [← dlookup_visited iteration]
  exact (List.mem_dlookup_iff (nodupKeys_visited iteration map method)).mpr h

def Threaded (request : Rq) : W → List (Entry Rq U Sm W) → W → Prop
  | w, [], w' => w = w'
  | w, e :: es, w' => e.world = w ∧ Threaded request (e.outcome request).final.2 es w'

theorem threaded_append {request : Rq} {w u v : W} {es fs : List (Entry Rq U Sm W)}
    (h : Threaded request w es u) (k : Threaded request u fs v) :
    Threaded request w (es ++ fs) v := by
  induction es generalizing w with
  | nil =>
    obtain rfl : w = u := h
    exact k
  | cons e es ih => exact ⟨h.1, ih h.2⟩

theorem threaded_matched (request : Rq) (vals : List (Σ _ : String, Storage Rq U Sm W)) (w : W) :
    Threaded request w (matched http request vals w)
      (worldAfter request w (matched http request vals w)) := by
  induction vals generalizing w with
  | nil => rfl
  | cons val vals ih =>
    rw [matched]
    cases matchOf http request val.1 with
    | none => exact ih w
    | some sm => exact ⟨rfl, ih _⟩

def notFoundEntry (storage : Storage Rq U Sm W) (w : W) : Entry Rq U Sm W :=
  ⟨.unknown, "", storage, http.emptyMatch, ⟨none⟩, w⟩

theorem doProcessRequest_eq (iteration : IterationOrder Rq U Sm W) (heap : Heap Rq U Sm W)
    (this : Dispatcher) (request : Rq) (w : W) {notFound : Storage Rq U Sm W}
    (hwf : ∀ path storage,
      (heap.load this.methodMap).find (http.method request) path = some storage →
        (http.regex path).isSome)
    (hfound : (heap.load this.methodMap).find .unknown "" = some notFound) :
    let ms := matched http request
      (visited iteration (heap.load this.methodMap) (http.method request)) w
    ∃ d, doProcessRequest http iteration heap this request w = some d ∧
      d.regexError = none ∧
      d.entered = ms ++ (if ms.any fun e => (e.outcome request).verdict then []
        else [notFoundEntry http notFound (worldAfter request w ms)]) ∧
      Threaded request w d.entered d.world := by
  intro ms
  obtain ⟨unknown, hunknown, hstorage⟩ := Option.bind_eq_some_iff.mp hfound
  have hloop :
      executeMethod http iteration (heap.load this.methodMap) request ⟨[], false, w, none⟩ =
        ⟨ms, ms.any fun e => (e.outcome request).verdict, worldAfter request w ms, none⟩ := by
    have hvisited (val : Σ _ : String, Storage Rq U Sm W)
        (h : val ∈ visited iteration (heap.load this.methodMap) (http.method request)) :
        (http.regex val.1).isSome := hwf val.1 val.2 (find_of_visited h)
    rw [executeMethod_eq, foldl_visitResource http request _ hvisited ⟨[], false, w, none⟩ rfl]
    rfl
  have hthreaded : Threaded request w ms (worldAfter request w ms) :=
    threaded_matched http request _ w
  cases hhandled : ms.any fun e => (e.outcome request).verdict with
  | true =>
    rw [hhandled] at hloop
    refine ⟨⟨ms, true, worldAfter request w ms, none⟩, ?_, rfl, (List.append_nil _).symm,
      hthreaded⟩
    simp only [doProcessRequest, hloop, Option.isSome_none, Bool.false_eq_true, if_false, if_true]
  | false =>
    rw [hhandled] at hloop
    let d : Dispatch Rq U Sm W := ⟨ms, false, worldAfter request w ms, none⟩
    refine ⟨enter request .unknown "" notFound http.emptyMatch d, ?_, rfl, rfl, ?_⟩
    · simp only [doProcessRequest, hloop, Option.isSome_none, Bool.false_eq_true, if_false,
        executeUnknown, hunknown, Option.map_some, hstorage]
      rfl
    · apply threaded_append hthreaded
      constructor <;> rfl

theorem matched_filter (request : Rq) (vals : List (Σ _ : String, Storage Rq U Sm W)) (w : W)
    (hvals : vals.NodupKeys) (path : String) :
    ((matched http request vals w).filter fun e => e.path = path).map
        (fun e => (e.storage, e.sm, e.ctx)) =
      ((vals.dlookup path).bind fun storage =>
        (matchOf http request path).map fun sm => (storage, sm, ⟨none⟩)).toList := by
  induction vals generalizing w with
  | nil => rfl
  | cons val vals ih =>
    obtain ⟨hnot, hrest⟩ := List.nodupKeys_cons.mp hvals
    obtain ⟨key, storage⟩ := val
    rw [matched]
    by_cases hpath : key = path
    · subst hpath
      have hnone (w : W) : (matched http request vals w).filter (fun e => e.path = key) = [] := by
        have := ih w hrest
        rw [List.dlookup_eq_none.mpr hnot] at this
        exact List.map_eq_nil_iff.mp this
      rw [List.dlookup_cons_eq, Option.bind_some]
      cases hm : matchOf http request key with
      | none => simp [hnone]
      | some sm => simp [hnone]
    · have hne : path ≠ key := fun h => hpath h.symm
      rw [List.dlookup_cons_ne vals (⟨key, storage⟩ : Σ _ : String, Storage Rq U Sm W) hne]
      cases hm : matchOf http request key with
      | none => exact ih w hrest
      | some sm =>
        rw [List.filter_cons_of_neg (by simpa using hpath)]
        exact ih _ hrest

theorem of_mem_matched {request : Rq} {vals : List (Σ _ : String, Storage Rq U Sm W)} {w : W}
    {e : Entry Rq U Sm W} (h : e ∈ matched http request vals w) :
    e.method = http.method request ∧ e.ctx = ⟨none⟩ ∧ ⟨e.path, e.storage⟩ ∈ vals ∧
      matchOf http request e.path = some e.sm := by
  induction vals generalizing w with
  | nil => cases h
  | cons val vals ih =>
    rw [matched] at h
    cases hm : matchOf http request val.1 with
    | none =>
      rw [hm] at h
      obtain ⟨hmethod, hctx, hmem, hsm⟩ := ih h
      exact ⟨hmethod, hctx, .tail _ hmem, hsm⟩
    | some sm =>
      rw [hm] at h
      rcases List.mem_cons.mp h with rfl | h
      · exact ⟨rfl, rfl, .head _, hm⟩
      · obtain ⟨hmethod, hctx, hmem, hsm⟩ := ih h
        exact ⟨hmethod, hctx, .tail _ hmem, hsm⟩

def throwsFirst (request : Rq) : List (Σ _ : String, Storage Rq U Sm W) → Bool
  | [] => false
  | val :: vals =>
    match http.regex val.1 with
    | none => true
    | some re => (re (http.target request)).isNone && throwsFirst request vals

theorem visitResource_entered (request : Rq) (d : Dispatch Rq U Sm W)
    (val : Σ _ : String, Storage Rq U Sm W) :
    d.entered <+: (visitResource http request d val).entered := by
  unfold visitResource
  split_ifs
  · exact List.prefix_refl _
  · split
    · exact List.prefix_refl _
    · split
      · exact List.prefix_refl _
      · exact List.prefix_append _ _

theorem foldl_entered (request : Rq) (vals : List (Σ _ : String, Storage Rq U Sm W))
    (d : Dispatch Rq U Sm W) :
    d.entered <+: (vals.foldl (visitResource http request) d).entered := by
  induction vals generalizing d with
  | nil => exact List.prefix_refl _
  | cons val vals ih => exact (visitResource_entered http request d val).trans (ih _)

theorem foldl_of_error (request : Rq) (vals : List (Σ _ : String, Storage Rq U Sm W))
    {d : Dispatch Rq U Sm W} (h : d.regexError.isSome = true) :
    vals.foldl (visitResource http request) d = d := by
  induction vals with
  | nil => rfl
  | cons val vals ih =>
    have hskip : visitResource http request d val = d := by rw [visitResource, if_pos h]
    rw [List.foldl_cons, hskip, ih]

theorem loop_cases (request : Rq) (vals : List (Σ _ : String, Storage Rq U Sm W)) (w : W) :
    (throwsFirst http request vals = true ∧
        (vals.foldl (visitResource http request) ⟨[], false, w, none⟩).entered = [] ∧
        (vals.foldl (visitResource http request) ⟨[], false, w, none⟩).regexError.isSome =
          true) ∨
      throwsFirst http request vals = false ∧
        ((vals.foldl (visitResource http request) ⟨[], false, w, none⟩).entered ≠ [] ∨
          vals.foldl (visitResource http request) ⟨[], false, w, none⟩ =
            ⟨[], false, w, none⟩) := by
  induction vals with
  | nil => exact .inr ⟨rfl, .inr rfl⟩
  | cons val vals ih =>
    rw [List.foldl_cons, throwsFirst]
    cases hre : http.regex val.1 with
    | none =>
      have hthrow : visitResource http request ⟨[], false, w, none⟩ val =
          ⟨[], false, w, some val.1⟩ := by
        simp only [visitResource, hre]
        rfl
      rw [hthrow, foldl_of_error http request vals rfl]
      exact .inl ⟨rfl, rfl, rfl⟩
    | some re =>
      cases hsm : re (http.target request) with
      | none =>
        have hskip :
            visitResource http request ⟨[], false, w, none⟩ val = ⟨[], false, w, none⟩ := by
          simp only [visitResource, hre, hsm]
          rfl
        simpa only [hskip, hsm, Option.isNone_none, Bool.true_and] using ih
      | some sm =>
        refine .inr ⟨by simp [hsm], .inl fun hnil => ?_⟩
        have hprefix := foldl_entered http request vals
          (visitResource http request ⟨[], false, w, none⟩ val)
        rw [hnil, List.prefix_nil] at hprefix
        simp [visitResource, hre, hsm, enter] at hprefix

theorem entered_executeUnknown {map : MethodMap Rq U Sm W} {request : Rq}
    {d d' : Dispatch Rq U Sm W} {storage : Storage Rq U Sm W}
    (hfound : map.find .unknown "" = some storage)
    (h : executeUnknown http map request d = some d') :
    d'.entered ≠ [] := by
  obtain ⟨unknown, hunknown, hstorage⟩ := Option.bind_eq_some_iff.mp hfound
  simp only [executeUnknown, hunknown, Option.map_some, hstorage, Option.some.injEq] at h
  simp [← h, enter]

theorem entered_eq_nil_iff (iteration : IterationOrder Rq U Sm W) {heap : Heap Rq U Sm W}
    {this : Dispatcher} {request : Rq} {w : W} {d : Dispatch Rq U Sm W}
    {notFound : Storage Rq U Sm W}
    (hfound : (heap.load this.methodMap).find .unknown "" = some notFound)
    (h : doProcessRequest http iteration heap this request w = some d) :
    d.entered = [] ↔ throwsFirst http request
      (visited iteration (heap.load this.methodMap) (http.method request)) = true := by
  simp only [doProcessRequest, executeMethod_eq] at h
  rcases loop_cases http request
    (visited iteration (heap.load this.methodMap) (http.method request)) w with
    ⟨hthrows, hnil, herror⟩ | ⟨hthrows, hentered | hstart⟩
  · rw [if_pos herror, Option.some.injEq] at h
    rw [← h, hthrows]
    exact iff_of_true hnil rfl
  · rw [hthrows]
    refine iff_of_false (fun hnil => ?_) Bool.false_ne_true
    split_ifs at h
    · rw [← Option.some.inj h] at hnil
      exact hentered hnil
    · rw [← Option.some.inj h] at hnil
      exact hentered hnil
    · exact entered_executeUnknown http hfound h hnil
  · rw [hstart] at h
    rw [hthrows]
    exact iff_of_false (entered_executeUnknown http hfound h) Bool.false_ne_true

theorem entered_executeUnknown_eq_nil_iff {map : MethodMap Rq U Sm W} (request : Rq) (w : W) :
    (executeUnknown http map request ⟨[], false, w, none⟩).elim [] Dispatch.entered = [] ↔
      map.find .unknown "" = none := by
  rw [executeUnknown, MethodMap.find]
  cases map.lookup .unknown with
  | none => exact iff_of_true rfl rfl
  | some resourceMap =>
    simp only [Option.map_some, Option.elim_some, Option.bind_some]
    cases resourceMap.lookup "" with
    | none => exact iff_of_true rfl rfl
    | some storage => simp [enter]

theorem executeUnknown_isSome {map : MethodMap Rq U Sm W} {notFound : Storage Rq U Sm W}
    (hfound : map.find .unknown "" = some notFound) (request : Rq) (d : Dispatch Rq U Sm W) :
    (executeUnknown http map request d).isSome = true := by
  obtain ⟨unknown, hunknown, -⟩ := Option.bind_eq_some_iff.mp hfound
  rw [executeUnknown, hunknown]
  rfl

theorem doProcessRequest_isSome (iteration : IterationOrder Rq U Sm W) {heap : Heap Rq U Sm W}
    {this : Dispatcher} (request : Rq) (w : W) {notFound : Storage Rq U Sm W}
    (hfound : (heap.load this.methodMap).find .unknown "" = some notFound) :
    (doProcessRequest http iteration heap this request w).isSome = true := by
  simp only [doProcessRequest]
  split_ifs
  · rfl
  · rfl
  · exact executeUnknown_isSome http hfound request _

variable (order : ArgumentOrder) (iteration : IterationOrder Rq U Sm W)

def deploy (isRequest : Bool) (heap : Heap Rq U Sm W)
    (before after : List (Registration Rq U Sm W)) : Dispatcher × Heap Rq U Sm W :=
  let (router, heap) := Router.new http order isRequest heap
  let heap := before.foldl (router.register order) heap
  let dispatcher := Dispatcher.new router
  (dispatcher, after.foldl (router.register order) heap)

def deployed (isRequest : Bool) (heap : Heap Rq U Sm W)
    (before after : List (Registration Rq U Sm W)) : MethodMap Rq U Sm W :=
  (deploy http order isRequest heap before after).2.load
    (deploy http order isRequest heap before after).1.methodMap

abbrev looped (isRequest : Bool) (heap : Heap Rq U Sm W)
    (before after : List (Registration Rq U Sm W)) (request : Rq) (w : W) :
    List (Entry Rq U Sm W) :=
  matched http request
    (visited iteration (deployed http order isRequest heap before after) (http.method request)) w

theorem deploy_eq (isRequest : Bool) (heap : Heap Rq U Sm W)
    (before after : List (Registration Rq U Sm W)) :
    deploy http order isRequest heap before after =
      (⟨heap.maps.length⟩, (Router.installed http isRequest (before ++ after)).foldl
        (Router.register order ⟨heap.maps.length⟩) ⟨heap.maps ++ [∅]⟩) := by
  cases isRequest with
  | true =>
    rw [Router.installed, if_pos rfl, List.foldl_cons, List.foldl_append]
    rfl
  | false =>
    rw [Router.installed, if_neg Bool.false_ne_true, List.foldl_append]
    rfl

theorem find_deployed (isRequest : Bool) (heap : Heap Rq U Sm W)
    (before after : List (Registration Rq U Sm W)) (method : Verb) (path : String) :
    (deployed http order isRequest heap before after).find method path =
      (Router.lastRegistered (Router.installed http isRequest (before ++ after)) method path).map
        fun chain => Storage.new order chain.1 := by
  let router : Router := ⟨heap.maps.length⟩
  let fresh : Heap Rq U Sm W := ⟨heap.maps ++ [∅]⟩
  have hfresh : (fresh.load router.methodMap).find method path = none := by
    have hempty : fresh.load router.methodMap = ∅ := by simp [fresh, router, Heap.load]
    rw [hempty, MethodMap.find, AList.lookup_empty, Option.bind_none]
  have hlt : router.methodMap < fresh.maps.length := by simp [fresh, router]
  have hfind := Router.find_registerAll order router
    (Router.installed http isRequest (before ++ after)) hlt method path
  rw [hfresh, Option.or_none] at hfind
  rw [deployed, deploy_eq]
  exact hfind

def selected (regs : List (Registration Rq U Sm W)) (request : Rq) (method : Verb)
    (path : String) : Option (Storage Rq U Sm W × Sm × Context U) :=
  if method = http.method request then
    (Router.lastRegistered regs method path).bind fun chain =>
      (matchOf http request path).map fun sm => (Storage.new order chain.1, sm, ⟨none⟩)
  else none

theorem doProcessRequest_deploy (heap : Heap Rq U Sm W)
    (before after : List (Registration Rq U Sm W))
    (hwf : ∀ reg ∈ before ++ after, (http.regex reg.path).isSome)
    (hempty : (http.regex "").isSome) (request : Rq) (w : W) :
    let ms := looped http order iteration true heap before after request w
    ∃ d, doProcessRequest http iteration (deploy http order true heap before after).2
        (deploy http order true heap before after).1 request w = some d ∧
      d.regexError = none ∧
      d.entered = ms ++ (if ms.any fun e => (e.outcome request).verdict then []
        else [notFoundEntry http (.new order (Router.notFoundChain http (before ++ after)).1)
          (worldAfter request w ms)]) ∧
      Threaded request w d.entered d.world := by
  apply doProcessRequest_eq http iteration
  · intro path storage h
    change (deployed http order true heap before after).find _ _ = _ at h
    rw [find_deployed] at h
    obtain ⟨chain, hchain, -⟩ := Option.map_eq_some_iff.mp h
    obtain ⟨reg, hreg, -, hpath, -⟩ := Router.lastRegistered_mem hchain
    rcases List.mem_cons.mp hreg with rfl | hreg
    · exact hpath ▸ hempty
    · exact hpath ▸ hwf reg hreg
  · change (deployed http order true heap before after).find _ _ = _
    rw [find_deployed, Router.lastRegistered_installed_unknown, Option.map_some]

end Dispatcher
end BeastRouter
