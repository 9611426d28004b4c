import Mathlib.Data.List.AList
import BeastRouter.Base.Storage

namespace BeastRouter

inductive Verb where
  | get
  | put
  | post
  | delete_
  | unknown
  | other (value : ℕ)
  deriving DecidableEq, Repr

def Verb.isRoute : Verb → Bool
  | get | put | post | delete_ => true
  | _ => false

structure StringResponse where
  code : ℕ
  version : ℕ
  body : String
  contentType : String
  deriving DecidableEq, Repr

def makeStringResponse (code version : ℕ) (data : String) (content : String) : StringResponse :=
  ⟨code, version, data, content⟩

-- What routing takes from elsewhere. `regex path` is `none` when `std::regex` rejects the pattern,
-- and else how it matches a whole target; `send` is what `context::send` does to the session.
structure Http (Rq Sm W : Type) where
  method : Rq → Verb
  target : Rq → String
  version : Rq → ℕ
  regex : String → Option (String → Option Sm)
  emptyMatch : Sm
  send : StringResponse → W → W

def Http.sample : Http (Verb × String) Unit (List StringResponse) where
  method := Prod.fst
  target := Prod.snd
  version _ := 11
  regex path := some fun target => if target = path then some () else none
  emptyMatch := ()
  send response sent := sent ++ [response]

abbrev Chain (Rq U Sm W : Type) : Type :=
  { onRequest : List (Handler Rq U Sm W) // onRequest ≠ [] }

abbrev ResourceMap (Rq U Sm W : Type) : Type := AList fun _ : String => Storage Rq U Sm W

abbrev MethodMap (Rq U Sm W : Type) : Type := AList fun _ : Verb => ResourceMap Rq U Sm W

namespace MethodMap
variable {Rq U Sm W : Type}

def addResource (path : String) (method : Verb) (storage : Storage Rq U Sm W)
    (map : MethodMap Rq U Sm W) : MethodMap Rq U Sm W :=
  let resourceMap := (map.lookup method).getD ∅
  map.insert method (resourceMap.insert path storage)

def find (method : Verb) (path : String) (map : MethodMap Rq U Sm W) : Option (Storage Rq U Sm W) :=
  (map.lookup method).bind fun resourceMap => resourceMap.lookup path

theorem lookup_addResource (path : String) (method method' : Verb) (storage : Storage Rq U Sm W)
    (map : MethodMap Rq U Sm W) :
    (addResource path method storage map).lookup method' =
      if method = method' then some (((map.lookup method').getD ∅).insert path storage)
      else map.lookup method' := by
  by_cases hm : method' = method
  · subst hm
    rw [addResource, AList.lookup_insert, if_pos rfl]
  · rw [addResource, AList.lookup_insert_ne hm, if_neg fun h => hm h.symm]

theorem find_addResource (path path' : String) (method method' : Verb)
    (storage : Storage Rq U Sm W) (map : MethodMap Rq U Sm W) :
    find method' path' (addResource path method storage map) =
      if method = method' ∧ path = path' then some storage else find method' path' map := by
  by_cases hm : method' = method
  · subst hm
    rw [find, addResource, AList.lookup_insert, Option.bind_some]
    by_cases hp : path' = path
    · subst hp
      rw [AList.lookup_insert, if_pos ⟨rfl, rfl⟩]
    · have hne : ¬ (method' = method' ∧ path = path') := fun h => hp h.2.symm
      rw [AList.lookup_insert_ne hp, if_neg hne, find]
      cases map.lookup method' with
      | none => exact AList.lookup_empty path'
      | some resourceMap => rfl
  · have hne : ¬ (method = method' ∧ path = path') := fun h => hm h.1.symm
    rw [find, addResource, AList.lookup_insert_ne hm, if_neg hne, find]

end MethodMap

structure Heap (Rq U Sm W : Type) where
  maps : List (MethodMap Rq U Sm W)

namespace Heap
variable {Rq U Sm W : Type}

def load (p : ℕ) (heap : Heap Rq U Sm W) : MethodMap Rq U Sm W := heap.maps[p]?.getD ∅

def update (p : ℕ) (f : MethodMap Rq U Sm W → MethodMap Rq U Sm W) (heap : Heap Rq U Sm W) :
    Heap Rq U Sm W :=
  ⟨heap.maps.modify p f⟩

theorem length_update (p : ℕ) (f : MethodMap Rq U Sm W → MethodMap Rq U Sm W)
    (heap : Heap Rq U Sm W) : (heap.update p f).maps.length = heap.maps.length :=
  List.length_modify f heap.maps p

theorem load_update {p : ℕ} (f : MethodMap Rq U Sm W → MethodMap Rq U Sm W)
    {heap : Heap Rq U Sm W} (hp : p < heap.maps.length) :
    (heap.update p f).load p = f (heap.load p) := by
  simp [load, update, List.getElem?_eq_getElem hp]

end Heap

inductive Registration (Rq U Sm W : Type) where
  | get (path : String) (onRequest : Chain Rq U Sm W)
  | put (path : String) (onRequest : Chain Rq U Sm W)
  | post (path : String) (onRequest : Chain Rq U Sm W)
  | delete_ (path : String) (onRequest : Chain Rq U Sm W)
  | notFound (onAction : Chain Rq U Sm W)
  | handleResponse (onAction : Chain Rq U Sm W)

namespace Registration
variable {Rq U Sm W : Type}

def method : Registration Rq U Sm W → Verb
  | get _ _ => .get
  | put _ _ => .put
  | post _ _ => .post
  | delete_ _ _ => .delete_
  | notFound _ => .unknown
  | handleResponse _ => .unknown

def path : Registration Rq U Sm W → String
  | get path _ => path
  | put path _ => path
  | post path _ => path
  | delete_ path _ => path
  | notFound _ => ""
  | handleResponse _ => ""

def chain : Registration Rq U Sm W → Chain Rq U Sm W
  | get _ onRequest => onRequest
  | put _ onRequest => onRequest
  | post _ onRequest => onRequest
  | delete_ _ onRequest => onRequest
  | notFound onAction => onAction
  | handleResponse onAction => onAction

def available (isRequest : Bool) : Registration Rq U Sm W → Bool
  | handleResponse _ => !isRequest
  | _ => isRequest

end Registration

structure Router where
  methodMap : ℕ
  deriving DecidableEq, Repr

namespace Router
variable {Rq U Sm W : Type}

def notFoundHandler (http : Http Rq Sm W) : Handler Rq U Sm W where
  type := .plain (.pointer (.function .bool false))
  result := .bool
  invocable := rfl
  body := .messageContext fun rq s =>
    (false, s.1,
      http.send (makeStringResponse 404 (http.version rq) "Not Found" "text/html") s.2)

def sampleRoute (path : String) :
    Registration (Verb × String) Unit Unit (List StringResponse) :=
  .get path ⟨[notFoundHandler .sample], by simp⟩

def addResource (r : Router) (path : String) (method : Verb) (storage : Storage Rq U Sm W)
    (heap : Heap Rq U Sm W) : Heap Rq U Sm W :=
  heap.update r.methodMap (MethodMap.addResource path method storage)

variable (order : ArgumentOrder) (r : Router)

def get (path : String) (onRequest : Chain Rq U Sm W) : Heap Rq U Sm W → Heap Rq U Sm W :=
  r.addResource path .get (.new order onRequest.1)

def put (path : String) (onRequest : Chain Rq U Sm W) : Heap Rq U Sm W → Heap Rq U Sm W :=
  r.addResource path .put (.new order onRequest.1)

def post (path : String) (onRequest : Chain Rq U Sm W) : Heap Rq U Sm W → Heap Rq U Sm W :=
  r.addResource path .post (.new order onRequest.1)

def delete_ (path : String) (onRequest : Chain Rq U Sm W) : Heap Rq U Sm W → Heap Rq U Sm W :=
  r.addResource path .delete_ (.new order onRequest.1)

def notFound (onAction : Chain Rq U Sm W) : Heap Rq U Sm W → Heap Rq U Sm W :=
  r.addResource "" .unknown (.new order onAction.1)

def handleResponse (onAction : Chain Rq U Sm W) : Heap Rq U Sm W → Heap Rq U Sm W :=
  r.addResource "" .unknown (.new order onAction.1)

def register (heap : Heap Rq U Sm W) : Registration Rq U Sm W → Heap Rq U Sm W
  | .get path onRequest => r.get order path onRequest heap
  | .put path onRequest => r.put order path onRequest heap
  | .post path onRequest => r.post order path onRequest heap
  | .delete_ path onRequest => r.delete_ order path onRequest heap
  | .notFound onAction => r.notFound order onAction heap
  | .handleResponse onAction => r.handleResponse order onAction heap

def new (http : Http Rq Sm W) (order : ArgumentOrder) (isRequest : Bool) (heap : Heap Rq U Sm W) :
    Router × Heap Rq U Sm W :=
  let r : Router := ⟨heap.maps.length⟩
  let heap : Heap Rq U Sm W := ⟨heap.maps ++ [∅]⟩
  (r, if isRequest then r.notFound order ⟨[notFoundHandler http], by simp⟩ heap else heap)

theorem register_eq (heap : Heap Rq U Sm W) (reg : Registration Rq U Sm W) :
    r.register order heap reg =
      r.addResource reg.path reg.method (.new order reg.chain.1) heap := by
  cases reg <;> rfl

def installed (http : Http Rq Sm W) (isRequest : Bool) (regs : List (Registration Rq U Sm W)) :
    List (Registration Rq U Sm W) :=
  if isRequest then .notFound ⟨[notFoundHandler http], by simp⟩ :: regs else regs

def lastRegistered (regs : List (Registration Rq U Sm W)) (method : Verb) (path : String) :
    Option (Chain Rq U Sm W) :=
  (regs.filter fun reg => reg.method = method ∧ reg.path = path).getLast?.map Registration.chain

theorem lastRegistered_append_singleton (regs : List (Registration Rq U Sm W))
    (reg : Registration Rq U Sm W) (method : Verb) (path : String) :
    lastRegistered (regs ++ [reg]) method path =
      if reg.method = method ∧ reg.path = path then some reg.chain
      else lastRegistered regs method path := by
  rw [lastRegistered, List.filter_append, List.filter_cons]
  split_ifs with hdec hkey hkey
  · simp
  · simp [hkey] at hdec
  · simp [hkey] at hdec
  · simp [lastRegistered]

theorem lastRegistered_cons (reg : Registration Rq U Sm W) (regs : List (Registration Rq U Sm W))
    (method : Verb) (path : String) :
    lastRegistered (reg :: regs) method path =
      (lastRegistered regs method path).or
        (if reg.method = method ∧ reg.path = path then some reg.chain else none) := by
  induction regs using List.reverseRecOn with
  | nil => exact lastRegistered_append_singleton [] reg method path
  | append_singleton regs last ih =>
    rw [← List.cons_append, lastRegistered_append_singleton, lastRegistered_append_singleton, ih]
    split_ifs <;> rfl

theorem lastRegistered_mem {regs : List (Registration Rq U Sm W)} {method : Verb} {path : String}
    {chain : Chain Rq U Sm W} (h : lastRegistered regs method path = some chain) :
    ∃ reg ∈ regs, reg.method = method ∧ reg.path = path ∧ reg.chain = chain := by
  obtain ⟨reg, hreg, hchain⟩ := Option.map_eq_some_iff.mp h
  have hmem := List.mem_filter.mp (List.mem_of_getLast? hreg)
  simp only [decide_eq_true_eq] at hmem
  exact ⟨reg, hmem.1, hmem.2.1, hmem.2.2, hchain⟩

theorem lastRegistered_isSome {regs : List (Registration Rq U Sm W)}
    {reg : Registration Rq U Sm W} (h : reg ∈ regs) :
    ∃ chain, lastRegistered regs reg.method reg.path = some chain := by
  have hmem : reg ∈ regs.filter fun r => r.method = reg.method ∧ r.path = reg.path := by
    simp [h]
  cases hlast : (regs.filter fun r => r.method = reg.method ∧ r.path = reg.path).getLast? with
  | none =>
    rw [List.getLast?_eq_none_iff.mp hlast] at hmem
    cases hmem
  | some last => exact ⟨last.chain, by rw [lastRegistered, hlast, Option.map_some]⟩

theorem length_register (heap : Heap Rq U Sm W) (reg : Registration Rq U Sm W) :
    (r.register order heap reg).maps.length = heap.maps.length := by
  rw [register_eq]
  exact Heap.length_update _ _ _

theorem length_registerAll (regs : List (Registration Rq U Sm W)) (heap : Heap Rq U Sm W) :
    (regs.foldl (r.register order) heap).maps.length = heap.maps.length := by
  induction regs using List.reverseRecOn with
  | nil => rfl
  | append_singleton regs reg ih => simp [length_register, ih]

theorem load_register {heap : Heap Rq U Sm W} (hp : r.methodMap < heap.maps.length)
    (reg : Registration Rq U Sm W) :
    (r.register order heap reg).load r.methodMap =
      MethodMap.addResource reg.path reg.method (.new order reg.chain.1)
        (heap.load r.methodMap) := by
  rw [register_eq, addResource, Heap.load_update _ hp]

theorem lookup_registerAll (regs : List (Registration Rq U Sm W)) {heap : Heap Rq U Sm W}
    (hp : r.methodMap < heap.maps.length) (method : Verb) :
    ((regs.foldl (r.register order) heap).load r.methodMap).lookup method =
      (((regs.filter fun reg => reg.method = method).foldl (r.register order) heap).load
        r.methodMap).lookup method := by
  have hlt (regs : List (Registration Rq U Sm W)) :
      r.methodMap < (regs.foldl (r.register order) heap).maps.length := by
    rw [length_registerAll]
    exact hp
  induction regs using List.reverseRecOn with
  | nil => rfl
  | append_singleton regs reg ih =>
    rw [List.foldl_append, List.foldl_cons, List.foldl_nil, load_register order r (hlt _),
      MethodMap.lookup_addResource, List.filter_append]
    by_cases hreg : reg.method = method
    · rw [if_pos hreg, List.filter_cons_of_pos (by simpa using hreg), List.filter_nil,
        List.foldl_append, List.foldl_cons, List.foldl_nil, load_register order r (hlt _),
        MethodMap.lookup_addResource, if_pos hreg, ih]
    · rw [if_neg hreg, List.filter_cons_of_neg (by simpa using hreg), List.filter_nil,
        List.append_nil, ih]

theorem find_registerAll (regs : List (Registration Rq U Sm W)) {heap : Heap Rq U Sm W}
    (hp : r.methodMap < heap.maps.length) (method : Verb) (path : String) :
    ((regs.foldl (r.register order) heap).load r.methodMap).find method path =
      ((lastRegistered regs method path).map fun chain => Storage.new order chain.1).or
        ((heap.load r.methodMap).find method path) := by
  induction regs using List.reverseRecOn with
  | nil => rfl
  | append_singleton regs reg ih =>
    have hp' : r.methodMap < (regs.foldl (r.register order) heap).maps.length := by
      rw [length_registerAll]
      exact hp
    rw [List.foldl_append, List.foldl_cons, List.foldl_nil, load_register order r hp',
      MethodMap.find_addResource, lastRegistered_append_singleton, ih]
    split_ifs <;> rfl

def notFoundChain (http : Http Rq Sm W) (regs : List (Registration Rq U Sm W)) : Chain Rq U Sm W :=
  (lastRegistered regs .unknown "").getD ⟨[notFoundHandler http], by simp⟩

theorem lastRegistered_installed_unknown (http : Http Rq Sm W)
    (regs : List (Registration Rq U Sm W)) :
    lastRegistered (installed http true regs) .unknown "" = some (notFoundChain http regs) := by
  rw [installed, if_pos rfl, lastRegistered_cons, notFoundChain]
  cases lastRegistered regs .unknown "" <;> rfl

theorem lastRegistered_installed_route (http : Http Rq Sm W) (isRequest : Bool)
    (regs : List (Registration Rq U Sm W)) {method : Verb} (h : method.isRoute = true)
    (path : String) :
    lastRegistered (installed http isRequest regs) method path =
      lastRegistered regs method path := by
  have hne : Verb.unknown ≠ method := by
    rintro rfl
    cases h
  unfold installed
  split_ifs
  · rw [lastRegistered_cons, if_neg fun hkey => hne hkey.1, Option.or_none]
  · rfl

end Router
end BeastRouter
