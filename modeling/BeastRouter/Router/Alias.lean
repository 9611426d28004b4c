import BeastRouter.Base.Dispatcher
import BeastRouter.Foundation.Transition

namespace BeastRouter

namespace Heap
variable {Rq U Sm W : Type}

theorem load_update_ne {p q : ℕ} (h : q ≠ p)
    (f : MethodMap Rq U Sm W → MethodMap Rq U Sm W) (heap : Heap Rq U Sm W) :
    (heap.update q f).load p = heap.load p := by
  simp [load, update, List.getElem?_modify_ne f heap.maps h]

theorem load_allocate {p : ℕ} {heap : Heap Rq U Sm W} (hp : p < heap.maps.length) :
    (⟨heap.maps ++ [∅]⟩ : Heap Rq U Sm W).load p = heap.load p := by
  simp [load, List.getElem?_append_left hp]

end Heap

namespace Router
variable {Rq U Sm W : Type}

theorem lastRegistered_append (xs ys : List (Registration Rq U Sm W)) (method : Verb)
    (path : String) :
    lastRegistered (xs ++ ys) method path =
      (lastRegistered ys method path).or (lastRegistered xs method path) := by
  induction ys using List.reverseRecOn with
  | nil => rw [List.append_nil]; rfl
  | append_singleton ys reg ih =>
    rw [← List.append_assoc, lastRegistered_append_singleton, lastRegistered_append_singleton, ih]
    split_ifs <;> rfl

end Router

-- A router as an object: two shared pointers. It has no move of its own (its destructor is
-- declared), so that whatever is made from it is a copy.
structure Handle where
  router : Router
  mutex : ℕ
  deriving DecidableEq, Repr

structure Registry (Rq U Sm W : Type) where
  heap : Heap Rq U Sm W
  mutexes : ℕ
  routers : List (Option Handle)
  dispatchers : List Handle

namespace Registry
variable {Rq U Sm W : Type} (http : Http Rq Sm W) (order : ArgumentOrder) (isRequest : Bool)

inductive Event (Rq U Sm W : Type) where
  | construct
  | copy (i : ℕ)
  | assign (i j : ℕ)
  | destroy (i : ℕ)
  | register (i : ℕ) (reg : Registration Rq U Sm W)
  | dispatcher (i : ℕ)

inductive Object where
  | router (i : ℕ)
  | dispatcher (i : ℕ)
  deriving DecidableEq, Repr

def empty : Registry Rq U Sm W := ⟨⟨[]⟩, 0, [], []⟩

def find (s : Registry Rq U Sm W) (i : ℕ) : Option Handle := s.routers[i]?.join

def handle (s : Registry Rq U Sm W) : Object → Option Handle
  | .router i => s.find i
  | .dispatcher i => s.dispatchers[i]?

def construct (s : Registry Rq U Sm W) : Registry Rq U Sm W :=
  let (router, heap) := Router.new http order isRequest s.heap
  { s with
    heap := heap
    mutexes := s.mutexes + 1
    routers := s.routers ++ [some ⟨router, s.mutexes⟩] }

def step (s : Registry Rq U Sm W) : Event Rq U Sm W → Option (Registry Rq U Sm W)
  | .construct => some (s.construct http order isRequest)
  | .copy i => (s.find i).map fun h => { s with routers := s.routers ++ [some h] }
  | .assign i j =>
    (s.find i).bind fun _ => (s.find j).map fun h => { s with routers := s.routers.set i (some h) }
  | .destroy i => (s.find i).map fun _ => { s with routers := s.routers.set i none }
  | .register i reg =>
    if reg.available isRequest then
      (s.find i).map fun h => { s with heap := h.router.register order s.heap reg }
    else none
  | .dispatcher i => (s.find i).map fun h => { s with dispatchers := s.dispatchers ++ [h] }

abbrev run (s : Registry Rq U Sm W) (es : List (Event Rq U Sm W)) :=
  Transition.run (step http order isRequest) s es

end Registry

structure Ancestry where
  constructed : ℕ
  routers : List (Option ℕ)
  dispatchers : List ℕ
  deriving DecidableEq, Repr

namespace Ancestry
open Registry (Event Object)
variable {Rq U Sm W : Type}

def empty : Ancestry := ⟨0, [], []⟩

def find (a : Ancestry) (i : ℕ) : Option ℕ := a.routers[i]?.join

def origin (a : Ancestry) : Object → Option ℕ
  | .router i => a.find i
  | .dispatcher i => a.dispatchers[i]?

def step (a : Ancestry) : Event Rq U Sm W → Ancestry
  | .construct =>
    { a with constructed := a.constructed + 1, routers := a.routers ++ [some a.constructed] }
  | .copy i => { a with routers := a.routers ++ [a.find i] }
  | .assign i j => { a with routers := a.routers.set i (a.find j) }
  | .destroy i => { a with routers := a.routers.set i none }
  | .register _ _ => a
  | .dispatcher i => { a with dispatchers := a.dispatchers ++ (a.find i).toList }

def given (n : ℕ) (a : Ancestry) : Event Rq U Sm W → List (Registration Rq U Sm W)
  | .register i reg => if a.find i = some n then [reg] else []
  | _ => []

def registered (n : ℕ) : Ancestry → List (Event Rq U Sm W) → List (Registration Rq U Sm W)
  | _, [] => []
  | a, e :: es => a.given n e ++ registered n (a.step e) es

end Ancestry

namespace Registry
variable {Rq U Sm W : Type} (http : Http Rq Sm W) (order : ArgumentOrder) (isRequest : Bool)

def original (n : ℕ) : Handle := ⟨⟨n⟩, n⟩

structure Follows (s : Registry Rq U Sm W) (a : Ancestry) : Prop where
  maps : s.heap.maps.length = a.constructed
  mutexes : s.mutexes = a.constructed
  routers : s.routers = a.routers.map (Option.map original)
  dispatchers : s.dispatchers = a.dispatchers.map original
  constructed : ∀ n, some n ∈ a.routers → n < a.constructed
  dispatched : ∀ n ∈ a.dispatchers, n < a.constructed

theorem follows_empty : (empty : Registry Rq U Sm W).Follows .empty :=
  ⟨rfl, rfl, rfl, rfl, nofun, nofun⟩

theorem Follows.origin_lt {s : Registry Rq U Sm W} {a : Ancestry} (hf : s.Follows a) {x : Object}
    {n : ℕ} (hn : a.origin x = some n) : n < a.constructed := by
  cases x with
  | router i => exact hf.constructed n (List.mem_of_getElem? (Option.join_eq_some_iff.mp hn))
  | dispatcher i => exact hf.dispatched n (List.mem_of_getElem? hn)

theorem Follows.find_eq {s : Registry Rq U Sm W} {a : Ancestry} (hf : s.Follows a) (i : ℕ) :
    s.find i = (a.find i).map original := by
  rw [find, Ancestry.find, hf.routers, List.getElem?_map]
  cases a.routers[i]? <;> rfl

theorem Follows.find_some {s : Registry Rq U Sm W} {a : Ancestry} (hf : s.Follows a) {i : ℕ}
    {h : Handle} (hi : s.find i = some h) :
    ∃ n, a.find i = some n ∧ h = original n ∧ n < a.constructed := by
  rw [hf.find_eq] at hi
  obtain ⟨n, hn, rfl⟩ := Option.map_eq_some_iff.mp hi
  exact ⟨n, hn, rfl, hf.origin_lt (x := .router i) hn⟩

theorem Follows.handle_eq {s : Registry Rq U Sm W} {a : Ancestry} (hf : s.Follows a)
    (x : Object) : s.handle x = (a.origin x).map original := by
  cases x with
  | router i => exact hf.find_eq i
  | dispatcher i => rw [handle, hf.dispatchers, List.getElem?_map, Ancestry.origin]

theorem length_construct (s : Registry Rq U Sm W) :
    (s.construct http order isRequest).heap.maps.length = s.heap.maps.length + 1 := by
  unfold construct Router.new
  split_ifs <;> simp [Router.notFound, Router.addResource, Heap.length_update]

theorem follows_step {s t : Registry Rq U Sm W} {a : Ancestry} (hf : s.Follows a)
    {e : Event Rq U Sm W} (h : s.step http order isRequest e = some t) : t.Follows (a.step e) := by
  have hset {routers : List (Option ℕ)}
      (hrouters : ∀ n, some n ∈ routers → some n ∈ a.routers) (n : ℕ)
      (hn : some n ∈ routers) : n < a.constructed := hf.constructed n (hrouters n hn)
  have hold {i n : ℕ} (hi : a.find i = some n) : some n ∈ a.routers :=
    List.mem_of_getElem? (Option.join_eq_some_iff.mp hi)
  cases e with
  | construct =>
    obtain rfl := Option.some.inj h
    refine ⟨?_, congrArg (· + 1) hf.mutexes, ?_, hf.dispatchers,
      fun n hn => ?_, fun n hn => ?_⟩
    · rw [length_construct, hf.maps]
      rfl
    · have hnew : (s.construct http order isRequest).routers =
          s.routers ++ [some ⟨⟨s.heap.maps.length⟩, s.mutexes⟩] := rfl
      rw [hnew, hf.maps, hf.mutexes, hf.routers, Ancestry.step, List.map_append]
      rfl
    · rcases List.mem_append.mp hn with hn | hn
      · exact Nat.lt_succ_of_lt (hf.constructed n hn)
      · obtain rfl := Option.some.inj (List.mem_singleton.mp hn)
        exact Nat.lt_succ_self _
    · exact Nat.lt_succ_of_lt (hf.dispatched n hn)
  | copy i =>
    obtain ⟨r, hr, rfl⟩ := Option.map_eq_some_iff.mp h
    obtain ⟨n, hn, rfl, -⟩ := hf.find_some hr
    refine ⟨hf.maps, hf.mutexes, ?_, hf.dispatchers, hset fun m hm => ?_, hf.dispatched⟩
    · simp [Ancestry.step, hf.routers, hn]
    · rcases List.mem_append.mp hm with hm | hm
      · exact hm
      · exact hold (List.mem_singleton.mp hm).symm
  | assign i j =>
    obtain ⟨-, -, h⟩ := Option.bind_eq_some_iff.mp h
    obtain ⟨r, hr, rfl⟩ := Option.map_eq_some_iff.mp h
    obtain ⟨n, hn, rfl, -⟩ := hf.find_some hr
    refine ⟨hf.maps, hf.mutexes, ?_, hf.dispatchers, hset fun m hm => ?_, hf.dispatched⟩
    · simp [Ancestry.step, hf.routers, hn, List.map_set]
    · rcases List.mem_or_eq_of_mem_set hm with hm | hm
      · exact hm
      · exact hold hm.symm
  | destroy i =>
    obtain ⟨r, hr, rfl⟩ := Option.map_eq_some_iff.mp h
    refine ⟨hf.maps, hf.mutexes, ?_, hf.dispatchers, hset fun m hm => ?_, hf.dispatched⟩
    · simp [Ancestry.step, hf.routers, List.map_set]
    · rcases List.mem_or_eq_of_mem_set hm with hm | hm
      · exact hm
      · cases hm
  | register i reg =>
    simp only [step, Option.ite_none_right_eq_some] at h
    obtain ⟨r, hr, rfl⟩ := Option.map_eq_some_iff.mp h.2
    refine ⟨?_, hf.mutexes, hf.routers, hf.dispatchers, hf.constructed, hf.dispatched⟩
    rw [Router.length_register]
    exact hf.maps
  | dispatcher i =>
    obtain ⟨r, hr, rfl⟩ := Option.map_eq_some_iff.mp h
    obtain ⟨n, hn, rfl, hlt⟩ := hf.find_some hr
    refine ⟨hf.maps, hf.mutexes, hf.routers, ?_, hf.constructed, fun m hm => ?_⟩
    · simp [Ancestry.step, hf.dispatchers, hn]
    · rw [Ancestry.step, hn] at hm
      rcases List.mem_append.mp hm with hm | hm
      · exact hf.dispatched m hm
      · exact List.mem_singleton.mp hm ▸ hlt

theorem follows_run {s t : Registry Rq U Sm W} {a : Ancestry} (hf : s.Follows a)
    {es : List (Event Rq U Sm W)} (hr : run http order isRequest s es = some t) :
    t.Follows (es.foldl Ancestry.step a) := by
  induction es generalizing s a with
  | nil => exact Option.some.inj hr ▸ hf
  | cons e es ih =>
    obtain ⟨u, hu, hrest⟩ := Transition.run_cons.mp hr
    exact ih (follows_step http order isRequest hf hu) hrest

abbrev entryOf (regs : List (Registration Rq U Sm W)) (method : Verb) (path : String) :
    Option (Storage Rq U Sm W) :=
  (Router.lastRegistered regs method path).map fun chain => Storage.new order chain.1

theorem entryOf_append (regs regs' : List (Registration Rq U Sm W)) (method : Verb)
    (path : String) :
    entryOf order (regs ++ regs') method path =
      (entryOf order regs' method path).or (entryOf order regs method path) := by
  rw [entryOf, Router.lastRegistered_append, Option.map_or]

theorem load_construct_lt {s : Registry Rq U Sm W} {p : ℕ} (hp : p < s.heap.maps.length) :
    (s.construct http order isRequest).heap.load p = s.heap.load p := by
  have hne : s.heap.maps.length ≠ p := (Nat.ne_of_lt hp).symm
  unfold construct Router.new
  split_ifs
  · exact (Heap.load_update_ne hne _ _).trans (Heap.load_allocate hp)
  · exact Heap.load_allocate hp

theorem find_construct (s : Registry Rq U Sm W) (method : Verb) (path : String) :
    ((s.construct http order isRequest).heap.load s.heap.maps.length).find method path =
      entryOf order (Router.installed http isRequest []) method path :=
  Dispatcher.find_deployed http order isRequest s.heap [] [] method path

theorem find_step {s t : Registry Rq U Sm W} {a : Ancestry} (hf : s.Follows a)
    {e : Event Rq U Sm W} (h : s.step http order isRequest e = some t) {n : ℕ}
    (hn : n < a.constructed) (method : Verb) (path : String) :
    (t.heap.load n).find method path =
      (entryOf order (a.given n e) method path).or ((s.heap.load n).find method path) := by
  cases e with
  | construct =>
    obtain rfl := Option.some.inj h
    rw [load_construct_lt http order isRequest (hf.maps ▸ hn)]
    rfl
  | copy i | destroy i | dispatcher i =>
    obtain ⟨r, hr, rfl⟩ := Option.map_eq_some_iff.mp h
    rfl
  | assign i j =>
    obtain ⟨-, -, h⟩ := Option.bind_eq_some_iff.mp h
    obtain ⟨r, hr, rfl⟩ := Option.map_eq_some_iff.mp h
    rfl
  | register i reg =>
    simp only [step, Option.ite_none_right_eq_some] at h
    obtain ⟨r, hr, rfl⟩ := Option.map_eq_some_iff.mp h.2
    obtain ⟨m, hm, rfl, hlt⟩ := hf.find_some hr
    simp only [Ancestry.given, hm, Option.some.injEq]
    split_ifs with hkey
    · subst hkey
      have hone := Router.lastRegistered_append_singleton [] reg method path
      rw [List.nil_append] at hone
      have hload : ((original m).router.register order s.heap reg).load m =
          (s.heap.load m).addResource reg.path reg.method (Storage.new order reg.chain.1) :=
        Router.load_register order (original m).router (hf.maps ▸ hlt) reg
      rw [hload, MethodMap.find_addResource, entryOf, hone]
      split_ifs <;> rfl
    · have hload : ((original m).router.register order s.heap reg).load n = s.heap.load n := by
        rw [Router.register_eq, Router.addResource]
        exact Heap.load_update_ne hkey _ _
      rw [hload]
      rfl

theorem given_unconstructed {s : Registry Rq U Sm W} {a : Ancestry} (hf : s.Follows a) {n : ℕ}
    (hn : a.constructed ≤ n) (e : Event Rq U Sm W) : a.given n e = [] := by
  cases e with
  | register i reg =>
    refine if_neg fun hi => ?_
    have hlt := hf.origin_lt (x := .router i) hi
    omega
  | _ => rfl

theorem find_run {s t : Registry Rq U Sm W} {a : Ancestry} (hf : s.Follows a)
    {es : List (Event Rq U Sm W)} (hr : run http order isRequest s es = some t) {n : ℕ}
    (hn : n < (es.foldl Ancestry.step a).constructed) (method : Verb) (path : String) :
    (t.heap.load n).find method path =
      (entryOf order (a.registered n es) method path).or
        (if n < a.constructed then (s.heap.load n).find method path
        else entryOf order (Router.installed http isRequest []) method path) := by
  induction es generalizing s a with
  | nil =>
    obtain rfl := Option.some.inj hr
    exact (if_pos (show n < a.constructed from hn)).symm
  | cons e es ih =>
    obtain ⟨u, hu, hrest⟩ := Transition.run_cons.mp hr
    have hf' := follows_step http order isRequest hf hu
    rw [ih hf' hrest hn, Ancestry.registered, entryOf_append, Option.or_assoc]
    congr 1
    rcases Nat.lt_or_ge n a.constructed with hlt | hge
    · have hlt' : n < (a.step e).constructed := by
        cases e with
        | construct => exact Nat.lt_succ_of_lt hlt
        | _ => exact hlt
      rw [if_pos hlt, if_pos hlt', find_step http order isRequest hf hu hlt]
    · rw [given_unconstructed hf hge e, if_neg (Nat.not_lt.mpr hge)]
      split_ifs with hnew
      · cases e with
        | construct =>
          obtain rfl := Option.some.inj hu
          obtain rfl : n = s.heap.maps.length := by
            rw [hf.maps]
            exact Nat.le_antisymm (Nat.le_of_lt_succ hnew) hge
          exact find_construct http order isRequest s method path
        | _ => exact absurd hnew (Nat.not_lt.mpr hge)
      · rfl

theorem aliases_share (es : List (Event Rq U Sm W)) (t : Registry Rq U Sm W)
    (hr : run http order isRequest empty es = some t) :
    let a := es.foldl Ancestry.step Ancestry.empty
    (∀ x, (t.handle x).isSome = (a.origin x).isSome) ∧
      (∀ x y h h', t.handle x = some h → t.handle y = some h' →
        (h.router = h'.router ↔ a.origin x = a.origin y) ∧
          (h.mutex = h'.mutex ↔ a.origin x = a.origin y)) ∧
      ∀ x h n, t.handle x = some h → a.origin x = some n → ∀ method path,
        (t.heap.load h.router.methodMap).find method path =
          (Router.lastRegistered (Router.installed http isRequest
            (Ancestry.registered n .empty es)) method path).map fun chain =>
              Storage.new order chain.1 := by
  intro a
  have hf : t.Follows a := follows_run http order isRequest follows_empty hr
  refine ⟨fun x => by rw [hf.handle_eq, Option.isSome_map], ?_, ?_⟩
  · intro x y h h' hx hy
    rw [hf.handle_eq] at hx hy
    obtain ⟨n, hn, rfl⟩ := Option.map_eq_some_iff.mp hx
    obtain ⟨m, hm, rfl⟩ := Option.map_eq_some_iff.mp hy
    rw [hn, hm, Option.some.injEq]
    exact ⟨⟨congrArg Router.methodMap, congrArg Router.mk⟩, Iff.rfl⟩
  · intro x h n hx hn method path
    rw [hf.handle_eq, hn] at hx
    obtain rfl := Option.some.inj hx
    have hnone : ¬n < Ancestry.empty.constructed := Nat.not_lt_zero _
    have hfind := find_run http order isRequest follows_empty hr (hf.origin_lt hn) method path
    rw [if_neg hnone, ← entryOf_append] at hfind
    refine hfind.trans ?_
    cases isRequest <;> rfl

theorem aliases_share_destroyed :
    ∃ (t : Registry (Verb × String) Unit Unit (List StringResponse)) (h h' : Handle),
      run .sample .leftToRight true empty
          [.construct, .dispatcher 0, .copy 0, .destroy 0,
            .register 1 (Router.sampleRoute "/a"), .construct] = some t ∧
        t.handle (.router 0) = none ∧ t.handle (.router 1) = some h ∧
        t.handle (.dispatcher 0) = some h' ∧ h.router = h'.router ∧
        (t.heap.load h'.router.methodMap).find .get "/a" =
          some (Storage.new .leftToRight [Router.notFoundHandler .sample]) := by
  refine ⟨_, _, _, rfl, rfl, rfl, rfl, ?_⟩
  obtain ⟨-, hsame, htable⟩ := aliases_share (U := Unit) .sample .leftToRight true
    [.construct, .dispatcher 0, .copy 0, .destroy 0, .register 1 (Router.sampleRoute "/a"),
      .construct] _ rfl
  constructor
  · exact (hsame (.router 1) (.dispatcher 0) _ _ rfl rfl).1.mpr rfl
  · exact (htable (.dispatcher 0) _ 0 rfl rfl .get "/a").trans rfl

end Registry
end BeastRouter
