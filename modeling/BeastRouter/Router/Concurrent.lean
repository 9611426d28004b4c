import Mathlib.Logic.Function.Basic
import BeastRouter.Base.Dispatcher
import BeastRouter.Foundation.RwLock

namespace BeastRouter
open RwLock (Lock)

structure Deployment (Rq U Sm W : Type) where
  http : Http Rq Sm W
  order : ArgumentOrder
  iteration : IterationOrder Rq U Sm W
  isRequest : Bool
  base : Heap Rq U Sm W

structure Visit (Rq U Sm W : Type) where
  method : Verb
  path : String
  storage : Storage Rq U Sm W
  sm : Sm

-- A call of `do_process_request` under its lock. `before` are the registrations that had entered
-- the lock for writing before it, and `position` is how far the loop is.
structure Progress (Rq U Sm W : Type) where
  request : Rq
  before : List (Registration Rq U Sm W)
  position : ℕ
  dispatch : Dispatch Rq U Sm W

-- The calls that a thread is in. `fallback` tells the not-found chain from a resource's.
inductive Frame (Rq U Sm W : Type) where
  | addResource (reg : Registration Rq U Sm W)
  | update (reg : Registration Rq U Sm W)
  | leaveWrite
  | processRequest (request : Rq)
  | loop (p : Progress Rq U Sm W)
  | chain (p : Progress Rq U Sm W) (v : Visit Rq U Sm W) (fallback : Bool)
  | leaveRead (p : Progress Rq U Sm W)

namespace Frame
variable {Rq U Sm W : Type}

def progress : Frame Rq U Sm W → Option (Progress Rq U Sm W)
  | loop p => some p
  | chain p _ _ => some p
  | leaveRead p => some p
  | _ => none

def isReading (frame : Frame Rq U Sm W) : Bool := frame.progress.isSome

def isWriting : Frame Rq U Sm W → Bool
  | update _ => true
  | leaveWrite => true
  | _ => false

def isRegistration : Frame Rq U Sm W → Bool
  | addResource _ => true
  | update _ => true
  | leaveWrite => true
  | _ => false

def waiting : Frame Rq U Sm W → Option (Registration Rq U Sm W)
  | addResource reg => some reg
  | _ => none

def pending : Frame Rq U Sm W → Option (Registration Rq U Sm W)
  | update reg => some reg
  | _ => none

end Frame

structure System (T Rq U Sm W : Type) where
  heap : Heap Rq U Sm W
  lock : Lock T
  world : W
  threads : T → List (Frame Rq U Sm W)
  log : List (T × Registration Rq U Sm W)
  done : List (T × Progress Rq U Sm W)

inductive Operation (Rq U Sm W : Type) where
  | register (reg : Registration Rq U Sm W)
  | processRequest (request : Rq)

namespace Operation
variable {Rq U Sm W : Type}

def frame : Operation Rq U Sm W → Frame Rq U Sm W
  | register reg => .addResource reg
  | processRequest request => .processRequest request

end Operation

namespace System
variable {T Rq U Sm W : Type}

inductive Event (T Rq U Sm W : Type) where
  | call (t : T) (op : Operation Rq U Sm W)
  | handlerRegisters (t : T) (reg : Registration Rq U Sm W)
  | lock (t : T)
  | update (t : T)
  | visit (t : T)
  | runChain (t : T)
  | unlock (t : T)

variable (D : Deployment Rq U Sm W)

def router : Router := (Router.new D.http D.order D.isRequest D.base).1

def dispatcher : Dispatcher := Dispatcher.new (router D)

def table (heap : Heap Rq U Sm W) : MethodMap Rq U Sm W := heap.load (dispatcher D).methodMap

def init (w : W) : System T Rq U Sm W where
  heap := (Router.new D.http D.order D.isRequest D.base).2
  lock := .free
  world := w
  threads _ := []
  log := []
  done := []

def resources (map : MethodMap Rq U Sm W) (request : Rq) :
    List (Σ _ : String, Storage Rq U Sm W) :=
  if D.isRequest then Dispatcher.visited D.iteration map (D.http.method request) else []

def enterToRead (t : T) (request : Rq) (s : System T Rq U Sm W) :
    Option (Lock T × Progress Rq U Sm W) :=
  (s.lock.lockShared t).map fun l =>
    (l, ⟨request, s.log.map Prod.snd, 0, ⟨[], false, s.world, none⟩⟩)

def enterToWrite (t : T) (s : System T Rq U Sm W) : Option (Lock T) := s.lock.lock t

def nextResource (map : MethodMap Rq U Sm W) (p : Progress Rq U Sm W) :
    Option (Frame Rq U Sm W) :=
  match (resources D map p.request)[p.position]? with
  | some val =>
    match D.http.regex val.1 with
    | none => some (.leaveRead { p with dispatch := { p.dispatch with regexError := some val.1 } })
    | some re =>
      match re (D.http.target p.request) with
      | none => some (.loop { p with position := p.position + 1 })
      | some sm => some (.chain p ⟨D.http.method p.request, val.1, val.2, sm⟩ false)
  | none =>
    if p.dispatch.isHandled then some (.leaveRead p)
    else
      (map.lookup .unknown).map fun resourceMap =>
        match resourceMap.lookup "" with
        | none => .leaveRead p
        | some storage => .chain p ⟨.unknown, "", storage, D.http.emptyMatch⟩ true

def ran (w : W) (p : Progress Rq U Sm W) (v : Visit Rq U Sm W) : Dispatch Rq U Sm W :=
  Dispatcher.enter p.request v.method v.path v.storage v.sm { p.dispatch with world := w }

def afterChain (p : Progress Rq U Sm W) (fallback : Bool) (d : Dispatch Rq U Sm W) :
    Frame Rq U Sm W :=
  if fallback then .leaveRead { p with dispatch := d }
  else .loop { p with position := p.position + 1, dispatch := d }

variable [DecidableEq T]

def setFrames (t : T) (frames : List (Frame Rq U Sm W)) (s : System T Rq U Sm W) :
    System T Rq U Sm W :=
  { s with threads := Function.update s.threads t frames }

@[simp] theorem threads_self (t : T) (frames : List (Frame Rq U Sm W)) (s : System T Rq U Sm W) :
    (s.setFrames t frames).threads t = frames := by
  simp [setFrames]

theorem threads_other {t u : T} (h : u ≠ t) (frames : List (Frame Rq U Sm W))
    (s : System T Rq U Sm W) : (s.setFrames t frames).threads u = s.threads u := by
  simp [setFrames, h]

def step (s : System T Rq U Sm W) : Event T Rq U Sm W → Option (System T Rq U Sm W)
  | .call t op =>
    match s.threads t with
    | [] => some (s.setFrames t [op.frame])
    | _ => none
  | .handlerRegisters t reg =>
    match s.threads t with
    | .chain p v fallback :: frames =>
      some (s.setFrames t (.addResource reg :: .chain p v fallback :: frames))
    | _ => none
  | .lock t =>
    match s.threads t with
    | .addResource reg :: frames =>
      (s.enterToWrite t).map fun l =>
        setFrames t (.update reg :: frames) { s with lock := l, log := s.log ++ [(t, reg)] }
    | .processRequest request :: frames =>
      (s.enterToRead t request).map fun (l, p) =>
        setFrames t (.loop p :: frames) { s with lock := l }
    | _ => none
  | .update t =>
    match s.threads t with
    | .update reg :: frames =>
      some (setFrames t (.leaveWrite :: frames)
        { s with heap := (router D).register D.order s.heap reg })
    | _ => none
  | .visit t =>
    match s.threads t with
    | .loop p :: frames =>
      (nextResource D (table D s.heap) p).map fun frame => s.setFrames t (frame :: frames)
    | _ => none
  | .runChain t =>
    match s.threads t with
    | .chain p v fallback :: frames =>
      some (setFrames t (afterChain p fallback (ran s.world p v) :: frames)
        { s with world := (ran s.world p v).world })
    | _ => none
  | .unlock t =>
    match s.threads t with
    | .leaveWrite :: frames =>
      (s.lock.unlock t).map fun l => setFrames t frames { s with lock := l }
    | .leaveRead p :: frames =>
      (s.lock.unlockShared t).map fun l =>
        setFrames t frames { s with lock := l, done := s.done ++ [(t, p)] }
    | _ => none

abbrev run := Transition.run (step (T := T) D)

inductive Moves (s : System T Rq U Sm W) : Event T Rq U Sm W → System T Rq U Sm W → Prop where
  | call (t : T) (op : Operation Rq U Sm W) (ht : s.threads t = []) :
    Moves s (.call t op) (s.setFrames t [op.frame])
  | handlerRegisters (t : T) (reg : Registration Rq U Sm W) (p : Progress Rq U Sm W)
    (v : Visit Rq U Sm W) (fallback : Bool) (frames : List (Frame Rq U Sm W))
    (ht : s.threads t = .chain p v fallback :: frames) :
    Moves s (.handlerRegisters t reg)
      (s.setFrames t (.addResource reg :: .chain p v fallback :: frames))
  | lockWrite (t : T) (reg : Registration Rq U Sm W) (frames : List (Frame Rq U Sm W))
    (ht : s.threads t = .addResource reg :: frames) (hwriter : s.lock.writer = none)
    (hreaders : s.lock.readers = []) :
    Moves s (.lock t) (setFrames t (.update reg :: frames)
      { s with lock := { s.lock with writer := some t }, log := s.log ++ [(t, reg)] })
  | lockRead (t : T) (request : Rq) (frames : List (Frame Rq U Sm W))
    (ht : s.threads t = .processRequest request :: frames) (hwriter : s.lock.writer = none) :
    Moves s (.lock t) (setFrames t
      (.loop ⟨request, s.log.map Prod.snd, 0, ⟨[], false, s.world, none⟩⟩ :: frames)
      { s with lock := { s.lock with readers := t :: s.lock.readers } })
  | update (t : T) (reg : Registration Rq U Sm W) (frames : List (Frame Rq U Sm W))
    (ht : s.threads t = .update reg :: frames) :
    Moves s (.update t) (setFrames t (.leaveWrite :: frames)
      { s with heap := (router D).register D.order s.heap reg })
  | visit (t : T) (p : Progress Rq U Sm W) (frame : Frame Rq U Sm W)
    (frames : List (Frame Rq U Sm W)) (ht : s.threads t = .loop p :: frames)
    (hnext : nextResource D (table D s.heap) p = some frame) :
    Moves s (.visit t) (s.setFrames t (frame :: frames))
  | runChain (t : T) (p : Progress Rq U Sm W) (v : Visit Rq U Sm W) (fallback : Bool)
    (frames : List (Frame Rq U Sm W)) (ht : s.threads t = .chain p v fallback :: frames) :
    Moves s (.runChain t) (setFrames t (afterChain p fallback (ran s.world p v) :: frames)
      { s with world := (ran s.world p v).world })
  | unlockWrite (t : T) (frames : List (Frame Rq U Sm W))
    (ht : s.threads t = .leaveWrite :: frames) (hwriter : s.lock.writer = some t) :
    Moves s (.unlock t) (setFrames t frames { s with lock := { s.lock with writer := none } })
  | unlockRead (t : T) (p : Progress Rq U Sm W) (frames : List (Frame Rq U Sm W))
    (ht : s.threads t = .leaveRead p :: frames) (hreader : t ∈ s.lock.readers) :
    Moves s (.unlock t) (setFrames t frames
      { s with
        lock := { s.lock with readers := s.lock.readers.erase t }
        done := s.done ++ [(t, p)] })

theorem moves_of_step {s s' : System T Rq U Sm W} {e : Event T Rq U Sm W}
    (h : s.step D e = some s') : Moves D s e s' := by
  cases e with
  | call t op =>
    simp only [step] at h
    split at h
    · next ht => exact Option.some.inj h ▸ .call t op ht
    · cases h
  | handlerRegisters t reg =>
    simp only [step] at h
    split at h
    · next p v fallback frames ht =>
      exact Option.some.inj h ▸ .handlerRegisters t reg p v fallback frames ht
    · cases h
  | lock t =>
    simp only [step] at h
    split at h
    · next reg frames ht =>
      obtain ⟨l, hl, rfl⟩ := Option.map_eq_some_iff.mp h
      obtain ⟨hwriter, hreaders, rfl⟩ := Lock.lock_eq hl
      exact .lockWrite t reg frames ht hwriter hreaders
    · next request frames ht =>
      obtain ⟨⟨l, p⟩, hlock, rfl⟩ := Option.map_eq_some_iff.mp h
      obtain ⟨l', hl, heq⟩ := Option.map_eq_some_iff.mp hlock
      obtain ⟨rfl, rfl⟩ := Prod.mk.inj heq
      obtain ⟨hwriter, rfl⟩ := Lock.lockShared_eq hl
      exact .lockRead t request frames ht hwriter
    · cases h
  | update t =>
    simp only [step] at h
    split at h
    · next reg frames ht => exact Option.some.inj h ▸ .update t reg frames ht
    · cases h
  | visit t =>
    simp only [step] at h
    split at h
    · next p frames ht =>
      obtain ⟨frame, hnext, rfl⟩ := Option.map_eq_some_iff.mp h
      exact .visit t p frame frames ht hnext
    · cases h
  | runChain t =>
    simp only [step] at h
    split at h
    · next p v fallback frames ht =>
      exact Option.some.inj h ▸ .runChain t p v fallback frames ht
    · cases h
  | unlock t =>
    simp only [step] at h
    split at h
    · next frames ht =>
      obtain ⟨l, hl, rfl⟩ := Option.map_eq_some_iff.mp h
      obtain ⟨hwriter, rfl⟩ := Lock.unlock_eq hl
      exact .unlockWrite t frames ht hwriter
    · next p frames ht =>
      obtain ⟨l, hl, rfl⟩ := Option.map_eq_some_iff.mp h
      obtain ⟨hreader, rfl⟩ := Lock.unlockShared_eq hl
      exact .unlockRead t p frames ht hreader
    · cases h

inductive Stacked : List (Frame Rq U Sm W) → Prop where
  | idle : Stacked []
  | single (frame : Frame Rq U Sm W) : Stacked [frame]
  | nested (frame : Frame Rq U Sm W) (p : Progress Rq U Sm W) (v : Visit Rq U Sm W)
    (fallback : Bool) (hframe : frame.isRegistration = true) :
    Stacked [frame, .chain p v fallback]

structure Sound (s : System T Rq U Sm W) : Prop where
  allocated : (router D).methodMap < s.heap.maps.length
  exclusive : s.lock.Exclusive
  stacked : ∀ t, Stacked (s.threads t)
  reading : ∀ t, (s.threads t).countP Frame.isReading = s.lock.readers.count t
  writing : ∀ t, ((s.threads t).any Frame.isWriting = true) ↔ s.lock.writer = some t

theorem sound_init (w : W) : (init D w : System T Rq U Sm W).Sound D where
  allocated := by
    simp only [init, router, Router.new]
    split_ifs
    · simp [Router.notFound, Router.addResource, Heap.length_update]
    · simp
  exclusive := fun _ => rfl
  stacked := fun _ => .idle
  reading := fun _ => rfl
  writing := fun t => by simp [init, Lock.free]

theorem sound_setFrames {s s' : System T Rq U Sm W} {t : T} {frames : List (Frame Rq U Sm W)}
    (hs : s.Sound D) (hheap : s'.heap.maps.length = s.heap.maps.length)
    (hthreads : s'.threads = Function.update s.threads t frames)
    (hexclusive : s'.lock.Exclusive) (hstacked : Stacked frames)
    (hreading : frames.countP Frame.isReading = s'.lock.readers.count t)
    (hwriting : frames.any Frame.isWriting = true ↔ s'.lock.writer = some t)
    (hothers : ∀ u, u ≠ t → s'.lock.readers.count u = s.lock.readers.count u ∧
      (s'.lock.writer = some u ↔ s.lock.writer = some u)) : s'.Sound D where
  allocated := hheap ▸ hs.allocated
  exclusive := hexclusive
  stacked := by
    rw [hthreads]
    exact (Function.forall_update_iff _ fun _ => Stacked).mpr
      ⟨hstacked, fun u _ => hs.stacked u⟩
  reading := by
    rw [hthreads]
    refine (Function.forall_update_iff _ fun u (frames : List (Frame Rq U Sm W)) =>
      frames.countP Frame.isReading = s'.lock.readers.count u).mpr ⟨hreading, ?_⟩
    exact fun u hu => (hs.reading u).trans (hothers u hu).1.symm
  writing := by
    rw [hthreads]
    refine (Function.forall_update_iff _ fun u (frames : List (Frame Rq U Sm W)) =>
      frames.any Frame.isWriting = true ↔ s'.lock.writer = some u).mpr ⟨hwriting, ?_⟩
    exact fun u hu => (hs.writing u).trans (hothers u hu).2.symm

theorem Stacked.pop {frame : Frame Rq U Sm W} {frames : List (Frame Rq U Sm W)}
    (h : Stacked (frame :: frames)) : Stacked frames := by
  cases h with
  | single frame => exact .idle
  | nested frame p v fallback => exact .single _

theorem Stacked.bottom {frame : Frame Rq U Sm W} {frames : List (Frame Rq U Sm W)}
    (h : Stacked (frame :: frames)) (hframe : frame.isRegistration = false) : frames = [] := by
  cases h with
  | single frame => rfl
  | nested frame p v fallback hregistration => simp [hregistration] at hframe

theorem Stacked.swap {frame frame' : Frame Rq U Sm W} {frames : List (Frame Rq U Sm W)}
    (h : Stacked (frame :: frames)) (hframe' : frame'.isRegistration = true) :
    Stacked (frame' :: frames) := by
  cases h with
  | single frame => exact .single frame'
  | nested frame p v fallback => exact .nested frame' p v fallback hframe'

theorem Stacked.rest {frame : Frame Rq U Sm W} {frames : List (Frame Rq U Sm W)}
    (h : Stacked (frame :: frames)) : frames.any Frame.isWriting = false := by
  cases h with
  | single frame => rfl
  | nested frame p v fallback => rfl

theorem reading_nextResource {map : MethodMap Rq U Sm W} {p : Progress Rq U Sm W}
    {frame : Frame Rq U Sm W} (h : nextResource D map p = some frame) :
    frame.isReading = true ∧ frame.isWriting = false ∧
      frame.progress.map Progress.before = some p.before := by
  unfold nextResource at h
  split at h
  · split at h
    · exact Option.some.inj h ▸ ⟨rfl, rfl, rfl⟩
    · split at h
      · exact Option.some.inj h ▸ ⟨rfl, rfl, rfl⟩
      · exact Option.some.inj h ▸ ⟨rfl, rfl, rfl⟩
  · split_ifs at h
    · exact Option.some.inj h ▸ ⟨rfl, rfl, rfl⟩
    · obtain ⟨resourceMap, -, rfl⟩ := Option.map_eq_some_iff.mp h
      split
      · exact ⟨rfl, rfl, rfl⟩
      · exact ⟨rfl, rfl, rfl⟩

theorem length_table (heap : Heap Rq U Sm W) (reg : Registration Rq U Sm W) :
    ((router D).register D.order heap reg).maps.length = heap.maps.length :=
  Router.length_register D.order (router D) heap reg

theorem Sound.of_threads {s : System T Rq U Sm W} (hs : s.Sound D) {t : T}
    {frames : List (Frame Rq U Sm W)} (ht : s.threads t = frames) :
    Stacked frames ∧ frames.countP Frame.isReading = s.lock.readers.count t ∧
      (frames.any Frame.isWriting = true ↔ s.lock.writer = some t) :=
  ht ▸ ⟨hs.stacked t, hs.reading t, hs.writing t⟩

theorem sound_replace {s s' : System T Rq U Sm W} {t : T} {frame frame' : Frame Rq U Sm W}
    {frames : List (Frame Rq U Sm W)} (hs : s.Sound D) (ht : s.threads t = frame :: frames)
    (hheap : s'.heap.maps.length = s.heap.maps.length) (hlock : s'.lock = s.lock)
    (hthreads : s'.threads = Function.update s.threads t (frame' :: frames))
    (hreading : frame'.isReading = frame.isReading)
    (hwriting : frame'.isWriting = frame.isWriting) (hstacked : Stacked (frame' :: frames)) :
    s'.Sound D := by
  obtain ⟨-, hreads, hwrites⟩ := hs.of_threads D ht
  refine sound_setFrames D hs hheap hthreads (hlock ▸ hs.exclusive) hstacked ?_ ?_ ?_
  · rw [hlock, ← hreads, List.countP_cons, List.countP_cons, hreading]
  · rw [hlock, ← hwrites, List.any_cons, List.any_cons, hwriting]
  · intro u _
    rw [hlock]
    exact ⟨rfl, Iff.rfl⟩

theorem sound_step (s : System T Rq U Sm W) (e : Event T Rq U Sm W) (s' : System T Rq U Sm W)
    (hs : s.Sound D) (h : s.step D e = some s') : s'.Sound D := by
  cases moves_of_step D h with
  | call t op ht =>
    obtain ⟨-, hreads, hwrites⟩ := hs.of_threads D ht
    refine sound_setFrames D hs rfl rfl hs.exclusive (.single _) ?_ ?_ fun u _ => ⟨rfl, Iff.rfl⟩
    · cases op <;> exact hreads
    · cases op <;> exact hwrites
  | handlerRegisters t reg p v fallback frames ht =>
    obtain ⟨hstacked, hreads, hwrites⟩ := hs.of_threads D ht
    obtain rfl := hstacked.bottom rfl
    refine sound_setFrames D hs rfl rfl hs.exclusive (.nested _ p v fallback rfl) ?_ ?_
      fun u _ => ⟨rfl, Iff.rfl⟩
    · exact hreads
    · exact hwrites
  | lockWrite t reg frames ht hwriter hreaders =>
    obtain ⟨hstacked, hreads, -⟩ := hs.of_threads D ht
    refine sound_setFrames D hs rfl rfl (fun hne => absurd hreaders hne) (hstacked.swap rfl) ?_ ?_
      fun u hu => ⟨rfl, ?_⟩
    · exact hreads
    · exact iff_of_true rfl rfl
    · rw [hwriter]
      exact iff_of_false (fun h => hu (Option.some.inj h).symm) (Option.some_ne_none u).symm
  | lockRead t request frames ht hwriter =>
    obtain ⟨hstacked, hreads, hwrites⟩ := hs.of_threads D ht
    obtain rfl := hstacked.bottom rfl
    refine sound_setFrames D hs rfl rfl (fun _ => hwriter) (.single _) ?_ hwrites
      fun u hu => ⟨List.count_cons_of_ne hu.symm, Iff.rfl⟩
    change 1 = List.count t (t :: s.lock.readers)
    rw [List.count_cons_self, ← hreads]
    rfl
  | update t reg frames ht =>
    obtain ⟨hstacked, -⟩ := hs.of_threads D ht
    exact sound_replace D hs ht (length_table D s.heap reg) rfl rfl rfl rfl (hstacked.swap rfl)
  | visit t p frame frames ht hnext =>
    obtain ⟨hreading, hwriting, -⟩ := reading_nextResource D hnext
    obtain ⟨hstacked, -⟩ := hs.of_threads D ht
    obtain rfl := hstacked.bottom rfl
    exact sound_replace D hs ht rfl rfl rfl hreading hwriting (.single frame)
  | runChain t p v fallback frames ht =>
    obtain ⟨hstacked, -⟩ := hs.of_threads D ht
    obtain rfl := hstacked.bottom rfl
    refine sound_replace D hs ht rfl rfl rfl ?_ ?_ (.single _)
    · cases fallback <;> rfl
    · cases fallback <;> rfl
  | unlockWrite t frames ht hwriter =>
    obtain ⟨hstacked, hreads, -⟩ := hs.of_threads D ht
    refine sound_setFrames D hs rfl rfl (fun _ => rfl) hstacked.pop hreads ?_ fun u hu =>
      ⟨rfl, ?_⟩
    · rw [hstacked.rest]
      exact iff_of_false Bool.false_ne_true (Option.some_ne_none t).symm
    · rw [hwriter]
      exact iff_of_false (Option.some_ne_none u).symm fun h => hu (Option.some.inj h).symm
  | unlockRead t p frames ht hreader =>
    obtain ⟨hstacked, hreads, hwrites⟩ := hs.of_threads D ht
    obtain rfl := hstacked.bottom rfl
    refine sound_setFrames D hs rfl rfl (fun _ => hs.exclusive (List.ne_nil_of_mem hreader)) .idle
      ?_ hwrites fun u hu => ⟨List.count_erase_of_ne hu, Iff.rfl⟩
    change 0 = List.count t (s.lock.readers.erase t)
    rw [List.count_erase_self, ← hreads]
    rfl

theorem sound_run {w : W} {es : List (Event T Rq U Sm W)} {s : System T Rq U Sm W}
    (hr : run D (init D w) es = some s) : s.Sound D :=
  Transition.run_invariant (sound_step D) (sound_init D w) hr

end System
end BeastRouter
