import Mathlib.Algebra.BigOperators.Group.Finset.Basic
import Mathlib.Algebra.Order.BigOperators.Group.Finset
import Mathlib.Algebra.Ring.Nat
import Mathlib.Data.Prod.Lex
import BeastRouter.Router.Consistency

namespace BeastRouter

namespace Frame
variable {Rq U Sm W : Type}

def toWrite : Frame Rq U Sm W → ℕ
  | addResource _ => 2
  | update _ => 1
  | _ => 0

def toLeave (D : Deployment Rq U Sm W) (map : MethodMap Rq U Sm W) : Frame Rq U Sm W → ℕ
  | processRequest request => 2 * (System.resources D map request).length + 4
  | loop p => 2 * ((System.resources D map p.request).length - p.position) + 3
  | chain p _ false => 2 * ((System.resources D map p.request).length - (p.position + 1)) + 4
  | chain _ _ true => 2
  | leaveRead _ => 1
  | leaveWrite => 1
  | _ => 0

end Frame

namespace System
variable {T Rq U Sm W : Type} (D : Deployment Rq U Sm W)

def Event.isInner : Event T Rq U Sm W → Bool
  | .call _ _ => false
  | .handlerRegisters _ _ => false
  | _ => true

theorem toLeave_nextResource {map : MethodMap Rq U Sm W} {p : Progress Rq U Sm W}
    {frame : Frame Rq U Sm W} (h : nextResource D map p = some frame) :
    frame.toWrite = 0 ∧ frame.toLeave D map < (Frame.loop p).toLeave D map := by
  unfold nextResource at h
  split at h
  · next val hget =>
    have hlt : p.position < (resources D map p.request).length :=
      (List.getElem?_eq_some_iff.mp hget).1
    split at h
    · exact Option.some.inj h ▸ ⟨rfl, by simp only [Frame.toLeave]; omega⟩
    · split at h
      · exact Option.some.inj h ▸ ⟨rfl, by simp only [Frame.toLeave]; omega⟩
      · exact Option.some.inj h ▸ ⟨rfl, by simp only [Frame.toLeave]; omega⟩
  · split_ifs at h
    · exact Option.some.inj h ▸ ⟨rfl, by simp only [Frame.toLeave]; omega⟩
    · obtain ⟨resourceMap, -, rfl⟩ := Option.map_eq_some_iff.mp h
      split
      · exact ⟨rfl, by simp only [Frame.toLeave]; omega⟩
      · exact ⟨rfl, by simp only [Frame.toLeave]; omega⟩

variable [Fintype T]

def debt (s : System T Rq U Sm W) : ℕ ×ₗ ℕ :=
  toLex (∑ t, ((s.threads t).map Frame.toWrite).sum,
    ∑ t, ((s.threads t).map (Frame.toLeave D (table D s.heap))).sum)

variable [DecidableEq T]

theorem sum_update_lt {A : Type} {f : A → ℕ} {threads threads' : T → A} {t : T} {a : A}
    (hthreads : threads' = Function.update threads t a) (hless : f a < f (threads t)) :
    ∑ u, f (threads' u) < ∑ u, f (threads u) := by
  refine Finset.sum_lt_sum (fun u _ => ?_) ⟨t, Finset.mem_univ t, ?_⟩
  · rw [hthreads]
    by_cases hu : u = t
    · subst hu
      rw [Function.update_self]
      exact hless.le
    · rw [Function.update_of_ne hu]
  · rw [hthreads, Function.update_self]
    exact hless

theorem sum_update_eq {A : Type} {f : A → ℕ} {threads threads' : T → A} {t : T} {a : A}
    (hthreads : threads' = Function.update threads t a) (hsame : f a = f (threads t)) :
    ∑ u, f (threads' u) = ∑ u, f (threads u) := by
  refine Finset.sum_congr rfl fun u _ => ?_
  rw [hthreads]
  by_cases hu : u = t
  · subst hu
    rw [Function.update_self, hsame]
  · rw [Function.update_of_ne hu]

theorem debt_of_write {s s' : System T Rq U Sm W} {t : T} {frame frame' : Frame Rq U Sm W}
    {frames : List (Frame Rq U Sm W)} (ht : s.threads t = frame :: frames)
    (hthreads : s'.threads = Function.update s.threads t (frame' :: frames))
    (hless : frame'.toWrite < frame.toWrite) : s'.debt D < s.debt D := by
  refine Prod.Lex.toLex_lt_toLex.mpr (.inl ?_)
  refine sum_update_lt (f := fun frames => (frames.map Frame.toWrite).sum) hthreads ?_
  simpa [ht] using hless

theorem debt_of_leave {s s' : System T Rq U Sm W} {t : T} {frame : Frame Rq U Sm W}
    {frames frames' : List (Frame Rq U Sm W)} (ht : s.threads t = frame :: frames)
    (hheap : s'.heap = s.heap) (hthreads : s'.threads = Function.update s.threads t frames')
    (hwrite : (frames'.map Frame.toWrite).sum = ((frame :: frames).map Frame.toWrite).sum)
    (hless : (frames'.map (Frame.toLeave D (table D s.heap))).sum <
      ((frame :: frames).map (Frame.toLeave D (table D s.heap))).sum) : s'.debt D < s.debt D := by
  refine Prod.Lex.toLex_lt_toLex.mpr (.inr ⟨?_, ?_⟩)
  · exact sum_update_eq (f := fun frames => (frames.map Frame.toWrite).sum) hthreads
      (by rw [ht, hwrite])
  · rw [hheap]
    exact sum_update_lt
      (f := fun frames => (frames.map (Frame.toLeave D (table D s.heap))).sum) hthreads
      (by rw [ht]; exact hless)

theorem debt_step {s s' : System T Rq U Sm W} {e : Event T Rq U Sm W} (he : e.isInner = true)
    (h : s.step D e = some s') : s'.debt D < s.debt D := by
  cases moves_of_step D h with
  | call t op ht => cases he
  | handlerRegisters t reg p v fallback frames ht => cases he
  | lockWrite t reg frames ht hwriter hreaders =>
    exact debt_of_write D ht rfl Nat.one_lt_two
  | update t reg frames ht => exact debt_of_write D ht rfl Nat.zero_lt_one
  | lockRead t request frames ht hwriter =>
    refine debt_of_leave D ht rfl rfl rfl ?_
    simp only [List.map_cons, List.sum_cons, Frame.toLeave]
    omega
  | visit t p frame frames ht hnext =>
    obtain ⟨hwrite, hleave⟩ := toLeave_nextResource D hnext
    refine debt_of_leave D ht rfl rfl ?_ ?_
    · rw [List.map_cons, List.sum_cons, hwrite]
      rfl
    · simp only [List.map_cons, List.sum_cons]
      omega
  | runChain t p v fallback frames ht =>
    refine debt_of_leave D ht rfl rfl ?_ ?_
    · cases fallback <;> rfl
    · cases fallback with
      | false =>
        simp only [List.map_cons, List.sum_cons, afterChain, Frame.toLeave, Bool.false_eq_true,
          if_false]
        omega
      | true =>
        simp only [List.map_cons, List.sum_cons, afterChain, Frame.toLeave, if_true]
        omega
  | unlockWrite t frames ht hwriter =>
    refine debt_of_leave D ht rfl rfl ?_ ?_
    · simp only [List.map_cons, List.sum_cons, Frame.toWrite, Nat.zero_add]
    · simp only [List.map_cons, List.sum_cons, Frame.toLeave]
      omega
  | unlockRead t p frames ht hreader =>
    refine debt_of_leave D ht rfl rfl ?_ ?_
    · simp only [List.map_cons, List.sum_cons, Frame.toWrite, Nat.zero_add]
    · simp only [List.map_cons, List.sum_cons, Frame.toLeave]
      omega

end System
end BeastRouter
