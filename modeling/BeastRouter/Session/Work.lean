import BeastRouter.Session.Deadlines
import BeastRouter.Session.Lifetime
import Mathlib.Algebra.BigOperators.Group.List.Basic
import Mathlib.Algebra.Order.Monoid.Canonical.Defs
import Mathlib.Data.List.Perm.Basic

namespace BeastRouter

def Call.cost {M : Type} : Call M → ℕ
  | .recv => 1
  | .recvFor _ => 2
  | .send _ => 1
  | .sendFor _ _ => 2

def Handshake.cost {M : Type} (h : Handshake M) : ℕ := 1 + (h.func.map Call.cost).sum

namespace Event
variable {M B Rq : Type}

def isCompletion : Event M B Rq → Bool
  | readCompleted _ _ _ _ => true
  | writeCompleted _ _ => true
  | handshakeCompleted _ _ => true
  | waitCompleted _ => true
  | _ => false

def cost : Event M B Rq → ℕ
  | call c => c.cost
  | handshake func => Handshake.cost ⟨func, none⟩
  | handshakeFor func _ => Handshake.cost ⟨func, none⟩
  | _ => 0

end Event

namespace Session
variable {M Rq B : Type} (P : Platform M Rq B)

def work (s : Session M Rq B) : ℕ :=
  s.reads.length + s.unsent.length + s.timer.waits.length + (s.handshakes.map Handshake.cost).sum

theorem sum_eraseIdx {A : Type} (f : A → ℕ) {xs : List A} {i : ℕ} {x : A}
    (hi : xs[i]? = some x) :
    f x + ((xs.eraseIdx i).map f).sum = (xs.map f).sum := by
  obtain ⟨hlt, rfl⟩ := List.getElem?_eq_some_iff.mp hi
  have hperm := (List.getElem_cons_eraseIdx_perm hlt).map f
  exact hperm.sum_nat

theorem Control.work_eq {timer : Timer} {timedOut : Bool} {s t : Session M Rq B}
    (h : Control timer timedOut s t) :
    t.work = s.reads.length + s.unsent.length + timer.waits.length +
      (s.handshakes.map Handshake.cost).sum := by
  obtain ⟨shutdowns, as, -, rfl⟩ := h
  rfl

theorem work_of_cancel {timedOut : Bool} {s t : Session M Rq B}
    (h : Control (s.timer.cancel s.now) timedOut s t) : t.work = s.work := by
  have hwaits : (s.timer.cancel s.now).waits.length = s.timer.waits.length := List.length_map _
  rw [h.work_eq, hwaits, work]

theorem work_doTimer (d : ℤ) (s : Session M Rq B) : (s.doTimer d).work = s.work + 1 := by
  have hwaits : (s.doTimer d).timer.waits.length = s.timer.waits.length + 1 := by
    simp [doTimer, expiresFromNow, asyncWait, Timer.asyncWait, Timer.expiresFromNow, Timer.cancel,
      emit]
  simp only [work, hwaits]
  have hsame : (s.doTimer d).reads = s.reads ∧ (s.doTimer d).unsent = s.unsent ∧
      (s.doTimer d).handshakes = s.handshakes := ⟨rfl, rfl, rfl⟩
  rw [hsame.1, hsame.2.1, hsame.2.2]
  omega

theorem work_doRead (deadline : Option ℤ) (s : Session M Rq B) :
    (s.doRead deadline).work = s.work + 1 := by
  have hreads : (s.doRead deadline).reads.length = s.reads.length + 1 := by simp [doRead, emit]
  have hsame : (s.doRead deadline).unsent = s.unsent ∧ (s.doRead deadline).timer = s.timer ∧
      (s.doRead deadline).handshakes = s.handshakes := ⟨rfl, rfl, rfl⟩
  rw [work, work, hreads, hsame.1, hsame.2.1, hsame.2.2]
  omega

theorem work_enqueue (message : M) (deadline : Option ℤ) (s : Session M Rq B) :
    (s.enqueue P message deadline).work = s.work + 1 := by
  obtain ⟨hreads, hhandshakes, htimer⟩ := rest_enqueue P message deadline s
  rw [work, work, hreads, hhandshakes, htimer, unsent_enqueue, List.length_append,
    List.length_singleton]
  omega

theorem work_call (c : Call M) (s : Session M Rq B) : (s.call P c).work = s.work + c.cost := by
  cases c with
  | recv => exact work_doRead none s
  | recvFor d => exact (work_doRead _ _).trans (congrArg (· + 1) (work_doTimer d s))
  | send m => exact work_enqueue P m none s
  | sendFor m d => exact (work_enqueue P m _ _).trans (congrArg (· + 1) (work_doTimer d s))

theorem work_calls (cs : List (Call M)) (s : Session M Rq B) :
    (s.calls P cs).work = s.work + (cs.map Call.cost).sum := by
  induction cs generalizing s with
  | nil => rfl
  | cons c cs ih =>
    have hrest := ih (s.call P c)
    rw [work_call] at hrest
    rw [List.map_cons, List.sum_cons, ← Nat.add_assoc]
    exact hrest

theorem work_doHandshake (func : List (Call M)) (deadline : Option ℤ) (s : Session M Rq B) :
    (s.doHandshake func deadline).work = s.work + Handshake.cost ⟨func, none⟩ := by
  have hhandshakes : ((s.doHandshake func deadline).handshakes.map Handshake.cost).sum =
      (s.handshakes.map Handshake.cost).sum + Handshake.cost ⟨func, none⟩ := by
    simp [doHandshake, emit, Handshake.cost]
  have hsame : (s.doHandshake func deadline).reads = s.reads ∧
      (s.doHandshake func deadline).unsent = s.unsent ∧
      (s.doHandshake func deadline).timer = s.timer := ⟨rfl, rfl, rfl⟩
  rw [work, work, hhandshakes, hsame.1, hsame.2.1, hsame.2.2]
  omega

theorem work_onRead (ec : ErrorCode) (s : Session M Rq B) : (s.onRead P ec).work = s.work := by
  obtain ⟨u, hu, heq⟩ := onRead_eq P ec s
  rw [heq, ← work_of_cancel hu]
  split_ifs <;> rfl

theorem work_queueOnWrite (s : Session M Rq B) : (s.queueOnWrite P).work = s.work := by
  have hsame (next : Option (Item M)) (u : Session M Rq B)
      (hunsent : (u.handled P next).unsent.length = s.unsent.length)
      (hu : u.reads = s.reads ∧ u.handshakes = s.handshakes ∧ u.timer = s.timer) :
      (u.handled P next).work = s.work := by
    obtain ⟨hreads, hhandshakes, htimer⟩ := rest_handled P next u
    rw [work, work, hunsent, hreads, hhandshakes, htimer, hu.1, hu.2.1, hu.2.2]
  cases hq : s.queue with
  | nil => simp only [queueOnWrite, hq, ConnQueue.onWrite]; rfl
  | cons x items =>
    simp only [queueOnWrite, hq, ConnQueue.onWrite_cons]
    apply hsame
    · cases items <;> simp [unsent, handled, doWrite, emit, hq]
    · exact ⟨rfl, rfl, rfl⟩

theorem work_onWrite (ec : ErrorCode) (close : Bool) (s : Session M Rq B) :
    (s.onWrite P ec close).work = s.work := by
  obtain ⟨u, hu, heq⟩ := onWrite_eq P ec close s
  rw [heq, ← work_of_cancel hu]
  split_ifs
  · rfl
  · exact work_queueOnWrite P u

theorem work_handshakeDone (func : List (Call M)) (ec : ErrorCode) (s : Session M Rq B) :
    (s.handshakeDone P func ec).work ≤ s.work + (func.map Call.cost).sum := by
  have hdone := work_of_cancel (control_onHandshake P ec s)
  simp only [handshakeDone]
  split_ifs
  · omega
  · rw [work_calls, hdone]

theorem work_dropRead {i : ℕ} {s : Session M Rq B} (hi : i < s.reads.length) :
    (s.dropRead i).work + 1 = s.work := by
  have hlen := List.length_eraseIdx_of_lt hi
  have hsame : (s.dropRead i).unsent = s.unsent := rfl
  rw [work, work, hsame]
  simp only [dropRead, hlen]
  omega

theorem work_dropWrite {i : ℕ} {s : Session M Rq B} (hi : i < s.writes.length) :
    (s.dropWrite i).work + 1 = s.work := by
  have hlen := List.length_eraseIdx_of_lt hi
  simp only [work, unsent, dropWrite, List.length_append, List.length_map, hlen]
  omega

theorem work_dropHandshake {i : ℕ} {f : Handshake M} {s : Session M Rq B}
    (hf : s.handshakes[i]? = some f) : (s.dropHandshake i).work + f.cost = s.work := by
  have hsum := sum_eraseIdx Handshake.cost hf
  have hsame : (s.dropHandshake i).unsent = s.unsent := rfl
  rw [work, work, hsame]
  simp only [dropHandshake]
  omega

theorem work_waitDone {i : ℕ} {s t : Session M Rq B} (h : s.waitDone P i = some t) :
    t.work + 1 = s.work := by
  obtain ⟨ec, hec, -⟩ := Option.map_eq_some_iff.mp h
  obtain ⟨w, hw, -⟩ := Option.bind_eq_some_iff.mp hec
  have hlen := List.length_eraseIdx_of_lt (List.getElem?_eq_some_iff.mp hw).1
  rw [(control_waitDone P h).work_eq, work, Timer.drop, hlen]
  have hi := (List.getElem?_eq_some_iff.mp hw).1
  omega

theorem work_step {s t : Session M Rq B} {e : Event M B Rq} (h : s.step P e = some t) :
    t.work + (if e.isCompletion then 1 else 0) ≤ s.work + e.cost := by
  cases moves_of_step P h with
  | call c => exact (work_call P c s).le
  | handshake func => exact (work_doHandshake func none s).le
  | handshakeFor func d =>
    have hcancel : (s.expiresFromNow d).work = s.work := by
      have hwaits : (s.expiresFromNow d).timer.waits.length = s.timer.waits.length :=
        List.length_map _
      rw [work, hwaits]
      rfl
    have hbegun := work_doHandshake func (some (s.now + d)) (s.expiresFromNow d)
    rw [hcancel] at hbegun
    exact hbegun.le
  | readCompleted i ec received partialMessage u hu hi =>
    have hparse : u.work = (s.dropRead i).work := by
      rw [parseInto_eq P hu]
      rfl
    have hdrop := work_dropRead hi
    rw [work_onRead, hparse]
    exact hdrop.le
  | writeCompleted i ec w hw =>
    have hdrop := work_dropWrite (List.getElem?_eq_some_iff.mp hw).1
    rw [work_onWrite]
    exact hdrop.le
  | handshakeCompleted i ec f hf =>
    have hdrop := work_dropHandshake hf
    have hdone := work_handshakeDone P f.func ec (s.dropHandshake i)
    have hcost : f.cost = 1 + (f.func.map Call.cost).sum := rfl
    simp only [Event.isCompletion, Event.cost, if_true]
    omega
  | waitCompleted i t ht => exact (work_waitDone P ht).le
  | elapse ticks => exact Nat.le_refl _
  | closeSocket => exact Nat.le_refl _

theorem work_run {es : List (Event M B Rq)} {s t : Session M Rq B} (hr : run P s es = some t) :
    t.work + es.countP Event.isCompletion ≤ s.work + (es.map Event.cost).sum := by
  induction es generalizing s with
  | nil =>
    obtain rfl := Option.some.inj hr
    exact Nat.le_refl _
  | cons e es ih =>
    obtain ⟨u, hu, hrest⟩ := Transition.run_cons.mp hr
    have hfirst := work_step P hu
    have hlater := ih hrest
    rw [List.countP_cons, List.map_cons, List.sum_cons]
    omega

theorem work_bounded (isSsl onError isOpen : Bool) (now : ℤ) (es : List (Event M B Rq))
    (t : Session M Rq B) (hr : run P (init P isSsl onError isOpen now) es = some t) :
    es.countP Event.isCompletion +
        (t.pending .read + t.pending .write + t.pending .handshake + t.pending .wait) ≤
      (es.map Event.cost).sum := by
  have hrun := work_run P hr
  have hnone : (init P isSsl onError isOpen now).work = 0 := rfl
  have hwrites : t.writes.length ≤ t.unsent.length := by simp [unsent]
  have hhandshakes := List.length_le_sum_of_one_le (t.handshakes.map Handshake.cost)
    (List.forall_mem_map.mpr fun _ _ => Nat.le_add_right 1 _)
  rw [List.length_map] at hhandshakes
  simp only [work] at hrun hnone
  simp only [pending]
  omega

theorem work_bounded_request :
    ∃ t, run .sample (init .sample false true true 0)
        [.call (.recvFor 5), .readCompleted 0 .success [4] 0, .call (.send 6),
          .writeCompleted 0 .success, .waitCompleted 0] = some t ∧
      t.pending .read + t.pending .write + t.pending .handshake + t.pending .wait = 0 := by
  refine ⟨_, rfl, ?_⟩
  have hbound := work_bounded .sample false true true 0
    [.call (.recvFor 5), .readCompleted 0 .success [4] 0, .call (.send 6),
      .writeCompleted 0 .success, .waitCompleted 0] _ rfl
  exact Nat.le_zero.mp (Nat.le_of_add_le_add_left hbound)

end Session
end BeastRouter
