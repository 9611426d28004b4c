import Mathlib.Logic.Function.Basic
import BeastRouter.Base.ErrorCode
import BeastRouter.Foundation.Transition

namespace BeastRouter

-- `pool i` is the i-th thread of `m_threads`, and `other k` a thread that runs no handlers.
inductive Thread where
  | exec
  | pool (i : ℕ)
  | other (k : ℕ)
  deriving DecidableEq, Repr

def Thread.isPool : Thread → Bool
  | pool _ => true
  | _ => false

inductive Place where
  | outside
  | creating (i : ℕ)
  | running
  | handling
  | finished
  deriving DecidableEq, Repr

inductive StopCall where
  | stopped
  | joining
  deriving DecidableEq, Repr

structure Activity where
  place : Place
  stop : Option StopCall
  deriving DecidableEq, Repr

structure EventLoop where
  threadsNum : ℕ
  created : ℕ
  stopped : Bool
  signalWait : Bool
  retCode : ErrorCode
  threads : Thread → Activity

namespace EventLoop

def new (threads : ℕ) : EventLoop where
  threadsNum := threads
  created := 0
  stopped := false
  signalWait := false
  retCode := .success
  threads _ := ⟨.outside, none⟩

inductive Event where
  | exec
  | createThread
  | enterRun
  | handle (t : Thread)
  | handled (t : Thread)
  | signal (t : Thread) (ec : ErrorCode)
  | stop (t : Thread)
  | joinAll (t : Thread)
  | joined (t : Thread)
  | leave (t : Thread)
  deriving DecidableEq, Repr

def setThread (t : Thread) (a : Activity) (s : EventLoop) : EventLoop :=
  { s with threads := Function.update s.threads t a }

@[simp] theorem threads_self (t : Thread) (a : Activity) (s : EventLoop) :
    (s.setThread t a).threads t = a := by
  simp [setThread]

theorem threads_other {t u : Thread} (h : u ≠ t) (a : Activity) (s : EventLoop) :
    (s.setThread t a).threads u = s.threads u := by
  simp [setThread, h]

def inUserCode (s : EventLoop) (t : Thread) : Bool :=
  match (s.threads t).place with
  | .handling => true
  | .outside => !t.isPool
  | _ => false

def allFinished (s : EventLoop) : Bool :=
  (List.range s.created).all fun i => (s.threads (.pool i)).place = .finished

def step (s : EventLoop) : Event → Option EventLoop
  | .exec =>
    if s.threads .exec = ⟨.outside, none⟩ then
      some (setThread .exec ⟨.creating 1, none⟩
        { s with signalWait := true, retCode := .success })
    else none
  | .createThread =>
    match s.threads .exec with
    | ⟨.creating i, none⟩ =>
      if i < s.threadsNum then
        some (setThread .exec ⟨.creating (i + 1), none⟩
          (setThread (.pool s.created) ⟨.running, none⟩ { s with created := s.created + 1 }))
      else none
    | _ => none
  | .enterRun =>
    match s.threads .exec with
    | ⟨.creating i, none⟩ =>
      if i < s.threadsNum then none else some (s.setThread .exec ⟨.running, none⟩)
    | _ => none
  | .handle t =>
    if s.threads t = ⟨.running, none⟩ ∧ s.stopped = false then
      some (s.setThread t ⟨.handling, none⟩)
    else none
  | .handled t =>
    if s.threads t = ⟨.handling, none⟩ then some (s.setThread t ⟨.running, none⟩) else none
  | .signal t ec =>
    if s.threads t = ⟨.running, none⟩ ∧ s.stopped = false ∧ s.signalWait = true then
      some { s with retCode := ec, stopped := true, signalWait := false }
    else none
  | .stop t =>
    if (s.threads t).stop = none ∧ s.inUserCode t = true then
      some (setThread t ⟨(s.threads t).place, some .stopped⟩ { s with stopped := true })
    else none
  | .joinAll t =>
    if (s.threads t).stop = some .stopped then
      some (s.setThread t ⟨(s.threads t).place, some .joining⟩)
    else none
  | .joined t =>
    if (s.threads t).stop = some .joining ∧ s.allFinished = true then
      some (s.setThread t ⟨(s.threads t).place, none⟩)
    else none
  | .leave t =>
    if s.threads t = ⟨.running, none⟩ ∧ s.stopped = true then
      some (s.setThread t ⟨if t.isPool then .finished else .outside, none⟩)
    else none

abbrev run := Transition.run step

inductive Moves (s : EventLoop) : Event → EventLoop → Prop where
  | exec (h : s.threads .exec = ⟨.outside, none⟩) :
    Moves s .exec
      (setThread .exec ⟨.creating 1, none⟩ { s with signalWait := true, retCode := .success })
  | createThread (i : ℕ) (h : s.threads .exec = ⟨.creating i, none⟩) (hi : i < s.threadsNum) :
    Moves s .createThread
      (setThread .exec ⟨.creating (i + 1), none⟩
        (setThread (.pool s.created) ⟨.running, none⟩ { s with created := s.created + 1 }))
  | enterRun (i : ℕ) (h : s.threads .exec = ⟨.creating i, none⟩) :
    Moves s .enterRun (s.setThread .exec ⟨.running, none⟩)
  | handle (t : Thread) (h : s.threads t = ⟨.running, none⟩) :
    Moves s (.handle t) (s.setThread t ⟨.handling, none⟩)
  | handled (t : Thread) (h : s.threads t = ⟨.handling, none⟩) :
    Moves s (.handled t) (s.setThread t ⟨.running, none⟩)
  | signal (t : Thread) (ec : ErrorCode) :
    Moves s (.signal t ec) { s with retCode := ec, stopped := true, signalWait := false }
  | stop (t : Thread) (h : (s.threads t).stop = none) (huser : s.inUserCode t = true) :
    Moves s (.stop t)
      (setThread t ⟨(s.threads t).place, some .stopped⟩ { s with stopped := true })
  | joinAll (t : Thread) (h : (s.threads t).stop = some .stopped) :
    Moves s (.joinAll t) (s.setThread t ⟨(s.threads t).place, some .joining⟩)
  | joined (t : Thread) (h : (s.threads t).stop = some .joining) (hall : s.allFinished = true) :
    Moves s (.joined t) (s.setThread t ⟨(s.threads t).place, none⟩)
  | leave (t : Thread) (h : s.threads t = ⟨.running, none⟩) (hstopped : s.stopped = true) :
    Moves s (.leave t) (s.setThread t ⟨if t.isPool then .finished else .outside, none⟩)

theorem moves_of_step {s s' : EventLoop} {e : Event} (h : s.step e = some s') : Moves s e s' := by
  cases e with
  | exec =>
    simp only [step, Option.ite_none_right_eq_some] at h
    exact Option.some.inj h.2 ▸ .exec h.1
  | createThread =>
    simp only [step] at h
    split at h
    · next i hexec =>
      simp only [Option.ite_none_right_eq_some] at h
      exact Option.some.inj h.2 ▸ .createThread i hexec h.1
    · cases h
  | enterRun =>
    simp only [step] at h
    split at h
    · next i hexec =>
      simp only [Option.ite_none_left_eq_some] at h
      exact Option.some.inj h.2 ▸ .enterRun i hexec
    · cases h
  | handle t =>
    simp only [step, Option.ite_none_right_eq_some] at h
    exact Option.some.inj h.2 ▸ .handle t h.1.1
  | handled t =>
    simp only [step, Option.ite_none_right_eq_some] at h
    exact Option.some.inj h.2 ▸ .handled t h.1
  | signal t ec =>
    simp only [step, Option.ite_none_right_eq_some] at h
    exact Option.some.inj h.2 ▸ .signal t ec
  | stop t =>
    simp only [step, Option.ite_none_right_eq_some] at h
    exact Option.some.inj h.2 ▸ .stop t h.1.1 h.1.2
  | joinAll t =>
    simp only [step, Option.ite_none_right_eq_some] at h
    exact Option.some.inj h.2 ▸ .joinAll t h.1
  | joined t =>
    simp only [step, Option.ite_none_right_eq_some] at h
    exact Option.some.inj h.2 ▸ .joined t h.1.1 h.1.2
  | leave t =>
    simp only [step, Option.ite_none_right_eq_some] at h
    exact Option.some.inj h.2 ▸ .leave t h.1.1 h.1.2

structure Sound (s : EventLoop) : Prop where
  absent : ∀ i, s.created ≤ i → s.threads (.pool i) = ⟨.outside, none⟩
  stopping : ∀ i, (s.threads (.pool i)).stop ≠ none → (s.threads (.pool i)).place = .handling

theorem sound_new (threads : ℕ) : (new threads).Sound where
  absent := fun _ _ => rfl
  stopping := fun _ h => absurd rfl h

theorem Sound.lt_created {s : EventLoop} (hs : s.Sound) {i : ℕ}
    (h : (s.threads (.pool i)).place ≠ .outside) : i < s.created := by
  by_contra hlt
  rw [hs.absent i (Nat.le_of_not_lt hlt)] at h
  exact h rfl

theorem sound_setThread {s : EventLoop} (hs : s.Sound) {t : Thread} {a : Activity}
    (h : ∀ i, t = .pool i → i < s.created ∧ (a.stop ≠ none → a.place = .handling)) :
    (s.setThread t a).Sound where
  absent := fun i hi => by
    have hne : Thread.pool i ≠ t := fun heq => absurd (h i heq.symm).1 (Nat.not_lt.mpr hi)
    rw [threads_other hne]
    exact hs.absent i hi
  stopping := fun i hstop => by
    by_cases heq : Thread.pool i = t
    · subst heq
      rw [threads_self] at hstop ⊢
      exact (h i rfl).2 hstop
    · rw [threads_other heq] at hstop ⊢
      exact hs.stopping i hstop

theorem sound_createThread {s : EventLoop} (hs : s.Sound) :
    (setThread (.pool s.created) ⟨.running, none⟩ { s with created := s.created + 1 }).Sound
    where
  absent := fun i hi => by
    have hne : Thread.pool i ≠ .pool s.created := fun heq => by
      rw [Thread.pool.inj heq] at hi
      exact Nat.not_succ_le_self _ hi
    rw [threads_other hne]
    exact hs.absent i (Nat.le_of_succ_le hi)
  stopping := fun i hstop => by
    by_cases heq : Thread.pool i = .pool s.created
    · rw [heq, threads_self] at hstop
      exact absurd rfl hstop
    · rw [threads_other heq] at hstop ⊢
      exact hs.stopping i hstop

theorem handling_of_inUserCode {s : EventLoop} {i : ℕ} (huser : s.inUserCode (.pool i) = true) :
    (s.threads (.pool i)).place = .handling := by
  unfold inUserCode at huser
  split at huser
  · assumption
  · cases huser
  · cases huser

theorem sound_step (s : EventLoop) (e : Event) (s' : EventLoop) (hs : s.Sound)
    (h : s.step e = some s') : s'.Sound := by
  have hactive {t : Thread} {a : Activity} (hplace : ∀ i, t = .pool i →
      (s.threads (.pool i)).place ≠ .outside ∧ (a.stop ≠ none → a.place = .handling)) :
      (s.setThread t a).Sound :=
    sound_setThread hs fun i hi => ⟨hs.lt_created (hplace i hi).1, (hplace i hi).2⟩
  cases moves_of_step h with
  | exec hexec =>
    have hs' : Sound { s with signalWait := true, retCode := .success } :=
      ⟨hs.absent, hs.stopping⟩
    exact sound_setThread hs' nofun
  | createThread i hexec hi => exact sound_setThread (sound_createThread hs) nofun
  | enterRun i hexec => exact sound_setThread hs nofun
  | handle t ht =>
    refine hactive ?_
    rintro i rfl
    simp [ht]
  | handled t ht =>
    refine hactive ?_
    rintro i rfl
    simp [ht]
  | signal t ec => exact ⟨hs.absent, hs.stopping⟩
  | stop t hnone huser =>
    have hs' : Sound { s with stopped := true } := ⟨hs.absent, hs.stopping⟩
    refine sound_setThread hs' ?_
    rintro i rfl
    have hplace := handling_of_inUserCode huser
    exact ⟨hs.lt_created (by simp [hplace]), fun _ => hplace⟩
  | joinAll t hstop =>
    refine hactive ?_
    rintro i rfl
    have hplace := hs.stopping i (by simp [hstop])
    simp [hplace]
  | joined t hstop hall =>
    refine hactive ?_
    rintro i rfl
    have hplace := hs.stopping i (by simp [hstop])
    simp [hplace]
  | leave t ht hstopped =>
    refine hactive ?_
    rintro i rfl
    simp [ht]

end EventLoop
end BeastRouter
