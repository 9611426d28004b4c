import Mathlib.Order.Nat
import BeastRouter.Common.EventLoop
import BeastRouter.Foundation.WaitFor

namespace BeastRouter.EventLoop

-- `join_all` waits for every thread of the group; whose call it is makes no difference.
structure Waits (s : EventLoop) (t u : Thread) : Prop where
  joining : (s.threads t).stop = some .joining
  member : ∃ i < s.created, u = .pool i
  unfinished : (s.threads u).place ≠ .finished

def Unblocked (s : EventLoop) : Prop := (∀ t, ¬ s.Waits t t) ∧ ¬ WaitFor.Deadlock s.Waits

def PoolJoins (s : EventLoop) (i : ℕ) : Prop := (s.threads (.pool i)).stop = some .joining

def Event.isPoolStop : Event → Bool
  | .stop t => t.isPool
  | _ => false

theorem Event.isPoolStop_iff {e : Event} : e.isPoolStop = true ↔ ∃ i, e = .stop (.pool i) := by
  constructor
  · intro h
    cases e with
    | stop t =>
      cases t with
      | pool i => exact ⟨i, rfl⟩
      | exec | other => cases h
    | _ => cases h
  · rintro ⟨i, rfl⟩
    rfl

def Event.isJoinAll : Event → Bool
  | .joinAll _ => true
  | _ => false

theorem waits_self {s : EventLoop} (hs : s.Sound) {i : ℕ} (h : s.PoolJoins i) :
    s.Waits (.pool i) (.pool i) := by
  have hplace := hs.stopping i (by simp [show (s.threads (.pool i)).stop = _ from h])
  refine ⟨h, ⟨i, hs.lt_created ?_, rfl⟩, ?_⟩
  · simp [hplace]
  · simp [hplace]

def rank (s : EventLoop) (t : Thread) : ℕ :=
  if (s.threads t).stop = some .joining then 1 else 0

theorem rank_of_waits {s : EventLoop} (hnone : ∀ i, ¬ s.PoolJoins i) (t u : Thread)
    (h : s.Waits t u) : s.rank u < s.rank t := by
  obtain ⟨i, -, rfl⟩ := h.member
  rw [rank, rank, if_pos h.joining, if_neg (show ¬ (s.threads (.pool i)).stop = _ from hnone i)]
  exact Nat.zero_lt_one

theorem unblocked_iff {s : EventLoop} (hs : s.Sound) : s.Unblocked ↔ ∀ i, ¬ s.PoolJoins i := by
  constructor
  · rintro ⟨hself, -⟩ i hjoins
    exact hself (.pool i) (waits_self hs hjoins)
  · intro hnone
    have hnot := WaitFor.not_deadlock_of_rank (rank_of_waits hnone)
    exact ⟨fun t ht => hnot (WaitFor.deadlock_of_self ht), hnot⟩

theorem pool_setThread {Q : Option StopCall → Prop} {s : EventLoop}
    (hs : ∀ i, Q (s.threads (.pool i)).stop) {t : Thread} {a : Activity}
    (h : t.isPool = true → Q a.stop) (i : ℕ) :
    Q ((s.setThread t a).threads (.pool i)).stop := by
  by_cases heq : Thread.pool i = t
  · subst heq
    rw [threads_self]
    exact h rfl
  · rw [threads_other heq]
    exact hs i

theorem poolJoins_other {s s' : EventLoop} {i : ℕ} (h : s.PoolJoins i) {t : Thread} {a : Activity}
    (hthreads : s'.threads = Function.update s.threads t a)
    (ht : (s.threads t).stop ≠ some .joining) : s'.PoolJoins i := by
  have hne : Thread.pool i ≠ t := by
    rintro rfl
    exact ht h
  rw [PoolJoins, hthreads, Function.update_of_ne hne]
  exact h

theorem not_allFinished {s : EventLoop} (hs : s.Sound) {i : ℕ} (h : s.PoolJoins i) :
    s.allFinished = false := by
  obtain ⟨-, ⟨j, hj, heq⟩, hunfinished⟩ := waits_self hs h
  rw [heq] at hunfinished
  refine List.all_eq_false.mpr ⟨j, List.mem_range.mpr hj, ?_⟩
  simpa using hunfinished

theorem poolJoins_kept {i : ℕ} (s : EventLoop) (e : Event) (s' : EventLoop)
    (hs : s.Sound ∧ s.PoolJoins i) (h : s.step e = some s') : s'.Sound ∧ s'.PoolJoins i := by
  refine ⟨sound_step s e s' hs.1 h, ?_⟩
  obtain ⟨hsound, hjoins⟩ := hs
  cases moves_of_step h with
  | exec hexec => exact poolJoins_other hjoins rfl (by simp [hexec])
  | createThread n hexec hn =>
    have hnew : (setThread (.pool s.created) ⟨.running, none⟩
        { s with created := s.created + 1 }).PoolJoins i :=
      poolJoins_other hjoins rfl (by simp [hsound.absent s.created le_rfl])
    exact poolJoins_other hnew rfl (by simp [setThread, hexec])
  | enterRun n hexec => exact poolJoins_other hjoins rfl (by simp [hexec])
  | handle t ht => exact poolJoins_other hjoins rfl (by simp [ht])
  | handled t ht => exact poolJoins_other hjoins rfl (by simp [ht])
  | signal t ec => exact hjoins
  | stop t hnone huser => exact poolJoins_other hjoins rfl (by simp [hnone])
  | joinAll t hstop => exact poolJoins_other hjoins rfl (by simp [hstop])
  | joined t hstop hall =>
    rw [not_allFinished hsound hjoins] at hall
    cases hall
  | leave t ht hstopped => exact poolJoins_other hjoins rfl (by simp [ht])

theorem poolJoins_run {i : ℕ} {s s' : EventLoop} {es : List Event} (hs : s.Sound)
    (hjoins : s.PoolJoins i) (hr : run s es = some s') : s'.PoolJoins i :=
  (Transition.run_invariant poolJoins_kept ⟨hs, hjoins⟩ hr).2

theorem not_stopping_step (s : EventLoop) (e : Event) (s' : EventLoop)
    (hs : ∀ i, (s.threads (.pool i)).stop = none) (he : e.isPoolStop = false)
    (h : s.step e = some s') (i : ℕ) : (s'.threads (.pool i)).stop = none := by
  have hkept {t : Thread} {a : Activity} (ha : t.isPool = true → a.stop = none) :
      ((s.setThread t a).threads (.pool i)).stop = none :=
    pool_setThread (Q := fun stop => stop = none) hs ha i
  cases moves_of_step h with
  | createThread n hexec hn =>
    have hnew := pool_setThread (Q := fun stop => stop = none)
      (s := { s with created := s.created + 1 }) (t := .pool s.created) (a := ⟨.running, none⟩)
      hs fun _ => rfl
    exact pool_setThread (Q := fun stop => stop = none) hnew (fun _ => rfl) i
  | stop t hnone huser =>
    cases t with
    | pool k => cases he
    | _ => exact hkept nofun
  | joinAll t hstop =>
    cases t with
    | pool k =>
      rw [hs k] at hstop
      cases hstop
    | _ => exact hkept nofun
  | signal t ec => exact hs i
  | exec | enterRun | handle | handled | joined | leave => exact hkept fun _ => rfl

theorem not_stopping_run {s s' : EventLoop} {es : List Event}
    (hs : ∀ i, (s.threads (.pool i)).stop = none)
    (hes : Transition.Along step (fun _ e _ => e.isPoolStop = false) s es)
    (hr : run s es = some s') : ∀ i, (s'.threads (.pool i)).stop = none :=
  Transition.run_invariant_along (I := fun s => ∀ i, (s.threads (.pool i)).stop = none)
    (fun s e s' hs he h => not_stopping_step s e s' hs he h) hs hes hr

theorem poolJoins_of_stop {s s' : EventLoop} {i : ℕ} (h : s.step (.stop (.pool i)) = some s') :
    ∃ s'', s'.step (.joinAll (.pool i)) = some s'' ∧ s''.PoolJoins i := by
  cases moves_of_step h with
  | stop _ hnone huser =>
    refine ⟨_, if_pos ?_, ?_⟩
    · rw [threads_self]
    · rw [PoolJoins, threads_self]

structure Single (s : EventLoop) : Prop where
  threadsNum : s.threadsNum ≤ 1
  created : s.created = 0
  creating : ∀ i, (s.threads .exec).place = .creating i → 1 ≤ i

theorem single_new {threads : ℕ} (h : threads ≤ 1) : (new threads).Single where
  threadsNum := h
  created := rfl
  creating := fun i hi => by cases hi

theorem single_setThread {s s' : EventLoop} (hs : s.Single) {t : Thread} {a : Activity}
    (hnum : s'.threadsNum = s.threadsNum) (hcreated : s'.created = s.created)
    (hthreads : s'.threads = Function.update s.threads t a)
    (hplace : Thread.exec = t → ∀ i, a.place = .creating i → 1 ≤ i) : s'.Single where
  threadsNum := hnum ▸ hs.threadsNum
  created := hcreated ▸ hs.created
  creating := fun i hi => by
    rw [hthreads] at hi
    by_cases ht : Thread.exec = t
    · rw [← ht, Function.update_self] at hi
      exact hplace ht i hi
    · rw [Function.update_of_ne ht] at hi
      exact hs.creating i hi

theorem single_step (s : EventLoop) (e : Event) (s' : EventLoop) (hs : s.Single)
    (h : s.step e = some s') : s'.Single := by
  have hkept {t : Thread} (ht : Thread.exec = t) (i : ℕ)
      (hi : (s.threads t).place = .creating i) : 1 ≤ i := by
    rw [← ht] at hi
    exact hs.creating i hi
  cases moves_of_step h with
  | exec hexec =>
    refine single_setThread hs rfl rfl rfl fun _ i hi => ?_
    rw [← Place.creating.inj hi]
  | createThread i hexec hi =>
    have hone := hs.creating i (by rw [hexec])
    exact absurd (hi.trans_le hs.threadsNum) (Nat.not_lt.mpr hone)
  | enterRun i hexec => exact single_setThread hs rfl rfl rfl nofun
  | handle t ht => exact single_setThread hs rfl rfl rfl nofun
  | handled t ht => exact single_setThread hs rfl rfl rfl nofun
  | signal t ec => exact ⟨hs.threadsNum, hs.created, hs.creating⟩
  | stop t hnone huser => exact single_setThread hs rfl rfl rfl hkept
  | joinAll t hstop => exact single_setThread hs rfl rfl rfl hkept
  | joined t hstop hall => exact single_setThread hs rfl rfl rfl hkept
  | leave t ht hstopped =>
    refine single_setThread hs rfl rfl rfl fun _ i hi => ?_
    cases hpool : t.isPool <;> simp [hpool] at hi

theorem unblocked_of_single {threads : ℕ} (hthreads : threads ≤ 1) {es : List Event}
    {s : EventLoop}
    (hr : run (new threads) es = some s) : s.Unblocked := by
  have hsound := Transition.run_invariant sound_step (sound_new threads) hr
  have hsingle := Transition.run_invariant single_step (single_new hthreads) hr
  refine (unblocked_iff hsound).mpr fun i => ?_
  rw [PoolJoins, hsound.absent i (hsingle.created ▸ Nat.zero_le i)]
  exact nofun

theorem unblocked_iff_no_pool_stop (threads : ℕ) (es : List Event) :
    (∀ es' js s, es' <+: es → (∀ e ∈ js, e.isJoinAll = true) →
        run (new threads) (es' ++ js) = some s → s.Unblocked) ↔
      Transition.Along step (fun _ e _ => e.isPoolStop = false) (new threads) es := by
  constructor
  · intro h
    refine Transition.along_iff_forall_prefix.mpr fun es' e s s' hes hr hstep => ?_
    by_contra hstop
    obtain ⟨i, rfl⟩ := Event.isPoolStop_iff.mp (Bool.not_eq_false _ ▸ hstop)
    obtain ⟨s'', hjoin, hjoins⟩ := poolJoins_of_stop hstep
    have hrun : run (new threads) ((es' ++ [.stop (.pool i)]) ++ [.joinAll (.pool i)]) =
        some s'' := by
      rw [Transition.run_append_some]
      refine ⟨s', Transition.run_append_some.mpr ⟨s, hr, ?_⟩, ?_⟩
      · exact (Transition.run_singleton _ _ _).trans hstep
      · exact (Transition.run_singleton _ _ _).trans hjoin
    have hsound := Transition.run_invariant sound_step (sound_new threads) hrun
    have hunblocked := h _ [.joinAll (.pool i)] s'' hes (by simp [Event.isJoinAll]) hrun
    exact (unblocked_iff hsound).mp hunblocked i hjoins
  · intro h es' js s hes hjs hr
    have hsound := Transition.run_invariant sound_step (sound_new threads) hr
    obtain ⟨u, hu, hr⟩ := Transition.run_append_some.mp hr
    have hbefore : Transition.Along step (fun _ e _ => e.isPoolStop = false) (new threads) es' :=
      Transition.along_iff_forall_prefix.mpr fun fs e s s' hfs =>
        Transition.along_iff_forall_prefix.mp h fs e s s' (hfs.trans hes)
    have hafter (e : Event) (he : e ∈ js) : e.isPoolStop = false := by
      have hjoin := hjs e he
      cases e with
      | joinAll t => rfl
      | _ => cases hjoin
    have hcalm := not_stopping_run (fun _ => rfl) hbefore hu
    have hnone := not_stopping_run hcalm (Transition.along_of_mem hafter u) hr
    refine (unblocked_iff hsound).mpr fun i => ?_
    rw [PoolJoins, hnone i]
    exact nofun

theorem pool_thread_joins_itself :
    ¬ ∀ (threads : ℕ) (es : List Event) (s : EventLoop),
      run (new threads) es = some s → s.Unblocked := by
  intro h
  have hunblocked := h 2 [.exec, .createThread, .enterRun, .handle (.pool 0), .stop (.pool 0),
    .joinAll (.pool 0)] _ rfl
  exact hunblocked.1 (.pool 0) ⟨rfl, ⟨0, Nat.zero_lt_one, rfl⟩, nofun⟩

end BeastRouter.EventLoop
