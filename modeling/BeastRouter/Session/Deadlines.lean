import Mathlib.Data.List.Induction
import BeastRouter.Session.Frame

namespace BeastRouter.Session
variable {M Rq B : Type} (P : Platform M Rq B)

def unsent (s : Session M Rq B) : List (Item M) := s.writes.map Write.item ++ s.queue.tail

def deadlines (s : Session M Rq B) : List ℤ :=
  s.reads.filterMap id ++ s.unsent.filterMap Item.deadline ++
    s.handshakes.filterMap Handshake.deadline

def Guarded (s : Session M Rq B) : Prop := s.timer.Guards s.deadlines

theorem Control.deadlines_eq {timer : Timer} {timedOut : Bool} {s t : Session M Rq B}
    (h : Control timer timedOut s t) : t.deadlines = s.deadlines := by
  obtain ⟨shutdowns, as, -, rfl⟩ := h
  rfl

theorem deadlines_doRead (deadline : Option ℤ) (s : Session M Rq B) (δ : ℤ) :
    δ ∈ (s.doRead deadline).deadlines ↔ δ ∈ s.deadlines ∨ deadline = some δ := by
  have hunsent : (s.doRead deadline).unsent = s.unsent := rfl
  have hhandshakes : (s.doRead deadline).handshakes = s.handshakes := rfl
  have hreads : (s.doRead deadline).reads = s.reads ++ [deadline] := rfl
  simp only [deadlines, hunsent, hhandshakes, hreads, List.filterMap_append, List.mem_append,
    List.mem_filterMap, List.mem_singleton, id, exists_eq_left]
  grind

theorem deadlines_doHandshake (func : List (Call M)) (deadline : Option ℤ) (s : Session M Rq B)
    (δ : ℤ) :
    δ ∈ (s.doHandshake func deadline).deadlines ↔
      δ ∈ s.deadlines ∨ deadline = some δ := by
  have hunsent : (s.doHandshake func deadline).unsent = s.unsent := rfl
  have hreads : (s.doHandshake func deadline).reads = s.reads := rfl
  have hhandshakes : (s.doHandshake func deadline).handshakes =
      s.handshakes ++ [⟨func, deadline⟩] := rfl
  simp only [deadlines, hunsent, hhandshakes, hreads, List.filterMap_append, List.mem_append,
    List.mem_filterMap, List.mem_singleton, exists_eq_left]
  grind

theorem unsent_enqueue (message : M) (deadline : Option ℤ) (s : Session M Rq B) :
    (s.enqueue P message deadline).unsent = s.unsent ++ [⟨s.allocated, message, deadline⟩] := by
  cases hq : s.queue with
  | nil =>
    simp only [enqueue, hq, ConnQueue.push_nil, handled, unsent]
    simp [doWrite, emit]
  | cons x items =>
    simp only [enqueue, hq, ConnQueue.push_cons, handled, unsent]
    simp [emit]

theorem rest_handled (next : Option (Item M)) (s : Session M Rq B) :
    (s.handled P next).reads = s.reads ∧ (s.handled P next).handshakes = s.handshakes ∧
      (s.handled P next).timer = s.timer := by
  cases next <;> exact ⟨rfl, rfl, rfl⟩

theorem rest_enqueue (message : M) (deadline : Option ℤ) (s : Session M Rq B) :
    (s.enqueue P message deadline).reads = s.reads ∧
      (s.enqueue P message deadline).handshakes = s.handshakes ∧
      (s.enqueue P message deadline).timer = s.timer :=
  rest_handled P _ _

theorem deadlines_enqueue (message : M) (deadline : Option ℤ) (s : Session M Rq B) (δ : ℤ) :
    δ ∈ (s.enqueue P message deadline).deadlines ↔
      δ ∈ s.deadlines ∨ deadline = some δ := by
  obtain ⟨hreads, hhandshakes, -⟩ := rest_enqueue P message deadline s
  simp only [deadlines, unsent_enqueue, hreads, hhandshakes, List.filterMap_append,
    List.mem_append, List.mem_filterMap, List.mem_singleton, exists_eq_left]
  grind

theorem deadlines_queueOnWrite (s : Session M Rq B) :
    (s.queueOnWrite P).deadlines = s.deadlines := by
  have hunsent : (s.queueOnWrite P).unsent = s.unsent := by
    cases hq : s.queue with
    | nil =>
      simp only [queueOnWrite, hq, ConnQueue.onWrite]
      rfl
    | cons x items =>
      simp only [queueOnWrite, hq, ConnQueue.onWrite_cons, unsent]
      cases items <;> simp [handled, doWrite, emit]
  have hrest : (s.queueOnWrite P).reads = s.reads ∧
      (s.queueOnWrite P).handshakes = s.handshakes := by
    unfold queueOnWrite
    split
    · exact ⟨rfl, rfl⟩
    · next items next _ =>
      obtain ⟨hreads, hhandshakes, -⟩ := rest_handled P next { s with queue := items }
      exact ⟨hreads, hhandshakes⟩
  rw [deadlines, hunsent, hrest.1, hrest.2, ← deadlines]

theorem timer_queueOnWrite (s : Session M Rq B) : (s.queueOnWrite P).timer = s.timer := by
  unfold queueOnWrite
  split
  · rfl
  · exact (rest_handled P _ _).2.2

def Cancelled (s t : Session M Rq B) : Prop :=
  t.timer = s.timer.cancel s.now ∧ t.deadlines = s.deadlines

theorem Cancelled.guarded_iff {s t : Session M Rq B} (h : Cancelled s t) :
    t.Guarded ↔ s.deadlines = [] := by
  rw [Guarded, h.1, h.2]
  exact Timer.guards_of_idle (Timer.pendings_cancel _ _) _

theorem Cancelled.single {s t : Session M Rq B} (h : Cancelled s t) : t.timer.Single := by
  rw [h.1]
  exact Timer.single_cancel s.now s.timer

theorem cancelled_cancelTimer (s : Session M Rq B) : Cancelled s s.cancelTimer := ⟨rfl, rfl⟩

theorem cancelled_onRead (ec : ErrorCode) (s : Session M Rq B) : Cancelled s (s.onRead P ec) := by
  obtain ⟨u, hu, heq⟩ := onRead_eq P ec s
  rw [heq, Cancelled, ← hu.timer_eq, ← hu.deadlines_eq]
  split_ifs <;> exact ⟨rfl, rfl⟩

theorem cancelled_onWrite (ec : ErrorCode) (close : Bool) (s : Session M Rq B) :
    Cancelled s (s.onWrite P ec close) := by
  obtain ⟨u, hu, heq⟩ := onWrite_eq P ec close s
  rw [heq, Cancelled, ← hu.timer_eq, ← hu.deadlines_eq]
  split_ifs
  · exact ⟨rfl, rfl⟩
  · exact ⟨timer_queueOnWrite P u, deadlines_queueOnWrite P u⟩

theorem cancelled_onHandshake (ec : ErrorCode) (s : Session M Rq B) :
    Cancelled s (s.onHandshake P ec) :=
  have h := control_onHandshake P ec s
  ⟨h.timer_eq, h.deadlines_eq⟩

theorem timer_call (c : Call M) (s : Session M Rq B) :
    (s.call P c).timer = c.duration.elim s.timer
      fun d => (s.timer.expiresFromNow s.now d).asyncWait := by
  cases c with
  | recv => rfl
  | recvFor d => rfl
  | send m => exact (rest_handled P _ _).2.2
  | sendFor m d => exact (rest_handled P _ _).2.2

theorem deadlines_call (c : Call M) (s : Session M Rq B) (δ : ℤ) :
    δ ∈ (s.call P c).deadlines ↔
      δ ∈ s.deadlines ∨ c.duration.map (s.now + ·) = some δ := by
  cases c with
  | recv => exact deadlines_doRead none s δ
  | recvFor d => exact deadlines_doRead (some (s.now + d)) (s.doTimer d) δ
  | send m => exact deadlines_enqueue P m none s δ
  | sendFor m d => exact deadlines_enqueue P m (some (s.now + d)) (s.doTimer d) δ

theorem guarded_call (c : Call M) (s : Session M Rq B) :
    (s.call P c).Guarded ↔
      c.duration.elim s.Guarded fun d => ∀ δ ∈ s.deadlines, s.now + d ≤ δ := by
  have hmem := deadlines_call P c s
  unfold Guarded
  rw [timer_call]
  cases hd : c.duration with
  | none =>
    rw [hd] at hmem
    exact Timer.guards_congr fun δ => by simpa using hmem δ
  | some d =>
    rw [hd] at hmem
    rw [Option.elim_some, Timer.guards_rearm]
    constructor
    · intro h δ hδ
      exact h δ ((hmem δ).mpr (.inl hδ))
    · intro h δ hδ
      rcases (hmem δ).mp hδ with hδ | hδ
      · exact h δ hδ
      · exact Int.le_of_eq (Option.some.inj hδ)

theorem now_calls (func : List (Call M)) (s : Session M Rq B) : (s.calls P func).now = s.now :=
  congrArg (fun a => a.2.2.2.1) (flow_calls P func s).ambient_eq

theorem deadlines_calls (func : List (Call M)) (s : Session M Rq B) (δ : ℤ) :
    δ ∈ (s.calls P func).deadlines ↔
      δ ∈ s.deadlines ∨ ∃ d ∈ func.filterMap Call.duration, s.now + d = δ := by
  induction func generalizing s with
  | nil => simp [calls]
  | cons c func ih =>
    have hnow : (s.call P c).now = s.now := now_calls P [c] s
    have hstep := ih (s.call P c)
    rw [deadlines_call, hnow, or_assoc] at hstep
    refine hstep.trans (or_congr_right ?_)
    cases hc : c.duration <;> simp [hc]

theorem guarded_calls (func : List (Call M)) (s : Session M Rq B) :
    (s.calls P func).Guarded ↔
      (func.filterMap Call.duration).getLast?.elim s.Guarded fun d =>
        (∀ δ ∈ s.deadlines, s.now + d ≤ δ) ∧
          ∀ d' ∈ func.filterMap Call.duration, d ≤ d' := by
  induction func using List.reverseRecOn with
  | nil => exact Iff.rfl
  | append_singleton func c ih =>
    have hlast : s.calls P (func ++ [c]) = (s.calls P func).call P c := by simp [calls]
    have hmem := deadlines_calls P func s
    rw [hlast, guarded_call, now_calls, List.filterMap_append]
    cases hc : c.duration with
    | none => simpa [hc] using ih
    | some d =>
      simp only [Option.elim_some, List.filterMap_cons, hc, List.filterMap_nil,
        List.getLast?_append, List.getLast?_singleton, Option.some_or, hmem, List.mem_append,
        List.mem_singleton]
      constructor
      · intro h
        refine ⟨fun δ hδ => h δ (.inl hδ), ?_⟩
        rintro d' (hd' | rfl)
        · exact Int.le_of_add_le_add_left (h _ (.inr ⟨d', hd', rfl⟩))
        · exact Int.le_refl d'
      · rintro ⟨hs, hfunc⟩ δ (hδ | ⟨d', hd', rfl⟩)
        · exact hs δ hδ
        · exact Int.add_le_add_left (hfunc d' (.inl hd')) s.now

theorem not_guarded_doHandshakeFor (func : List (Call M)) (d : ℤ) (s : Session M Rq B) :
    ¬ (s.doHandshakeFor func d).Guarded := by
  intro h
  have hmem : s.now + d ∈ (s.doHandshakeFor func d).deadlines :=
    (deadlines_doHandshake func (some (s.now + d)) (s.expiresFromNow d) _).mpr (.inr rfl)
  obtain ⟨w, hw, -⟩ := h _ hmem
  have hidle : (s.doHandshakeFor func d).timer.pendings = [] :=
    Timer.pendings_expiresFromNow s.now d s.timer
  simp [hidle] at hw

def rearmedBy (s : Session M Rq B) (i : ℕ) : ErrorCode → List ℤ
  | .success => s.handshakes[i]?.elim [] fun h => h.func.filterMap Call.duration
  | _ => []

def keepsGuard (s : Session M Rq B) : Event M B Rq → Prop
  | .call c => ∀ d, c.duration = some d → ∀ δ ∈ s.deadlines, s.now + d ≤ δ
  | .handshakeFor _ _ => False
  | .readCompleted i _ _ _ => (s.dropRead i).deadlines = []
  | .writeCompleted i _ => (s.dropWrite i).deadlines = []
  | .handshakeCompleted i ec =>
    (s.rearmedBy i ec).getLast?.elim ((s.dropHandshake i).deadlines = []) fun d =>
      (∀ δ ∈ (s.dropHandshake i).deadlines, s.now + d ≤ δ) ∧
      ∀ d' ∈ s.rearmedBy i ec, d ≤ d'
  | .waitCompleted i =>
    s.isOpen = true ∨ s.deadlines = [] ∨ ∀ w, s.timer.waits[i]? = some w → ¬ w.Pending
  | _ => True

theorem guarded_handshakeDone {i : ℕ} {h : Handshake M} (ec : ErrorCode) (s : Session M Rq B)
    (hi : s.handshakes[i]? = some h) :
    ((s.dropHandshake i).handshakeDone P h.func ec).Guarded ↔
      s.keepsGuard (.handshakeCompleted i ec : Event M B Rq) := by
  cases hec : ec.failed with
  | true =>
    have hnone : s.rearmedBy i ec = [] := by
      cases ec <;> first | rfl | cases hec
    rw [handshakeDone, if_pos hec, (cancelled_onHandshake P ec _).guarded_iff, keepsGuard,
      hnone, List.getLast?_nil, Option.elim_none]
  | false =>
    obtain rfl := (ErrorCode.failed_eq_false ec).mp hec
    have hrearm : s.rearmedBy i .success = h.func.filterMap Call.duration := by
      simp [rearmedBy, hi]
    have hcancel := (control_cancelTimer (s.dropHandshake i)).deadlines_eq
    have hidle : (s.dropHandshake i).cancelTimer.Guarded ↔ (s.dropHandshake i).deadlines = [] :=
      (cancelled_cancelTimer _).guarded_iff
    have hnow : (s.dropHandshake i).cancelTimer.now = s.now := rfl
    rw [handshakeDone, onHandshake_success, if_neg (by simp [ErrorCode.failed]), guarded_calls,
      keepsGuard, hrearm, hcancel, hnow]
    cases (h.func.filterMap Call.duration).getLast? with
    | none => exact hidle
    | some d => exact Iff.rfl

theorem single_step {s t : Session M Rq B} {e : Event M B Rq} (hs : s.timer.Single)
    (h : s.step P e = some t) : t.timer.Single := by
  have hcall (c : Call M) (u : Session M Rq B) (hu : u.timer.Single) :
      (u.call P c).timer.Single := by
    rw [timer_call]
    cases c.duration with
    | none => exact hu
    | some d => exact Timer.single_rearm u.now d u.timer
  have hcalls (func : List (Call M)) (u : Session M Rq B) (hu : u.timer.Single) :
      (u.calls P func).timer.Single := by
    induction func generalizing u with
    | nil => exact hu
    | cons c func ih => exact ih (u.call P c) (hcall c u hu)
  cases moves_of_step P h with
  | call c => exact hcall c s hs
  | handshake func => exact hs
  | handshakeFor func d => exact Timer.single_expiresFromNow s.now d s.timer
  | readCompleted i ec received partialMessage u => exact (cancelled_onRead P ec u).single
  | writeCompleted i ec w => exact (cancelled_onWrite P ec w.close _).single
  | handshakeCompleted i ec f =>
    have hdone := (cancelled_onHandshake P ec (s.dropHandshake i)).single
    simp only [handshakeDone]
    split_ifs
    · exact hdone
    · exact hcalls f.func _ hdone
  | waitCompleted i t ht =>
    rw [(control_waitDone P ht).timer_eq]
    exact Timer.single_drop hs i
  | elapse ticks => exact hs
  | closeSocket => exact hs

theorem timedOut_step {s t : Session M Rq B} {e : Event M B Rq}
    (he : ∀ i, e ≠ .waitCompleted i) (h : s.step P e = some t) : t.timedOut = s.timedOut := by
  cases e with
  | waitCompleted i => exact absurd rfl (he i)
  | elapse ticks => exact Option.some.inj h ▸ rfl
  | closeSocket => exact Option.some.inj h ▸ rfl
  | _ => exact congrArg (fun a => a.2.2.2.2) (ambient_step P rfl h)

theorem guarded_step {s t : Session M Rq B} {e : Event M B Rq} (hg : s.Guarded)
    (he : ∀ i, e ≠ .waitCompleted i) (h : s.step P e = some t) :
    t.Guarded ↔ s.keepsGuard e := by
  cases moves_of_step P h with
  | call c =>
    rw [guarded_call, keepsGuard]
    cases c.duration with
    | none => simpa using hg
    | some d => simp
  | handshake func =>
    have hmem := deadlines_doHandshake func none s
    refine iff_of_true ?_ trivial
    exact (Timer.guards_congr fun δ => by simpa using hmem δ).mpr hg
  | handshakeFor func d => exact iff_of_false (not_guarded_doHandshakeFor func d s) id
  | readCompleted i ec received partialMessage u hu =>
    have hread : u.deadlines = (s.dropRead i).deadlines := by
      rw [parseInto_eq P hu]
      rfl
    rw [(cancelled_onRead P ec u).guarded_iff, hread, keepsGuard]
  | writeCompleted i ec w =>
    rw [(cancelled_onWrite P ec w.close _).guarded_iff, keepsGuard]
  | handshakeCompleted i ec f hf => exact guarded_handshakeDone P ec s hf
  | waitCompleted i => exact absurd rfl (he i)
  | elapse ticks => exact iff_of_true hg trivial
  | closeSocket => exact iff_of_true hg trivial

theorem guarded_waitDone {i : ℕ} {s t : Session M Rq B} (hs : s.timer.Single) (hg : s.Guarded)
    (hout : s.timedOut = false) (h : s.waitDone P i = some t) :
    (t.timedOut = true ∨ t.Guarded) ↔ s.keepsGuard (.waitCompleted i : Event M B Rq) := by
  have hcontrol := control_waitDone P h
  have hguard : t.Guarded ↔ (s.timer.drop i).Guards s.deadlines := by
    rw [Guarded, hcontrol.timer_eq, hcontrol.deadlines_eq]
  obtain ⟨ec, hec, -⟩ := Option.map_eq_some_iff.mp h
  obtain ⟨w, hw, hresult⟩ := Option.bind_eq_some_iff.mp hec
  by_cases hpending : w.Pending
  · have hdue : s.timer.expiry ≤ s.now := by
      rw [Wait.result, show w.abortedAt = none from hpending] at hresult
      exact Timer.expiry_of_pending hs hw hpending ▸ (Option.ite_none_right_eq_some.mp hresult).1
    have hopen : t.timedOut = s.isOpen := by simp [hcontrol.timedOut_eq, hout, hdue]
    rw [hopen, hguard, Timer.guards_drop_pending hs hw hpending, keepsGuard]
    constructor
    · rintro (h | h)
      · exact .inl h
      · exact .inr (.inl h)
    · rintro (h | h | h)
      · exact .inl h
      · exact .inr h
      · exact absurd hpending (h w hw)
  · refine iff_of_true (.inr (hguard.mpr ((Timer.guards_drop_aborted hw hpending _).mpr hg))) ?_
    refine .inr (.inr fun v hv => ?_)
    rwa [← Option.some.inj (hw.symm.trans hv)]

theorem timedOut_waitDone {i : ℕ} {s t : Session M Rq B} (hout : s.timedOut = true)
    (h : s.waitDone P i = some t) : t.timedOut = true := by
  rw [(control_waitDone P h).timedOut_eq, hout, Bool.true_or]

theorem safe_step {s t : Session M Rq B} {e : Event M B Rq} (hs : s.timer.Single)
    (hg : s.timedOut = true ∨ s.Guarded) (h : s.step P e = some t) :
    (t.timedOut = true ∨ t.Guarded) ↔ (s.timedOut = true ∨ s.keepsGuard e) := by
  by_cases hwait : ∃ i, e = .waitCompleted i
  · obtain ⟨i, rfl⟩ := hwait
    cases hout : s.timedOut with
    | true => exact iff_of_true (.inl (timedOut_waitDone P hout h)) (.inl rfl)
    | false => simpa using guarded_waitDone P hs (by simpa [hout] using hg) hout h
  · have he (i : ℕ) : e ≠ .waitCompleted i := fun heq => hwait ⟨i, heq⟩
    rw [timedOut_step P he h]
    cases hout : s.timedOut with
    | true => simp
    | false => simpa using guarded_step P (by simpa [hout] using hg) he h

theorem timed_operations_guarded_iff (isSsl onError isOpen : Bool) (now : ℤ)
    (es : List (Event M B Rq)) :
    (∀ es' t, es' <+: es → run P (init P isSsl onError isOpen now) es' = some t →
      t.timedOut = true ∨ t.Guarded) ↔
    Transition.Along (step P) (fun s e _ => s.timedOut = true ∨ s.keepsGuard e)
      (init P isSsl onError isOpen now) es := by
  have hstart : (init P isSsl onError isOpen now).timedOut = true ∨
      (init P isSsl onError isOpen now).Guarded := .inr (by simp [Guarded, Timer.Guards, deadlines,
        unsent, init])
  rw [Transition.forall_prefix_iff_along es]
  exact (and_iff_right hstart).trans (Transition.along_iff_admissible
    (I := fun s => s.timer.Single) (fun s e t hs h => single_step P hs h)
    (fun s e t hs hg h => safe_step P hs hg h) Timer.single_new hstart es)

theorem timed_operations_not_guarded :
    ¬ ∀ (es : List (Event ℕ ℕ ℕ)) (t : Session ℕ ℕ ℕ),
      run .sample (init .sample false true true 0) es = some t →
        t.timedOut = true ∨ t.Guarded := by
  intro h
  have hlost := h [.call (.sendFor 7 1000), .call (.recvFor 1000), .writeCompleted 0 .success] _ rfl
  revert hlost
  unfold Guarded
  decide

end BeastRouter.Session
