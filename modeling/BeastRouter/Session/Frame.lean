import Mathlib.Tactic.SplitIfs
import BeastRouter.Session

namespace BeastRouter.Session
variable {M Rq B : Type} (P : Platform M Rq B)

inductive Moves (P : Platform M Rq B) (s : Session M Rq B) :
    Event M B Rq → Session M Rq B → Prop where
  | call (c : Call M) : Moves P s (.call c) (s.call P c)
  | handshake (func : List (Call M)) (hssl : s.isSsl = true) :
    Moves P s (.handshake func) (s.doHandshake func none)
  | handshakeFor (func : List (Call M)) (duration : ℤ) (hssl : s.isSsl = true) :
    Moves P s (.handshakeFor func duration) (s.doHandshakeFor func duration)
  | readCompleted (i : ℕ) (ec : ErrorCode) (received : List B) (partialMessage : Rq)
    (u : Session M Rq B) (hu : (s.dropRead i).parseInto P ec received partialMessage = some u)
    (hi : i < s.reads.length) :
    Moves P s (.readCompleted i ec received partialMessage) (u.onRead P ec)
  | writeCompleted (i : ℕ) (ec : ErrorCode) (w : Write M) (hw : s.writes[i]? = some w) :
    Moves P s (.writeCompleted i ec) ((s.dropWrite i).onWrite P ec w.close)
  | handshakeCompleted (i : ℕ) (ec : ErrorCode) (f : Handshake M)
    (hf : s.handshakes[i]? = some f) :
    Moves P s (.handshakeCompleted i ec) ((s.dropHandshake i).handshakeDone P f.func ec)
  | waitCompleted (i : ℕ) (t : Session M Rq B) (ht : s.waitDone P i = some t) :
    Moves P s (.waitCompleted i) t
  | elapse (ticks : ℕ) : Moves P s (.elapse ticks) { s with now := s.now + ticks }
  | closeSocket : Moves P s .closeSocket { s with isOpen := false }

theorem readDone_eq {i : ℕ} {ec : ErrorCode} {received : List B} {partialMessage : Rq}
    {s t : Session M Rq B} (h : s.readDone P i ec received partialMessage = some t) :
    i < s.reads.length ∧
      ∃ u, (s.dropRead i).parseInto P ec received partialMessage = some u ∧
        u.onRead P ec = t := by
  simp only [readDone, Option.ite_none_right_eq_some] at h
  exact ⟨h.1, Option.map_eq_some_iff.mp h.2⟩

theorem moves_of_step {s t : Session M Rq B} {e : Event M B Rq} (h : s.step P e = some t) :
    Moves P s e t := by
  cases e with
  | call c => exact Option.some.inj h ▸ .call c
  | handshake func =>
    simp only [step, Option.ite_none_right_eq_some, Option.some.injEq] at h
    exact h.2 ▸ .handshake func h.1
  | handshakeFor func d =>
    simp only [step, Option.ite_none_right_eq_some, Option.some.injEq] at h
    exact h.2 ▸ .handshakeFor func d h.1
  | readCompleted i ec received partialMessage =>
    obtain ⟨hi, u, hu, rfl⟩ := readDone_eq P h
    exact .readCompleted i ec received partialMessage u hu hi
  | writeCompleted i ec =>
    obtain ⟨w, hw, rfl⟩ := Option.map_eq_some_iff.mp h
    exact .writeCompleted i ec w hw
  | handshakeCompleted i ec =>
    obtain ⟨f, hf, rfl⟩ := Option.map_eq_some_iff.mp h
    exact .handshakeCompleted i ec f hf
  | waitCompleted i => exact .waitCompleted i t h
  | elapse ticks => exact Option.some.inj h ▸ .elapse ticks
  | closeSocket => exact Option.some.inj h ▸ .closeSocket

def Control (timer : Timer) (timedOut : Bool) (s t : Session M Rq B) : Prop :=
  ∃ shutdowns, ∃ as : List (Action M Rq), (∀ a ∈ as, a.isControl = true) ∧
    t = { s with
      timer := timer, timedOut := timedOut, shutdowns := shutdowns, log := s.log ++ as }

def ambient (s : Session M Rq B) : Bool × Bool × Bool × ℤ × Bool :=
  (s.isSsl, s.onError, s.isOpen, s.now, s.timedOut)

def incoming (s : Session M Rq B) : Parser Rq × List B × List Rq :=
  (s.parser, s.buffer, s.dispatched)

theorem inert_of_isControl {a : Action M Rq} (h : a.isControl = true) :
    a.asPush = none ∧ a.asWrite = none ∧ a.asDispatch = none ∧ a.isPopEmpty = false := by
  cases a <;> first | exact ⟨rfl, rfl, rfl, rfl⟩ | cases h

namespace Control
variable {timer timer' : Timer} {timedOut timedOut' : Bool} {s t u : Session M Rq B}

theorem refl (s : Session M Rq B) : Control s.timer s.timedOut s s :=
  ⟨s.shutdowns, [], by simp, by simp⟩

theorem trans (h : Control timer timedOut s t) (k : Control timer' timedOut' t u) :
    Control timer' timedOut' s u := by
  obtain ⟨shutdowns, as, has, rfl⟩ := h
  obtain ⟨shutdowns', bs, hbs, rfl⟩ := k
  refine ⟨shutdowns', as ++ bs, ?_, by simp⟩
  intro a ha
  rcases List.mem_append.mp ha with ha | ha
  · exact has a ha
  · exact hbs a ha

theorem timer_eq (h : Control timer timedOut s t) : t.timer = timer := by
  obtain ⟨shutdowns, as, -, rfl⟩ := h
  rfl

theorem timedOut_eq (h : Control timer timedOut s t) : t.timedOut = timedOut := by
  obtain ⟨shutdowns, as, -, rfl⟩ := h
  rfl

theorem onError_eq (h : Control timer timedOut s t) : t.onError = s.onError := by
  obtain ⟨shutdowns, as, -, rfl⟩ := h
  rfl

theorem ambient_eq (h : Control timer s.timedOut s t) : t.ambient = s.ambient := by
  obtain ⟨shutdowns, as, -, rfl⟩ := h
  rfl

theorem incoming_eq (h : Control timer timedOut s t) : t.incoming = s.incoming := by
  obtain ⟨shutdowns, as, has, rfl⟩ := h
  have hnone : as.filterMap Action.asDispatch = [] :=
    List.filterMap_eq_nil_iff.mpr fun a ha => (inert_of_isControl (has a ha)).2.2.1
  simp [incoming, dispatched, hnone]

theorem then_emit (h : Control timer timedOut s t) {a : Action M Rq} (ha : a.isControl = true) :
    Control timer timedOut s (t.emit a) := by
  obtain ⟨shutdowns, as, has, rfl⟩ := h
  refine ⟨shutdowns, as ++ [a], ?_, by simp [emit]⟩
  intro b hb
  rcases List.mem_append.mp hb with hb | hb
  · exact has b hb
  · exact List.mem_singleton.mp hb ▸ ha

theorem then_report (h : Control timer timedOut s t) (ec : ErrorCode) (what : String) :
    Control timer timedOut s (t.report ec what) := by
  rw [report]
  split_ifs
  · exact h.then_emit rfl
  · exact h

theorem then_doEof (h : Control timer timedOut s t) (type : ShutdownType) :
    Control timer timedOut s (t.doEof P type) := by
  have hshut : Control timer timedOut s
      (emit (.shutdown type) { t with shutdowns := t.shutdowns + 1 }) := by
    apply then_emit _ rfl
    obtain ⟨shutdowns, as, has, rfl⟩ := h
    exact ⟨shutdowns + 1, as, has, rfl⟩
  simp only [doEof]
  split_ifs
  · exact h
  · exact hshut.then_emit rfl
  · exact hshut

end Control

theorem control_setTimer (timer : Timer) (s : Session M Rq B) :
    Control timer s.timedOut s { s with timer := timer } :=
  ⟨s.shutdowns, [], by simp, by simp⟩

theorem control_cancelTimer (s : Session M Rq B) :
    Control (s.timer.cancel s.now) s.timedOut s s.cancelTimer :=
  (control_setTimer _ s).then_emit rfl

theorem control_expiresFromNow (d : ℤ) (s : Session M Rq B) :
    Control (s.timer.expiresFromNow s.now d) s.timedOut s (s.expiresFromNow d) :=
  (control_setTimer _ s).then_emit rfl

theorem control_doTimer (d : ℤ) (s : Session M Rq B) :
    Control (s.timer.expiresFromNow s.now d).asyncWait s.timedOut s (s.doTimer d) :=
  (control_expiresFromNow d s).trans ((control_setTimer _ _).then_emit rfl)

theorem control_onTimer {ec : ErrorCode} (hec : ec = .success ∨ ec = .operationAborted)
    (s : Session M Rq B) :
    Control s.timer (s.timedOut || (s.isOpen && decide (s.timer.expiry ≤ s.now))) s
      (s.onTimer P ec) := by
  have hgo : (ec.failed && ec != .operationAborted) = false := by
    rcases hec with rfl | rfl <;> rfl
  have hout (b : Bool) : Control s.timer b s { s with timedOut := b } :=
    ⟨s.shutdowns, [], by simp, by simp⟩
  simp only [onTimer, hgo, Bool.false_eq_true, if_false]
  split_ifs with hdue
  · rw [decide_eq_true hdue, Bool.and_true]
    exact ((hout _).then_report _ _).then_doEof P _
  · rw [decide_eq_false hdue, Bool.and_false, Bool.or_false]
    exact .refl s

theorem control_waitDone {i : ℕ} {s t : Session M Rq B} (h : s.waitDone P i = some t) :
    Control (s.timer.drop i)
      (s.timedOut || (s.isOpen && decide (s.timer.expiry ≤ s.now))) s t := by
  obtain ⟨ec, hec, rfl⟩ := Option.map_eq_some_iff.mp h
  obtain ⟨w, -, hresult⟩ := Option.bind_eq_some_iff.mp hec
  exact (control_setTimer _ s).trans (control_onTimer P (Wait.result_cases hresult) _)

theorem control_onHandshake (ec : ErrorCode) (s : Session M Rq B) :
    Control (s.timer.cancel s.now) s.timedOut s (s.onHandshake P ec) := by
  have hcancel := control_cancelTimer s
  simp only [onHandshake]
  split_ifs
  · exact hcancel.then_doEof P _
  · exact hcancel.then_emit rfl
  · exact hcancel

theorem onHandshake_success (s : Session M Rq B) :
    s.onHandshake P .success = s.cancelTimer := by
  simp [onHandshake, ErrorCode.failed]

theorem onRead_eq (ec : ErrorCode) (s : Session M Rq B) :
    ∃ u, Control (s.timer.cancel s.now) s.timedOut s u ∧
      s.onRead P ec = if ec = .endOfStream then u else u.doProcessRequest P := by
  have hcancel := control_cancelTimer s
  simp only [onRead]
  split_ifs
  · exact ⟨_, hcancel.then_doEof P _, rfl⟩
  · exact ⟨_, hcancel.then_emit rfl, rfl⟩
  · exact ⟨_, hcancel, rfl⟩

theorem onWrite_eq (ec : ErrorCode) (close : Bool) (s : Session M Rq B) :
    ∃ u, Control (s.timer.cancel s.now) s.timedOut s u ∧
      s.onWrite P ec close =
        if ec == .endOfStream || (ec.failed && s.onError) || close then u
        else u.queueOnWrite P := by
  have hcancel := control_cancelTimer s
  have hon : s.cancelTimer.onError = s.onError := rfl
  by_cases heof : ec = .endOfStream
  · exact ⟨_, hcancel.then_doEof P .shutdownBoth, by simp [onWrite, heof]⟩
  cases herr : ec.failed && s.onError with
  | true =>
    exact ⟨s.cancelTimer.emit (.onError ec "async_write/on_write"), hcancel.then_emit rfl,
      by simp [onWrite, heof, hon, herr]⟩
  | false =>
    cases close with
    | true =>
      exact ⟨_, hcancel.then_doEof P .shutdownBoth, by simp [onWrite, heof, hon, herr]⟩
    | false => exact ⟨_, hcancel, by simp [onWrite, heof, hon, herr]⟩

theorem parseInto_eq {ec : ErrorCode} {received : List B} {partialMessage : Rq}
    {s t : Session M Rq B} (h : s.parseInto P ec received partialMessage = some t) :
    t = { s with parser := t.parser, buffer := t.buffer } := by
  unfold parseInto at h
  split_ifs at h
  · exact Option.some.inj h ▸ rfl
  · exact Option.some.inj h ▸ rfl
  · exact Option.some.inj h ▸ rfl
  · obtain ⟨⟨message, rest⟩, -, rfl⟩ := Option.map_eq_some_iff.mp h
    rfl

def isFlow : Action M Rq → Bool
  | .shutdown _ => false
  | .processRequest _ => false
  | .onError _ _ => false
  | _ => true

def steady (s : Session M Rq B) :
    (Bool × Bool × Bool × ℤ × Bool) × ℕ × Parser Rq × List B :=
  (s.ambient, s.shutdowns, s.parser, s.buffer)

def Flow (s t : Session M Rq B) : Prop :=
  t.steady = s.steady ∧ ∃ as, (∀ a ∈ as, isFlow a = true) ∧ t.log = s.log ++ as

namespace Flow
variable {s t u : Session M Rq B}

theorem of_eq (hsteady : t.steady = s.steady) (hlog : t.log = s.log) : Flow s t :=
  ⟨hsteady, [], by simp, by simp [hlog]⟩

theorem trans (h : Flow s t) (k : Flow t u) : Flow s u := by
  obtain ⟨hsteady, as, has, hlog⟩ := h
  obtain ⟨ksteady, bs, hbs, klog⟩ := k
  refine ⟨ksteady.trans hsteady, as ++ bs, ?_, by rw [klog, hlog, List.append_assoc]⟩
  exact List.forall_mem_append.mpr ⟨has, hbs⟩

theorem then_emit (h : Flow s t) {a : Action M Rq} (ha : isFlow a = true) : Flow s (t.emit a) :=
  h.trans ⟨rfl, [a], by simpa using ha, rfl⟩

theorem ambient_eq (h : Flow s t) : t.ambient = s.ambient := congrArg Prod.fst h.1

theorem shutdowns_eq (h : Flow s t) : t.shutdowns = s.shutdowns := congrArg (fun x => x.2.1) h.1

theorem incoming_eq (h : Flow s t) : t.incoming = s.incoming := by
  obtain ⟨hsteady, as, has, hlog⟩ := h
  have hnone : as.filterMap Action.asDispatch = [] := by
    refine List.filterMap_eq_nil_iff.mpr fun a ha => ?_
    have hflow := has a ha
    cases a <;> first | rfl | cases hflow
  have hread : (t.parser, t.buffer) = (s.parser, s.buffer) := congrArg (fun x => x.2.2) hsteady
  obtain ⟨hparser, hbuffer⟩ := Prod.mk.inj hread
  simp [incoming, dispatched, hlog, hnone, hparser, hbuffer]

end Flow

theorem flow_cancelTimer (s : Session M Rq B) : Flow s s.cancelTimer :=
  (Flow.of_eq rfl rfl).then_emit rfl

theorem flow_expiresFromNow (d : ℤ) (s : Session M Rq B) : Flow s (s.expiresFromNow d) :=
  (Flow.of_eq rfl rfl).then_emit rfl

theorem flow_doTimer (d : ℤ) (s : Session M Rq B) : Flow s (s.doTimer d) :=
  (flow_expiresFromNow d s).trans ((Flow.of_eq rfl rfl).then_emit rfl)

theorem flow_doRead (deadline : Option ℤ) (s : Session M Rq B) : Flow s (s.doRead deadline) :=
  (Flow.of_eq rfl rfl).then_emit rfl

theorem flow_doHandshake (func : List (Call M)) (deadline : Option ℤ) (s : Session M Rq B) :
    Flow s (s.doHandshake func deadline) :=
  (Flow.of_eq rfl rfl).then_emit rfl

theorem flow_handled (next : Option (Item M)) (s : Session M Rq B) :
    Flow s (s.handled P next) := by
  cases next with
  | none => exact .of_eq rfl rfl
  | some item => exact (Flow.of_eq rfl rfl).then_emit rfl

theorem flow_enqueue (message : M) (deadline : Option ℤ) (s : Session M Rq B) :
    Flow s (s.enqueue P message deadline) := by
  have hpush (item : Item M) (items : List (Item M)) (k : ℕ) :
      Flow s (emit (.push item) { s with queue := items, allocated := k }) :=
    (Flow.of_eq rfl rfl).then_emit rfl
  exact (hpush _ _ _).trans (flow_handled P _ _)

theorem flow_call (c : Call M) (s : Session M Rq B) : Flow s (s.call P c) := by
  cases c with
  | recv => exact flow_doRead none s
  | recvFor d => exact (flow_doTimer d s).trans (flow_doRead _ _)
  | send m => exact flow_enqueue P m none s
  | sendFor m d => exact (flow_doTimer d s).trans (flow_enqueue P m _ _)

theorem flow_calls (func : List (Call M)) (s : Session M Rq B) : Flow s (s.calls P func) := by
  induction func generalizing s with
  | nil => exact .of_eq rfl rfl
  | cons c func ih => exact (flow_call P c s).trans (ih (s.call P c))

theorem flow_queueOnWrite (s : Session M Rq B) : Flow s (s.queueOnWrite P) := by
  have hqueue (items : List (Item M)) : Flow s { s with queue := items } := .of_eq rfl rfl
  unfold queueOnWrite
  split
  · exact (Flow.of_eq rfl rfl).then_emit rfl
  · exact (hqueue _).trans (flow_handled P _ _)

theorem ambient_onRead (ec : ErrorCode) (s : Session M Rq B) :
    (s.onRead P ec).ambient = s.ambient := by
  obtain ⟨u, hu, heq⟩ := onRead_eq P ec s
  rw [heq, ← hu.ambient_eq]
  split_ifs <;> rfl

theorem ambient_onWrite (ec : ErrorCode) (close : Bool) (s : Session M Rq B) :
    (s.onWrite P ec close).ambient = s.ambient := by
  obtain ⟨u, hu, heq⟩ := onWrite_eq P ec close s
  rw [heq, ← hu.ambient_eq]
  split_ifs
  · rfl
  · exact (flow_queueOnWrite P u).ambient_eq

theorem ambient_handshakeDone (func : List (Call M)) (ec : ErrorCode) (s : Session M Rq B) :
    (s.handshakeDone P func ec).ambient = s.ambient := by
  have hdone := (control_onHandshake P ec s).ambient_eq
  simp only [handshakeDone]
  split_ifs
  · exact hdone
  · exact (flow_calls P func _).ambient_eq.trans hdone

def isAmbient : Event M B Rq → Bool
  | .waitCompleted _ => true
  | .elapse _ => true
  | .closeSocket => true
  | _ => false

theorem ambient_step {s t : Session M Rq B} {e : Event M B Rq} (he : isAmbient e = false)
    (h : s.step P e = some t) : t.ambient = s.ambient := by
  cases moves_of_step P h with
  | call c => exact (flow_call P c s).ambient_eq
  | handshake func => rfl
  | handshakeFor func d => rfl
  | readCompleted i ec received partialMessage u hu =>
    rw [ambient_onRead, parseInto_eq P hu]
    rfl
  | writeCompleted i ec w => exact ambient_onWrite P ec w.close (s.dropWrite i)
  | handshakeCompleted i ec f => exact ambient_handshakeDone P f.func ec (s.dropHandshake i)
  | waitCompleted i => cases he
  | elapse ticks => cases he
  | closeSocket => cases he

theorem onError_step {s t : Session M Rq B} {e : Event M B Rq} (h : s.step P e = some t) :
    t.onError = s.onError := by
  cases e with
  | waitCompleted i => exact (control_waitDone P h).onError_eq
  | elapse ticks => exact Option.some.inj h ▸ rfl
  | closeSocket => exact Option.some.inj h ▸ rfl
  | _ => exact congrArg (fun a => a.2.1) (ambient_step P rfl h)

theorem incoming_onWrite (ec : ErrorCode) (close : Bool) (s : Session M Rq B) :
    (s.onWrite P ec close).incoming = s.incoming := by
  obtain ⟨u, hu, heq⟩ := onWrite_eq P ec close s
  rw [heq, ← hu.incoming_eq]
  split_ifs
  · rfl
  · exact (flow_queueOnWrite P u).incoming_eq

theorem incoming_step {s t : Session M Rq B} {e : Event M B Rq} (he : e.isRead = false)
    (h : s.step P e = some t) : t.incoming = s.incoming := by
  cases moves_of_step P h with
  | call c => exact (flow_call P c s).incoming_eq
  | handshake func => exact (flow_doHandshake func none s).incoming_eq
  | handshakeFor func d =>
    exact ((flow_expiresFromNow d s).trans (flow_doHandshake func _ _)).incoming_eq
  | readCompleted i ec received partialMessage u => cases he
  | writeCompleted i ec w => exact incoming_onWrite P ec w.close (s.dropWrite i)
  | handshakeCompleted i ec f =>
    have hdone := (control_onHandshake P ec (s.dropHandshake i)).incoming_eq
    simp only [handshakeDone]
    split_ifs
    · exact hdone
    · exact (flow_calls P f.func _).incoming_eq.trans hdone
  | waitCompleted i t hw => exact (control_waitDone P hw).incoming_eq
  | elapse ticks => rfl
  | closeSocket => rfl

end BeastRouter.Session
