import Mathlib.Algebra.Ring.Nat
import BeastRouter.Session.Frame

namespace BeastRouter

def Action.isIo {M Rq : Type} : Action M Rq → Bool
  | .asyncRead => true
  | .asyncWrite _ => true
  | _ => false

def Call.receives {M : Type} : Call M → ℕ
  | .recv => 1
  | .recvFor _ => 1
  | _ => 0

def Event.isHandshake {M B Rq : Type} : Event M B Rq → Bool
  | .handshake _ => true
  | .handshakeFor _ _ => true
  | _ => false

namespace Session
variable {M Rq B : Type} (P : Platform M Rq B)

def transfers (s : Session M Rq B) : List (Action M Rq) := s.log.filter Action.isIo

def transport (s : Session M Rq B) :
    List (Option ℤ) × List (Write M) × List (Item M) × List (Handshake M) ×
      List (Action M Rq) :=
  (s.reads, s.writes, s.queue, s.handshakes, s.transfers)

theorem Control.transport_eq {timer : Timer} {timedOut : Bool} {s t : Session M Rq B}
    (h : Control timer timedOut s t) : t.transport = s.transport := by
  obtain ⟨shutdowns, as, has, rfl⟩ := h
  have hnone : as.filter Action.isIo = [] := by
    refine List.filter_eq_nil_iff.mpr fun a ha => ?_
    have hcontrol := has a ha
    cases a <;> first | exact Bool.false_ne_true | cases hcontrol
  simp [transport, transfers, hnone]

structure Extends (P : Platform M Rq B) (n : ℕ) (s t : Session M Rq B) : Prop where
  reads : t.reads.length = s.reads.length + n
  writes : ∀ w ∈ t.writes, w ∈ s.writes ∨ w.close = P.needEof w.item.message
  handshakes : t.handshakes = s.handshakes
  transfers : s.transfers <+: t.transfers

namespace Extends
variable {P} {m n : ℕ} {s t u : Session M Rq B}

theorem of_transport (h : t.transport = s.transport) : Extends P 0 s t where
  reads := congrArg (fun a => a.1.length) h
  writes := by
    have hwrites : t.writes = s.writes := congrArg (fun a => a.2.1) h
    exact fun w hw => .inl (hwrites ▸ hw)
  handshakes := congrArg (fun a => a.2.2.2.1) h
  transfers := by
    have htransfers : t.transfers = s.transfers := congrArg (fun a => a.2.2.2.2) h
    exact htransfers ▸ List.prefix_refl _

theorem trans (h : Extends P m s t) (k : Extends P n t u) : Extends P (m + n) s u where
  reads := by rw [k.reads, h.reads, Nat.add_assoc]
  writes := by
    intro w hw
    rcases k.writes w hw with hw | hclose
    · exact h.writes w hw
    · exact .inr hclose
  handshakes := k.handshakes.trans h.handshakes
  transfers := h.transfers.trans k.transfers

end Extends

theorem extends_emit (a : Action M Rq) (s : Session M Rq B) : Extends P 0 s (s.emit a) where
  reads := rfl
  writes := fun _ hw => .inl hw
  handshakes := rfl
  transfers := by simp [transfers, emit]

theorem extends_doRead (deadline : Option ℤ) (s : Session M Rq B) :
    Extends P 1 s (s.doRead deadline) where
  reads := by simp [doRead, emit]
  writes := fun _ hw => .inl hw
  handshakes := rfl
  transfers := (extends_emit P .asyncRead s).transfers

theorem extends_handled (next : Option (Item M)) (s : Session M Rq B) :
    Extends P 0 s (s.handled P next) := by
  cases next with
  | none => exact .of_transport rfl
  | some item =>
    refine ⟨rfl, fun w hw => ?_, rfl, (extends_emit P (.asyncWrite item) s).transfers⟩
    rcases List.mem_append.mp hw with hw | hw
    · exact .inl hw
    · exact .inr (List.mem_singleton.mp hw ▸ rfl)

theorem extends_enqueue (message : M) (deadline : Option ℤ) (s : Session M Rq B) :
    Extends P 0 s (s.enqueue P message deadline) := by
  have hpush (item : Item M) (items : List (Item M)) (k : ℕ) :
      Extends P 0 s (emit (.push item) { s with queue := items, allocated := k }) :=
    ⟨rfl, fun _ hw => .inl hw, rfl, (extends_emit P (.push item) s).transfers⟩
  exact (hpush _ _ _).trans (extends_handled P _ _)

theorem extends_call (c : Call M) (s : Session M Rq B) :
    Extends P c.receives s (s.call P c) := by
  have htimer (d : ℤ) : Extends P 0 s (s.doTimer d) :=
    .of_transport (control_doTimer d s).transport_eq
  cases c with
  | recv => exact extends_doRead P none s
  | recvFor d => exact (htimer d).trans (extends_doRead P _ _)
  | send m => exact extends_enqueue P m none s
  | sendFor m d => exact (htimer d).trans (extends_enqueue P m _ _)

theorem extends_calls (func : List (Call M)) (s : Session M Rq B) :
    Extends P (func.map Call.receives).sum s (s.calls P func) := by
  induction func generalizing s with
  | nil => exact .of_transport rfl
  | cons c func ih => exact (extends_call P c s).trans (ih (s.call P c))

theorem extends_onRead (ec : ErrorCode) (s : Session M Rq B) : Extends P 0 s (s.onRead P ec) := by
  obtain ⟨u, hu, heq⟩ := onRead_eq P ec s
  have hcontrol : Extends P 0 s u := .of_transport hu.transport_eq
  have hprocess : Extends P 0 u (u.doProcessRequest P) :=
    ⟨rfl, fun _ hw => .inl hw, rfl,
      (extends_emit P (.processRequest u.parser.message) u).transfers⟩
  rw [heq]
  split_ifs
  · exact hcontrol
  · exact hcontrol.trans hprocess

theorem extends_queueOnWrite (s : Session M Rq B) : Extends P 0 s (s.queueOnWrite P) := by
  have hqueue (items : List (Item M)) : Extends P 0 s { s with queue := items } :=
    ⟨rfl, fun _ hw => .inl hw, rfl, List.prefix_refl _⟩
  unfold queueOnWrite
  split
  · exact extends_emit P _ s
  · exact (hqueue _).trans (extends_handled P _ _)

theorem extends_onWrite (ec : ErrorCode) (close : Bool) (s : Session M Rq B) :
    Extends P 0 s (s.onWrite P ec close) := by
  obtain ⟨u, hu, heq⟩ := onWrite_eq P ec close s
  have hcontrol : Extends P 0 s u := .of_transport hu.transport_eq
  rw [heq]
  split_ifs
  · exact hcontrol
  · exact hcontrol.trans (extends_queueOnWrite P u)

theorem extends_handshakeDone (func : List (Call M)) (ec : ErrorCode) (s : Session M Rq B) :
    Extends P (if ec.failed then 0 else (func.map Call.receives).sum) s
      (s.handshakeDone P func ec) := by
  have hdone : Extends P 0 s (s.onHandshake P ec) :=
    .of_transport (control_onHandshake P ec s).transport_eq
  simp only [handshakeDone]
  split_ifs
  · exact hdone
  · simpa using hdone.trans (extends_calls P func _)

def recvs (s : Session M Rq B) : Event M B Rq → ℕ
  | .call c => c.receives
  | .handshakeCompleted i .success =>
    s.handshakes[i]?.elim 0 fun h => (h.func.map Call.receives).sum
  | _ => 0

def released (s : Session M Rq B) : Event M B Rq → Session M Rq B
  | .readCompleted i _ _ _ => s.dropRead i
  | .writeCompleted i _ => s.dropWrite i
  | .handshakeCompleted i _ => s.dropHandshake i
  | _ => s

theorem extends_step {s t : Session M Rq B} {e : Event M B Rq} (he : e.isHandshake = false)
    (h : s.step P e = some t) : Extends P (s.recvs e) (s.released e) t := by
  cases moves_of_step P h with
  | call c => exact extends_call P c s
  | handshake func => cases he
  | handshakeFor func d => cases he
  | readCompleted i ec received partialMessage u hu =>
    have hparse : Extends P 0 (s.dropRead i) u := by
      rw [parseInto_eq P hu]
      exact .of_transport rfl
    exact hparse.trans (extends_onRead P ec u)
  | writeCompleted i ec w => exact extends_onWrite P ec w.close (s.dropWrite i)
  | handshakeCompleted i ec f hf =>
    have hdone := extends_handshakeDone P f.func ec (s.dropHandshake i)
    cases ec with
    | success =>
      rw [recvs, hf]
      exact hdone
    | _ => exact hdone
  | waitCompleted i t ht => exact .of_transport (control_waitDone P ht).transport_eq
  | elapse ticks => exact .of_transport rfl
  | closeSocket => exact .of_transport rfl

theorem reads_step {s t : Session M Rq B} {e : Event M B Rq} (h : s.step P e = some t) :
    t.reads.length = (s.released e).reads.length + s.recvs e := by
  cases he : e.isHandshake with
  | false => exact (extends_step P he h).reads
  | true =>
    cases moves_of_step P h with
    | handshake func => rfl
    | handshakeFor func d => rfl
    | _ => cases he

def keepsOneRead (s : Session M Rq B) (e : Event M B Rq) : Prop :=
  s.recvs e = 0 ∨ (s.reads = [] ∧ s.recvs e = 1)

theorem one_read_step {s t : Session M Rq B} {e : Event M B Rq} (hs : s.reads.length ≤ 1)
    (h : s.step P e = some t) : t.reads.length ≤ 1 ↔ s.keepsOneRead e := by
  have hreads := reads_step P h
  cases hnone : s.recvs e with
  | zero =>
    have hfewer : (s.released e).reads.length ≤ s.reads.length := by
      cases e with
      | readCompleted i ec received partialMessage => exact List.length_eraseIdx_le s.reads i
      | _ => exact Nat.le_refl _
    refine iff_of_true ?_ (.inl hnone)
    omega
  | succ n =>
    have hsame : (s.released e).reads = s.reads := by
      cases e with
      | readCompleted i ec received partialMessage => cases hnone
      | _ => rfl
    rw [hreads, hsame, keepsOneRead, hnone, ← List.length_eq_zero_iff]
    omega

theorem one_read_iff (isSsl onError isOpen : Bool) (now : ℤ) (es : List (Event M B Rq)) :
    (∀ es' t, es' <+: es → run P (init P isSsl onError isOpen now) es' = some t →
      t.reads.length ≤ 1) ↔
    Transition.Along (step P) (fun s e _ => s.keepsOneRead e)
      (init P isSsl onError isOpen now) es := by
  have hstart : (init P isSsl onError isOpen now).reads.length ≤ 1 := Nat.zero_le 1
  rw [Transition.forall_prefix_iff_along es]
  exact (and_iff_right hstart).trans (Transition.along_iff_admissible (I := fun _ => True)
    (fun _ _ _ _ _ => trivial) (fun s e t _ hs h => one_read_step P hs h) trivial hstart es)

theorem two_reads_outstanding :
    ¬ ∀ (es : List (Event ℕ ℕ ℕ)) (t : Session ℕ ℕ ℕ),
      run .sample (init .sample false true true 0) es = some t → t.reads.length ≤ 1 := by
  intro h
  have htwo := h [.call .recv, .call .recv] _ rfl
  revert htwo
  decide

end Session
end BeastRouter
