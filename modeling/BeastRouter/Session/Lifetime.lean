import BeastRouter.Session.Dispatch
import BeastRouter.Session.Reads

namespace BeastRouter

inductive AsyncOperation where
  | read
  | write
  | handshake
  | wait
  deriving DecidableEq, Repr

def Action.starts {M Rq : Type} : AsyncOperation → Action M Rq → Bool
  | .read, .asyncRead => true
  | .write, .asyncWrite _ => true
  | .handshake, .asyncHandshake => true
  | .wait, .asyncWait => true
  | _, _ => false

namespace Event
variable {M B Rq : Type}

def completes : AsyncOperation → Event M B Rq → Bool
  | .read, .readCompleted _ _ _ _ => true
  | .write, .writeCompleted _ _ => true
  | .handshake, .handshakeCompleted _ _ => true
  | .wait, .waitCompleted _ => true
  | _, _ => false

def isEndRead : Event M B Rq → Bool
  | readCompleted _ ec _ _ => ec == .endOfStream
  | _ => false

def isOwner : Event M B Rq → Bool
  | call _ => true
  | handshake _ => true
  | handshakeFor _ _ => true
  | _ => false

end Event

namespace Session
variable {M Rq B : Type} (P : Platform M Rq B)

def pending (o : AsyncOperation) (s : Session M Rq B) : ℕ :=
  match o with
  | .read => s.reads.length
  | .write => s.writes.length
  | .handshake => s.handshakes.length
  | .wait => s.timer.waits.length

def started (o : AsyncOperation) (s : Session M Rq B) : ℕ := s.log.countP (Action.starts o)

def Balanced (o : AsyncOperation) (s t : Session M Rq B) : Prop :=
  t.started o + s.pending o = s.started o + t.pending o

section
variable {o : AsyncOperation}

theorem Balanced.trans {s t u : Session M Rq B} (h : Balanced o s t) (k : Balanced o t u) :
    Balanced o s u := by
  unfold Balanced at *
  omega

theorem balanced_of_same {s t : Session M Rq B} (hlog : t.log = s.log)
    (hpending : t.pending o = s.pending o) : Balanced o s t := by
  rw [Balanced, started, started, hlog, hpending]

theorem balanced_emit {a : Action M Rq} (ha : a.starts o = false) (s : Session M Rq B) :
    Balanced o s (s.emit a) := by
  have hpending : (s.emit a).pending o = s.pending o := by cases o <;> rfl
  have hstarted : (s.emit a).started o = s.started o := by simp [started, emit, ha]
  rw [Balanced, hpending, hstarted]

theorem Balanced.then_emit {s t : Session M Rq B} (h : Balanced o s t) {a : Action M Rq}
    (ha : a.starts o = false) : Balanced o s (t.emit a) :=
  h.trans (balanced_emit ha t)

theorem balanced_report (ec : ErrorCode) (what : String) (s : Session M Rq B) :
    Balanced o s (s.report ec what) := by
  unfold report
  split_ifs
  · exact balanced_emit (by cases o <;> rfl) s
  · exact balanced_of_same rfl rfl

theorem balanced_cancelTimer (s : Session M Rq B) : Balanced o s s.cancelTimer := by
  have hcancel : Balanced o s { s with timer := s.timer.cancel s.now } := by
    refine balanced_of_same rfl ?_
    cases o with
    | wait => exact List.length_map _
    | _ => rfl
  exact hcancel.then_emit (by cases o <;> rfl)

theorem balanced_expiresFromNow (d : ℤ) (s : Session M Rq B) :
    Balanced o s (s.expiresFromNow d) := by
  have hcancel : Balanced o s { s with timer := s.timer.expiresFromNow s.now d } := by
    refine balanced_of_same rfl ?_
    cases o with
    | wait => exact List.length_map _
    | _ => rfl
  exact hcancel.then_emit (by cases o <;> rfl)

theorem balanced_asyncWait (s : Session M Rq B) : Balanced o s s.asyncWait := by
  cases o <;> simp [Balanced, started, pending, asyncWait, Timer.asyncWait, emit, Action.starts]
  omega

theorem balanced_doTimer (d : ℤ) (s : Session M Rq B) : Balanced o s (s.doTimer d) :=
  (balanced_expiresFromNow d s).trans (balanced_asyncWait _)

theorem balanced_doRead (deadline : Option ℤ) (s : Session M Rq B) :
    Balanced o s (s.doRead deadline) := by
  cases o <;> simp [Balanced, started, pending, doRead, emit, Action.starts]
  omega

theorem balanced_doWrite (item : Item M) (s : Session M Rq B) :
    Balanced o s (s.doWrite P item) := by
  cases o <;> simp [Balanced, started, pending, doWrite, emit, Action.starts]
  omega

theorem balanced_doHandshake (func : List (Call M)) (deadline : Option ℤ) (s : Session M Rq B) :
    Balanced o s (s.doHandshake func deadline) := by
  cases o <;> simp [Balanced, started, pending, doHandshake, emit, Action.starts]
  omega

theorem balanced_handled (next : Option (Item M)) (s : Session M Rq B) :
    Balanced o s (s.handled P next) := by
  cases next with
  | none => exact balanced_of_same rfl rfl
  | some item => exact balanced_doWrite P item s

theorem balanced_enqueue (message : M) (deadline : Option ℤ) (s : Session M Rq B) :
    Balanced o s (s.enqueue P message deadline) := by
  have hpush (item : Item M) (items : List (Item M)) (k : ℕ) :
      Balanced o s (emit (.push item) { s with queue := items, allocated := k }) := by
    have hqueue : Balanced o s { s with queue := items, allocated := k } :=
      balanced_of_same rfl (by cases o <;> rfl)
    exact hqueue.then_emit (by cases o <;> rfl)
  exact (hpush _ _ _).trans (balanced_handled P _ _)

theorem balanced_call (c : Call M) (s : Session M Rq B) : Balanced o s (s.call P c) := by
  cases c with
  | recv => exact balanced_doRead none s
  | recvFor d => exact (balanced_doTimer d s).trans (balanced_doRead _ _)
  | send m => exact balanced_enqueue P m none s
  | sendFor m d => exact (balanced_doTimer d s).trans (balanced_enqueue P m _ _)

theorem balanced_calls (cs : List (Call M)) (s : Session M Rq B) :
    Balanced o s (s.calls P cs) := by
  induction cs generalizing s with
  | nil => exact balanced_of_same rfl rfl
  | cons c cs ih => exact (balanced_call P c s).trans (ih (s.call P c))

theorem balanced_doEof (type : ShutdownType) (s : Session M Rq B) :
    Balanced o s (s.doEof P type) := by
  have hshut : Balanced o s (emit (.shutdown type) { s with shutdowns := s.shutdowns + 1 }) := by
    have hcount : Balanced o s { s with shutdowns := s.shutdowns + 1 } :=
      balanced_of_same rfl (by cases o <;> rfl)
    exact hcount.then_emit (by cases o <;> rfl)
  simp only [doEof]
  split_ifs
  · exact balanced_of_same rfl rfl
  · exact hshut.then_emit (by cases o <;> rfl)
  · exact hshut

theorem balanced_onTimer (ec : ErrorCode) (s : Session M Rq B) :
    Balanced o s (s.onTimer P ec) := by
  have hout (b : Bool) : Balanced o s { s with timedOut := b } :=
    balanced_of_same rfl (by cases o <;> rfl)
  simp only [onTimer]
  split_ifs
  · exact balanced_report _ _ s
  · exact ((hout _).trans (balanced_report _ _ _)).trans (balanced_doEof P _ _)
  · exact balanced_of_same rfl rfl

theorem balanced_doProcessRequest (s : Session M Rq B) :
    Balanced o s (s.doProcessRequest P) := by
  have hparser (parser : Parser Rq) : Balanced o s { s with parser := parser } :=
    balanced_of_same rfl (by cases o <;> rfl)
  exact (hparser _).then_emit (by cases o <;> rfl)

theorem balanced_onRead (ec : ErrorCode) (s : Session M Rq B) : Balanced o s (s.onRead P ec) := by
  have hcancel := balanced_cancelTimer (o := o) s
  simp only [onRead]
  split_ifs
  · exact hcancel.trans (balanced_doEof P _ _)
  · have herror : Balanced o s (s.cancelTimer.emit (.onError ec "async_read/on_read")) :=
      hcancel.then_emit (by cases o <;> rfl)
    exact herror.trans (balanced_doProcessRequest P _)
  · exact hcancel.trans (balanced_doProcessRequest P _)

theorem balanced_queueOnWrite (s : Session M Rq B) : Balanced o s (s.queueOnWrite P) := by
  have hqueue (items : List (Item M)) : Balanced o s { s with queue := items } :=
    balanced_of_same rfl (by cases o <;> rfl)
  unfold queueOnWrite
  split
  · exact balanced_emit (by cases o <;> rfl) s
  · exact (hqueue _).trans (balanced_handled P _ _)

theorem balanced_onWrite (ec : ErrorCode) (close : Bool) (s : Session M Rq B) :
    Balanced o s (s.onWrite P ec close) := by
  have hcancel := balanced_cancelTimer (o := o) s
  simp only [onWrite]
  split_ifs
  · exact hcancel.trans (balanced_doEof P _ _)
  · exact hcancel.then_emit (by cases o <;> rfl)
  · exact hcancel.trans (balanced_doEof P _ _)
  · exact hcancel.trans (balanced_queueOnWrite P _)

theorem balanced_handshakeDone (func : List (Call M)) (ec : ErrorCode) (s : Session M Rq B) :
    Balanced o s (s.handshakeDone P func ec) := by
  have hcancel := balanced_cancelTimer (o := o) s
  have hdone : Balanced o s (s.onHandshake P ec) := by
    simp only [onHandshake]
    split_ifs
    · exact hcancel.trans (balanced_doEof P _ _)
    · exact hcancel.then_emit (by cases o <;> rfl)
    · exact hcancel
  simp only [handshakeDone]
  split_ifs
  · exact hdone
  · exact hdone.trans (balanced_calls P func _)

theorem conserved_of_drop {s u t : Session M Rq B} {o' : AsyncOperation} (h : Balanced o u t)
    (hdrop : u.pending o + (if o = o' then 1 else 0) = s.pending o) (hlog : u.log = s.log) :
    t.started o + s.pending o = s.started o + t.pending o + if o = o' then 1 else 0 := by
  have hstarted : u.started o = s.started o := by rw [started, started, hlog]
  unfold Balanced at h
  omega

theorem conserved_step {s t : Session M Rq B} {e : Event M B Rq} (h : s.step P e = some t) :
    t.started o + s.pending o =
      s.started o + t.pending o + if e.completes o then 1 else 0 := by
  have hsame {u : Session M Rq B} (hu : Balanced o s u) (he : e.completes o = false) :
      u.started o + s.pending o =
        s.started o + u.pending o + if e.completes o then 1 else 0 := by
    rw [he, if_neg Bool.false_ne_true, Nat.add_zero]
    exact hu
  cases moves_of_step P h with
  | call c => exact hsame (balanced_call P c s) (by cases o <;> rfl)
  | handshake func => exact hsame (balanced_doHandshake func none s) (by cases o <;> rfl)
  | handshakeFor func d =>
    exact hsame ((balanced_expiresFromNow d s).trans (balanced_doHandshake func _ _))
      (by cases o <;> rfl)
  | readCompleted i ec received partialMessage u hu hi =>
    have hparse : Balanced o (s.dropRead i) u := by
      rw [parseInto_eq P hu]
      exact balanced_of_same rfl (by cases o <;> rfl)
    have hdrop : (s.dropRead i).pending o + (if o = .read then 1 else 0) = s.pending o := by
      have hlen := List.length_eraseIdx_of_lt hi
      cases o <;> simp [pending, dropRead, hlen]
      omega
    have hfinal := conserved_of_drop (hparse.trans (balanced_onRead P ec u)) hdrop rfl
    cases o <;> exact hfinal
  | writeCompleted i ec w hw =>
    have hdrop : (s.dropWrite i).pending o + (if o = .write then 1 else 0) = s.pending o := by
      have hi := (List.getElem?_eq_some_iff.mp hw).1
      have hlen := List.length_eraseIdx_of_lt hi
      cases o <;> simp [pending, dropWrite, hlen]
      omega
    have hfinal := conserved_of_drop (balanced_onWrite P ec w.close (s.dropWrite i)) hdrop rfl
    cases o <;> exact hfinal
  | handshakeCompleted i ec f hf =>
    have hdrop : (s.dropHandshake i).pending o + (if o = .handshake then 1 else 0) =
        s.pending o := by
      have hi := (List.getElem?_eq_some_iff.mp hf).1
      have hlen := List.length_eraseIdx_of_lt hi
      cases o <;> simp [pending, dropHandshake, hlen]
      omega
    have hfinal := conserved_of_drop
      (balanced_handshakeDone P f.func ec (s.dropHandshake i)) hdrop rfl
    cases o <;> exact hfinal
  | waitCompleted i t ht =>
    obtain ⟨ec, hec, rfl⟩ := Option.map_eq_some_iff.mp ht
    obtain ⟨w, hw, -⟩ := Option.bind_eq_some_iff.mp hec
    have hdrop : (s.dropWait i).pending o + (if o = .wait then 1 else 0) = s.pending o := by
      have hi := (List.getElem?_eq_some_iff.mp hw).1
      have hlen := List.length_eraseIdx_of_lt hi
      cases o <;> simp [pending, dropWait, Timer.drop, hlen]
      omega
    have hfinal := conserved_of_drop (balanced_onTimer P ec (s.dropWait i)) hdrop rfl
    cases o <;> exact hfinal
  | elapse ticks =>
    exact hsame (balanced_of_same rfl (by cases o <;> rfl)) (by cases o <;> rfl)
  | closeSocket =>
    exact hsame (balanced_of_same rfl (by cases o <;> rfl)) (by cases o <;> rfl)

theorem conserved_run {es : List (Event M B Rq)} {s t : Session M Rq B}
    (hr : run P s es = some t) :
    t.started o + s.pending o = s.started o + t.pending o + es.countP (Event.completes o) := by
  induction es generalizing s with
  | nil =>
    obtain rfl := Option.some.inj hr
    rfl
  | cons e es ih =>
    obtain ⟨u, hu, hrest⟩ := Transition.run_cons.mp hr
    have hfirst := conserved_step P (o := o) hu
    have hlater := ih hrest
    rw [List.countP_cons]
    omega

end

theorem dispatched_step {s t : Session M Rq B} {e : Event M B Rq} (h : s.step P e = some t) :
    t.dispatched.length + (if e.isEndRead then 1 else 0) =
      s.dispatched.length + if e.completes .read then 1 else 0 := by
  cases he : e.isRead with
  | false =>
    have hsame : t.dispatched = s.dispatched := congrArg (fun a => a.2.2) (incoming_step P he h)
    have hneither : e.isEndRead = false ∧ e.completes .read = false := by
      cases e <;> first | exact ⟨rfl, rfl⟩ | cases he
    rw [hsame, hneither.1, hneither.2]
  | true =>
    cases moves_of_step P h with
    | readCompleted i ec received partialMessage u hu =>
      have hbefore : u.dispatched = s.dispatched := by
        rw [parseInto_eq P hu]
        rfl
      rw [dispatched_onRead, hbefore, List.length_append]
      cases ec <;> rfl
    | _ => cases he

theorem dispatched_run {es : List (Event M B Rq)} {s t : Session M Rq B}
    (hr : run P s es = some t) :
    t.dispatched.length + es.countP Event.isEndRead =
      s.dispatched.length + es.countP (Event.completes .read) := by
  induction es generalizing s with
  | nil =>
    obtain rfl := Option.some.inj hr
    rfl
  | cons e es ih =>
    obtain ⟨u, hu, hrest⟩ := Transition.run_cons.mp hr
    have hfirst := dispatched_step P hu
    have hlater := ih hrest
    rw [List.countP_cons, List.countP_cons]
    omega

theorem operations_conserved (isSsl onError isOpen : Bool) (now : ℤ) (es : List (Event M B Rq))
    (t : Session M Rq B) (hr : run P (init P isSsl onError isOpen now) es = some t) :
    (∀ o, t.started o = t.pending o + es.countP (Event.completes o)) ∧
      es.countP (Event.completes .read) = t.dispatched.length + es.countP Event.isEndRead := by
  constructor
  · intro o
    have hrun := conserved_run P (o := o) hr
    have hpending : (init P isSsl onError isOpen now).pending o = 0 := by cases o <;> rfl
    have hstarted : (init P isSsl onError isOpen now).started o = 0 := by cases o <;> rfl
    omega
  · have hrun := dispatched_run P hr
    have hnone : (init P isSsl onError isOpen now).dispatched.length = 0 := rfl
    omega

theorem operations_conserved_request :
    ∃ t, run .sample (init .sample false true true 0)
        [.call (.recvFor 5), .readCompleted 0 .success [4] 0, .call (.send 6)] = some t ∧
      t.started .wait = t.pending .wait ∧ t.started .read = 1 ∧ t.pending .read = 0 := by
  refine ⟨_, rfl, ?_⟩
  obtain ⟨hconserved, -⟩ := operations_conserved .sample false true true 0
    [.call (.recvFor 5), .readCompleted 0 .success [4] 0, .call (.send 6)] _ rfl
  exact ⟨hconserved .wait, hconserved .read, rfl⟩

theorem handshakes_subset {s t : Session M Rq B} {e : Event M B Rq} (he : e.isOwner = false)
    (h : s.step P e = some t) : ∀ f ∈ t.handshakes, f ∈ s.handshakes := by
  have hnot : e.isHandshake = false := by cases e <;> first | rfl | cases he
  rw [(extends_step P hnot h).handshakes]
  cases e with
  | handshakeCompleted i ec => exact fun f hf => List.mem_of_mem_eraseIdx hf
  | _ => exact fun f hf => hf

theorem started_calls (cs : List (Call M)) (s : Session M Rq B) :
    (s.calls P cs).started .read = s.started .read + (cs.map Call.receives).sum := by
  have hbalanced : Balanced .read s (s.calls P cs) := balanced_calls P cs s
  have hreads := (extends_calls P cs s).reads
  simp only [Balanced, pending] at hbalanced
  omega

theorem started_step {s t : Session M Rq B} {e : Event M B Rq} (h : s.step P e = some t) :
    t.started .read = s.started .read + s.recvs e := by
  have hconserved := conserved_step P (o := .read) h
  have hreads := reads_step P h
  have hreleased : (s.released e).reads.length + (if e.completes .read then 1 else 0) =
      s.reads.length := by
    cases moves_of_step P h with
    | readCompleted i ec received partialMessage u hu hi =>
      have hlen := List.length_eraseIdx_of_lt hi
      simp only [released, dropRead, Event.completes, if_true]
      omega
    | _ => rfl
  simp only [pending] at hconserved
  omega

end Session
end BeastRouter
