import BeastRouter.Session.WriteQueue

namespace BeastRouter.Session
open SingleServer (Station)
variable {M Rq B : Type} (P : Platform M Rq B)

def silenced (s : Session M Rq B) : Session M Rq B :=
  { s with onError := false, log := s.log.filter fun a => !a.isReport }

theorem silenced_emit {a : Action M Rq} (h : a.isReport = false) (s : Session M Rq B) :
    (s.emit a).silenced = s.silenced.emit a := by
  simp only [silenced, emit, List.filter_append, List.filter_cons, h, Bool.not_false, if_true,
    List.filter_nil]

theorem silenced_emitError (ec : ErrorCode) (what : String) (s : Session M Rq B) :
    (s.emit (.onError ec what)).silenced = s.silenced := by
  simp [silenced, emit, List.filter_append, Action.isReport]

theorem silenced_report (ec : ErrorCode) (what : String) (s : Session M Rq B) :
    (s.report ec what).silenced = s.silenced.report ec what := by
  have hquiet : s.silenced.report ec what = s.silenced := by simp [report, silenced]
  rw [hquiet, report]
  split_ifs
  · exact silenced_emitError ec what s
  · rfl

theorem silenced_cancelTimer (s : Session M Rq B) :
    s.cancelTimer.silenced = s.silenced.cancelTimer := silenced_emit rfl _

theorem silenced_expiresFromNow (d : ℤ) (s : Session M Rq B) :
    (s.expiresFromNow d).silenced = s.silenced.expiresFromNow d := silenced_emit rfl _

theorem silenced_doTimer (d : ℤ) (s : Session M Rq B) :
    (s.doTimer d).silenced = s.silenced.doTimer d := by
  have h := silenced_emit (a := (.asyncWait : Action M Rq)) rfl
    { s.expiresFromNow d with timer := (s.expiresFromNow d).timer.asyncWait }
  have hexpires := silenced_expiresFromNow d s
  rw [doTimer, doTimer, ← hexpires]
  exact h

theorem silenced_doRead (d : Option ℤ) (s : Session M Rq B) :
    (s.doRead d).silenced = s.silenced.doRead d := silenced_emit rfl _

theorem silenced_doHandshake (f : List (Call M)) (d : Option ℤ) (s : Session M Rq B) :
    (s.doHandshake f d).silenced = s.silenced.doHandshake f d := silenced_emit rfl _

theorem silenced_doProcessRequest (s : Session M Rq B) :
    (s.doProcessRequest P).silenced = s.silenced.doProcessRequest P := silenced_emit rfl _

theorem silenced_handled (next : Option (Item M)) (s : Session M Rq B) :
    (s.handled P next).silenced = s.silenced.handled P next := by
  cases next with
  | none => rfl
  | some item => exact silenced_emit rfl _

theorem silenced_enqueue (message : M) (deadline : Option ℤ) (s : Session M Rq B) :
    (s.enqueue P message deadline).silenced = s.silenced.enqueue P message deadline := by
  simp only [enqueue, silenced_handled]
  rw [silenced_emit rfl]
  rfl

theorem silenced_queueOnWrite (s : Session M Rq B) :
    (s.queueOnWrite P).silenced = s.silenced.queueOnWrite P := by
  cases hq : s.queue with
  | nil =>
    have hq' : s.silenced.queue = [] := hq
    simp only [queueOnWrite, hq, hq', ConnQueue.onWrite]
    exact silenced_emit rfl s
  | cons x items =>
    have hq' : s.silenced.queue = x :: items := hq
    simp only [queueOnWrite, hq, hq', ConnQueue.onWrite_cons, silenced_handled]
    rfl

theorem silenced_call (c : Call M) (s : Session M Rq B) :
    (s.call P c).silenced = s.silenced.call P c := by
  cases c with
  | recv => exact silenced_doRead none s
  | recvFor d =>
    simp only [call, recvFor, silenced_doRead, silenced_doTimer]
    rfl
  | send m => exact silenced_enqueue P m none s
  | sendFor m d =>
    simp only [call, sendFor, silenced_enqueue, silenced_doTimer]
    rfl

theorem silenced_calls (func : List (Call M)) (s : Session M Rq B) :
    (s.calls P func).silenced = s.silenced.calls P func := by
  induction func generalizing s with
  | nil => rfl
  | cons c func ih =>
    have h := ih (s.call P c)
    rw [silenced_call] at h
    exact h

theorem silenced_doEof (type : ShutdownType) (s : Session M Rq B) :
    (s.doEof P type).silenced = s.silenced.doEof P type := by
  cases ho : s.isOpen with
  | false => simp [doEof, silenced, ho]
  | true =>
    have hshut := silenced_emit (a := (.shutdown type : Action M Rq)) rfl
      { s with shutdowns := s.shutdowns + 1 }
    have hquiet : s.silenced.doEof P type =
        emit (.shutdown type) { s with shutdowns := s.shutdowns + 1 }.silenced := by
      simp [doEof, silenced, emit, ho]
    rw [hquiet, ← hshut]
    simp only [doEof, ho, Bool.not_true, Bool.false_eq_true, if_false]
    split_ifs with hreport
    · exact silenced_emitError _ _ _
    · rfl

theorem silenced_onTimer (ec : ErrorCode) (s : Session M Rq B) :
    (s.onTimer P ec).silenced = s.silenced.onTimer P ec := by
  have hexpiry : s.silenced.timer.expiry = s.timer.expiry := rfl
  have hnow : s.silenced.now = s.now := rfl
  unfold onTimer
  rw [hexpiry, hnow]
  split_ifs
  · exact silenced_report ec _ s
  · rw [silenced_doEof, silenced_report]
    rfl
  · rfl

theorem silenced_onRead (ec : ErrorCode) (s : Session M Rq B) :
    (s.onRead P ec).silenced = s.silenced.onRead P ec := by
  by_cases heof : ec = .endOfStream
  · simp only [onRead, heof, if_true, silenced_doEof, silenced_cancelTimer]
  · have hquiet : s.silenced.onRead P ec = s.silenced.cancelTimer.doProcessRequest P := by
      simp [onRead, heof, silenced, cancelTimer, emit]
    rw [hquiet, ← silenced_cancelTimer, ← silenced_doProcessRequest]
    simp only [onRead, heof, if_false]
    split_ifs
    · rw [silenced_doProcessRequest, silenced_emitError, silenced_doProcessRequest]
    · rfl

theorem silenced_onHandshake (ec : ErrorCode) (s : Session M Rq B) :
    (s.onHandshake P ec).silenced = s.silenced.onHandshake P ec := by
  by_cases heof : ec = .endOfStream
  · simp only [onHandshake, heof, if_true, silenced_doEof, silenced_cancelTimer]
  · have hquiet : s.silenced.onHandshake P ec = s.silenced.cancelTimer := by
      simp [onHandshake, heof, silenced, cancelTimer, emit]
    rw [hquiet, ← silenced_cancelTimer]
    simp only [onHandshake, heof, if_false]
    split_ifs
    · exact silenced_emitError _ _ _
    · rfl

theorem silenced_handshakeDone (func : List (Call M)) (ec : ErrorCode) (s : Session M Rq B) :
    (s.handshakeDone P func ec).silenced = s.silenced.handshakeDone P func ec := by
  simp only [handshakeDone, ← silenced_onHandshake, ← silenced_calls]
  split_ifs <;> rfl

theorem silenced_parseInto (ec : ErrorCode) (received : List B) (partialMessage : Rq)
    (s : Session M Rq B) :
    s.silenced.parseInto P ec received partialMessage =
      (s.parseInto P ec received partialMessage).map silenced := by
  have hparser : s.silenced.parser = s.parser := rfl
  have hbuffer : s.silenced.buffer = s.buffer := rfl
  unfold parseInto
  rw [hparser, hbuffer]
  split_ifs
  · rfl
  · rfl
  · rfl
  · rfl
  · rw [Option.map_map]
    rfl

theorem silenced_readDone (i : ℕ) (ec : ErrorCode) (received : List B) (partialMessage : Rq)
    (s : Session M Rq B) :
    s.silenced.readDone P i ec received partialMessage =
      (s.readDone P i ec received partialMessage).map silenced := by
  have hdrop : s.silenced.dropRead i = (s.dropRead i).silenced := rfl
  have hreads : s.silenced.reads = s.reads := rfl
  unfold readDone
  rw [hreads, hdrop, silenced_parseInto]
  split_ifs with hi
  · rw [Option.map_map, Option.map_map]
    congr 1
    funext t
    exact (silenced_onRead P ec t).symm
  · rfl

theorem silenced_waitDone (i : ℕ) (s : Session M Rq B) :
    s.silenced.waitDone P i = (s.waitDone P i).map silenced := by
  have hdrop : s.silenced.dropWait i = (s.dropWait i).silenced := rfl
  rw [waitDone, waitDone, Option.map_map, hdrop]
  congr 1
  funext ec
  exact (silenced_onTimer P ec (s.dropWait i)).symm

def heedsCallback (s : Session M Rq B) : Event M B Rq → Prop
  | .writeCompleted i ec =>
    ec ≠ .success ∧ ec ≠ .endOfStream ∧
      ∀ w, s.writes[i]? = some w → w.close = true → s.isOpen = true
  | _ => False

theorem silenced_onWrite (ec : ErrorCode) (close : Bool) (s : Session M Rq B)
    (h : ec = .success ∨ ec = .endOfStream ∨ (close = true ∧ s.isOpen = false)) :
    (s.onWrite P ec close).silenced = s.silenced.onWrite P ec close := by
  by_cases heof : ec = .endOfStream
  · simp only [onWrite, heof, if_true, silenced_doEof, silenced_cancelTimer]
  · have hquiet : s.silenced.onWrite P ec close =
        if close then s.silenced.cancelTimer.doEof P .shutdownBoth
        else s.silenced.cancelTimer.queueOnWrite P := by
      simp [onWrite, heof, silenced, cancelTimer, emit]
    rw [hquiet, ← silenced_cancelTimer, ← silenced_doEof, ← silenced_queueOnWrite]
    rcases h with rfl | rfl | ⟨rfl, hopen⟩
    · simp only [onWrite, ErrorCode.failed, Bool.false_and, Bool.false_eq_true, if_false,
        reduceCtorEq]
      split_ifs <;> rfl
    · exact absurd rfl heof
    · have hclosed : s.cancelTimer.doEof P .shutdownBoth = s.cancelTimer := by
        simp [doEof, cancelTimer, emit, hopen]
      rw [if_pos rfl, hclosed]
      simp only [onWrite, heof, if_false, if_true, hclosed]
      split_ifs
      · exact silenced_emitError _ _ _
      · rfl

theorem silenced_onWrite_ne (ec : ErrorCode) (close : Bool) (s : Session M Rq B)
    (hec : ec ≠ .success) (heof : ec ≠ .endOfStream) (hclose : close = true → s.isOpen = true)
    (hon : s.onError = true) (hqueue : s.queue ≠ []) :
    (s.onWrite P ec close).silenced ≠ s.silenced.onWrite P ec close := by
  have hloud : s.onWrite P ec close =
      s.cancelTimer.emit (.onError ec "async_write/on_write") := by
    simp [onWrite, heof, ec.failed_iff.mpr hec, cancelTimer, emit, hon]
  rw [hloud, silenced_emitError]
  intro h
  cases close with
  | true =>
    have hlog := congrArg (fun u => u.log.length) h
    simp [onWrite, heof, silenced, cancelTimer, emit, doEof, hclose rfl, List.filter_append,
      Action.isReport] at hlog
  | false =>
    obtain ⟨x, items, hq⟩ := List.exists_cons_of_ne_nil hqueue
    have hnext : (s.silenced.onWrite P ec false).queue = items := by
      have hq' : s.silenced.cancelTimer.queue = x :: items := hq
      simp only [onWrite, heof, silenced, cancelTimer, emit, Bool.and_false, if_false,
        Bool.false_eq_true]
      simp only [queueOnWrite, hq, ConnQueue.onWrite_cons]
      cases items <;> rfl
    have hsame : s.queue = items := (congrArg Session.queue h).trans hnext
    simp [hq] at hsame

theorem silenced_writeCompleted (i : ℕ) (ec : ErrorCode) (s : Session M Rq B) :
    s.silenced.step P (.writeCompleted i ec) =
      s.writes[i]?.map fun w => (s.dropWrite i).silenced.onWrite P ec w.close := rfl

theorem silenced_step (s : Session M Rq B) (e : Event M B Rq) (h : ¬ s.heedsCallback e) :
    s.silenced.step P e = (s.step P e).map silenced := by
  cases e with
  | call c => exact congrArg some (silenced_call P c s).symm
  | handshake func =>
    have hssl : s.silenced.isSsl = s.isSsl := rfl
    simp only [step, hssl, ← silenced_doHandshake]
    split_ifs <;> rfl
  | handshakeFor func d =>
    have hssl : s.silenced.isSsl = s.isSsl := rfl
    simp only [step, hssl, doHandshakeFor, ← silenced_expiresFromNow, ← silenced_doHandshake]
    split_ifs <;> rfl
  | readCompleted i ec received partialMessage =>
    exact silenced_readDone P i ec received partialMessage s
  | writeCompleted i ec =>
    rw [silenced_writeCompleted, step, Option.map_map]
    refine Option.map_congr fun w hw => ?_
    refine (silenced_onWrite P ec w.close (s.dropWrite i) ?_).symm
    by_cases hec : ec = .success
    · exact .inl hec
    by_cases heof : ec = .endOfStream
    · exact .inr (.inl heof)
    simp only [heedsCallback, hec, heof, ne_eq, not_false_eq_true, true_and] at h
    push Not at h
    obtain ⟨v, hv, hclose, hopen⟩ := h
    obtain rfl := Option.some.inj (hv.symm.trans hw)
    exact .inr (.inr ⟨hclose, Bool.not_eq_true _ ▸ hopen⟩)
  | handshakeCompleted i ec =>
    have hdrop : s.silenced.dropHandshake i = (s.dropHandshake i).silenced := rfl
    have hhandshakes : s.silenced.handshakes = s.handshakes := rfl
    simp only [step, hhandshakes, hdrop, Option.map_map]
    exact Option.map_congr fun f _ => (silenced_handshakeDone P f.func ec _).symm
  | waitCompleted i => exact silenced_waitDone P i s
  | elapse ticks => rfl
  | closeSocket => rfl

theorem silenced_step_none (s : Session M Rq B) (e : Event M B Rq) (h : s.step P e = none) :
    s.silenced.step P e = none := by
  by_cases hheeds : s.heedsCallback e
  · cases e with
    | writeCompleted i ec =>
      rw [silenced_writeCompleted, Option.map_eq_none_iff]
      exact Option.map_eq_none_iff.mp h
    | _ => exact hheeds.elim
  · rw [silenced_step P s e hheeds, h, Option.map_none]

theorem silenced_step_iff {s t : Session M Rq B} {e : Event M B Rq} (hsound : s.station.Sound)
    (hon : s.onError = true) (h : s.step P e = some t) :
    s.silenced.step P e = some t.silenced ↔ ¬ s.heedsCallback e := by
  constructor
  · intro hsame hheeds
    cases e with
    | writeCompleted i ec =>
      obtain ⟨hec, heof, hclose⟩ := hheeds
      obtain ⟨w, hw, rfl⟩ := Option.map_eq_some_iff.mp h
      rw [silenced_writeCompleted, hw, Option.map_some, Option.some.injEq] at hsame
      have hfront := hsound.serves_front w.item
        (List.mem_map_of_mem (List.mem_of_getElem? hw))
      have hqueue : (s.dropWrite i).queue ≠ [] := fun hnil => by
        simpa [station, show s.queue = [] from hnil] using hfront.1
      exact silenced_onWrite_ne P ec w.close (s.dropWrite i) hec heof (hclose w hw) hon hqueue
        hsame.symm
    | _ => exact hheeds
  · intro hheeds
    rw [silenced_step P s e hheeds, h, Option.map_some]

theorem reporting_transparent_iff (isSsl isOpen : Bool) (now : ℤ) (es : List (Event M B Rq)) :
    (∀ es', es' <+: es →
      run P (init P isSsl false isOpen now) es' =
        (run P (init P isSsl true isOpen now) es').map silenced) ↔
    Transition.Along (step P) (fun s e _ => ¬ s.heedsCallback e)
      (init P isSsl true isOpen now) es := by
  have hinit : init P isSsl false isOpen now = (init P isSsl true isOpen now).silenced := rfl
  have hpreserved (s : Session M Rq B) (e : Event M B Rq) (t : Session M Rq B)
      (hs : s.station.Sound ∧ s.onError = true) (h : s.step P e = some t) :
      t.station.Sound ∧ t.onError = true :=
    ⟨sound_of_step P hs.1 h, (onError_step P h).trans hs.2⟩
  rw [hinit, Transition.run_map_iff (silenced_step_none P) es]
  have hstart : (init P isSsl true isOpen now).station.Sound ∧
      (init P isSsl true isOpen now).onError = true := ⟨Station.sound_empty, rfl⟩
  exact Transition.along_congr hpreserved
    (fun s e t hs h => silenced_step_iff P hs.1 hs.2 h) hstart es

theorem reporting_not_transparent :
    ¬ ∀ es : List (Event ℕ ℕ ℕ),
      run .sample (init .sample false false true 0) es =
        (run .sample (init .sample false true true 0) es).map silenced := by
  intro h
  exact absurd (h [.call (.send 7), .call (.send 8), .writeCompleted 0 (.other 104)]) (by decide)

end BeastRouter.Session
