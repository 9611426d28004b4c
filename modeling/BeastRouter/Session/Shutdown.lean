import BeastRouter.Session.Frame

namespace BeastRouter

def Action.isEof {M Rq : Type} : Action M Rq → Bool
  | .shutdown _ => true
  | .onError _ what => what == "shutdown/eof"
  | _ => false

namespace Session
variable {M Rq B : Type} (P : Platform M Rq B)

def eofTrace (s : Session M Rq B) : ℕ × List (Action M Rq) :=
  (s.shutdowns, s.log.filter Action.isEof)

def eofView (s : Session M Rq B) : Bool × Bool × ℕ × List (Action M Rq) :=
  (s.isOpen, s.onError, s.eofTrace)

def reachesEof (s : Session M Rq B) : Event M B Rq → Bool
  | .readCompleted _ ec _ _ => ec == .endOfStream
  | .writeCompleted i ec =>
    ec == .endOfStream || !(ec.failed && s.onError) && s.writes[i]?.any Write.close
  | .handshakeCompleted _ ec => ec == .endOfStream
  | .waitCompleted _ => decide (s.timer.expiry ≤ s.now)
  | _ => false

theorem eofTrace_emit {a : Action M Rq} (ha : a.isEof = false) (s : Session M Rq B) :
    (s.emit a).eofTrace = s.eofTrace := by
  simp [eofTrace, emit, ha]

theorem Flow.eofTrace_eq {s t : Session M Rq B} (h : Flow s t) : t.eofTrace = s.eofTrace := by
  have hshutdowns := h.shutdowns_eq
  obtain ⟨-, as, has, hlog⟩ := h
  have hnone : as.filter Action.isEof = [] := by
    refine List.filter_eq_nil_iff.mpr fun a ha => ?_
    have hflow := has a ha
    cases a <;> first | exact Bool.false_ne_true | cases hflow
  simp [eofTrace, hshutdowns, hlog, hnone]

theorem eofTrace_doEof (type : ShutdownType) (s : Session M Rq B) :
    (s.doEof P type).eofTrace =
      if s.isOpen then
        (s.shutdowns + 1, s.log.filter Action.isEof ++ .shutdown type ::
          if (P.shutdownResult s.shutdowns).failed && s.onError then
            [.onError (P.shutdownResult s.shutdowns) "shutdown/eof"]
          else [])
      else s.eofTrace := by
  cases hopen : s.isOpen with
  | false => simp [doEof, hopen]
  | true =>
    cases hreport : (P.shutdownResult s.shutdowns).failed && s.onError <;>
      simp [doEof, eofTrace, emit, hopen, hreport, Action.isEof]

theorem eofTrace_doEof_congr {s u : Session M Rq B} (type : ShutdownType)
    (h : u.eofView = s.eofView) : (u.doEof P type).eofTrace = (s.doEof P type).eofTrace := by
  obtain ⟨hopen, hview⟩ := Prod.mk.inj h
  obtain ⟨hon, htrace⟩ := Prod.mk.inj hview
  obtain ⟨hshutdowns, hlog⟩ := Prod.mk.inj htrace
  rw [eofTrace_doEof, eofTrace_doEof, hopen, hon, htrace, hshutdowns, hlog]

theorem eofView_cancelTimer (s : Session M Rq B) : s.cancelTimer.eofView = s.eofView :=
  congrArg (fun trace => (s.isOpen, s.onError, trace)) (flow_cancelTimer s).eofTrace_eq

theorem eofTrace_onRead (ec : ErrorCode) (s : Session M Rq B) :
    (s.onRead P ec).eofTrace =
      if ec = .endOfStream then (s.doEof P .shutdownBoth).eofTrace else s.eofTrace := by
  have hcancel := (flow_cancelTimer s).eofTrace_eq
  simp only [onRead]
  split_ifs
  · exact eofTrace_doEof_congr P _ (eofView_cancelTimer s)
  · exact ((eofTrace_emit rfl _).trans (eofTrace_emit (by rfl) _)).trans hcancel
  · exact (eofTrace_emit rfl _).trans hcancel

theorem eofTrace_onWrite (ec : ErrorCode) (close : Bool) (s : Session M Rq B) :
    (s.onWrite P ec close).eofTrace =
      if ec == .endOfStream || !(ec.failed && s.onError) && close then
        (s.doEof P .shutdownBoth).eofTrace
      else s.eofTrace := by
  have hcancel := (flow_cancelTimer s).eofTrace_eq
  have heof := eofTrace_doEof_congr P .shutdownBoth (eofView_cancelTimer s)
  have hon : s.cancelTimer.onError = s.onError := rfl
  simp only [onWrite, hon]
  by_cases hend : ec = .endOfStream
  · rw [if_pos hend, if_pos (by simp [hend])]
    exact heof
  cases herr : ec.failed && s.onError with
  | true =>
    rw [if_neg hend, if_pos rfl, if_neg (by simp [hend])]
    exact (eofTrace_emit (by rfl) _).trans hcancel
  | false =>
    cases close with
    | true =>
      rw [if_neg hend, if_neg Bool.false_ne_true, if_pos rfl, if_pos (by simp)]
      exact heof
    | false =>
      rw [if_neg hend, if_neg Bool.false_ne_true, if_neg Bool.false_ne_true,
        if_neg (by simp [hend])]
      exact (flow_queueOnWrite P _).eofTrace_eq.trans hcancel

theorem eofTrace_handshakeDone (func : List (Call M)) (ec : ErrorCode) (s : Session M Rq B) :
    (s.handshakeDone P func ec).eofTrace =
      if ec = .endOfStream then (s.doEof P .shutdownBoth).eofTrace else s.eofTrace := by
  have hcalls (u : Session M Rq B) :
      (if ec.failed then u else u.calls P func).eofTrace = u.eofTrace := by
    split_ifs
    · rfl
    · exact (flow_calls P func u).eofTrace_eq
  have hcancel := (flow_cancelTimer s).eofTrace_eq
  rw [handshakeDone, hcalls]
  simp only [onHandshake]
  split_ifs
  · exact eofTrace_doEof_congr P _ (eofView_cancelTimer s)
  · exact (eofTrace_emit (by rfl) _).trans hcancel
  · exact hcancel

theorem eofTrace_waitDone {i : ℕ} {s t : Session M Rq B} (h : s.waitDone P i = some t) :
    t.eofTrace =
      if s.timer.expiry ≤ s.now then (s.doEof P .shutdownBoth).eofTrace else s.eofTrace := by
  obtain ⟨ec, hec, rfl⟩ := Option.map_eq_some_iff.mp h
  obtain ⟨w, -, hresult⟩ := Option.bind_eq_some_iff.mp hec
  have hgo : (ec.failed && ec != .operationAborted) = false := by
    rcases Wait.result_cases hresult with rfl | rfl <;> rfl
  have hreport (u : Session M Rq B) :
      (u.report .timedOut "async_timer/on_timer").eofView = u.eofView := by
    rw [report]
    split_ifs
    · exact congrArg (fun trace => (u.isOpen, u.onError, trace)) (eofTrace_emit (by rfl) u)
    · rfl
  have hexpiry : (s.dropWait i).timer.expiry = s.timer.expiry := rfl
  have hnow : (s.dropWait i).now = s.now := rfl
  simp only [onTimer, hgo, Bool.false_eq_true, if_false, hexpiry, hnow]
  split_ifs
  · exact eofTrace_doEof_congr P _ (hreport _)
  · rfl

theorem eofTrace_step {s t : Session M Rq B} {e : Event M B Rq} (h : s.step P e = some t) :
    t.eofTrace =
      if s.reachesEof e then (s.doEof P .shutdownBoth).eofTrace else s.eofTrace := by
  cases moves_of_step P h with
  | call c => exact (flow_call P c s).eofTrace_eq
  | handshake func => exact (flow_doHandshake func none s).eofTrace_eq
  | handshakeFor func d =>
    exact ((flow_expiresFromNow d s).trans (flow_doHandshake func _ _)).eofTrace_eq
  | readCompleted i ec received partialMessage u hu =>
    have hview : u.eofView = s.eofView := by
      rw [parseInto_eq P hu]
      rfl
    have htrace : u.eofTrace = s.eofTrace := congrArg (fun view => view.2.2) hview
    rw [eofTrace_onRead, eofTrace_doEof_congr P _ hview, htrace]
    simp only [reachesEof, beq_iff_eq]
  | writeCompleted i ec w hw =>
    have hview : (s.dropWrite i).eofView = s.eofView := rfl
    rw [eofTrace_onWrite, eofTrace_doEof_congr P _ hview]
    simp only [reachesEof, hw, Option.any_some]
    rfl
  | handshakeCompleted i ec f =>
    have hview : (s.dropHandshake i).eofView = s.eofView := rfl
    rw [eofTrace_handshakeDone, eofTrace_doEof_congr P _ hview]
    simp only [reachesEof, beq_iff_eq]
    rfl
  | waitCompleted i t ht =>
    rw [eofTrace_waitDone P ht]
    simp only [reachesEof, decide_eq_true_eq]
  | elapse ticks => rfl
  | closeSocket => rfl

def eofEvents (s : Session M Rq B) (e : Event M B Rq) : List (Event M B Rq) :=
  if s.reachesEof e then [e] else []

def RepeatsEof (s₀ s : Session M Rq B) (es : List (Event M B Rq)) (e : Event M B Rq) : Prop :=
  run P s₀ es = some s ∧ Transition.collect (step P) eofEvents s₀ es ≠ [] ∧
    s.reachesEof e = true

theorem shutdowns_step {s t : Session M Rq B} {e : Event M B Rq} (h : s.step P e = some t) :
    t.shutdowns = if s.reachesEof e && s.isOpen then s.shutdowns + 1 else s.shutdowns := by
  have htrace := congrArg Prod.fst (eofTrace_step P h)
  rw [eofTrace_doEof] at htrace
  cases he : s.reachesEof e <;> cases hopen : s.isOpen <;>
    simpa [eofTrace, he, hopen] using htrace

theorem eofTrace_step_eq_iff {s t : Session M Rq B} {e : Event M B Rq}
    (he : s.reachesEof e = true) (h : s.step P e = some t) :
    t.eofTrace = s.eofTrace ↔ s.isOpen = false := by
  constructor
  · intro heq
    have hsame : t.shutdowns = s.shutdowns := congrArg Prod.fst heq
    rw [shutdowns_step P h, he, Bool.true_and] at hsame
    by_contra hopen
    rw [if_pos (Bool.not_eq_false _ ▸ hopen)] at hsame
    omega
  · intro hclosed
    rw [eofTrace_step P h, if_pos he, eofTrace_doEof, if_neg (by simp [hclosed])]

theorem shutdowns_le_one {s₀ : Session M Rq B} {es : List (Event M B Rq)}
    (h₀ : s₀.shutdowns = 0)
    (hclosed : ∀ es' e s t, es' ++ [e] <+: es → RepeatsEof P s₀ s es' e →
      s.step P e = some t → s.isOpen = false) :
    ∀ es' s, es' <+: es → run P s₀ es' = some s →
      s.shutdowns ≤ 1 ∧ (Transition.collect (step P) eofEvents s₀ es' = [] →
        s.shutdowns = 0) := by
  apply Transition.run_history_invariant
  · exact ⟨by omega, fun _ => h₀⟩
  · intro es' e s t hes hs ht hbefore
    rw [Transition.collect_append hs, Transition.collect_singleton, eofEvents]
    have hshutdowns := shutdowns_step P ht
    cases he : s.reachesEof e with
    | false =>
      rw [he, Bool.false_and, if_neg Bool.false_ne_true] at hshutdowns
      simpa [hshutdowns] using hbefore
    | true =>
      refine ⟨?_, by simp⟩
      by_cases hfirst : Transition.collect (step P) eofEvents s₀ es' = []
      · have hzero := hbefore.2 hfirst
        rw [hshutdowns, hzero]
        split_ifs <;> decide
      · have hshut := hclosed es' e s t hes ⟨hs, hfirst, he⟩ ht
        rw [hshut, Bool.and_false, if_neg Bool.false_ne_true] at hshutdowns
        exact hshutdowns ▸ hbefore.1

def ShutDownOnce (s₀ : Session M Rq B) (es : List (Event M B Rq)) : Prop :=
  (∀ es' s, es' <+: es → run P s₀ es' = some s → s.shutdowns ≤ 1) ∧
  ∀ es' e s t, es' ++ [e] <+: es → RepeatsEof P s₀ s es' e → s.step P e = some t →
    t.eofTrace = s.eofTrace

theorem shutdown_once_iff (isSsl onError isOpen : Bool) (now : ℤ) (es : List (Event M B Rq)) :
    ShutDownOnce P (init P isSsl onError isOpen now) es ↔
    ∀ es' e s t, es' ++ [e] <+: es → RepeatsEof P (init P isSsl onError isOpen now) s es' e →
      s.step P e = some t → s.isOpen = false := by
  constructor
  · rintro ⟨-, hquiet⟩ es' e s t hes he ht
    exact (eofTrace_step_eq_iff P he.2.2 ht).mp (hquiet es' e s t hes he ht)
  · intro hclosed
    refine ⟨fun es' s hes hr => (shutdowns_le_one P rfl hclosed es' s hes hr).1, ?_⟩
    intro es' e s t hes he ht
    exact (eofTrace_step_eq_iff P he.2.2 ht).mpr (hclosed es' e s t hes he ht)

theorem shut_down_twice :
    ¬ ∀ es : List (Event ℕ ℕ ℕ),
      ShutDownOnce .sample (init .sample false true true 0) es := by
  intro h
  have hmany := (h [.call (.recvFor 5), .elapse 5, .waitCompleted 0,
    .readCompleted 0 .endOfStream [] 0]).1 _ _ (List.prefix_refl _) rfl
  exact absurd hmany (by decide)

theorem end_of_stream_after_timeout {s t : Session M Rq B} {i j : ℕ} (hopen : s.isOpen = true)
    (hdue : s.timer.expiry ≤ s.now) (hj : j < s.reads.length)
    (ht : s.step P (.waitCompleted i) = some t) (partialMessage : Rq) :
    ∃ u, t.step P (.readCompleted j .endOfStream [] partialMessage) = some u ∧
      u.shutdowns = s.shutdowns + 2 := by
  have hfirst := shutdowns_step P ht
  have hopen' : t.isOpen = true := by
    obtain ⟨shutdowns, as, -, rfl⟩ := control_waitDone P ht
    exact hopen
  have hj' : j < t.reads.length := by
    obtain ⟨shutdowns, as, -, rfl⟩ := control_waitDone P ht
    exact hj
  obtain ⟨u, hu⟩ :
      ∃ u, t.step P (.readCompleted j .endOfStream [] partialMessage) = some u := by
    simp [step, readDone, parseInto, hj', ErrorCode.failed]
  have hsecond := shutdowns_step P hu
  rw [if_pos (by simp [reachesEof, hopen, hdue])] at hfirst
  rw [if_pos (by simp [reachesEof, hopen']), hfirst] at hsecond
  exact ⟨u, hu, hsecond⟩

end Session
end BeastRouter
