import BeastRouter.Session.Frame

namespace BeastRouter.Session
variable {M Rq B : Type} (P : Platform M Rq B)

def newActions (s t : Session M Rq B) : List (Action M Rq) := t.log.drop s.log.length

theorem newActions_eq {s t : Session M Rq B} {as : List (Action M Rq)} (h : t.log = s.log ++ as) :
    newActions s t = as := by
  rw [newActions, h, List.drop_left]

def timeoutActions (P : Platform M Rq B) (s : Session M Rq B) : List (Action M Rq) :=
  (if s.onError then [.onError .timedOut "async_timer/on_timer"] else []) ++
    if s.isOpen then
      .shutdown .shutdownBoth ::
        if (P.shutdownResult s.shutdowns).failed && s.onError then
          [.onError (P.shutdownResult s.shutdowns) "shutdown/eof"]
        else []
    else []

theorem log_onTimer {ec : ErrorCode} (hec : ec = .success ∨ ec = .operationAborted)
    (s : Session M Rq B) :
    (s.onTimer P ec).log =
      s.log ++ if s.timer.expiry ≤ s.now then timeoutActions P s else [] := by
  have hgo : (ec.failed && ec != .operationAborted) = false := by
    rcases hec with rfl | rfl <;> rfl
  unfold onTimer
  dsimp only
  rw [hgo, if_neg (by simp)]
  split_ifs
  · cases hon : s.onError <;> cases hopen : s.isOpen <;>
      cases hshut : (P.shutdownResult s.shutdowns).failed <;>
      simp [timeoutActions, report, doEof, emit, hon, hopen, hshut]
  · simp

def deliversSuperseded (s : Session M Rq B) : Event M B Rq → Prop
  | .waitCompleted i =>
    ∃ w a, s.timer.waits[i]? = some w ∧ w.abortedAt = some a ∧ a < w.expiry
  | _ => False

def Quiet (s t : Session M Rq B) : Prop := ∀ a ∈ newActions s t, a.isTimeout = false

theorem quiet_of_superseded {s t : Session M Rq B} {e : Event M B Rq}
    (he : s.deliversSuperseded e) (h : s.step P e = some t) :
    Quiet s t ↔ s.now < s.timer.expiry ∨ s.onError = false ∧ s.isOpen = false := by
  cases e with
  | waitCompleted i =>
    obtain ⟨w, a, hw, ha, -⟩ := he
    obtain ⟨ec, hec, rfl⟩ := Option.map_eq_some_iff.mp h
    have haborted : ec = .operationAborted := by
      rw [hw, Option.bind_some, Wait.result, ha] at hec
      exact (Option.some.inj hec).symm
    have hlog : newActions s ((s.dropWait i).onTimer P ec) =
        if s.timer.expiry ≤ s.now then timeoutActions P s else [] :=
      newActions_eq (log_onTimer P (.inr haborted) (s.dropWait i))
    rw [Quiet, hlog]
    split_ifs with hdue
    · have hlate : ¬ s.now < s.timer.expiry := by omega
      cases hon : s.onError <;> cases hopen : s.isOpen <;>
        simp [timeoutActions, hon, hopen, hlate, Action.isTimeout]
    · simpa using .inl (by omega)
  | _ => exact he.elim

theorem superseded_waits_quiet_iff (isSsl onError isOpen : Bool) (now : ℤ)
    (es : List (Event M B Rq)) :
    Transition.Along (step P) (fun s e t => s.deliversSuperseded e → Quiet s t)
      (init P isSsl onError isOpen now) es ↔
    Transition.Along (step P)
      (fun s e _ => s.deliversSuperseded e →
        s.now < s.timer.expiry ∨ s.onError = false ∧ s.isOpen = false)
      (init P isSsl onError isOpen now) es := by
  apply Transition.along_congr (I := fun _ => True)
  · intro s e t _ _
    trivial
  · intro s e t _ h
    exact imp_congr_right fun he => quiet_of_superseded P he h
  · trivial

theorem superseded_wait_not_quiet :
    ¬ ∀ es : List (Event ℕ ℕ ℕ),
      Transition.Along (step .sample) (fun s e t => s.deliversSuperseded e → Quiet s t)
        (init .sample false true true 0) es := by
  intro h
  have hrun := h [.call (.recvFor 5), .elapse 2, .readCompleted 0 .success [9] 0, .elapse 10,
    .waitCompleted 0]
  obtain ⟨-, hrun⟩ := hrun _ rfl
  obtain ⟨-, hrun⟩ := hrun _ rfl
  obtain ⟨-, hrun⟩ := hrun _ rfl
  obtain ⟨-, hrun⟩ := hrun _ rfl
  obtain ⟨hquiet, -⟩ := hrun _ rfl
  have hfires := hquiet ⟨⟨5, some 2⟩, 2, rfl, rfl, by decide⟩ (.shutdown .shutdownBoth)
    (by decide)
  exact absurd hfires (by decide)

end BeastRouter.Session
