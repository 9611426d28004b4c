import Mathlib.Tactic.SplitIfs
import BeastRouter.Base.ErrorCode
import BeastRouter.Foundation.Transition

namespace BeastRouter

inductive Stage where
  | created
  | resolving
  | connecting
  | ended
  deriving DecidableEq, Repr

def Stage.outstanding : Stage → Bool
  | resolving => true
  | connecting => true
  | _ => false

-- `isOpen` is the connector's own stream, which is closed once it is moved from; `held` is the
-- pointer that `connect` returns.
structure Connector where
  onError : Bool
  stage : Stage
  held : Bool
  isOpen : Bool
  handed : ℕ
  errors : List (ErrorCode × String)
  shutdowns : ℕ
  destroyed : Bool
  deriving DecidableEq, Repr

namespace Connector

inductive Event where
  | doResolve
  | resolved (ec : ErrorCode)
  | connected (ec : ErrorCode) (isOpen : Bool)
  | release
  deriving DecidableEq, Repr

def init (onError : Bool) : Connector := ⟨onError, .created, true, false, 0, [], 0, false⟩

def report (ec : ErrorCode) (what : String) (s : Connector) : Connector :=
  if s.onError then { s with errors := s.errors ++ [(ec, what)] } else s

def onResolve (ec : ErrorCode) (s : Connector) : Connector :=
  if ec.failed then s.report ec "on_resovle" else { s with stage := .connecting }

def onConnect (ec : ErrorCode) (s : Connector) : Connector :=
  if ec.failed then s.report ec "on_connect"
  else { s with isOpen := false, handed := s.handed + 1 }

-- `~connection` shuts the stream down, unless it is closed.
def destroy (s : Connector) : Connector :=
  { s with destroyed := true, shutdowns := if s.isOpen then s.shutdowns + 1 else s.shutdowns }

def settle (s : Connector) : Connector :=
  if s.held || s.stage.outstanding then s else s.destroy

def step (s : Connector) : Event → Option Connector
  | .doResolve => if s.stage = .created then some { s with stage := .resolving } else none
  | .resolved ec =>
    if s.stage = .resolving then some (settle (onResolve ec { s with stage := .ended })) else none
  | .connected ec isOpen =>
    if s.stage = .connecting && (ec.failed || isOpen) then
      some (settle (onConnect ec { s with stage := .ended, isOpen := isOpen }))
    else none
  | .release =>
    if s.held && s.stage ≠ .created then some (settle { s with held := false }) else none

abbrev run := Transition.run step

structure Attempt where
  resolve : Option ErrorCode
  connect : Option (ErrorCode × Bool)
  deriving DecidableEq, Repr

namespace Attempt

def add (r : Attempt) : Event → Attempt
  | .resolved ec => { r with resolve := some ec }
  | .connected ec isOpen => { r with connect := some (ec, isOpen) }
  | _ => r

def failure (r : Attempt) : List (ErrorCode × String) :=
  match r.resolve, r.connect with
  | some ec, none => if ec.failed then [(ec, "on_resovle")] else []
  | _, some (ec, _) => if ec.failed then [(ec, "on_connect")] else []
  | none, none => []

def succeeded (r : Attempt) : Bool := r.connect.any fun c => !c.1.failed

def leftOpen (r : Attempt) : Bool := r.connect.any fun c => c.1.failed && c.2

def Fits (r : Attempt) : Stage → Prop
  | .created => r = ⟨none, none⟩
  | .resolving => r = ⟨none, none⟩
  | .connecting => r = ⟨some .success, none⟩
  | .ended => (∃ ec, ec.failed = true ∧ r = ⟨some ec, none⟩) ∨
      ∃ ec isOpen, r = ⟨some .success, some (ec, isOpen)⟩

end Attempt

structure Accounts (onError : Bool) (r : Attempt) (s : Connector) : Prop where
  setting : s.onError = onError
  fits : r.Fits s.stage
  handed : s.handed = if r.succeeded then 1 else 0
  errors : s.errors = if onError then r.failure else []
  isOpen : s.isOpen = r.leftOpen

structure Owned (s : Connector) : Prop where
  held : s.stage = .created → s.held = true
  destroyed : s.destroyed = !(s.held || s.stage.outstanding)
  shutdowns : s.shutdowns = if s.destroyed && s.isOpen then 1 else 0

theorem accounts_settle {onError : Bool} {r : Attempt} {s : Connector}
    (h : Accounts onError r s) : Accounts onError r s.settle := by
  unfold settle
  split_ifs
  · exact h
  · exact ⟨h.setting, h.fits, h.handed, h.errors, h.isOpen⟩

theorem owned_settle {s : Connector} (hstage : s.stage ≠ .created) (halive : s.destroyed = false)
    (hshutdowns : s.shutdowns = 0) : s.settle.Owned := by
  unfold settle
  split_ifs with href
  · exact ⟨fun h => absurd h hstage, by rw [halive, href]; rfl,
      by rw [halive, hshutdowns]; rfl⟩
  · refine ⟨fun h => absurd h hstage, ?_, ?_⟩
    · simpa [destroy] using href
    · simp [destroy, hshutdowns]

theorem report_eq (ec : ErrorCode) (what : String) (s : Connector) :
    s.report ec what =
      { s with errors := s.errors ++ if s.onError then [(ec, what)] else [] } := by
  unfold report
  split_ifs
  · rfl
  · rw [List.append_nil]

theorem accounts_onResolve {onError : Bool} {s : Connector}
    (h : Accounts onError ⟨none, none⟩ s)
    (ec : ErrorCode) :
    Accounts onError ⟨some ec, none⟩ (onResolve ec { s with stage := .ended }) := by
  obtain ⟨hsetting, -, hhanded, herrors, hopen⟩ := h
  unfold onResolve
  split_ifs with hec
  · rw [report_eq]
    refine ⟨hsetting, .inl ⟨ec, hec, rfl⟩, hhanded, ?_, hopen⟩
    cases onError <;> simp_all [Attempt.failure]
  · obtain rfl := (ErrorCode.failed_eq_false ec).mp (Bool.eq_false_iff.mpr hec)
    exact ⟨hsetting, rfl, hhanded, herrors, hopen⟩

theorem accounts_onConnect {onError : Bool} {s : Connector}
    (h : Accounts onError ⟨some .success, none⟩ s) (ec : ErrorCode) (isOpen : Bool) :
    Accounts onError ⟨some .success, some (ec, isOpen)⟩
      (onConnect ec { s with stage := .ended, isOpen := isOpen }) := by
  obtain ⟨hsetting, -, hhanded, herrors, -⟩ := h
  unfold onConnect
  split_ifs with hec
  · rw [report_eq]
    refine ⟨hsetting, .inr ⟨ec, isOpen, rfl⟩, ?_, ?_, ?_⟩
    · simpa [Attempt.succeeded, hec] using hhanded
    · cases onError <;> simp_all [Attempt.failure]
    · simp [Attempt.leftOpen, hec]
  · obtain rfl := (ErrorCode.failed_eq_false ec).mp (Bool.eq_false_iff.mpr hec)
    refine ⟨hsetting, .inr ⟨.success, isOpen, rfl⟩, ?_, ?_, rfl⟩
    · exact congrArg (· + 1) hhanded
    · cases onError <;> exact herrors

theorem owned_of_outstanding {s t : Connector} (hs : s.Owned)
    (hout : s.stage.outstanding = true) (hstage : t.stage ≠ .created)
    (hsame : t.destroyed = s.destroyed ∧ t.shutdowns = s.shutdowns) : t.settle.Owned := by
  have halive : s.destroyed = false := by rw [hs.destroyed, hout, Bool.or_true]; rfl
  have hzero : s.shutdowns = 0 := by rw [hs.shutdowns, halive]; rfl
  exact owned_settle hstage (hsame.1.trans halive) (hsame.2.trans hzero)

theorem stage_onResolve (ec : ErrorCode) (s : Connector) :
    let t := onResolve ec { s with stage := .ended }
    t.stage ≠ .created ∧ t.destroyed = s.destroyed ∧ t.shutdowns = s.shutdowns := by
  unfold onResolve
  split_ifs
  · rw [report_eq]
    exact ⟨nofun, rfl, rfl⟩
  · exact ⟨nofun, rfl, rfl⟩

theorem stage_onConnect (ec : ErrorCode) (isOpen : Bool) (s : Connector) :
    let t := onConnect ec { s with stage := .ended, isOpen := isOpen }
    t.stage ≠ .created ∧ t.destroyed = s.destroyed ∧ t.shutdowns = s.shutdowns := by
  unfold onConnect
  split_ifs
  · rw [report_eq]
    exact ⟨nofun, rfl, rfl⟩
  · exact ⟨nofun, rfl, rfl⟩

theorem accounts_step {onError : Bool} {r : Attempt} {s t : Connector} {e : Event}
    (ha : Accounts onError r s) (hs : s.Owned) (h : s.step e = some t) :
    Accounts onError (r.add e) t ∧ t.Owned := by
  have hfits := ha.fits
  cases e with
  | doResolve =>
    simp only [step, Option.ite_none_right_eq_some, Option.some.injEq] at h
    obtain ⟨hstage, rfl⟩ := h
    rw [hstage] at hfits
    have hheld := hs.held hstage
    refine ⟨⟨ha.setting, hfits, ha.handed, ha.errors, ha.isOpen⟩, nofun, ?_, hs.shutdowns⟩
    rw [hs.destroyed, hheld]
    rfl
  | resolved ec =>
    simp only [step, Option.ite_none_right_eq_some, Option.some.injEq] at h
    obtain ⟨hstage, rfl⟩ := h
    rw [hstage] at hfits
    obtain rfl : r = ⟨none, none⟩ := hfits
    obtain ⟨hended, hsame⟩ := stage_onResolve ec s
    exact ⟨accounts_settle (accounts_onResolve ha ec),
      owned_of_outstanding hs (by rw [hstage]; rfl) hended hsame⟩
  | connected ec isOpen =>
    simp only [step, Option.ite_none_right_eq_some, Option.some.injEq, Bool.and_eq_true,
      decide_eq_true_eq] at h
    obtain ⟨⟨hstage, -⟩, rfl⟩ := h
    rw [hstage] at hfits
    obtain rfl : r = ⟨some .success, none⟩ := hfits
    obtain ⟨hended, hsame⟩ := stage_onConnect ec isOpen s
    exact ⟨accounts_settle (accounts_onConnect ha ec isOpen),
      owned_of_outstanding hs (by rw [hstage]; rfl) hended hsame⟩
  | release =>
    simp only [step, Option.ite_none_right_eq_some, Option.some.injEq, Bool.and_eq_true,
      decide_eq_true_eq] at h
    obtain ⟨⟨hheld, hstage⟩, rfl⟩ := h
    have halive : s.destroyed = false := by rw [hs.destroyed, hheld]; rfl
    have hzero : s.shutdowns = 0 := by rw [hs.shutdowns, halive]; rfl
    exact ⟨accounts_settle ⟨ha.setting, hfits, ha.handed, ha.errors, ha.isOpen⟩,
      owned_settle hstage halive hzero⟩

theorem accounts_run {onError : Bool} {es : List Event} {r : Attempt} {s t : Connector}
    (ha : Accounts onError r s) (hs : s.Owned) (hr : run s es = some t) :
    Accounts onError (es.foldl Attempt.add r) t ∧ t.Owned := by
  induction es generalizing r s with
  | nil => exact Option.some.inj hr ▸ ⟨ha, hs⟩
  | cons e es ih =>
    obtain ⟨u, hu, hrest⟩ := Transition.run_cons.mp hr
    obtain ⟨ha', hs'⟩ := accounts_step ha hs hu
    exact ih ha' hs' hrest

theorem Attempt.outcomes_of_ended {r : Attempt} (h : r.Fits .ended) :
    (if r.succeeded then 1 else 0) + r.failure.length = 1 := by
  rcases h with ⟨ec, hec, rfl⟩ | ⟨ec, isOpen, rfl⟩
  · simp [succeeded, failure, hec]
  · cases hec : ec.failed <;> simp [succeeded, failure, hec]

def Event.isHandler : Event → Bool
  | resolved _ => true
  | connected _ _ => true
  | _ => false

def left (s : Connector) : ℕ :=
  match s.stage with
  | .created => 2
  | .resolving => 2
  | .connecting => 1
  | .ended => 0

theorem left_step {s t : Connector} {e : Event} (h : s.step e = some t) :
    t.left + (if e.isHandler then 1 else 0) ≤ s.left ∧ s.handed ≤ t.handed := by
  have hsettle (u : Connector) : u.settle.left = u.left ∧ u.settle.handed = u.handed := by
    unfold settle
    split_ifs <;> exact ⟨rfl, rfl⟩
  cases e with
  | doResolve =>
    simp only [step, Option.ite_none_right_eq_some, Option.some.injEq] at h
    obtain ⟨hstage, rfl⟩ := h
    simp [left, hstage, Event.isHandler]
  | resolved ec =>
    simp only [step, Option.ite_none_right_eq_some, Option.some.injEq] at h
    obtain ⟨hstage, rfl⟩ := h
    rw [(hsettle _).1, (hsettle _).2]
    simp only [onResolve]
    split_ifs <;> simp [report_eq, left, hstage]
  | connected ec isOpen =>
    simp only [step, Option.ite_none_right_eq_some, Option.some.injEq, Bool.and_eq_true,
      decide_eq_true_eq] at h
    obtain ⟨⟨hstage, -⟩, rfl⟩ := h
    rw [(hsettle _).1, (hsettle _).2]
    simp only [onConnect]
    split_ifs <;> simp [report_eq, left, hstage]
  | release =>
    simp only [step, Option.ite_none_right_eq_some, Option.some.injEq] at h
    obtain ⟨-, rfl⟩ := h
    rw [(hsettle _).1, (hsettle _).2]
    exact ⟨Nat.le_refl _, Nat.le_refl _⟩

theorem connect_ends_once (onError : Bool) (es : List Event) (t : Connector)
    (hr : run (init onError) es = some t) :
    let r := es.foldl Attempt.add ⟨none, none⟩
    t.handed = (if r.succeeded then 1 else 0) ∧
      t.errors = (if onError then r.failure else []) ∧
      (t.stage = .ended → t.handed + r.failure.length = 1) ∧
      (t.destroyed = true ↔ t.held = false ∧ t.stage = .ended) ∧
      t.shutdowns = (if t.destroyed && r.leftOpen then 1 else 0) := by
  intro r
  have hstart : Accounts onError ⟨none, none⟩ (init onError) :=
    ⟨rfl, rfl, rfl, by cases onError <;> rfl, rfl⟩
  have howned : (init onError).Owned := ⟨fun _ => rfl, rfl, rfl⟩
  obtain ⟨ha, hs⟩ := accounts_run hstart howned hr
  refine ⟨ha.handed, ha.errors, fun hended => ?_, ?_, ha.isOpen ▸ hs.shutdowns⟩
  · rw [ha.handed]
    exact Attempt.outcomes_of_ended (hended ▸ ha.fits)
  · rw [hs.destroyed]
    cases hheld : t.held with
    | true => simp
    | false =>
      cases hstage : t.stage with
      | created =>
        have hkept := hs.held hstage
        rw [hheld] at hkept
        cases hkept
      | resolving | connecting | ended => simp [Stage.outstanding]

theorem connect_ends_once_unreachable :
    ∃ t, run (init true) [.doResolve, .resolved .success, .release,
        .connected (.other 111) true] = some t ∧
      t.handed = 0 ∧ t.errors = [(.other 111, "on_connect")] ∧ t.shutdowns = 1 := by
  refine ⟨_, rfl, rfl, ?_, rfl⟩
  exact (connect_ends_once true
    [.doResolve, .resolved .success, .release, .connected (.other 111) true] _ rfl).2.1

end Connector
end BeastRouter
