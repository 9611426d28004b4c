import BeastRouter.Listener

namespace BeastRouter.Listener

inductive Moves (s : Listener) : Event → Listener → Prop where
  | loop (setup : Setup) (hlaunched : s.launched = false) : Moves s (.loop setup) (s.loop setup)
  | close (hlaunched : s.launched = true) : Moves s .close s.close
  | acceptReady (i : ℕ) (ec : ErrorCode) (atClose : Bool)
    (hi : s.accepts[i]? = some ⟨none, atClose⟩) :
    Moves s (.acceptReady i ec) (s.acceptReady i ec)
  | acceptCompleted (i : ℕ) (c : Completion) (atClose : Bool)
    (hi : s.accepts[i]? = some ⟨some c, atClose⟩) :
    Moves s (.acceptCompleted i) (s.enterOnAccept i c)
  | post (i : ℕ) (c : Completion) (hi : s.calls[i]? = some (.entered c)) :
    Moves s (.post i) (s.postSpawnConnect i c)
  | rearm (i : ℕ) (hi : s.calls[i]? = some .posted) : Moves s (.rearm i) (s.leaveOnAccept i)
  | runStrand (c : Completion) (strand : List Completion) (hstrand : s.strand = c :: strand) :
    Moves s .runStrand (onSpawnConnect c { s with strand := strand })

theorem moves_of_step {s t : Listener} {e : Event} (h : s.step e = some t) : Moves s e t := by
  cases e with
  | loop setup =>
    simp only [step, Option.ite_none_left_eq_some, Bool.not_eq_true, Option.some.injEq] at h
    exact h.2 ▸ .loop setup h.1
  | close =>
    simp only [step, Option.ite_none_right_eq_some, Option.some.injEq] at h
    exact h.2 ▸ .close h.1
  | acceptReady i ec =>
    simp only [step] at h
    split at h
    · next atClose hi => exact Option.some.inj h ▸ .acceptReady i ec atClose hi
    · cases h
  | acceptCompleted i =>
    simp only [step] at h
    split at h
    · next c atClose hi => exact Option.some.inj h ▸ .acceptCompleted i c atClose hi
    · cases h
  | post i =>
    simp only [step] at h
    split at h
    · next c hi => exact Option.some.inj h ▸ .post i c hi
    · cases h
  | rearm i =>
    simp only [step] at h
    split at h
    · next hi => exact Option.some.inj h ▸ .rearm i hi
    · cases h
  | runStrand =>
    simp only [step] at h
    split at h
    · cases h
    · next c strand hstrand => exact Option.some.inj h ▸ .runStrand c strand hstrand

structure Sound (s : Listener) : Prop where
  one : s.accepts.length + s.calls.length = min s.started 1
  unlaunched : s.launched = false → s.started = 0 ∧ s.closed = false
  idle : s.started = 0 → s.strand = []
  settled : s.isOpen = false → ∀ a ∈ s.accepts, a.result ≠ none
  shut : s.closed = true → s.isOpen = false

theorem report_eq (ec : ErrorCode) (what : String) (s : Listener) :
    ∃ errors, s.report ec what = { s with errors := errors } := by
  unfold report
  split_ifs
  · exact ⟨_, rfl⟩
  · exact ⟨s.errors, rfl⟩

theorem loop_cases (setup : Setup) (s : Listener) :
    (setup.failed = true ∧ ∃ isOpen errors,
        s.loop setup = { s with launched := true, isOpen := isOpen, errors := errors }) ∨
      (setup.failed = false ∧
        s.loop setup = doAccept { s with launched := true, isOpen := true }) := by
  have hreport (isOpen : Bool) (ec : ErrorCode) (what : String) : ∃ isOpen' errors,
      report ec what { s with launched := true, isOpen := isOpen } =
        { s with launched := true, isOpen := isOpen', errors := errors } := by
    obtain ⟨errors, h⟩ := report_eq ec what { s with launched := true, isOpen := isOpen }
    exact ⟨isOpen, errors, h⟩
  unfold loop
  dsimp only
  split_ifs with hopen hoption hbind hlisten
  · exact .inl ⟨by simp [Setup.failed, hopen], hreport s.isOpen _ _⟩
  · exact .inl ⟨by simp [Setup.failed, hoption], hreport true _ _⟩
  · exact .inl ⟨by simp [Setup.failed, hbind], hreport true _ _⟩
  · exact .inl ⟨by simp [Setup.failed, hlisten], hreport true _ _⟩
  · exact .inr ⟨by simp [Setup.failed, hopen, hoption, hbind, hlisten], rfl⟩

theorem onSpawnConnect_eq (c : Completion) (s : Listener) :
    ∃ delivered errors,
      s.onSpawnConnect c = { s with delivered := delivered, errors := errors } := by
  unfold onSpawnConnect
  split_ifs
  · obtain ⟨errors, h⟩ := report_eq c.ec "accept/loop" s
    exact ⟨s.delivered, errors, h⟩
  · exact ⟨_, s.errors, rfl⟩

theorem sound_init (onError : Bool) : (init onError).Sound := by
  constructor <;> simp [init]

theorem sound_doAccept {s : Listener} (hone : s.accepts.length + s.calls.length = 0)
    (hlaunched : s.launched = true) (hshut : s.closed = true → s.isOpen = false) :
    s.doAccept.Sound := by
  have haccepts : s.accepts = [] := List.length_eq_zero_iff.mp (by omega)
  constructor
  · simp only [doAccept, List.length_append, List.length_singleton]
    omega
  · intro h
    simp [doAccept, hlaunched] at h
  · intro h
    simp [doAccept] at h
  · intro hopen a ha
    have hclosed : s.isOpen = false := hopen
    simp only [doAccept, haccepts, hclosed, List.nil_append, List.mem_singleton] at ha
    simp [ha]
  · exact hshut

theorem sound_loop {s : Listener} (hs : s.Sound) (hlaunched : s.launched = false)
    (setup : Setup) : (s.loop setup).Sound := by
  obtain ⟨hone, hunlaunched, hidle, hsettled, hshut⟩ := hs
  obtain ⟨hstarted, hclosed⟩ := hunlaunched hlaunched
  have hnone : s.accepts = [] := List.length_eq_zero_iff.mp (by omega)
  rcases loop_cases setup s with ⟨-, isOpen, errors, heq⟩ | ⟨-, heq⟩
  · rw [heq]
    refine ⟨hone, by simp, hidle, ?_, ?_⟩
    · simp [hnone]
    · simp [hclosed]
  · rw [heq]
    exact sound_doAccept (by simpa [hstarted] using hone) rfl (by simp [hclosed])

theorem sound_step (s : Listener) (e : Event) (t : Listener) (hs : s.Sound)
    (h : s.step e = some t) : t.Sound := by
  have ⟨hone, hunlaunched, hidle, hsettled, hshut⟩ := hs
  cases moves_of_step h with
  | loop setup hlaunched => exact sound_loop hs hlaunched setup
  | close hlaunched =>
    refine ⟨by simpa [close] using hone, ?_, hidle, ?_, fun _ => rfl⟩
    · simp [close, hlaunched]
    · intro _ a ha
      obtain ⟨b, -, rfl⟩ := List.mem_map.mp ha
      cases hb : b.result <;> simp [abort, hb]
  | acceptReady i ec atClose hi =>
    refine ⟨by simpa [acceptReady] using hone, hunlaunched, hidle, ?_, hshut⟩
    intro hopen
    exact absurd rfl (hsettled hopen _ (List.mem_of_getElem? hi))
  | acceptCompleted i c atClose hi =>
    have hlt := (List.getElem?_eq_some_iff.mp hi).1
    refine ⟨?_, hunlaunched, hidle, ?_, hshut⟩
    · simp only [enterOnAccept, List.length_eraseIdx_of_lt hlt, List.length_append,
        List.length_singleton]
      omega
    · intro hopen a ha
      exact hsettled hopen a (List.mem_of_mem_eraseIdx ha)
  | post i c hi =>
    have hlt := (List.getElem?_eq_some_iff.mp hi).1
    refine ⟨by simpa [postSpawnConnect] using hone, hunlaunched, ?_, hsettled, hshut⟩
    intro hstarted
    have hzero : s.started = 0 := hstarted
    omega
  | rearm i hi =>
    have hlt := (List.getElem?_eq_some_iff.mp hi).1
    apply sound_doAccept
    · simp only [List.length_eraseIdx_of_lt hlt]
      omega
    · cases hlaunched : s.launched with
      | true => rfl
      | false =>
        have hzero := (hunlaunched hlaunched).1
        omega
    · exact hshut
  | runStrand c strand hstrand =>
    obtain ⟨delivered, errors, heq⟩ := onSpawnConnect_eq c { s with strand := strand }
    rw [heq]
    refine ⟨hone, hunlaunched, ?_, hsettled, hshut⟩
    intro hstarted
    simp [hidle hstarted] at hstrand

theorem sound_run {onError : Bool} {es : List Event} {t : Listener}
    (hr : run (init onError) es = some t) : t.Sound :=
  Transition.run_invariant sound_step (sound_init onError) hr

def starts : Event → ℕ
  | .loop setup => if setup.failed then 0 else 1
  | .rearm _ => 1
  | _ => 0

theorem started_step {s t : Listener} {e : Event} (h : s.step e = some t) :
    t.started = s.started + starts e := by
  cases moves_of_step h with
  | loop setup =>
    rcases loop_cases setup s with ⟨hfailed, isOpen, errors, heq⟩ | ⟨hfailed, heq⟩
    · simp [heq, starts, hfailed]
    · simp [heq, starts, hfailed, doAccept]
  | runStrand c strand =>
    obtain ⟨delivered, errors, heq⟩ := onSpawnConnect_eq c { s with strand := strand }
    rw [heq]
    rfl
  | close | acceptReady | acceptCompleted | post | rearm => rfl

theorem started_eq_zero_iff {es : List Event} {s t : Listener} (hs : s.Sound)
    (hr : run s es = some t) :
    t.started = 0 ↔
      s.started = 0 ∧ ∀ setup, Event.loop setup ∈ es → setup.failed = true := by
  induction es generalizing s with
  | nil => simp [← Option.some.inj hr]
  | cons e es ih =>
    obtain ⟨u, hu, hrest⟩ := Transition.run_cons.mp hr
    rw [ih (sound_step s e u hs hu) hrest, started_step hu]
    cases e with
    | loop setup =>
      cases hfailed : setup.failed <;> simp [starts, hfailed]
    | rearm i =>
      have hcalls : s.calls ≠ [] := by
        intro hnil
        simp [step, hnil] at hu
      have hlen := List.length_pos_iff.mpr hcalls
      have hone := hs.one
      have hpositive : s.started ≠ 0 := by omega
      simp [starts, hpositive]
    | _ => simp [starts]

def Quiescent (s : Listener) : Prop :=
  ∀ es t, run s es = some t →
    t.accepts = [] ∧ t.started = s.started ∧ t.errors.length ≤ s.errors.length + 1

theorem idle_step {s t : Listener} {e : Event} (hs : s.Sound) (hlaunched : s.launched = true)
    (hstarted : s.started = 0) (h : s.step e = some t) :
    t.launched = true ∧ t.started = 0 ∧ t.errors = s.errors := by
  have hone := hs.one
  have haccepts : s.accepts = [] := List.length_eq_zero_iff.mp (by omega)
  have hcalls : s.calls = [] := List.length_eq_zero_iff.mp (by omega)
  have hstrand := hs.idle hstarted
  cases e with
  | close =>
    simp only [step, hlaunched, if_true, Option.some.injEq] at h
    exact h ▸ ⟨hlaunched, hstarted, rfl⟩
  | _ => simp [step, hlaunched, haccepts, hcalls, hstrand] at h

theorem idle_run {s t : Listener} {es : List Event} (hs : s.Sound) (hlaunched : s.launched = true)
    (hstarted : s.started = 0) (hr : run s es = some t) :
    t.Sound ∧ t.launched = true ∧ t.started = 0 ∧ t.errors = s.errors := by
  refine Transition.run_invariant
    (I := fun u => u.Sound ∧ u.launched = true ∧ u.started = 0 ∧ u.errors = s.errors)
    ?_ ⟨hs, hlaunched, hstarted, rfl⟩ hr
  rintro u e v ⟨hu, hl, hz, herrors⟩ hv
  obtain ⟨hl', hz', herrors'⟩ := idle_step hu hl hz hv
  exact ⟨sound_step u e v hu hv, hl', hz', herrors'.trans herrors⟩

theorem quiescent_of_idle {s : Listener} (hs : s.Sound) (hlaunched : s.launched = true)
    (hstarted : s.started = 0) : s.Quiescent := by
  intro es t hr
  obtain ⟨ht, -, hzero, herrors⟩ := idle_run hs hlaunched hstarted hr
  have hone := ht.one
  refine ⟨List.length_eq_zero_iff.mp (by omega), by omega, ?_⟩
  rw [herrors]
  omega

theorem accept_over {s : Listener} (hs : s.Sound) (hclosed : s.closed = true) :
    ∃ es t, run s es = some t ∧ t.closed = true ∧ t.started = s.started ∧
      t.accepts = [] := by
  have hone := hs.one
  cases haccepts : s.accepts with
  | nil => exact ⟨[], s, rfl, hclosed, rfl, haccepts⟩
  | cons a rest =>
    rw [haccepts, List.length_cons] at hone
    have hrest : rest = [] := List.length_eq_zero_iff.mp (by omega)
    subst hrest
    obtain ⟨result, atClose⟩ := a
    cases result with
    | none => exact absurd rfl (hs.settled (hs.shut hclosed) ⟨none, atClose⟩
        (by simp [haccepts]))
    | some c =>
      refine ⟨[.acceptCompleted 0], s.enterOnAccept 0 c, ?_, hclosed, rfl, ?_⟩
      · simp [Transition.run, step, haccepts]
      · simp [enterOnAccept, haccepts]

theorem another_accept {s : Listener} (hs : s.Sound) (hclosed : s.closed = true)
    (hstarted : s.started ≠ 0) :
    ∃ es t, run s es = some t ∧ t.closed = true ∧ t.started = s.started + 1 := by
  obtain ⟨es, u, hr, hu, hsame, haccepts⟩ := accept_over hs hclosed
  have hone := (Transition.run_invariant sound_step hs hr).one
  rw [haccepts, hsame, List.length_nil] at hone
  obtain ⟨call, hcall⟩ := List.length_eq_one_iff.mp (show u.calls.length = 1 by omega)
  cases call with
  | entered c =>
    refine ⟨es ++ [.post 0, .rearm 0], (u.postSpawnConnect 0 c).leaveOnAccept 0,
      Transition.run_append_some.mpr ⟨u, hr, ?_⟩, hu, congrArg (· + 1) hsame⟩
    simp [Transition.run, step, hcall, postSpawnConnect]
  | posted =>
    refine ⟨es ++ [.rearm 0], u.leaveOnAccept 0,
      Transition.run_append_some.mpr ⟨u, hr, ?_⟩, hu, congrArg (· + 1) hsame⟩
    simp [Transition.run, step, hcall]

theorem accepts_without_end {s : Listener} (hs : s.Sound) (hclosed : s.closed = true)
    (hstarted : s.started ≠ 0) (n : ℕ) :
    ∃ es t, run s es = some t ∧ t.closed = true ∧ t.started = s.started + n := by
  induction n with
  | zero => exact ⟨[], s, rfl, hclosed, rfl⟩
  | succ n ih =>
    obtain ⟨es, u, hr, hu, hcount⟩ := ih
    have hsound := Transition.run_invariant sound_step hs hr
    obtain ⟨fs, t, hr', ht, hnext⟩ := another_accept hsound hu (by omega)
    exact ⟨es ++ fs, t, Transition.run_append_some.mpr ⟨u, hr, hr'⟩, ht, by omega⟩

theorem not_quiescent {s : Listener} (hs : s.Sound) (hclosed : s.closed = true)
    (hstarted : s.started ≠ 0) : ¬ s.Quiescent := by
  intro hq
  obtain ⟨es, t, hr, -, hcount⟩ := another_accept hs hclosed hstarted
  have hsame := (hq es t hr).2.1
  omega

def RestsAfterClose (s : Listener) : Prop :=
  ∀ es t, run s es = some t → (∀ a ∈ t.accepts, a.atClose = false) → t.Quiescent

theorem rests_after_close_iff (onError : Bool) (es : List Event) (t : Listener)
    (hr : run (init onError) es = some t) (hclosed : t.closed = true) :
    t.RestsAfterClose ↔ ∀ setup, Event.loop setup ∈ es → setup.failed = true := by
  have hs := sound_run hr
  have hzero := started_eq_zero_iff (sound_init onError) hr
  have hlaunched : t.launched = true := by
    cases hl : t.launched with
    | true => rfl
    | false => simp [(hs.unlaunched hl).2] at hclosed
  constructor
  · intro hrests
    by_contra hloop
    have hstarted : t.started ≠ 0 := fun h => hloop (hzero.mp h).2
    obtain ⟨fs, u, hr', hu, hsame, haccepts⟩ := accept_over hs hclosed
    have hover : ∀ a ∈ u.accepts, a.atClose = false := by simp [haccepts]
    have hsound := Transition.run_invariant sound_step hs hr'
    exact not_quiescent hsound hu (by omega) (hrests fs u hr' hover)
  · intro hloop fs u hr' _
    have hidle := idle_run hs hlaunched (hzero.mpr ⟨rfl, hloop⟩) hr'
    exact quiescent_of_idle hidle.1 hidle.2.1 hidle.2.2.1

theorem rests_after_close_address_in_use :
    ∃ t, run (init true)
        [.loop ⟨.success, .success, .other 98, .success⟩, .close] = some t ∧
      t.RestsAfterClose := by
  refine ⟨_, rfl, ?_⟩
  refine (rests_after_close_iff true [.loop ⟨.success, .success, .other 98, .success⟩, .close] _
    rfl rfl).mpr ?_
  intro setup hsetup
  rcases List.mem_cons.mp hsetup with h | h
  · obtain rfl := Event.loop.inj h
    rfl
  · simp at h

theorem accepts_after_close :
    ¬ ∀ (es : List Event) (t : Listener), run (init true) es = some t → t.closed = true →
      t.RestsAfterClose := by
  intro h
  have hrests := h [.loop ⟨.success, .success, .success, .success⟩, .close] _ rfl rfl
  have hquiet := hrests [.acceptCompleted 0] _ rfl (by decide)
  exact absurd (hquiet [.post 0, .rearm 0] _ rfl).1 (by decide)

end BeastRouter.Listener
