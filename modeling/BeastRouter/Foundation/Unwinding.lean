import BeastRouter.Foundation.Transition

namespace Transition
variable {S E A F : Type}

theorem run_component {step : S → E → Option S} {part : A → F → Option A} {f : S → A}
    {own : E → Option F}
    (h : ∀ s e t, step s e = some t →
      match own e with
      | none => f t = f s
      | some x => part (f s) x = some (f t))
    {s t : S} {es : List E} (hr : run step s es = some t) :
    run part (f s) (es.filterMap own) = some (f t) := by
  induction es generalizing s with
  | nil => exact congrArg (some ∘ f) (Option.some.inj hr)
  | cons e es ih =>
    obtain ⟨u, hu, hr⟩ := run_cons.mp hr
    have hstep := h s e u hu
    have hrest := ih hr
    cases hown : own e with
    | none =>
      rw [hown] at hstep
      rw [List.filterMap_cons_none hown, ← show f u = f s from hstep]
      exact hrest
    | some x =>
      rw [hown] at hstep
      rw [List.filterMap_cons_some hown]
      exact run_cons.mpr ⟨f u, hstep, hrest⟩

structure Unwinding (step : S → E → Option S) (seen : E → Bool)
    (R : S → S → Prop) : Prop where
  skip : ∀ s s' e t, seen e = false → R s s' → step s e = some t → R t s'
  keep : ∀ s s' e t, seen e = true → R s s' → step s e = some t →
    ∃ t', step s' e = some t' ∧ R t t'

theorem Unwinding.run_purged {step : S → E → Option S} {seen : E → Bool}
    {R : S → S → Prop}
    (h : Unwinding step seen R) {s s' t : S} {es : List E} (hs : R s s')
    (hr : run step s es = some t) : ∃ t', run step s' (es.filter seen) = some t' ∧ R t t' := by
  induction es generalizing s s' with
  | nil =>
    obtain rfl := Option.some.inj hr
    exact ⟨s', rfl, hs⟩
  | cons e es ih =>
    obtain ⟨u, hu, hr⟩ := run_cons.mp hr
    cases he : seen e with
    | false =>
      rw [List.filter_cons_of_neg (by simp [he])]
      exact ih (h.skip s s' e u he hs hu) hr
    | true =>
      obtain ⟨u', hu', hrel⟩ := h.keep s s' e u he hs hu
      obtain ⟨t', ht', hend⟩ := ih hrel hr
      rw [List.filter_cons_of_pos he]
      exact ⟨t', run_cons.mpr ⟨u', hu', ht'⟩, hend⟩

end Transition
