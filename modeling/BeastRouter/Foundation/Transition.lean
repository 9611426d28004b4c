import Mathlib.Data.List.Basic
import Mathlib.Data.List.Induction

namespace Transition

variable {S E A F : Type}

def run (step : S → E → Option S) : S → List E → Option S
  | s, [] => some s
  | s, e :: es => (step s e).bind (fun t => run step t es)

@[simp] theorem run_nil (step : S → E → Option S) (s : S) : run step s [] = some s := rfl

theorem run_cons {step : S → E → Option S} {s u : S} {e : E} {es : List E} :
    run step s (e :: es) = some u ↔ ∃ t, step s e = some t ∧ run step t es = some u := by
  simp only [run, Option.bind_eq_some_iff]

theorem run_append (step : S → E → Option S) (s : S) (es fs : List E) :
    run step s (es ++ fs) = (run step s es).bind (fun t => run step t fs) := by
  induction es generalizing s with
  | nil => rfl
  | cons e es ih =>
    simp only [List.cons_append, run, Option.bind_assoc]
    congr 1
    funext t
    exact ih t

theorem run_append_some {step : S → E → Option S} {s u : S} {es fs : List E} :
    run step s (es ++ fs) = some u ↔
      ∃ t, run step s es = some t ∧ run step t fs = some u := by
  rw [run_append, Option.bind_eq_some_iff]

theorem run_singleton (step : S → E → Option S) (s : S) (e : E) :
    run step s [e] = step s e := by
  simp only [run, Option.bind_fun_some]

theorem run_invariant {step : S → E → Option S} {I : S → Prop}
    (hstep : ∀ s e t, I s → step s e = some t → I t) {s t : S} {es : List E}
    (hs : I s) (hr : run step s es = some t) : I t := by
  induction es generalizing s with
  | nil => exact Option.some.inj hr ▸ hs
  | cons e es ih =>
    obtain ⟨u, hu, hr⟩ := run_cons.mp hr
    exact ih (hstep s e u hs hu) hr

theorem run_history_invariant {step : S → E → Option S} {I : List E → S → Prop} {s : S}
    {es : List E} (hnil : I [] s)
    (hsnoc : ∀ es' e t u, es' ++ [e] <+: es → run step s es' = some t → step t e = some u →
      I es' t → I (es' ++ [e]) u) :
    ∀ es' u, es' <+: es → run step s es' = some u → I es' u := by
  intro es'
  induction es' using List.reverseRecOn with
  | nil =>
    intro u _ hr
    exact Option.some.inj hr ▸ hnil
  | append_singleton es' e ih =>
    intro u hes hr
    obtain ⟨t, ht, hu⟩ := run_append_some.mp hr
    rw [run_singleton] at hu
    have hbefore : es' <+: es := (List.prefix_append es' [e]).trans hes
    exact hsnoc es' e t u hes ht hu (ih t hbefore ht)

def Along (step : S → E → Option S) (P : S → E → S → Prop) : S → List E → Prop
  | _, [] => True
  | s, e :: es => ∀ t, step s e = some t → P s e t ∧ Along step P t es

theorem along_iff_forall_prefix {step : S → E → Option S} {P : S → E → S → Prop} {s : S}
    {es : List E} :
    Along step P s es ↔ ∀ es' e t u, es' ++ [e] <+: es → run step s es' = some t →
      step t e = some u → P t e u := by
  induction es generalizing s with
  | nil =>
    refine iff_of_true trivial fun es' e t u hes => ?_
    exact absurd (List.prefix_nil.mp hes) (by simp)
  | cons f es ih =>
    constructor
    · intro h es' e t u hes hr hstep
      cases es' with
      | nil =>
        obtain ⟨rfl, -⟩ := List.cons_prefix_cons.mp hes
        obtain rfl := Option.some.inj hr
        exact (h u hstep).1
      | cons f' es' =>
        obtain ⟨rfl, htail⟩ := List.cons_prefix_cons.mp hes
        obtain ⟨v, hv, hr⟩ := run_cons.mp hr
        exact ih.mp (h v hv).2 es' e t u htail hr hstep
    · intro h v hv
      refine ⟨h [] f s v (List.cons_prefix_cons.mpr ⟨rfl, List.nil_prefix⟩) rfl hv, ?_⟩
      refine ih.mpr fun es' e t u hes hr hstep => ?_
      exact h (f :: es') e t u (List.cons_prefix_cons.mpr ⟨rfl, hes⟩)
        (run_cons.mpr ⟨v, hv, hr⟩) hstep

theorem along_of_mem {step : S → E → Option S} {Q : E → Prop} {es : List E}
    (h : ∀ e ∈ es, Q e) (s : S) : Along step (fun _ e _ => Q e) s es := by
  induction es generalizing s with
  | nil => trivial
  | cons e es ih =>
    intro t _
    exact ⟨h e (.head es), ih (fun f hf => h f (.tail e hf)) t⟩

theorem Along.imp {step : S → E → Option S} {P Q : S → E → S → Prop}
    (hPQ : ∀ s e t, P s e t → Q s e t) {s : S} {es : List E} (h : Along step P s es) :
    Along step Q s es := by
  induction es generalizing s with
  | nil => trivial
  | cons e es ih =>
    intro t ht
    exact ⟨hPQ s e t (h t ht).1, ih (h t ht).2⟩

theorem run_invariant_along {step : S → E → Option S} {I : S → Prop}
    {P : S → E → S → Prop}
    (hstep : ∀ s e t, I s → P s e t → step s e = some t → I t) {s t : S} {es : List E}
    (hs : I s) (hp : Along step P s es) (hr : run step s es = some t) : I t := by
  induction es generalizing s with
  | nil => exact Option.some.inj hr ▸ hs
  | cons e es ih =>
    obtain ⟨u, hu, hr⟩ := run_cons.mp hr
    obtain ⟨hpu, hps⟩ := hp u hu
    exact ih (hstep s e u hs hpu hu) hps hr

theorem along_congr {step : S → E → Option S} {I : S → Prop} {P Q : S → E → S → Prop}
    (hI : ∀ s e t, I s → step s e = some t → I t)
    (h : ∀ s e t, I s → step s e = some t → (P s e t ↔ Q s e t)) {s : S} (hs : I s)
    (es : List E) : Along step P s es ↔ Along step Q s es := by
  induction es generalizing s with
  | nil => exact Iff.rfl
  | cons e es ih =>
    refine forall_congr' fun t => imp_congr_right fun ht => ?_
    exact and_congr (h s e t hs ht) (ih (hI s e t hs ht))

theorem forall_prefix_iff_along {step : S → E → Option S} {G : S → Prop} {s : S}
    (es : List E) :
    (∀ es' t, es' <+: es → run step s es' = some t → G t) ↔
      G s ∧ Along step (fun _ _ t => G t) s es := by
  induction es generalizing s with
  | nil =>
    constructor
    · intro h
      exact ⟨h [] s (List.prefix_refl _) rfl, trivial⟩
    · rintro ⟨hs, -⟩ es' t hes hr
      rw [List.prefix_nil.mp hes] at hr
      exact Option.some.inj hr ▸ hs
  | cons e es ih =>
    constructor
    · intro h
      refine ⟨h [] s List.nil_prefix rfl, fun t ht => ?_⟩
      apply ih.mp
      intro es' u hes hu
      exact h (e :: es') u ((List.prefix_cons_inj e).mpr hes) (run_cons.mpr ⟨t, ht, hu⟩)
    · rintro ⟨hs, hall⟩ es' u hes hu
      rcases List.prefix_cons_iff.mp hes with rfl | ⟨fs, rfl, hfs⟩
      · exact Option.some.inj hu ▸ hs
      · obtain ⟨t, ht, hu⟩ := run_cons.mp hu
        exact ih.mpr (hall t ht) fs u hfs hu

theorem along_iff_admissible {step : S → E → Option S} {I G : S → Prop} {Q : S → E → Prop}
    (hI : ∀ s e t, I s → step s e = some t → I t)
    (h : ∀ s e t, I s → G s → step s e = some t → (G t ↔ Q s e)) {s : S} (hs : I s)
    (hg : G s)
    (es : List E) :
    Along step (fun _ _ t => G t) s es ↔ Along step (fun s e _ => Q s e) s es := by
  induction es generalizing s with
  | nil => exact Iff.rfl
  | cons e es ih =>
    refine forall_congr' fun t => imp_congr_right fun ht => ?_
    have hq := h s e t hs hg ht
    constructor
    · rintro ⟨hgt, hrest⟩
      exact ⟨hq.mp hgt, (ih (hI s e t hs ht) hgt).mp hrest⟩
    · rintro ⟨hqe, hrest⟩
      have hgt := hq.mpr hqe
      exact ⟨hgt, (ih (hI s e t hs ht) hgt).mpr hrest⟩

theorem run_map_iff {step : S → E → Option S} {step' : A → E → Option A} {f : S → A}
    (hstuck : ∀ s e, step s e = none → step' (f s) e = none) {s : S} (es : List E) :
    (∀ es', es' <+: es → run step' (f s) es' = (run step s es').map f) ↔
      Along step (fun s e t => step' (f s) e = some (f t)) s es := by
  induction es generalizing s with
  | nil =>
    refine ⟨fun _ => trivial, fun _ es' hes => ?_⟩
    rw [List.prefix_nil.mp hes]
    rfl
  | cons e es ih =>
    constructor
    · intro h t ht
      have hstep : step' (f s) e = some (f t) := by
        have := h [e] (by simp)
        rwa [run_singleton, run_singleton, ht] at this
      refine ⟨hstep, ih.mp fun es' hes => ?_⟩
      have hrest := h (e :: es') ((List.prefix_cons_inj e).mpr hes)
      simpa only [run, hstep, ht, Option.bind_some] using hrest
    · intro h es' hes
      rcases List.prefix_cons_iff.mp hes with rfl | ⟨fs, rfl, hfs⟩
      · rfl
      · cases ht : step s e with
        | none => simp only [run, ht, hstuck s e ht, Option.bind_none, Option.map_none]
        | some t =>
          obtain ⟨hstep, hrest⟩ := h t ht
          simpa only [run, hstep, ht, Option.bind_some] using ih.mpr hrest fs hfs

theorem run_refines {step : S → E → Option S} {astep : A → F → Option A} {f : S → A}
    (h : ∀ s e t, step s e = some t → ∃ fs, run astep (f s) fs = some (f t)) {s t : S}
    {es : List E} (hr : run step s es = some t) : ∃ fs, run astep (f s) fs = some (f t) := by
  induction es generalizing s with
  | nil => exact ⟨[], congrArg (some ∘ f) (Option.some.inj hr)⟩
  | cons e es ih =>
    obtain ⟨u, hu, hr⟩ := run_cons.mp hr
    obtain ⟨fs, hfs⟩ := h s e u hu
    obtain ⟨gs, hgs⟩ := ih hr
    exact ⟨fs ++ gs, run_append_some.mpr ⟨f u, hfs, hgs⟩⟩

def collect {O : Type} (step : S → E → Option S) (f : S → E → List O) :
    S → List E → List O
  | _, [] => []
  | s, e :: es => f s e ++ ((step s e).elim [] fun t => collect step f t es)

theorem collect_append {O : Type} {step : S → E → Option S} {f : S → E → List O} {s t : S}
    {es : List E} (hr : run step s es = some t) (fs : List E) :
    collect step f s (es ++ fs) = collect step f s es ++ collect step f t fs := by
  induction es generalizing s with
  | nil =>
    obtain rfl := Option.some.inj hr
    rfl
  | cons e es ih =>
    obtain ⟨u, hu, hr⟩ := run_cons.mp hr
    rw [List.cons_append, collect, collect, hu, Option.elim_some, Option.elim_some, ih hr,
      List.append_assoc]

theorem collect_singleton {O : Type} (step : S → E → Option S) (f : S → E → List O) (s : S)
    (e : E) : collect step f s [e] = f s e := by
  cases h : step s e <;> simp [collect, h]

theorem collect_eq_invariant {O : Type} {step : S → E → Option S} {f : S → E → List O}
    {g : S → List O} {I : S → Prop} (hI : ∀ s e t, I s → step s e = some t → I t)
    (h : ∀ s e t, I s → step s e = some t → g t = g s ++ f s e) {s t : S} {es : List E}
    (hs : I s)
    (hr : run step s es = some t) : g t = g s ++ collect step f s es := by
  induction es generalizing s with
  | nil => simpa [collect] using congrArg g (Option.some.inj hr).symm
  | cons e es ih =>
    obtain ⟨u, hu, hr⟩ := run_cons.mp hr
    rw [ih (hI s e u hs hu) hr, h s e u hs hu, collect, hu, List.append_assoc, Option.elim_some]

theorem collect_eq {O : Type} {step : S → E → Option S} {f : S → E → List O}
    {g : S → List O}
    (h : ∀ s e t, step s e = some t → g t = g s ++ f s e) {s t : S} {es : List E}
    (hr : run step s es = some t) : g t = g s ++ collect step f s es :=
  collect_eq_invariant (I := fun _ => True) (fun _ _ _ _ _ => trivial) (fun s e t _ => h s e t)
    trivial hr

theorem collect_conserved {O : Type} {step : S → E → Option S} {f g : S → E → List O}
    {waiting : S → List O} {I : S → Prop} (hI : ∀ s e t, I s → step s e = some t → I t)
    (h : ∀ s e t, I s → step s e = some t → waiting s ++ f s e = g s e ++ waiting t) {s t : S}
    {es : List E} (hs : I s) (hr : run step s es = some t) :
    waiting s ++ collect step f s es = collect step g s es ++ waiting t := by
  induction es generalizing s with
  | nil =>
    obtain rfl := Option.some.inj hr
    simp [collect]
  | cons e es ih =>
    obtain ⟨u, hu, hr⟩ := run_cons.mp hr
    rw [collect, collect, hu, Option.elim_some, Option.elim_some, ← List.append_assoc,
      h s e u hs hu, List.append_assoc, ih (hI s e u hs hu) hr, List.append_assoc]

theorem collect_conserved_perm {O : Type} {step : S → E → Option S} {f g : S → E → List O}
    {waiting : S → List O}
    (h : ∀ s e t, step s e = some t → (waiting s ++ f s e).Perm (g s e ++ waiting t)) {s t : S}
    {es : List E} (hr : run step s es = some t) :
    (waiting s ++ collect step f s es).Perm (collect step g s es ++ waiting t) := by
  induction es generalizing s with
  | nil =>
    obtain rfl := Option.some.inj hr
    simp [collect]
  | cons e es ih =>
    obtain ⟨u, hu, hr⟩ := run_cons.mp hr
    rw [collect, collect, hu, Option.elim_some, Option.elim_some, ← List.append_assoc]
    have hfirst := (h s e u hu).append_right (collect step f u es)
    rw [List.append_assoc (g s e)] at hfirst
    rw [List.append_assoc (g s e)]
    exact hfirst.trans ((ih hr).append_left (g s e))

theorem collect_filterMap {O O' : Type} {step : S → E → Option S} {f : S → E → List O}
    (g : O → Option O') (s : S) (es : List E) :
    collect step (fun s e => (f s e).filterMap g) s es = (collect step f s es).filterMap g := by
  induction es generalizing s with
  | nil => rfl
  | cons e es ih =>
    rw [collect, collect, List.filterMap_append]
    cases step s e with
    | none => rfl
    | some t => rw [Option.elim_some, Option.elim_some, ih t]

theorem collect_flatMap {O O' : Type} {step : S → E → Option S} {f : S → E → List O}
    (g : O → List O') (s : S) (es : List E) :
    (collect step f s es).flatMap g = collect step (fun s e => (f s e).flatMap g) s es := by
  induction es generalizing s with
  | nil => rfl
  | cons e es ih =>
    rw [collect, collect, List.flatMap_append]
    cases step s e with
    | none => rfl
    | some t => rw [Option.elim_some, Option.elim_some, ih t]

theorem collect_forall {O : Type} {step : S → E → Option S} {f : S → E → List O}
    {I : S → Prop}
    {Q : O → Prop} (hI : ∀ s e t, I s → step s e = some t → I t)
    (h : ∀ s e, I s → ∀ x ∈ f s e, Q x) {s : S} (hs : I s) (es : List E) :
    ∀ x ∈ collect step f s es, Q x := by
  induction es generalizing s with
  | nil => simp [collect]
  | cons e es ih =>
    intro x hx
    rcases List.mem_append.mp hx with hx | hx
    · exact h s e hs x hx
    · cases ht : step s e with
      | none => simp [ht] at hx
      | some t => exact ih (hI s e t hs ht) x (by simpa [ht] using hx)

theorem collect_eq_nil {O : Type} {step : S → E → Option S} {f : S → E → List O}
    {es : List E}
    (h : ∀ e ∈ es, ∀ s, f s e = []) (s : S) : collect step f s es = [] := by
  induction es generalizing s with
  | nil => rfl
  | cons e es ih =>
    have htail (t : S) : collect step f t es = [] := ih (fun e' he => h e' (.tail e he)) t
    rw [collect, h e (.head es) s, List.nil_append]
    cases step s e with
    | none => rfl
    | some t => exact htail t

theorem collect_eq_flatMap {O : Type} {step : S → E → Option S} (f : E → List O) {s t : S}
    {es : List E} (hr : run step s es = some t) :
    collect step (fun _ e => f e) s es = es.flatMap f := by
  induction es generalizing s with
  | nil => rfl
  | cons e es ih =>
    obtain ⟨u, hu, hr⟩ := run_cons.mp hr
    rw [collect, hu, Option.elim_some, ih hr, List.flatMap_cons]

theorem mem_collect {O : Type} {step : S → E → Option S} {f : S → E → List O} {s : S}
    {es : List E} {x : O} (hx : x ∈ collect step f s es) :
    ∃ es' e u, es' ++ [e] <+: es ∧ run step s es' = some u ∧ x ∈ f u e := by
  induction es generalizing s with
  | nil => cases hx
  | cons e es ih =>
    rcases List.mem_append.mp hx with hx | hx
    · exact ⟨[], e, s, List.prefix_append [e] es, rfl, hx⟩
    · cases ht : step s e with
      | none => simp [ht] at hx
      | some t =>
        obtain ⟨es', e', u, hes, hu, hx⟩ := ih (by simpa [ht] using hx)
        refine ⟨e :: es', e', u, ?_, run_cons.mpr ⟨t, ht, hu⟩, hx⟩
        exact (List.prefix_cons_inj e).mpr hes

theorem run_simulates {step : S → E → Option S} {part : A → F → Option A}
    {R : S → A → Prop}
    {g : S → E → List F}
    (h : ∀ s a e t, R s a → step s e = some t → ∃ b, run part a (g s e) = some b ∧ R t b)
    {s t : S} {a : A} {es : List E} (hs : R s a) (hr : run step s es = some t) :
    ∃ b, run part a (collect step g s es) = some b ∧ R t b := by
  induction es generalizing s a with
  | nil => exact ⟨a, rfl, Option.some.inj hr ▸ hs⟩
  | cons e es ih =>
    obtain ⟨u, hu, hr⟩ := run_cons.mp hr
    obtain ⟨b, hb, hrel⟩ := h s a e u hs hu
    obtain ⟨c, hc, hend⟩ := ih hrel hr
    rw [collect, hu, Option.elim_some]
    exact ⟨c, run_append_some.mpr ⟨b, hb, hc⟩, hend⟩

theorem run_collect {step : S → E → Option S} {part : A → F → Option A} {f : S → A}
    {g : S → E → List F}
    (h : ∀ s e t, step s e = some t → run part (f s) (g s e) = some (f t))
    {s t : S} {es : List E} (hr : run step s es = some t) :
    run part (f s) (collect step g s es) = some (f t) := by
  obtain ⟨b, hb, rfl⟩ := run_simulates (R := fun s a => a = f s)
    (fun s a e t ha hstep => ⟨f t, ha ▸ h s e t hstep, rfl⟩) rfl hr
  exact hb

theorem collect_bound {O : Type} {step : S → E → Option S} {f : S → E → List O}
    {g : S → ℕ}
    {I : S → Prop} (hI : ∀ s e t, I s → step s e = some t → I t)
    (h : ∀ s e t, I s → step s e = some t → g t ≤ g s + (f s e).length) {s t : S}
    {es : List E}
    (hs : I s) (hr : run step s es = some t) : g t ≤ g s + (collect step f s es).length := by
  induction es generalizing s with
  | nil =>
    obtain rfl := Option.some.inj hr
    exact Nat.le_add_right _ _
  | cons e es ih =>
    obtain ⟨u, hu, hr⟩ := run_cons.mp hr
    have hfirst := h s e u hs hu
    have hrest := ih (hI s e u hs hu) hr
    rw [collect, hu, Option.elim_some, List.length_append]
    omega

end Transition
