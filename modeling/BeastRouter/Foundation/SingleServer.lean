import Mathlib.Tactic.SplitIfs
import BeastRouter.Foundation.Transition

namespace SingleServer

structure Station (I : Type) where
  queue : List I
  serving : List I
  current : Option I
  arrived : List I
  started : List I
  underflows : ℕ

inductive Event (I : Type) where
  | arrive (x : I)
  | depart (i : ℕ)
  | halt (i : ℕ)

def Event.items {I : Type} : Event I → List I
  | .arrive x => [x]
  | _ => []

def Event.isHalt {I : Type} : Event I → Bool
  | .halt _ => true
  | _ => false

namespace Station
variable {I : Type}

def empty : Station I := ⟨[], [], none, [], [], 0⟩

def start (x : I) (s : Station I) : Station I :=
  { s with serving := s.serving ++ [x], current := some x, started := s.started ++ [x] }

def startFront (s : Station I) : Station I :=
  match s.queue with
  | [] => s
  | x :: _ => s.start x

def arrive (x : I) (s : Station I) : Station I :=
  let s := { s with queue := s.queue ++ [x], arrived := s.arrived ++ [x] }
  if s.queue.length = 1 then s.startFront else s

def advance (s : Station I) : Station I :=
  match s.queue with
  | [] => { s with underflows := s.underflows + 1 }
  | _ :: rest => { s with queue := rest }.startFront

def release (i : ℕ) (s : Station I) : Station I := { s with serving := s.serving.eraseIdx i }

def step (s : Station I) : Event I → Option (Station I)
  | .arrive x => some (s.arrive x)
  | .depart i => if i < s.serving.length then some (s.release i).advance else none
  | .halt i => if i < s.serving.length then some (s.release i) else none

structure Sound (s : Station I) : Prop where
  one_at_a_time : s.serving.length ≤ 1
  serves_front : ∀ x ∈ s.serving, s.queue.head? = some x ∧ s.current = some x
  conserved : s.arrived = s.started ++ s.queue.tail
  no_underflow : s.underflows = 0

theorem sound_empty : (empty : Station I).Sound :=
  ⟨by simp [empty], by simp [empty], by simp [empty], rfl⟩

theorem sound_arrive {s : Station I} (x : I) (h : s.Sound) : (s.arrive x).Sound := by
  obtain ⟨hone, hfront, hcons, hflow⟩ := h
  cases hq : s.queue with
  | nil =>
    have hidle : s.serving = [] := by
      refine List.eq_nil_iff_forall_not_mem.mpr fun y hy => ?_
      simpa [hq] using (hfront y hy).1
    refine ⟨?_, ?_, ?_, ?_⟩ <;> simp [arrive, startFront, start, hq, hidle, hcons, hflow]
  | cons y ys =>
    refine ⟨?_, ?_, ?_, ?_⟩
    · simpa [arrive, hq] using hone
    · simpa [arrive, hq] using hfront
    · simp [arrive, hq, hcons]
    · simpa [arrive, hq] using hflow

theorem Sound.serving_eq {s : Station I} (h : s.Sound) {i : ℕ} (hi : i < s.serving.length) :
    i = 0 ∧ ∃ x, s.serving = [x] ∧ s.queue.head? = some x := by
  have hone := h.one_at_a_time
  obtain ⟨x, hx⟩ : ∃ x, s.serving = [x] := List.length_eq_one_iff.mp (by omega)
  exact ⟨by omega, x, hx, (h.serves_front x (by simp [hx])).1⟩

theorem sound_halt {s : Station I} {i : ℕ} (h : s.Sound) (hi : i < s.serving.length) :
    (s.release i).Sound := by
  obtain ⟨rfl, x, hx, -⟩ := h.serving_eq hi
  refine ⟨by simp [release, hx], by simp [release, hx], ?_, ?_⟩
  · simpa [release] using h.conserved
  · simpa [release] using h.no_underflow

theorem sound_depart {s : Station I} {i : ℕ} (h : s.Sound) (hi : i < s.serving.length) :
    (s.release i).advance.Sound := by
  obtain ⟨rfl, x, hx, hhead⟩ := h.serving_eq hi
  have hcons := h.conserved
  have hflow := h.no_underflow
  obtain ⟨rest, hq⟩ := List.head?_eq_some_iff.mp hhead
  rw [hq, List.tail_cons] at hcons
  cases rest with
  | nil =>
    refine ⟨?_, ?_, ?_, ?_⟩ <;> simp [release, advance, startFront, hx, hq, hcons, hflow]
  | cons y ys =>
    refine ⟨?_, ?_, ?_, ?_⟩ <;> simp [release, advance, startFront, start, hx, hq, hcons, hflow]

theorem sound_step (s : Station I) (e : Event I) (t : Station I) (h : s.Sound)
    (ht : s.step e = some t) : t.Sound := by
  cases e with
  | arrive x => exact Option.some.inj ht ▸ sound_arrive x h
  | depart i =>
    simp only [step, Option.ite_none_right_eq_some, Option.some.injEq] at ht
    exact ht.2 ▸ sound_depart h ht.1
  | halt i =>
    simp only [step, Option.ite_none_right_eq_some, Option.some.injEq] at ht
    exact ht.2 ▸ sound_halt h ht.1

theorem sound_run {es : List (Event I)} {t : Station I}
    (hr : Transition.run step empty es = some t) : t.Sound :=
  Transition.run_invariant sound_step sound_empty hr

theorem arrived_step {s t : Station I} {e : Event I} (h : s.step e = some t) :
    t.arrived = s.arrived ++ e.items := by
  cases e with
  | arrive x =>
    rw [← Option.some.inj h]
    simp only [arrive, startFront, start, Event.items]
    split_ifs <;> [skip; rfl]
    split <;> rfl
  | depart i =>
    simp only [step, Option.ite_none_right_eq_some, Option.some.injEq] at h
    rw [← h.2]
    simp only [release, advance, startFront, start, Event.items, List.append_nil]
    split <;> [rfl; split <;> rfl]
  | halt i =>
    simp only [step, Option.ite_none_right_eq_some, Option.some.injEq] at h
    simp [← h.2, release, Event.items]

theorem arrived_run {s t : Station I} {es : List (Event I)}
    (hr : Transition.run step s es = some t) : t.arrived = s.arrived ++ es.flatMap Event.items := by
  induction es generalizing s with
  | nil => simpa using congrArg Station.arrived (Option.some.inj hr).symm
  | cons e es ih =>
    obtain ⟨u, hu, hr⟩ := Transition.run_cons.mp hr
    rw [ih hr, arrived_step hu, List.flatMap_cons, List.append_assoc]

theorem started_step_mono {s t : Station I} {e : Event I} (h : s.step e = some t) :
    s.started <+: t.started := by
  cases e with
  | arrive x =>
    rw [← Option.some.inj h]
    simp only [arrive, startFront, start]
    split_ifs <;> [skip; exact List.prefix_refl _]
    split <;> [exact List.prefix_refl _; exact List.prefix_append _ _]
  | depart i =>
    simp only [step, Option.ite_none_right_eq_some, Option.some.injEq] at h
    rw [← h.2]
    simp only [release, advance, startFront, start]
    split <;> [exact List.prefix_refl _; skip]
    split <;> [exact List.prefix_refl _; exact List.prefix_append _ _]
  | halt i =>
    simp only [step, Option.ite_none_right_eq_some, Option.some.injEq] at h
    exact h.2 ▸ List.prefix_refl _

theorem started_run_mono {s t : Station I} {es : List (Event I)}
    (hr : Transition.run step s es = some t) : s.started <+: t.started :=
  Transition.run_invariant (I := fun u => s.started <+: u.started)
    (fun _ _ _ hs h => hs.trans (started_step_mono h)) (List.prefix_refl _) hr

theorem serving_step (s : Station I) (e : Event I) (t : Station I) (hs : s.serving ⊆ s.started)
    (h : s.step e = some t) : t.serving ⊆ t.started := by
  have hfront {u : Station I} (hu : u.serving ⊆ u.started) :
      u.startFront.serving ⊆ u.startFront.started := by
    unfold startFront
    split
    · exact hu
    · exact List.append_subset.mpr ⟨List.Subset.trans hu (List.subset_append_left _ _),
        List.subset_append_right _ _⟩
  have hrelease (i : ℕ) : (s.release i).serving ⊆ (s.release i).started :=
    List.Subset.trans List.eraseIdx_subset hs
  cases e with
  | arrive x =>
    rw [← Option.some.inj h]
    dsimp only [arrive]
    split_ifs
    · exact hfront hs
    · exact hs
  | depart i =>
    simp only [step, Option.ite_none_right_eq_some, Option.some.injEq] at h
    rw [← h.2]
    unfold advance
    split
    · exact hrelease i
    · exact hfront (hrelease i)
  | halt i =>
    simp only [step, Option.ite_none_right_eq_some, Option.some.injEq] at h
    exact h.2 ▸ hrelease i

def Prompt (s : Station I) : Prop :=
  (s.arrived = [] → s.queue = []) ∧ (s.arrived ≠ [] → s.started ≠ [])

theorem prompt_step (s : Station I) (e : Event I) (t : Station I) (hs : s.Prompt)
    (h : s.step e = some t) : t.Prompt := by
  obtain ⟨hnobody, hserved⟩ := hs
  have harrived := arrived_step h
  have hstarted := started_step_mono h
  have hkept (hsome : s.arrived ≠ []) : t.started ≠ [] :=
    fun hnil => hserved hsome (List.prefix_nil.mp (hnil ▸ hstarted))
  cases e with
  | arrive x =>
    refine ⟨fun hnil => ?_, fun _ => ?_⟩
    · rw [hnil] at harrived
      exact absurd harrived.symm (by simp [Event.items])
    · by_cases hnone : s.arrived = []
      · rw [← Option.some.inj h]
        simp [arrive, startFront, start, hnobody hnone]
      · exact hkept hnone
  | depart i =>
    replace harrived : t.arrived = s.arrived := harrived.trans (List.append_nil _)
    refine ⟨fun hnil => ?_, fun hsome => hkept (harrived ▸ hsome)⟩
    simp only [step, Option.ite_none_right_eq_some, Option.some.injEq] at h
    rw [← h.2]
    simp [release, advance, hnobody (harrived ▸ hnil)]
  | halt i =>
    replace harrived : t.arrived = s.arrived := harrived.trans (List.append_nil _)
    refine ⟨fun hnil => ?_, fun hsome => hkept (harrived ▸ hsome)⟩
    simp only [step, Option.ite_none_right_eq_some, Option.some.injEq] at h
    rw [← h.2]
    exact hnobody (harrived ▸ hnil)

theorem Sound.started_prefix {s : Station I} (h : s.Sound) : s.started <+: s.arrived :=
  ⟨s.queue.tail, h.conserved.symm⟩

def Busy (s : Station I) : Prop := s.queue ≠ [] ↔ s.serving ≠ []

theorem busy_arrive {s : Station I} (x : I) (h : s.Busy) :
    (s.arrive x).Busy := by
  cases hq : s.queue with
  | nil => simp [Busy, arrive, startFront, start, hq]
  | cons y ys =>
    have hserving : s.serving ≠ [] := h.mp (by simp [hq])
    simp [Busy, arrive, hq, hserving]

theorem busy_depart {s : Station I} {i : ℕ} (hs : s.Sound) (hi : i < s.serving.length) :
    (s.release i).advance.Busy := by
  obtain ⟨rfl, x, hx, hhead⟩ := hs.serving_eq hi
  obtain ⟨rest, hq⟩ := List.head?_eq_some_iff.mp hhead
  cases rest with
  | nil => simp [Busy, release, advance, startFront, hx, hq]
  | cons y ys => simp [Busy, release, advance, startFront, start, hx, hq]

theorem sound_busy_step {s t : Station I} {e : Event I} (h : s.Sound ∧ s.Busy)
    (he : e.isHalt = false) (ht : s.step e = some t) : t.Sound ∧ t.Busy := by
  refine ⟨sound_step s e t h.1 ht, ?_⟩
  cases e with
  | arrive x => exact Option.some.inj ht ▸ busy_arrive x h.2
  | depart i =>
    simp only [step, Option.ite_none_right_eq_some, Option.some.injEq] at ht
    exact ht.2 ▸ busy_depart h.1 ht.1
  | halt i => cases he

theorem sound_busy_run {s t : Station I} {es : List (Event I)} (h : s.Sound ∧ s.Busy)
    (hes : ∀ e ∈ es, e.isHalt = false) (hr : Transition.run step s es = some t) :
    t.Sound ∧ t.Busy := by
  have hstep (s : Station I) (e : Event I) (t : Station I) (hs : s.Sound ∧ s.Busy)
      (he : e.isHalt = false) (ht : s.step e = some t) : t.Sound ∧ t.Busy :=
    sound_busy_step hs he ht
  exact Transition.run_invariant_along hstep h (Transition.along_of_mem hes s) hr

def Halted (s : Station I) : Prop := s.queue ≠ [] ∧ s.serving = []

theorem halted_release {s : Station I} {i : ℕ} (h : s.Sound) (hi : i < s.serving.length) :
    (s.release i).Halted := by
  obtain ⟨rfl, x, hx, hhead⟩ := h.serving_eq hi
  obtain ⟨rest, hq⟩ := List.head?_eq_some_iff.mp hhead
  exact ⟨by simp [release, hq], by simp [release, hx]⟩

theorem halted_step {s t : Station I} {e : Event I} (hs : s.Halted) (h : s.step e = some t) :
    t.Halted ∧ t.started = s.started := by
  obtain ⟨hqueue, hserving⟩ := hs
  cases e with
  | arrive x =>
    obtain ⟨y, ys, hq⟩ := List.exists_cons_of_ne_nil hqueue
    rw [← Option.some.inj h]
    simp [arrive, Halted, hq, hserving]
  | depart i => simp [step, hserving] at h
  | halt i => simp [step, hserving] at h

theorem halted_run {s t : Station I} {es : List (Event I)} (hs : s.Halted)
    (hr : Transition.run step s es = some t) : t.Halted ∧ t.started = s.started := by
  induction es generalizing s with
  | nil =>
    obtain rfl := Option.some.inj hr
    exact ⟨hs, rfl⟩
  | cons e es ih =>
    obtain ⟨u, hu, hr⟩ := Transition.run_cons.mp hr
    obtain ⟨hhalted, hstarted⟩ := halted_step hs hu
    obtain ⟨hhalted', hstarted'⟩ := ih hhalted hr
    exact ⟨hhalted', hstarted'.trans hstarted⟩

def departures (s : Station I) : Event I → List I
  | .depart i => s.serving[i]?.toList
  | _ => []

theorem started_step {s t : Station I} {e : Event I} {done : List I} (hs : s.Sound)
    (he : e.isHalt = false) (hdone : s.started = done ++ s.serving) (h : s.step e = some t) :
    t.started = done ++ s.departures e ++ t.serving := by
  cases e with
  | arrive x =>
    rw [← Option.some.inj h]
    simp only [arrive, startFront, start, departures, List.append_nil]
    split_ifs <;> [skip; exact hdone]
    split <;> simp [hdone]
  | depart i =>
    simp only [step, Option.ite_none_right_eq_some, Option.some.injEq] at h
    obtain ⟨rfl, x, hx, hhead⟩ := hs.serving_eq h.1
    obtain ⟨rest, hq⟩ := List.head?_eq_some_iff.mp hhead
    rw [← h.2]
    cases rest with
    | nil => simp [release, advance, startFront, departures, hx, hq, hdone]
    | cons y ys => simp [release, advance, startFront, start, departures, hx, hq, hdone]
  | halt i => cases he

theorem started_run {s t : Station I} {es : List (Event I)} {done : List I} (hs : s.Sound)
    (hes : ∀ e ∈ es, e.isHalt = false) (hdone : s.started = done ++ s.serving)
    (hr : Transition.run step s es = some t) :
    t.started = done ++ Transition.collect step departures s es ++ t.serving := by
  induction es generalizing s done with
  | nil =>
    obtain rfl := Option.some.inj hr
    simpa [Transition.collect] using hdone
  | cons e es ih =>
    obtain ⟨u, hu, hr⟩ := Transition.run_cons.mp hr
    have hstep := started_step hs (hes e (.head es)) hdone hu
    rw [ih (sound_step s e u hs hu) (fun f hf => hes f (.tail e hf)) hstep hr,
      Transition.collect, hu, Option.elim_some, List.append_assoc, List.append_assoc,
      List.append_assoc, List.append_assoc]

def obeys (final : I → Bool) (s : Station I) : Event I → Prop
  | .arrive _ => True
  | .depart i => ∀ x, s.serving[i]? = some x → final x = false
  | .halt i => ∀ x, s.serving[i]? = some x → final x = true

inductive Phase (final : I → Bool) (s : Station I) : Prop where
  | idle (hqueue : s.queue = []) (hserving : s.serving = [])
    (hnone : ∀ y ∈ s.started, final y = false)
  | busy (x : I) (rest done : List I) (hqueue : s.queue = x :: rest) (hserving : s.serving = [x])
    (hstarted : s.started = done ++ [x]) (hnone : ∀ y ∈ done, final y = false)
  | gone (x : I) (rest done : List I) (hqueue : s.queue = x :: rest) (hserving : s.serving = [])
    (hstarted : s.started = done ++ [x]) (hnone : ∀ y ∈ done, final y = false)
    (hfinal : final x = true)

section
variable {final : I → Bool}

theorem phase_arrive {s : Station I} (x : I) (h : s.Phase final) : (s.arrive x).Phase final := by
  cases h with
  | idle hqueue hserving hnone =>
    refine .busy x [] s.started ?_ ?_ ?_ hnone <;>
      simp [arrive, startFront, start, hqueue, hserving]
  | busy y rest done hqueue hserving hstarted hnone =>
    refine .busy y (rest ++ [x]) done ?_ ?_ ?_ hnone <;>
      simp [arrive, hqueue, hserving, hstarted]
  | gone y rest done hqueue hserving hstarted hnone hfinal =>
    refine .gone y (rest ++ [x]) done ?_ ?_ ?_ hnone hfinal <;>
      simp [arrive, hqueue, hserving, hstarted]

theorem phase_depart {s : Station I} {i : ℕ} (hi : i < s.serving.length) (h : s.Phase final)
    (hobeys : s.obeys final (.depart i)) : (s.release i).advance.Phase final := by
  cases h with
  | idle hqueue hserving hnone => simp [hserving] at hi
  | busy x rest done hqueue hserving hstarted hnone =>
    obtain rfl : i = 0 := by simpa [hserving] using hi
    have hx : final x = false := hobeys x (by rw [hserving]; rfl)
    have hall : ∀ y ∈ done ++ [x], final y = false := by
      intro y hy
      rcases List.mem_append.mp hy with hy | hy
      · exact hnone y hy
      · exact List.mem_singleton.mp hy ▸ hx
    cases rest with
    | nil =>
      refine .idle ?_ ?_ ?_
      · simp [release, advance, startFront, hqueue]
      · simp [release, advance, startFront, hqueue, hserving]
      · simpa [release, advance, startFront, hqueue, hstarted] using hall
    | cons y ys =>
      refine .busy y ys (done ++ [x]) ?_ ?_ ?_ hall <;>
        simp [release, advance, startFront, start, hqueue, hserving, hstarted]
  | gone x rest done hqueue hserving hstarted hnone hfinal => simp [hserving] at hi

theorem phase_halt {s : Station I} {i : ℕ} (hi : i < s.serving.length) (h : s.Phase final)
    (hobeys : s.obeys final (.halt i)) : (s.release i).Phase final := by
  cases h with
  | idle hqueue hserving hnone => simp [hserving] at hi
  | busy x rest done hqueue hserving hstarted hnone =>
    obtain rfl : i = 0 := by simpa [hserving] using hi
    have hx : final x = true := hobeys x (by rw [hserving]; rfl)
    refine .gone x rest done hqueue ?_ hstarted hnone hx
    simp [release, hserving]
  | gone x rest done hqueue hserving hstarted hnone hfinal => simp [hserving] at hi

theorem phase_step (s : Station I) (e : Event I) (t : Station I) (h : s.Phase final)
    (hobeys : s.obeys final e) (ht : s.step e = some t) : t.Phase final := by
  cases e with
  | arrive x => exact Option.some.inj ht ▸ phase_arrive x h
  | depart i =>
    simp only [step, Option.ite_none_right_eq_some, Option.some.injEq] at ht
    exact ht.2 ▸ phase_depart ht.1 h hobeys
  | halt i =>
    simp only [step, Option.ite_none_right_eq_some, Option.some.injEq] at ht
    exact ht.2 ▸ phase_halt ht.1 h hobeys

end

end Station

def upTo {I : Type} (final : I → Bool) : List I → List I
  | [] => []
  | x :: xs => x :: if final x then [] else upTo final xs

section
variable {I : Type} {final : I → Bool}

theorem upTo_append {xs : List I} (h : ∀ x ∈ xs, final x = false) (ys : List I) :
    upTo final (xs ++ ys) = xs ++ upTo final ys := by
  induction xs with
  | nil => rfl
  | cons x xs ih =>
    have hrest := ih fun y hy => h y (.tail x hy)
    rw [List.cons_append, upTo, h x (.head xs), if_neg Bool.false_ne_true, hrest, List.cons_append]

theorem upTo_eq_self {xs : List I} (h : ∀ x ∈ xs, final x = false) : upTo final xs = xs := by
  have hall := upTo_append h []
  rwa [upTo, List.append_nil] at hall

theorem upTo_map {J : Type} (f : J → I) (xs : List J) :
    upTo final (xs.map f) = (upTo (fun x => final (f x)) xs).map f := by
  induction xs with
  | nil => rfl
  | cons x xs ih =>
    rw [List.map_cons, upTo, upTo, List.map_cons, ih]
    split_ifs <;> rfl

theorem upTo_forall₂ {J : Type} {R : J → I → Prop} {final' : J → Bool}
    (hR : ∀ x y, R x y → final' x = final y) {xs : List J} {ys : List I}
    (h : List.Forall₂ R xs ys) : List.Forall₂ R (upTo final' xs) (upTo final ys) := by
  induction h with
  | nil => exact .nil
  | cons hxy hrest ih =>
    rw [upTo, upTo, hR _ _ hxy]
    split_ifs
    · exact .cons hxy .nil
    · exact .cons hxy ih

theorem Station.started_of_phase {s : Station I} (hs : s.Sound) (h : s.Phase final) :
    s.started <+: upTo final s.arrived ∧
      (s.serving = [] → s.started = upTo final s.arrived) := by
  have hcons := hs.conserved
  cases h with
  | idle hqueue hserving hnone =>
    rw [hqueue, List.tail_nil, List.append_nil] at hcons
    have hall := upTo_eq_self hnone
    rw [hcons, hall]
    exact ⟨List.prefix_refl _, fun _ => rfl⟩
  | busy x rest done hqueue hserving hstarted hnone =>
    rw [hqueue, List.tail_cons, hstarted, List.append_assoc] at hcons
    rw [hcons, upTo_append hnone, hstarted, hserving]
    refine ⟨(List.prefix_append_right_inj done).mpr ⟨_, rfl⟩, nofun⟩
  | gone x rest done hqueue hserving hstarted hnone hfinal =>
    have heq : s.started = upTo final s.arrived := by
      rw [hqueue, List.tail_cons, hstarted, List.append_assoc] at hcons
      rw [hcons, upTo_append hnone, hstarted, List.singleton_append, upTo, if_pos hfinal]
    exact ⟨heq ▸ List.prefix_refl _, fun _ => heq⟩

end
end SingleServer
