import Mathlib.Tactic.SplitIfs
import Mathlib.Data.List.Basic

namespace ShortCircuit

abbrev Link (S : Type) := S → Bool × S

structure Outcome (S : Type) where
  verdict : Bool
  entered : List ℕ
  final : S

variable {S : Type}

def runFrom (i : ℕ) : List (Link S) → S → Outcome S
  | [], s => ⟨true, [], s⟩
  | l :: ls, s =>
    if (l s).1 then
      { runFrom (i + 1) ls (l s).2 with entered := i :: (runFrom (i + 1) ls (l s).2).entered }
    else ⟨false, [i], (l s).2⟩

def run (ls : List (Link S)) (s : S) : Outcome S := runFrom 0 ls s

theorem runFrom_pass {l : Link S} {s : S} (h : (l s).1 = true) (i : ℕ) (ls : List (Link S)) :
    runFrom i (l :: ls) s =
      ⟨(runFrom (i + 1) ls (l s).2).verdict, i :: (runFrom (i + 1) ls (l s).2).entered,
        (runFrom (i + 1) ls (l s).2).final⟩ := by
  rw [runFrom, if_pos h]

theorem runFrom_break {l : Link S} {s : S} (h : (l s).1 = false) (i : ℕ) (ls : List (Link S)) :
    runFrom i (l :: ls) s = ⟨false, [i], (l s).2⟩ := by
  rw [runFrom, if_neg (by simp [h])]

theorem entered_ne_nil {ls : List (Link S)} (h : ls ≠ []) (i : ℕ) (s : S) :
    (runFrom i ls s).entered ≠ [] := by
  cases ls with
  | nil => exact absurd rfl h
  | cons l ls =>
    cases hl : (l s).1 with
    | false => simp [runFrom_break hl]
    | true => simp [runFrom_pass hl]

def muted (kept : Bool) (l : Link S) : Link S := fun s => (!kept || (l s).1, (l s).2)

def BreakKept : List (Bool × Link S) → S → Prop
  | [], _ => True
  | (kept, l) :: ls, s => if (l s).1 then BreakKept ls (l s).2 else kept = true

instance decidableBreakKept : (ls : List (Bool × Link S)) → (s : S) →
    Decidable (BreakKept ls s)
  | [], _ => .isTrue trivial
  | (kept, l) :: ls, s =>
    have := decidableBreakKept ls (l s).2
    inferInstanceAs (Decidable (if (l s).1 then BreakKept ls (l s).2 else kept = true))

def Held : List (Bool × Link S) → S → Prop
  | [], _ => True
  | (kept, l) :: ls, s => (kept = true → (l s).1 = true) ∧ Held ls (l s).2

theorem held_of_not_kept {ls : List (Bool × Link S)} (h : ∀ x ∈ ls, x.1 = false) (s : S) :
    Held ls s := by
  induction ls generalizing s with
  | nil => trivial
  | cons x ls ih =>
    have hx := h x (.head _)
    exact ⟨fun hkept => by simp [hx] at hkept, ih (fun y hy => h y (.tail _ hy)) _⟩

theorem verdict_muted_iff (i : ℕ) (ls : List (Bool × Link S)) (s : S) :
    (runFrom i (ls.map fun x => muted x.1 x.2) s).verdict = true ↔ Held ls s := by
  induction ls generalizing i s with
  | nil => exact iff_of_true rfl trivial
  | cons x ls ih =>
    obtain ⟨kept, l⟩ := x
    rw [List.map_cons, Held, ← ih (i + 1) (l s).2]
    cases h : (muted kept l s).1 with
    | false =>
      rw [runFrom_break h]
      simp only [muted, Bool.or_eq_false_iff, Bool.not_eq_false'] at h
      simp [h]
    | true =>
      rw [runFrom_pass h]
      simp only [muted, Bool.or_eq_true, Bool.not_eq_true'] at h ⊢
      rcases h with h | h
      · simp [h]
      · simp [h]

theorem run_muted_eq_iff (i : ℕ) (ls : List (Bool × Link S)) (s : S) :
    runFrom i (ls.map fun x => muted x.1 x.2) s = runFrom i (ls.map Prod.snd) s ↔
      BreakKept ls s := by
  induction ls generalizing i s with
  | nil => exact iff_of_true rfl trivial
  | cons x ls ih =>
    obtain ⟨kept, l⟩ := x
    rw [List.map_cons, List.map_cons]
    cases h : (l s).1 with
    | true =>
      have hmuted : (muted kept l s).1 = true := by simp [muted, h]
      rw [runFrom_pass hmuted, runFrom_pass h, BreakKept, if_pos h, ← ih (i + 1) (l s).2]
      constructor
      · intro heq
        obtain ⟨hverdict, hentered, hfinal⟩ := Outcome.mk.inj heq
        cases hl : runFrom (i + 1) (ls.map fun x => muted x.1 x.2) (l s).2
        cases hr : runFrom (i + 1) (ls.map Prod.snd) (l s).2
        simp_all [muted]
      · intro heq
        have hsnd : (muted kept l s).2 = (l s).2 := rfl
        rw [hsnd, heq]
    | false =>
      rw [runFrom_break h, BreakKept, if_neg (by simp [h])]
      cases kept with
      | true =>
        have hmuted : (muted true l s).1 = false := by simp [muted, h]
        exact iff_of_true (runFrom_break hmuted i _) rfl
      | false =>
        have hmuted : (muted false l s).1 = true := rfl
        rw [runFrom_pass hmuted]
        refine iff_of_false (fun heq => ?_) Bool.false_ne_true
        obtain ⟨hverdict, hentered, -⟩ := Outcome.mk.inj heq
        have hnil := (List.cons.inj hentered).2
        cases ls with
        | nil => cases hverdict
        | cons y ls => exact entered_ne_nil (by simp) _ _ hnil

end ShortCircuit
