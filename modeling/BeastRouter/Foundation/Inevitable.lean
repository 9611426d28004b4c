import Mathlib.Order.WellFounded

namespace Transition
variable {S A : Type}

inductive Inevitable (next : S → S → Prop) (goal : S → Prop) : S → Prop where
  | now (s : S) (hgoal : goal s) : Inevitable next goal s
  | later (s : S) (hcan : ∃ t, next s t) (hall : ∀ t, next s t → Inevitable next goal t) :
    Inevitable next goal s

theorem inevitable_of_measure {next : S → S → Prop} {goal I : S → Prop} [Preorder A]
    [WellFoundedLT A] (f : S → A) (hkeep : ∀ s t, I s → next s t → I t)
    (hless : ∀ s t, I s → next s t → f t < f s)
    (hcan : ∀ s, I s → goal s ∨ ∃ t, next s t) {s : S}
    (hs : I s) : Inevitable next goal s := by
  induction hf : f s using WellFoundedLT.induction generalizing s with
  | ind a ih =>
    subst hf
    rcases hcan s hs with hgoal | hnext
    · exact .now s hgoal
    · exact .later s hnext fun t ht => ih (f t) (hless s t hs ht) (hkeep s t hs ht) rfl

end Transition
