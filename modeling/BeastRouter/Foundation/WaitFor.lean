import Mathlib.Logic.Relation
import Mathlib.Order.Defs.PartialOrder

namespace WaitFor

variable {T A : Type} {waits : T → T → Prop}

def Deadlock (waits : T → T → Prop) : Prop := ∃ t, Relation.TransGen waits t t

theorem deadlock_of_self {t : T} (h : waits t t) : Deadlock waits := ⟨t, .single h⟩

theorem not_deadlock_of_rank [Preorder A] {rank : T → A}
    (h : ∀ t u, waits t u → rank u < rank t) :
    ¬ Deadlock waits := by
  have hrank {t u : T} (htu : Relation.TransGen waits t u) : rank u < rank t := by
    induction htu with
    | single hstep => exact h _ _ hstep
    | tail _ hstep ih => exact lt_trans (h _ _ hstep) ih
  rintro ⟨t, ht⟩
  exact lt_irrefl (rank t) (hrank ht)

end WaitFor
