import Mathlib.Data.Int.Notation
import Mathlib.Data.List.Basic

namespace BeastRouter

-- `address` stands for the heap cell of the `wrk_impl`: two items with equal messages differ in it.
-- `deadline` is not in the source; it records the instant a timed send has to be over by.
structure Item (M : Type) where
  address : ℕ
  message : M
  deadline : Option ℤ
  deriving DecidableEq, Repr

namespace ConnQueue
variable {M : Type}

def doHandle (items : List (Item M)) : Option (Item M) := items.head?

-- The second component is the item whose `operator()` runs, that is, the one given to `do_write`.
def push (items : List (Item M)) (item : Item M) : List (Item M) × Option (Item M) :=
  let items := items ++ [item]
  (items, if items.length = 1 then doHandle items else none)

-- `none`: `pop` is called on an empty `std::queue`.
def onWrite : List (Item M) → Option (List (Item M) × Option (Item M))
  | [] => none
  | _ :: items => some (items, if items.length ≠ 0 then doHandle items else none)

theorem push_nil (item : Item M) : push [] item = ([item], some item) := rfl

theorem push_cons (x : Item M) (items : List (Item M)) (item : Item M) :
    push (x :: items) item = (x :: items ++ [item], none) := by
  simp [push]

theorem onWrite_cons (x : Item M) (items : List (Item M)) :
    onWrite (x :: items) = some (items, items.head?) := by
  cases items <;> simp [onWrite, doHandle]

end ConnQueue
end BeastRouter
