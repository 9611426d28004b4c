import Mathlib.Data.Nat.Notation

namespace BeastRouter

inductive ErrorCode where
  | success
  | endOfStream
  | operationAborted
  | timedOut
  | badDescriptor
  | other (value : ℕ)
  deriving DecidableEq, Repr

def ErrorCode.failed : ErrorCode → Bool
  | .success => false
  | _ => true

@[simp] theorem ErrorCode.failed_eq_false (ec : ErrorCode) :
    ec.failed = false ↔ ec = .success := by
  cases ec <;> simp [failed]

theorem ErrorCode.failed_iff (ec : ErrorCode) : ec.failed = true ↔ ec ≠ .success := by
  rw [Ne, ← failed_eq_false, Bool.not_eq_false]

end BeastRouter
