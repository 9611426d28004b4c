import Mathlib.Data.Nat.Notation

inductive ValueCategory where
  | lvalue
  | rvalue
  deriving DecidableEq, Repr

structure Operand where
  category : ValueCategory
  isConst : Bool
  deriving DecidableEq, Repr

namespace Operand

def lvalue : Operand := ⟨.lvalue, false⟩

def constLvalue : Operand := ⟨.lvalue, true⟩

-- A parameter of reference type is itself an lvalue, whatever it is bound to.
def named (x : Operand) : Operand := { x with category := .lvalue }

def move (x : Operand) : Operand := { x with category := .rvalue }

def forward (a x : Operand) : Operand := { x with category := a.category }

-- A const rvalue does not bind to the parameter of a move constructor.
def steals (x : Operand) : Bool := x.category == .rvalue && !x.isConst

@[simp] theorem forward_named (a : Operand) : a.forward a.named = a := rfl

@[simp] theorem steals_move (x : Operand) : x.move.steals = !x.isConst := rfl

def construct {M : Type} (movedFrom : M → M) (x : Operand) (m : M) : M × M :=
  (m, if x.steals then movedFrom m else m)

theorem construct_kept_iff {M : Type} (movedFrom : M → M) (x : Operand) (m : M) :
    (x.construct movedFrom m).2 = m ↔ x.steals = false ∨ movedFrom m = m := by
  cases h : x.steals <;> simp [construct, h]

end Operand
