import Mathlib.Data.Nat.Notation
import Mathlib.Data.List.Nodup
import Mathlib.Data.List.Range

namespace BeastRouter

inductive ReturnType where
  | void
  | bool
  deriving DecidableEq, Repr

abbrev ReturnType.Value : ReturnType → Type
  | .void => Unit
  | .bool => Bool

-- A functor carries what its call operator returns, and its member type `result_type` if any.
inductive Referenceable where
  | lambda (result : ReturnType)
  | functor (result : ReturnType) (member : Option ReturnType)
  | stdFunction (result : ReturnType)
  | function (result : ReturnType) (isNoexcept : Bool)
  | pointer (t : Referenceable)
  | const (t : Referenceable)
  | referenceWrapper (t : Referenceable)
  deriving DecidableEq, Repr

namespace Referenceable

def invokeResult : Referenceable → Option ReturnType
  | lambda r => some r
  | functor r _ => some r
  | stdFunction r => some r
  | function r _ => some r
  | pointer (function r _) => some r
  | pointer _ => none
  | const t => t.invokeResult
  | referenceWrapper t => t.invokeResult

def removeConst : Referenceable → Referenceable
  | const t => t
  | t => t

def resultType : Referenceable → Option ReturnType
  | functor _ member => member
  | stdFunction r => some r
  | const t => t.resultType
  | referenceWrapper (function r _) => some r
  | referenceWrapper (pointer (function r _)) => some r
  | referenceWrapper (const (pointer (function r _))) => some r
  | referenceWrapper t => t.resultType
  | _ => none

end Referenceable

inductive CppType where
  | plain (t : Referenceable)
  | lvalueRef (t : Referenceable)
  | rvalueRef (t : Referenceable)
  deriving DecidableEq, Repr

namespace CppType

def removeReference : CppType → Referenceable
  | plain t => t
  | lvalueRef t => t
  | rvalueRef t => t

def invokeResult (t : CppType) : Option ReturnType := t.removeReference.invokeResult

def decay (t : CppType) : Referenceable :=
  match t.removeReference with
  | .function r isNoexcept => .pointer (.function r isNoexcept)
  | u => u.removeConst

-- the element type `std::make_tuple` gives to an argument
def unwrapRefDecay (t : CppType) : CppType :=
  match t.decay with
  | .referenceWrapper u => lvalueRef u
  | u => plain u

-- `std::get` on a const tuple: const reaches an object, not what a reference refers to
def getConst : CppType → CppType
  | plain t => lvalueRef (.const t)
  | lvalueRef t => lvalueRef t
  | rvalueRef t => lvalueRef t

def funcTraitsResult : CppType → ReturnType
  | plain (.pointer (.function r false)) => r
  | lvalueRef (.function r false) => r
  | plain t => t.resultType.getD .void
  | _ => .void

def entryType (t : CppType) : CppType := t.unwrapRefDecay.getConst

def returnType (t : CppType) : ReturnType := t.entryType.funcTraitsResult

def isRefToBoolFunction (t : CppType) : Bool :=
  t.decay == .referenceWrapper (.function .bool false)

theorem entryType_of_wrapper {t : CppType} {u : Referenceable}
    (h : t.decay = .referenceWrapper u) : t.entryType = lvalueRef u := by
  rw [entryType, unwrapRefDecay, h]
  rfl

theorem entryType_of_not_wrapper {t : CppType} (h : ∀ u, t.decay ≠ .referenceWrapper u) :
    t.entryType = lvalueRef (.const t.decay) := by
  rw [entryType, unwrapRefDecay]
  cases hd : t.decay with
  | referenceWrapper u => exact absurd hd (h u)
  | _ => rfl

theorem returnType_eq_bool_iff (t : CppType) :
    t.returnType = .bool ↔ t.isRefToBoolFunction = true := by
  rw [isRefToBoolFunction, beq_iff_eq, returnType]
  by_cases h : ∃ u, t.decay = .referenceWrapper u
  · obtain ⟨u, hu⟩ := h
    rw [entryType_of_wrapper hu, hu, Referenceable.referenceWrapper.injEq]
    constructor
    · intro hbool
      cases u with
      | function r isNoexcept =>
        cases isNoexcept with
        | true => cases hbool
        | false => exact congrArg (Referenceable.function · false) hbool
      | _ => cases hbool
    · rintro rfl
      rfl
  · have hnot (u : Referenceable) : t.decay ≠ .referenceWrapper u := fun hu => h ⟨u, hu⟩
    rw [entryType_of_not_wrapper hnot]
    refine iff_of_false ?_ (hnot _)
    intro hbool
    cases hbool

theorem invokeResult_of_ref {t : CppType} (h : t.isRefToBoolFunction = true) :
    t.invokeResult = some .bool := by
  rw [isRefToBoolFunction, beq_iff_eq, decay] at h
  rw [invokeResult]
  cases ht : t.removeReference with
  | function r isNoexcept =>
    rw [ht] at h
    cases h
  | const u =>
    rw [ht] at h
    have hu : u = .referenceWrapper (.function .bool false) := h
    rw [hu]
    rfl
  | referenceWrapper u =>
    rw [ht] at h
    have hu : u = .function .bool false := Referenceable.referenceWrapper.inj h
    rw [hu]
    rfl
  | lambda r | functor r member | stdFunction r | pointer u =>
    rw [ht] at h
    cases h

end CppType

-- `order` is the order in which the compiler evaluates the expanded arguments.
def tupleFuncIdx {α S : Type} (order : List ℕ) (idx : ℕ) (tuple : List α)
    (func : α → S → Bool × S) (s : S) : S :=
  order.foldl
    (fun s j => if idx = j then tuple[j]?.elim s fun entry => (func entry s).2 else s) s

theorem tupleFuncIdx_eq {α S : Type} {order : List ℕ} {idx : ℕ} {tuple : List α} {x : α}
    (horder : order.Perm (List.range tuple.length)) (hx : tuple[idx]? = some x)
    (func : α → S → Bool × S) (s : S) :
    tupleFuncIdx order idx tuple func s = (func x s).2 := by
  have hmem : idx ∈ order := by
    rw [horder.mem_iff, List.mem_range]
    exact (List.getElem?_eq_some_iff.mp hx).1
  have hnodup : order.Nodup := horder.nodup_iff.mpr List.nodup_range
  obtain ⟨before, after, rfl⟩ := List.append_of_mem hmem
  have hskip (js : List ℕ) (hjs : idx ∉ js) (s : S) : tupleFuncIdx js idx tuple func s = s := by
    induction js with
    | nil => rfl
    | cons j js ih =>
      rw [List.mem_cons, not_or] at hjs
      simpa [tupleFuncIdx, hjs.1] using ih hjs.2
  rw [List.nodup_middle, List.nodup_cons, List.mem_append, not_or] at hnodup
  obtain ⟨⟨hbefore, hafter⟩, -⟩ := hnodup
  rw [tupleFuncIdx, List.foldl_append, List.foldl_cons, if_pos rfl, hx, Option.elim_some]
  rw [← tupleFuncIdx, ← tupleFuncIdx, hskip before hbefore, hskip after hafter]

theorem foldl_tupleFuncIdx {α S : Type} {order : ℕ → List ℕ} {tuple : List α}
    (horder : ∀ idx, (order idx).Perm (List.range tuple.length)) (func : α → S → Bool × S)
    (s : S) :
    (List.range tuple.length).foldl
        (fun s idx => tupleFuncIdx (order idx) idx tuple func s) s =
      tuple.foldl (fun s x => (func x s).2) s := by
  have hloop (n : ℕ) (hn : n ≤ tuple.length) :
      (List.range n).foldl (fun s idx => tupleFuncIdx (order idx) idx tuple func s) s =
        (tuple.take n).foldl (fun s x => (func x s).2) s := by
    induction n with
    | zero => rfl
    | succ n ih =>
      have hget : tuple[n]? = some tuple[n] := List.getElem?_eq_getElem (by omega)
      rw [List.range_succ, List.foldl_append, ih (by omega), List.foldl_cons, List.foldl_nil,
        tupleFuncIdx_eq (horder n) hget, List.take_add_one, hget, List.foldl_append]
      rfl
  rw [hloop tuple.length le_rfl, List.take_length]

end BeastRouter
