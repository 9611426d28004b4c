import BeastRouter.Common.Utility
import BeastRouter.Foundation.ShortCircuit

namespace BeastRouter

structure Context (U : Type) where
  userData : Option U
  deriving DecidableEq, Repr

abbrev Scope (U W : Type) : Type := Context U × W

inductive Body (Rq U Sm W R : Type) where
  | messageContextMatch (f : Rq → Sm → Scope U W → R × Scope U W)
  | messageContext (f : Rq → Scope U W → R × Scope U W)
  | contextOnly (f : Scope U W → R × Scope U W)

structure Handler (Rq U Sm W : Type) where
  type : CppType
  result : ReturnType
  invocable : type.invokeResult = some result
  body : Body Rq U Sm W result.Value

abbrev Callback (Rq U Sm W : Type) : Type := Rq → Sm → ShortCircuit.Link (Scope U W)

-- The order in which the arguments of an expanded call are evaluated is the compiler's choice.
structure ArgumentOrder where
  order : ℕ → ℕ → List ℕ
  perm : ∀ size idx, (order size idx).Perm (List.range size)

def ArgumentOrder.leftToRight : ArgumentOrder :=
  ⟨fun size _ => List.range size, fun _ _ => .refl _⟩

structure Storage (Rq U Sm W : Type) where
  clbs : List (Callback Rq U Sm W)

namespace ReturnType

def convert {r : ReturnType} : (s : ReturnType) → s = .void ∨ s = r → r.Value → s.Value
  | .void, _, _ => ()
  | .bool, h, v => (h.resolve_left (by decide)) ▸ v

def verdict : (r : ReturnType) → r.Value → Bool
  | .bool, v => v
  | .void, _ => true

theorem verdict_convert {r s : ReturnType} (h : s = .void ∨ s = r) (v : r.Value) :
    s.verdict (convert s h v) = (s == .void || r.verdict v) := by
  cases s with
  | void => rfl
  | bool =>
    obtain rfl : ReturnType.bool = r := h.resolve_left (by decide)
    rfl

end ReturnType

namespace Handler
variable {Rq U Sm W : Type}

def bind (h : Handler Rq U Sm W) (request : Rq) (sm : Sm) (s : Scope U W) :
    h.result.Value × Scope U W :=
  match h.body with
  | .messageContextMatch f => f request sm s
  | .messageContext f => f request s
  | .contextOnly f => f s

theorem returnType_cases (h : Handler Rq U Sm W) :
    h.type.returnType = .void ∨ h.type.returnType = h.result := by
  cases hr : h.type.returnType with
  | void => exact .inl rfl
  | bool =>
    have hinvoke := CppType.invokeResult_of_ref ((CppType.returnType_eq_bool_iff h.type).mp hr)
    exact .inr (Option.some.inj (hinvoke.symm.trans h.invocable))

def callbackImpl (h : Handler Rq U Sm W) : Callback Rq U Sm W := fun request sm s =>
  let r := h.bind request sm s
  (h.type.returnType.verdict (ReturnType.convert _ h.returnType_cases r.1), r.2)

-- The rule the handlers are documented by: a `bool` handler that returns `false` breaks the chain.
def documented (h : Handler Rq U Sm W) : Callback Rq U Sm W := fun request sm s =>
  let r := h.bind request sm s
  (h.result.verdict r.1, r.2)

def keptLink (request : Rq) (sm : Sm) (h : Handler Rq U Sm W) :
    Bool × ShortCircuit.Link (Scope U W) :=
  (h.type.isRefToBoolFunction, h.documented request sm)

theorem callbackImpl_eq_muted (h : Handler Rq U Sm W) (request : Rq) (sm : Sm) :
    h.callbackImpl request sm =
      ShortCircuit.muted h.type.isRefToBoolFunction (h.documented request sm) := by
  funext s
  have hkept : (h.type.returnType == .void) = !h.type.isRefToBoolFunction := by
    cases hk : h.type.isRefToBoolFunction with
    | true => rw [(CppType.returnType_eq_bool_iff h.type).mpr hk]; rfl
    | false =>
      have hnot : h.type.returnType ≠ .bool := fun hb => by
        rw [(CppType.returnType_eq_bool_iff h.type).mp hb] at hk
        cases hk
      cases hr : h.type.returnType with
      | void => rfl
      | bool => exact absurd hr hnot
  rw [callbackImpl, ReturnType.verdict_convert, hkept]
  rfl

end Handler

namespace Storage
variable {Rq U Sm W : Type}

def new (order : ArgumentOrder) (onRequest : List (Handler Rq U Sm W)) : Storage Rq U Sm W where
  clbs :=
    (List.range onRequest.length).foldl
      (fun clbs idx =>
        tupleFuncIdx (order.order onRequest.length idx) idx onRequest
          (fun entry clbs => (true, clbs ++ [entry.callbackImpl])) clbs)
      []

def size (st : Storage Rq U Sm W) : ℕ := st.clbs.length

def beginExecute (st : Storage Rq U Sm W) (request : Rq) (ctx : Context U) (sm : Sm) (w : W) :
    ShortCircuit.Outcome (Scope U W) :=
  ShortCircuit.run (st.clbs.map fun clb => clb request sm) (ctx, w)

theorem clbs_new (order : ArgumentOrder) (onRequest : List (Handler Rq U Sm W)) :
    (new order onRequest).clbs = onRequest.map Handler.callbackImpl := by
  have hloop := foldl_tupleFuncIdx (order.perm onRequest.length)
    (fun (entry : Handler Rq U Sm W) clbs => (true, clbs ++ [entry.callbackImpl])) []
  rw [new, hloop, List.map_eq_flatMap, List.flatMap_eq_foldl]

theorem beginExecute_eq_muted (order : ArgumentOrder) (onRequest : List (Handler Rq U Sm W))
    (request : Rq) (ctx : Context U) (sm : Sm) (w : W) :
    (new order onRequest).beginExecute request ctx sm w =
      ShortCircuit.run
        ((onRequest.map (Handler.keptLink request sm)).map fun x => ShortCircuit.muted x.1 x.2)
        (ctx, w) := by
  rw [beginExecute, clbs_new, List.map_map, List.map_map]
  congr 2
  funext h
  exact h.callbackImpl_eq_muted request sm

theorem beginExecute_documented_iff (order : ArgumentOrder) (onRequest : List (Handler Rq U Sm W))
    (request : Rq) (ctx : Context U) (sm : Sm) (w : W) :
    (new order onRequest).beginExecute request ctx sm w =
        ShortCircuit.run (onRequest.map fun h => h.documented request sm) (ctx, w) ↔
      ShortCircuit.BreakKept (onRequest.map (Handler.keptLink request sm)) (ctx, w) := by
  have hsnd : onRequest.map (fun h => h.documented request sm) =
      (onRequest.map (Handler.keptLink request sm)).map Prod.snd := by
    rw [List.map_map]
    rfl
  rw [beginExecute_eq_muted, hsnd]
  exact ShortCircuit.run_muted_eq_iff 0 _ _

theorem lambda_verdict_dropped :
    ¬ ∀ onRequest : List (Handler Unit Unit Unit ℕ), onRequest ≠ [] →
      (new .leftToRight onRequest).beginExecute () ⟨none⟩ () 0 =
        ShortCircuit.run (onRequest.map fun h => h.documented () ()) (⟨none⟩, 0) := by
  intro h
  have hrun := h
    [⟨.plain (.lambda .bool), .bool, rfl, .contextOnly fun s => (false, s)⟩,
      ⟨.plain (.lambda .void), .void, rfl, .contextOnly fun s => ((), s.1, s.2 + 1)⟩] (by simp)
  have hverdict := congrArg ShortCircuit.Outcome.verdict hrun
  exact absurd hverdict (by decide)

end Storage
end BeastRouter
