import BeastRouter.Base.Storage

namespace BeastRouter

inductive Parameter where
  | message
  | context
  | smatch
  deriving DecidableEq, Repr

-- A context is passed by reference; what it refers to is in the scope the handler runs in.
inductive Argument (Rq Sm : Type) where
  | message (request : Rq)
  | context
  | smatch (sm : Sm)
  deriving DecidableEq, Repr

def Argument.parameter {Rq Sm : Type} : Argument Rq Sm → Parameter
  | message _ => .message
  | context => .context
  | smatch _ => .smatch

def boundArguments {α : Type} (placeholders : List ℕ) (args : List α) : List α :=
  placeholders.filterMap fun k => args[k - 1]?

namespace Body
variable {Rq U Sm W R : Type}

def parameters : Body Rq U Sm W R → List Parameter
  | messageContextMatch _ => [.message, .context, .smatch]
  | messageContext _ => [.message, .context]
  | contextOnly _ => [.context]

def isInvocable (b : Body Rq U Sm W R) (args : List Parameter) : Bool := b.parameters == args

-- `none`: the call does not compile.
def invoke (b : Body Rq U Sm W R) (args : List (Argument Rq Sm)) :
    Option (Scope U W → R × Scope U W) :=
  match b, args with
  | messageContextMatch f, [.message request, .context, .smatch sm] => some (f request sm)
  | messageContext f, [.message request, .context] => some (f request)
  | contextOnly f, [.context] => some f
  | _, _ => none

def arguments (b : Body Rq U Sm W R) (request : Rq) (sm : Sm) : List (Argument Rq Sm) :=
  match b with
  | messageContextMatch _ => [.message request, .context, .smatch sm]
  | messageContext _ => [.message request, .context]
  | contextOnly _ => [.context]

end Body

structure CallbackImpl (Rq U Sm W : Type) where
  func : Handler Rq U Sm W
  placeholders : List ℕ

namespace CallbackImpl
variable {Rq U Sm W : Type}

def constructors : List (List Parameter × List ℕ) :=
  [([.message, .context, .smatch], [1, 2, 3]), ([.message, .context], [1, 2]), ([.context], [2])]

-- `none`: no constructor is viable, or the choice between several is ambiguous.
def new (func : Handler Rq U Sm W) : Option (CallbackImpl Rq U Sm W) :=
  match constructors.filter fun c => func.body.isInvocable c.1 with
  | [c] => some ⟨func, c.2⟩
  | _ => none

def passed (c : CallbackImpl Rq U Sm W) (request : Rq) (sm : Sm) : List (Argument Rq Sm) :=
  boundArguments c.placeholders [.message request, .context, .smatch sm]

def mFunc (c : CallbackImpl Rq U Sm W) (request : Rq) (sm : Sm) :
    Option (Scope U W → c.func.result.Value × Scope U W) :=
  c.func.body.invoke (c.passed request sm)

def operator (c : CallbackImpl Rq U Sm W) (request : Rq) (sm : Sm) :
    Option (ShortCircuit.Link (Scope U W)) :=
  (c.mFunc request sm).map fun m s =>
    let r := m s
    (c.func.type.returnType.verdict (ReturnType.convert _ c.func.returnType_cases r.1), r.2)

theorem new_eq (h : Handler Rq U Sm W) :
    ∃ ps, new h = some ⟨h, ps⟩ ∧
      ∀ request sm, passed ⟨h, ps⟩ request sm = h.body.arguments request sm := by
  obtain ⟨type, result, invocable, body⟩ := h
  cases body with
  | messageContextMatch f => exact ⟨[1, 2, 3], rfl, fun _ _ => rfl⟩
  | messageContext f => exact ⟨[1, 2], rfl, fun _ _ => rfl⟩
  | contextOnly f => exact ⟨[2], rfl, fun _ _ => rfl⟩

theorem invoke_arguments (h : Handler Rq U Sm W) (request : Rq) (sm : Sm) :
    h.body.invoke (h.body.arguments request sm) = some (h.bind request sm) := by
  obtain ⟨type, result, invocable, body⟩ := h
  cases body <;> rfl

theorem operator_eq {h : Handler Rq U Sm W} {ps : List ℕ} {request : Rq} {sm : Sm}
    (hpassed : passed ⟨h, ps⟩ request sm = h.body.arguments request sm) :
    operator ⟨h, ps⟩ request sm = some (h.callbackImpl request sm) := by
  rw [operator, mFunc, hpassed, invoke_arguments, Option.map_some]
  rfl

end CallbackImpl

namespace Storage
variable {Rq U Sm W : Type}

def callbackImpls (order : ArgumentOrder) (onRequest : List (Handler Rq U Sm W)) :
    List (CallbackImpl Rq U Sm W) :=
  (List.range onRequest.length).foldl
    (fun clbs idx =>
      tupleFuncIdx (order.order onRequest.length idx) idx onRequest
        (fun entry clbs => (true, clbs ++ (CallbackImpl.new entry).toList)) clbs)
    []

theorem callbackImpls_eq (order : ArgumentOrder) (onRequest : List (Handler Rq U Sm W)) :
    ∃ ps : Handler Rq U Sm W → List ℕ,
      callbackImpls order onRequest = onRequest.map (fun h => CallbackImpl.mk h (ps h)) ∧
      ∀ h request sm, CallbackImpl.passed ⟨h, ps h⟩ request sm =
        h.body.arguments request sm := by
  choose ps hnew hpassed using @CallbackImpl.new_eq Rq U Sm W
  have hloop := foldl_tupleFuncIdx (order.perm onRequest.length)
    (fun (entry : Handler Rq U Sm W) clbs => (true, clbs ++ (CallbackImpl.new entry).toList)) []
  refine ⟨ps, ?_, hpassed⟩
  rw [callbackImpls, hloop, List.map_eq_flatMap, List.flatMap_eq_foldl]
  simp only [hnew, Option.toList_some]

theorem every_handler_bound_once (order : ArgumentOrder) (onRequest : List (Handler Rq U Sm W)) :
    (new order onRequest).clbs.length = onRequest.length ∧
    (callbackImpls order onRequest).length = onRequest.length ∧
    ∀ (i : ℕ) (h : Handler Rq U Sm W), onRequest[i]? = some h →
      ∃ (ps : List ℕ) (clb : Callback Rq U Sm W),
        (callbackImpls order onRequest)[i]? = some ⟨h, ps⟩ ∧
        (new order onRequest).clbs[i]? = some clb ∧
        ∀ request sm,
          CallbackImpl.passed ⟨h, ps⟩ request sm = h.body.arguments request sm ∧
          h.body.invoke (h.body.arguments request sm) = some (h.bind request sm) ∧
          CallbackImpl.operator ⟨h, ps⟩ request sm = some (clb request sm) := by
  obtain ⟨ps, himpls, hpassed⟩ := callbackImpls_eq order onRequest
  refine ⟨?_, ?_, ?_⟩
  · rw [clbs_new, List.length_map]
  · rw [himpls, List.length_map]
  · intro i h hi
    refine ⟨ps h, h.callbackImpl, ?_, ?_, ?_⟩
    · rw [himpls, List.getElem?_map, hi, Option.map_some]
    · rw [clbs_new, List.getElem?_map, hi, Option.map_some]
    · intro request sm
      exact ⟨hpassed h request sm, CallbackImpl.invoke_arguments h request sm,
        CallbackImpl.operator_eq (hpassed h request sm)⟩

end Storage
end BeastRouter
