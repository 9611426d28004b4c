import Mathlib.Logic.Function.Basic
import BeastRouter.Foundation.ValueCategory
import BeastRouter.Session.WriteQueue

namespace BeastRouter

structure Closure (M : Type) where
  msg : M
  dur : Option ℤ
  deriving DecidableEq, Repr

def Closure.call {M : Type} (f : Closure M) : Call M :=
  match f.dur with
  | none => .send f.msg
  | some dur => .sendFor f.msg dur

namespace Session
variable {M Rq B : Type} (P : Platform M Rq B) (movedFrom : M → M)

-- Each of these returns, beside its result, what it leaves in the argument `message`.
def wrkImpl (rsp : Operand) (message : M) : M × M :=
  (rsp.forward rsp.named).construct movedFrom message

def queueOperator (rsp : Operand) (message : M) (deadline : Option ℤ) (s : Session M Rq B) :
    Session M Rq B × M :=
  let response := wrkImpl movedFrom (rsp.forward rsp.named) message
  (s.enqueue P response.1 deadline, response.2)

def implSend (arg : Operand) (message : M) (s : Session M Rq B) : Session M Rq B × M :=
  s.queueOperator P movedFrom (arg.forward arg.named) message none

def implSendFor (arg : Operand) (message : M) (duration : ℤ) (s : Session M Rq B) :
    Session M Rq B × M :=
  (s.doTimer duration).queueOperator P movedFrom (arg.forward arg.named) message
    (some (s.now + duration))

def contextSend (arg : Operand) (message : M) : Closure M × M :=
  let msg := arg.named.move.construct movedFrom message
  (⟨msg.1, none⟩, msg.2)

def contextSendFor (arg : Operand) (message : M) (duration : ℤ) : Closure M × M :=
  let msg := arg.named.move.construct movedFrom message
  (⟨msg.1, some duration⟩, msg.2)

def invoke (f : Closure M) (s : Session M Rq B) : Session M Rq B × Closure M :=
  let msg := Operand.lvalue.move
  match f.dur with
  | none =>
    let r := s.implSend P movedFrom msg f.msg
    (r.1, { f with msg := r.2 })
  | some dur =>
    let r := s.implSendFor P movedFrom msg f.msg dur
    (r.1, { f with msg := r.2 })

theorem queueOperator_eq (rsp : Operand) (message : M) (deadline : Option ℤ)
    (s : Session M Rq B) :
    s.queueOperator P movedFrom rsp message deadline =
      (s.enqueue P message deadline, (rsp.construct movedFrom message).2) := by
  rw [queueOperator, wrkImpl, Operand.forward_named, Operand.forward_named]
  rfl

theorem implSend_eq (arg : Operand) (message : M) (s : Session M Rq B) :
    s.implSend P movedFrom arg message =
      (s.send P message, (arg.construct movedFrom message).2) := by
  rw [implSend, Operand.forward_named, queueOperator_eq, send]

theorem implSendFor_eq (arg : Operand) (message : M) (duration : ℤ) (s : Session M Rq B) :
    s.implSendFor P movedFrom arg message duration =
      (s.sendFor P message duration, (arg.construct movedFrom message).2) := by
  rw [implSendFor, Operand.forward_named, queueOperator_eq, sendFor]

theorem invoke_call (f : Closure M) (s : Session M Rq B) :
    (s.invoke P movedFrom f).1 = s.call P f.call := by
  cases hdur : f.dur <;> simp [invoke, Closure.call, hdur, implSend_eq, implSendFor_eq, call]

theorem call_messages (f : Closure M) : f.call.messages = [f.msg] := by
  cases hdur : f.dur <;> simp [Closure.call, hdur, Call.messages]

theorem pushed_invoke (f : Closure M) (s : Session M Rq B) :
    (s.invoke P movedFrom f).1.pushed.map Item.message = s.pushed.map Item.message ++ [f.msg] := by
  have hstep : s.step P (.call f.call) = some (s.call P f.call) := rfl
  rw [invoke_call, pushed_step P hstep, sends, call_messages]

end Session

structure Caller (K M Rq B : Type) where
  message : M
  dispatched : K → List (Closure M)
  sessions : K → Session M Rq B

namespace Caller

inductive Event (K M B Rq : Type) where
  | send (c : K)
  | sendFor (c : K) (duration : ℤ)
  | invoke (c : K) (i : ℕ)
  | session (c : K) (e : BeastRouter.Event M B Rq)
  deriving DecidableEq, Repr

namespace Event
variable {K M B Rq : Type} [DecidableEq K]

def target : Event K M B Rq → Option K
  | send c => some c
  | sendFor c _ => some c
  | _ => none

def sendsTo (k : K) (e : Event K M B Rq) : Bool := e.target == some k

end Event

variable {K M Rq B : Type} [DecidableEq K] (P : Platform M Rq B) (movedFrom : M → M)
  (arg : Operand)

def start (message : M) (sessions : K → Session M Rq B) : Caller K M Rq B :=
  ⟨message, fun _ => [], sessions⟩

def dispatch (c : K) (r : Closure M × M) (w : Caller K M Rq B) : Caller K M Rq B :=
  { w with
    message := r.2
    dispatched := Function.update w.dispatched c (w.dispatched c ++ [r.1]) }

-- `arg` is the expression by which the caller names its message in the calls of `send`.
def step (w : Caller K M Rq B) : Event K M B Rq → Option (Caller K M Rq B)
  | .send c => some (w.dispatch c (Session.contextSend movedFrom arg w.message))
  | .sendFor c duration =>
    some (w.dispatch c (Session.contextSendFor movedFrom arg w.message duration))
  | .invoke c i =>
    (w.dispatched c)[i]?.map fun f =>
      { w with
        dispatched := Function.update w.dispatched c ((w.dispatched c).eraseIdx i)
        sessions := Function.update w.sessions c ((w.sessions c).invoke P movedFrom f).1 }
  | .session c e =>
    ((w.sessions c).step P e).map fun s => { w with sessions := Function.update w.sessions c s }

def waiting (k : K) (w : Caller K M Rq B) : List M := (w.dispatched k).map Closure.msg

def captured (k : K) (w : Caller K M Rq B) (e : Event K M B Rq) : List M :=
  if e.sendsTo k then [w.message] else []

def enqueued (k : K) (w : Caller K M Rq B) : Event K M B Rq → List M
  | .invoke c i =>
    if c = k then
      (w.dispatched c)[i]?.elim [] fun f =>
        (((w.sessions c).invoke P movedFrom f).1.pushed.map Item.message).drop
          ((w.sessions c).pushed.map Item.message).length
    else []
  | _ => []

theorem waiting_dispatch (k c : K) (r : Closure M × M) (w : Caller K M Rq B) :
    (w.dispatch c r).waiting k = w.waiting k ++ if c = k then [r.1.msg] else [] := by
  by_cases hk : c = k
  · subst hk
    simp [waiting, dispatch]
  · simp [waiting, dispatch, Function.update_of_ne (Ne.symm hk), hk]

theorem enqueued_invoke {c : K} {i : ℕ} {f : Closure M} {w : Caller K M Rq B}
    (hf : (w.dispatched c)[i]? = some f) (k : K) :
    enqueued P movedFrom k w (.invoke c i) = if c = k then [f.msg] else [] := by
  rw [enqueued, hf, Option.elim_some, Session.pushed_invoke, List.drop_left]

theorem waiting_step (k : K) {w t : Caller K M Rq B} {e : Event K M B Rq}
    (h : step P movedFrom arg w e = some t) :
    (w.waiting k ++ captured k w e).Perm (enqueued P movedFrom k w e ++ t.waiting k) := by
  cases e with
  | send c =>
    obtain rfl := Option.some.inj h
    rw [waiting_dispatch]
    simp [captured, enqueued, Event.sendsTo, Event.target, Session.contextSend, Operand.construct]
  | sendFor c duration =>
    obtain rfl := Option.some.inj h
    rw [waiting_dispatch]
    simp [captured, enqueued, Event.sendsTo, Event.target, Session.contextSendFor,
      Operand.construct]
  | invoke c i =>
    obtain ⟨f, hf, rfl⟩ := Option.map_eq_some_iff.mp h
    rw [enqueued_invoke P movedFrom hf]
    by_cases hk : c = k
    · subst hk
      obtain ⟨hi, rfl⟩ := List.getElem?_eq_some_iff.mp hf
      have hperm := ((List.getElem_cons_eraseIdx_perm hi).map Closure.msg).symm
      simpa [captured, waiting, Event.sendsTo, Event.target] using hperm
    · simp [captured, waiting, Event.sendsTo, Event.target, hk, Function.update_of_ne (Ne.symm hk)]
  | session c e =>
    obtain ⟨s, -, rfl⟩ := Option.map_eq_some_iff.mp h
    simp [captured, enqueued, waiting, Event.sendsTo, Event.target]

theorem message_step {w t : Caller K M Rq B} {e : Event K M B Rq}
    (h : step P movedFrom arg w e = some t) :
    t.message =
      if e.target.isSome then (arg.named.move.construct movedFrom w.message).2
      else w.message := by
  cases e with
  | send c => exact Option.some.inj h ▸ rfl
  | sendFor c duration => exact Option.some.inj h ▸ rfl
  | invoke c i =>
    obtain ⟨f, -, rfl⟩ := Option.map_eq_some_iff.mp h
    rfl
  | session c e =>
    obtain ⟨s, -, rfl⟩ := Option.map_eq_some_iff.mp h
    rfl

theorem length_captured (k : K) {es : List (Event K M B Rq)} {w t : Caller K M Rq B}
    (hr : Transition.run (step P movedFrom arg) w es = some t) :
    (Transition.collect (step P movedFrom arg) (captured k) w es).length =
      es.countP (Event.sendsTo k) := by
  induction es generalizing w with
  | nil => rfl
  | cons e es ih =>
    obtain ⟨u, hu, hr⟩ := Transition.run_cons.mp hr
    rw [Transition.collect, hu, Option.elim_some, List.length_append, ih hr, List.countP_cons,
      captured, Nat.add_comm]
    split_ifs <;> rfl

theorem captured_forall_iff (v : M) (w : Caller K M Rq B) (e : Event K M B Rq) :
    (∀ k, ∀ m ∈ captured k w e, m = v) ↔ e.target = none ∨ w.message = v := by
  cases he : e.target with
  | none => simp [captured, Event.sendsTo, he]
  | some c =>
    constructor
    · intro h
      exact .inr (h c w.message (by simp [captured, Event.sendsTo, he]))
    · rintro (hnone | rfl) k m hm
      · cases hnone
      · simp only [captured] at hm
        split_ifs at hm
        · exact List.mem_singleton.mp hm
        · cases hm

theorem captured_eq_iff (v : M) {es : List (Event K M B Rq)} {w t : Caller K M Rq B}
    (hr : Transition.run (step P movedFrom arg) w es = some t) :
    (t.message = v ∧
      ∀ k, ∀ m ∈ Transition.collect (step P movedFrom arg) (captured k) w es, m = v) ↔
    w.message = v ∧
      ((arg.named.move.construct movedFrom v).2 = v ∨ ∀ e ∈ es, e.target = none) := by
  induction es generalizing w with
  | nil =>
    obtain rfl := Option.some.inj hr
    simp [Transition.collect]
  | cons e es ih =>
    obtain ⟨u, hu, hr⟩ := Transition.run_cons.mp hr
    have hmessage := message_step P movedFrom arg hu
    have hrest := ih hr
    simp only [Transition.collect, hu, Option.elim_some, List.forall_mem_append,
      List.forall_mem_cons, forall_and]
    rw [captured_forall_iff]
    cases he : e.target with
    | none =>
      rw [he, Option.isSome_none, if_neg Bool.false_ne_true] at hmessage
      simpa [hmessage] using hrest
    | some c =>
      rw [he, Option.isSome_some, if_pos rfl] at hmessage
      constructor
      · rintro ⟨ht, hnone | hw, hcaptured⟩
        · cases hnone
        · obtain ⟨hleft, -⟩ := hrest.mp ⟨ht, hcaptured⟩
          rw [hmessage, hw] at hleft
          exact ⟨hw, .inl hleft⟩
      · rintro ⟨hw, hkept | ⟨hnone, -⟩⟩
        · have hleft : u.message = v := by rw [hmessage, hw, hkept]
          obtain ⟨ht, hcaptured⟩ := hrest.mpr ⟨hleft, .inl hkept⟩
          exact ⟨ht, .inr hw, hcaptured⟩
        · cases hnone

theorem enqueued_perm (k : K) (v : M) (sessions : K → Session M Rq B)
    {es : List (Event K M B Rq)} {t : Caller K M Rq B}
    (hr : Transition.run (step P movedFrom arg) (start v sessions) es = some t) :
    (Transition.collect (step P movedFrom arg) (captured k) (start v sessions) es).Perm
      (Transition.collect (step P movedFrom arg) (enqueued P movedFrom k) (start v sessions) es ++
        t.waiting k) :=
  Transition.collect_conserved_perm (fun _ _ _ h => waiting_step P movedFrom arg k h) hr

def MessageKept (v : M) (sessions : K → Session M Rq B) (es : List (Event K M B Rq))
    (t : Caller K M Rq B) : Prop :=
  t.message = v ∧
  ∀ k, Transition.collect (step P movedFrom arg) (enqueued P movedFrom k) (start v sessions) es ++
      t.waiting k = List.replicate (es.countP (Event.sendsTo k)) v

theorem messageKept_iff (v : M) (sessions : K → Session M Rq B) {es : List (Event K M B Rq)}
    {t : Caller K M Rq B}
    (hr : Transition.run (step P movedFrom arg) (start v sessions) es = some t) :
    MessageKept P movedFrom arg v sessions es t ↔
      (arg.isConst = true ∨ movedFrom v = v) ∨ ∀ e ∈ es, e.target = none := by
  have hall (k : K) :
      Transition.collect (step P movedFrom arg) (enqueued P movedFrom k) (start v sessions) es ++
          t.waiting k = List.replicate (es.countP (Event.sendsTo k)) v ↔
        ∀ m ∈ Transition.collect (step P movedFrom arg) (captured k) (start v sessions) es,
          m = v := by
    have hperm := enqueued_perm P movedFrom arg k v sessions hr
    rw [List.eq_replicate_iff, ← hperm.length_eq, length_captured P movedFrom arg k hr]
    simp only [true_and, hperm.mem_iff]
  have hkept : (arg.named.move.construct movedFrom v).2 = v ↔
      arg.isConst = true ∨ movedFrom v = v := by
    rw [Operand.construct_kept_iff, Operand.steals_move, Bool.not_eq_false']
    rfl
  rw [MessageKept, forall_congr' hall, captured_eq_iff P movedFrom arg v hr, hkept]
  exact and_iff_right rfl

theorem sends_keep_message_iff (v : M) (sessions : K → Session M Rq B)
    (es : List (Event K M B Rq)) (t : Caller K M Rq B)
    (hr : Transition.run (step P movedFrom .lvalue) (start v sessions) es = some t) :
    MessageKept P movedFrom .lvalue v sessions es t ↔
      movedFrom v = v ∨ ∀ e ∈ es, e.target = none := by
  rw [messageKept_iff P movedFrom .lvalue v sessions hr]
  simp [Operand.lvalue]

theorem const_message_kept (v : M) (sessions : K → Session M Rq B)
    {es : List (Event K M B Rq)} {t : Caller K M Rq B}
    (hr : Transition.run (step P movedFrom .constLvalue) (start v sessions) es = some t) :
    MessageKept P movedFrom .constLvalue v sessions es t :=
  (messageKept_iff P movedFrom .constLvalue v sessions hr).mpr (.inl (.inl rfl))

end Caller

-- A response as far as a move changes it: the fields and the body go, the status stays.
structure Response where
  result : ℕ
  fields : List (String × String)
  body : String
  deriving DecidableEq, Repr

namespace Response

def movedFrom (m : Response) : Response := { m with fields := [], body := "" }

def needEof (m : Response) : Bool := m.fields.all fun f => f.1 != "Content-Length"

def platform : Platform Response ℕ ℕ where
  needEof := needEof
  emptyMessage := 0
  parse := Platform.sample.parse
  movedFrom := Platform.sample.movedFrom
  shutdownResult := Platform.sample.shutdownResult

def page : Response := ⟨200, [("Content-Type", "text/html"), ("Content-Length", "2")], "hi"⟩

end Response

namespace Caller

def sessionsOpen (_ : ℕ) : Session Response ℕ ℕ := .init Response.platform false true true 0

theorem sends_keep_message_of_empty :
    ∃ t : Caller ℕ Response ℕ ℕ,
      Transition.run (step Response.platform Response.movedFrom .lvalue)
        (start ⟨204, [], ""⟩ sessionsOpen) [.send 0, .sendFor 1 5, .invoke 0 0] = some t ∧
      MessageKept Response.platform Response.movedFrom .lvalue ⟨204, [], ""⟩ sessionsOpen
        [.send 0, .sendFor 1 5, .invoke 0 0] t :=
  ⟨_, rfl, (sends_keep_message_iff Response.platform Response.movedFrom
    ⟨204, [], ""⟩ sessionsOpen
    [.send 0, .sendFor 1 5, .invoke 0 0] _ rfl).mpr (.inl rfl)⟩

theorem message_consumed :
    ¬ ∀ (es : List (Event ℕ Response ℕ ℕ)) (t : Caller ℕ Response ℕ ℕ),
      Transition.run (step Response.platform Response.movedFrom .lvalue)
        (start Response.page sessionsOpen) es = some t →
      MessageKept Response.platform Response.movedFrom .lvalue Response.page sessionsOpen es
        t := by
  intro h
  have hkept := (h [.send 0, .send 0] _ rfl).1
  revert hkept
  decide

end Caller
end BeastRouter
