import BeastRouter.Session.Wire
import BeastRouter.Session.Work
import BeastRouter.Foundation.Inevitable

namespace BeastRouter

inductive ContextCall (M : Type) where
  | call (c : Call M)
  | handshake (func : List (Call M))
  | handshakeFor (func : List (Call M)) (duration : ℤ)
  deriving DecidableEq, Repr

namespace ContextCall
variable {M B Rq : Type}

def event : ContextCall M → Event M B Rq
  | call c => .call c
  | handshake func => .handshake func
  | handshakeFor func duration => .handshakeFor func duration

def messages : ContextCall M → List M
  | call c => c.messages
  | _ => []

def securing : ContextCall M → Bool
  | call _ => false
  | _ => true

def cost (c : ContextCall M) : ℕ := Event.cost (c.event : Event M Unit Unit)

theorem cost_event (c : ContextCall M) : (c.event : Event M B Rq).cost = c.cost := by
  cases c <;> rfl

theorem isCompletion_event (c : ContextCall M) :
    (c.event : Event M B Rq).isCompletion = false := by
  cases c <;> rfl

theorem sends_event (c : ContextCall M) (s : Session M Rq B) : s.sends c.event = c.messages := by
  cases c <;> rfl

theorem step_event (P : Platform M Rq B) {c : ContextCall M} {s : Session M Rq B}
    (hssl : c.securing = true → s.isSsl = true) : ∃ t, s.step P c.event = some t := by
  cases c with
  | call c => exact ⟨_, rfl⟩
  | handshake func => exact ⟨_, if_pos (hssl rfl)⟩
  | handshakeFor func d => exact ⟨_, if_pos (hssl rfl)⟩

end ContextCall

namespace Session
variable {M Rq B : Type} (P : Platform M Rq B)

theorem isSsl_step {s t : Session M Rq B} {e : Event M B Rq} (h : s.step P e = some t) :
    t.isSsl = s.isSsl := by
  cases e with
  | waitCompleted i =>
    obtain ⟨shutdowns, as, -, rfl⟩ := control_waitDone P h
    rfl
  | elapse ticks => exact Option.some.inj h ▸ rfl
  | closeSocket => exact Option.some.inj h ▸ rfl
  | _ => exact congrArg Prod.fst (ambient_step P rfl h)

theorem isSsl_run {s t : Session M Rq B} {es : List (Event M B Rq)} (hr : run P s es = some t) :
    t.isSsl = s.isSsl :=
  Transition.run_invariant (I := fun u => u.isSsl = s.isSsl)
    (fun _ _ _ hu hstep => (isSsl_step P hstep).trans hu) rfl hr

end Session

namespace Event
variable {M B Rq : Type}

theorem cost_of_completion {e : Event M B Rq} (he : e.isCompletion = true) : e.cost = 0 := by
  cases e with
  | call | handshake | handshakeFor => cases he
  | _ => rfl

def dispatches : Event M B Rq → Bool
  | readCompleted _ ec _ _ => ec != .endOfStream
  | _ => false

def handsContext : Event M B Rq → Bool
  | readCompleted _ ec _ _ => ec != .endOfStream
  | handshakeCompleted _ ec => !ec.failed
  | _ => false

end Event

-- `posted` is what `asio::dispatch` has put on the strand from elsewhere; from a handler, which is
-- on the strand, the function runs at once.
structure SharedImpl (M Rq B : Type) where
  impl : Session M Rq B
  contexts : ℕ
  posted : List (ContextCall M)
  shutdowns : ℕ
  destroyed : Bool
  deriving DecidableEq, Repr

namespace SharedImpl
variable {M Rq B : Type} (P : Platform M Rq B)

inductive Event (M B Rq : Type) where
  | copyContext
  | releaseContext
  | dispatch (c : ContextCall M)
  | invoke
  | complete (e : BeastRouter.Event M B Rq) (calls : List (ContextCall M)) (kept : ℕ)
  | elapse (ticks : ℕ)
  | closeSocket
  deriving DecidableEq, Repr

def init (isSsl onError isOpen : Bool) (now : ℤ) : SharedImpl M Rq B :=
  ⟨.init P isSsl onError isOpen now, 1, [], 0, false⟩

-- A context, a function on the strand and the handler of an operation each hold the session.
def useCount (s : SharedImpl M Rq B) : ℕ :=
  s.contexts + s.posted.length +
    (s.impl.pending .read + s.impl.pending .write + s.impl.pending .handshake +
      s.impl.pending .wait)

-- `~connection` shuts the socket down, unless it is closed.
def destroy (s : SharedImpl M Rq B) : SharedImpl M Rq B :=
  { s with
    destroyed := true
    shutdowns := if s.impl.isOpen then s.shutdowns + 1 else s.shutdowns }

def settle (s : SharedImpl M Rq B) : SharedImpl M Rq B := if s.useCount = 0 then s.destroy else s

def act (s : SharedImpl M Rq B) : Event M B Rq → Option (SharedImpl M Rq B)
  | .copyContext => if 0 < s.contexts then some { s with contexts := s.contexts + 1 } else none
  | .releaseContext => if 0 < s.contexts then some { s with contexts := s.contexts - 1 } else none
  | .dispatch c =>
    if 0 < s.contexts ∧ (c.securing = true → s.impl.isSsl = true) then
      some { s with posted := s.posted ++ [c] }
    else none
  | .invoke =>
    match s.posted with
    | [] => none
    | c :: posted => (s.impl.step P c.event).map fun t => { s with impl := t, posted := posted }
  | .complete e calls kept =>
    if e.isCompletion = true ∧ (e.dispatches = true ∨ calls = []) ∧
        (e.handsContext = true ∨ kept = 0) then
      (Session.run P s.impl (e :: calls.map ContextCall.event)).map fun t =>
        { s with impl := t, contexts := s.contexts + kept }
    else none
  | .elapse ticks => (s.impl.step P (.elapse ticks)).map fun t => { s with impl := t }
  | .closeSocket => (s.impl.step P .closeSocket).map fun t => { s with impl := t }

def step (s : SharedImpl M Rq B) (e : Event M B Rq) : Option (SharedImpl M Rq B) :=
  if s.destroyed then none else (s.act P e).map settle

abbrev run (P : Platform M Rq B) := Transition.run (step P)

def trace (s : SharedImpl M Rq B) : Event M B Rq → List (BeastRouter.Event M B Rq)
  | .invoke => (s.posted.take 1).map ContextCall.event
  | .complete e calls _ => e :: calls.map ContextCall.event
  | .elapse ticks => [.elapse ticks]
  | .closeSocket => [.closeSocket]
  | _ => []

def given (s : SharedImpl M Rq B) : Event M B Rq → List M
  | .dispatch c => c.messages
  | .complete e calls _ => s.impl.sends e ++ calls.flatMap ContextCall.messages
  | _ => []

inductive Moves (s : SharedImpl M Rq B) : Event M B Rq → SharedImpl M Rq B → Prop where
  | copyContext (h : 0 < s.contexts) : Moves s .copyContext { s with contexts := s.contexts + 1 }
  | releaseContext (n : ℕ) (h : s.contexts = n + 1) :
    Moves s .releaseContext { s with contexts := n }
  | dispatch (c : ContextCall M) (h : 0 < s.contexts)
    (hssl : c.securing = true → s.impl.isSsl = true) :
    Moves s (.dispatch c) { s with posted := s.posted ++ [c] }
  | invoke (c : ContextCall M) (posted : List (ContextCall M)) (t : Session M Rq B)
    (hposted : s.posted = c :: posted) (ht : s.impl.step P c.event = some t) :
    Moves s .invoke { s with impl := t, posted := posted }
  | complete (e : BeastRouter.Event M B Rq) (calls : List (ContextCall M)) (kept : ℕ)
    (t : Session M Rq B) (he : e.isCompletion = true)
    (ht : Session.run P s.impl (e :: calls.map ContextCall.event) = some t) :
    Moves s (.complete e calls kept) { s with impl := t, contexts := s.contexts + kept }
  | elapse (ticks : ℕ) (t : Session M Rq B) (ht : s.impl.step P (.elapse ticks) = some t) :
    Moves s (.elapse ticks) { s with impl := t }
  | closeSocket (t : Session M Rq B) (ht : s.impl.step P .closeSocket = some t) :
    Moves s .closeSocket { s with impl := t }

theorem moves_of_act {s u : SharedImpl M Rq B} {e : Event M B Rq} (h : s.act P e = some u) :
    Moves P s e u := by
  cases e with
  | copyContext =>
    obtain ⟨hpos, heq⟩ := Option.ite_none_right_eq_some.mp h
    exact Option.some.inj heq ▸ .copyContext hpos
  | releaseContext =>
    obtain ⟨hpos, heq⟩ := Option.ite_none_right_eq_some.mp h
    exact Option.some.inj heq ▸ .releaseContext _ (Nat.succ_pred_eq_of_pos hpos).symm
  | dispatch c =>
    obtain ⟨⟨hpos, hssl⟩, heq⟩ := Option.ite_none_right_eq_some.mp h
    exact Option.some.inj heq ▸ .dispatch c hpos hssl
  | invoke =>
    cases hposted : s.posted with
    | nil => simp [act, hposted] at h
    | cons c posted =>
      simp only [act, hposted] at h
      obtain ⟨t, ht, rfl⟩ := Option.map_eq_some_iff.mp h
      exact .invoke c posted t hposted ht
  | complete e calls kept =>
    obtain ⟨⟨he, -, -⟩, h⟩ := Option.ite_none_right_eq_some.mp h
    obtain ⟨t, ht, rfl⟩ := Option.map_eq_some_iff.mp h
    exact .complete e calls kept t he ht
  | elapse ticks =>
    rw [act] at h
    obtain ⟨t, ht, rfl⟩ := Option.map_eq_some_iff.mp h
    exact .elapse ticks t ht
  | closeSocket =>
    rw [act] at h
    obtain ⟨t, ht, rfl⟩ := Option.map_eq_some_iff.mp h
    exact .closeSocket t ht

theorem moves_of_step {s t : SharedImpl M Rq B} {e : Event M B Rq} (h : s.step P e = some t) :
    s.destroyed = false ∧ ∃ u, Moves P s e u ∧ t = u.settle := by
  obtain ⟨halive, h⟩ := Option.ite_none_left_eq_some.mp h
  obtain ⟨u, hu, rfl⟩ := Option.map_eq_some_iff.mp h
  exact ⟨Bool.eq_false_iff.mpr halive, u, moves_of_act P hu, rfl⟩

section
variable (s : SharedImpl M Rq B)

@[simp] theorem impl_settle : s.settle.impl = s.impl := by
  unfold settle
  split_ifs <;> rfl

@[simp] theorem contexts_settle : s.settle.contexts = s.contexts := by
  unfold settle
  split_ifs <;> rfl

@[simp] theorem posted_settle : s.settle.posted = s.posted := by
  unfold settle
  split_ifs <;> rfl

end

structure Held (s : SharedImpl M Rq B) : Prop where
  destroyed : s.destroyed = true ↔ s.useCount = 0
  shutdowns : s.shutdowns = if s.destroyed && s.impl.isOpen then 1 else 0
  posted : ∀ c ∈ s.posted, c.securing = true → s.impl.isSsl = true

theorem held_settle {s : SharedImpl M Rq B} (halive : s.destroyed = false)
    (hshutdowns : s.shutdowns = 0)
    (hposted : ∀ c ∈ s.posted, c.securing = true → s.impl.isSsl = true) : s.settle.Held := by
  unfold settle
  split_ifs with huse
  · refine ⟨iff_of_true rfl huse, ?_, hposted⟩
    simp [destroy, hshutdowns]
  · exact ⟨iff_of_false (by simp [halive]) huse, by simp [halive, hshutdowns], hposted⟩

theorem Held.go_on {s : SharedImpl M Rq B} (hs : s.Held) (halive : s.destroyed = false)
    {t : Session M Rq B} (hssl : t.isSsl = s.impl.isSsl) (contexts : ℕ)
    {posted : List (ContextCall M)} (hposted : ∀ c ∈ posted, c ∈ s.posted) :
    (settle { s with impl := t, contexts := contexts, posted := posted }).Held := by
  refine held_settle halive ?_ fun c hc hsec => ?_
  · rw [hs.shutdowns, halive]
    rfl
  · exact hssl.trans (hs.posted c (hposted c hc) hsec)

theorem held_step {s t : SharedImpl M Rq B} {e : Event M B Rq} (hs : s.Held)
    (h : s.step P e = some t) : t.Held := by
  obtain ⟨halive, u, hu, rfl⟩ := moves_of_step P h
  cases hu with
  | copyContext => exact hs.go_on halive rfl _ fun _ => id
  | releaseContext n => exact hs.go_on halive rfl n fun _ => id
  | dispatch c _ hssl =>
    refine held_settle halive (by rw [hs.shutdowns, halive]; rfl) fun d hd => ?_
    rcases List.mem_append.mp hd with hd | hd
    · exact hs.posted d hd
    · exact List.mem_singleton.mp hd ▸ hssl
  | invoke c posted t hposted ht =>
    exact hs.go_on halive (Session.isSsl_step P ht) _ fun d hd => hposted ▸ .tail c hd
  | complete e calls kept t he ht =>
    exact hs.go_on halive (Session.isSsl_run P ht) _ fun _ => id
  | elapse ticks t ht => exact hs.go_on halive (Session.isSsl_step P ht) _ fun _ => id
  | closeSocket t ht => exact hs.go_on halive (Session.isSsl_step P ht) _ fun _ => id

theorem held_init {isSsl onError isOpen : Bool} {now : ℤ} :
    (init P isSsl onError isOpen now).Held := by
  refine ⟨iff_of_false (by simp [init]) (by simp [init, useCount]), rfl, ?_⟩
  simp [init]

theorem held_of_run {isSsl onError isOpen : Bool} {now : ℤ} {es : List (Event M B Rq)}
    {t : SharedImpl M Rq B} (hr : run P (init P isSsl onError isOpen now) es = some t) : t.Held :=
  Transition.run_invariant (fun _ _ _ => held_step P) (held_init P) hr

theorem trace_step {s t : SharedImpl M Rq B} {e : Event M B Rq} (h : s.step P e = some t) :
    Session.run P s.impl (s.trace e) = some t.impl := by
  obtain ⟨-, u, hu, rfl⟩ := moves_of_step P h
  rw [impl_settle]
  cases hu with
  | copyContext | releaseContext | dispatch => rfl
  | invoke c posted t hposted ht =>
    rw [trace, hposted]
    exact (Transition.run_singleton _ _ _).trans ht
  | complete e calls kept t he ht => exact ht
  | elapse ticks t ht => exact (Transition.run_singleton _ _ _).trans ht
  | closeSocket t ht => exact (Transition.run_singleton _ _ _).trans ht

theorem trace_of_run {s t : SharedImpl M Rq B} {es : List (Event M B Rq)}
    (hr : run P s es = some t) :
    Session.run P s.impl (Transition.collect (step P) trace s es) = some t.impl :=
  Transition.run_collect (fun _ _ _ => trace_step P) hr

theorem sends_calls {calls : List (ContextCall M)} {s t : Session M Rq B}
    (hr : Session.run P s (calls.map ContextCall.event) = some t) :
    Transition.collect (Session.step P) Session.sends s (calls.map ContextCall.event) =
      calls.flatMap ContextCall.messages := by
  induction calls generalizing s with
  | nil => rfl
  | cons c calls ih =>
    obtain ⟨u, hu, hr⟩ := Transition.run_cons.mp hr
    rw [List.map_cons, Transition.collect, hu, Option.elim_some, ih hr, c.sends_event,
      List.flatMap_cons]

def executed (s : SharedImpl M Rq B) : Event M B Rq → List M
  | .invoke => (s.posted.take 1).flatMap ContextCall.messages
  | .complete e calls _ => s.impl.sends e ++ calls.flatMap ContextCall.messages
  | _ => []

theorem sends_trace {s t : SharedImpl M Rq B} {e : Event M B Rq} (h : s.step P e = some t) :
    Transition.collect (Session.step P) Session.sends s.impl (s.trace e) = s.executed e := by
  obtain ⟨-, u, hu, rfl⟩ := moves_of_step P h
  cases hu with
  | copyContext | releaseContext | dispatch => rfl
  | invoke c posted t hposted ht =>
    rw [trace, executed, hposted]
    exact sends_calls P ((Transition.run_singleton _ _ _).trans ht)
  | complete e calls kept t he ht =>
    obtain ⟨v, hv, hr⟩ := Transition.run_cons.mp ht
    rw [trace, executed, Transition.collect, hv, Option.elim_some, sends_calls P hr]
  | elapse ticks t ht => exact Transition.collect_singleton _ _ _ _
  | closeSocket t ht => exact Transition.collect_singleton _ _ _ _

theorem pushed_step {s t : SharedImpl M Rq B} {e : Event M B Rq} (h : s.step P e = some t) :
    t.impl.pushed.map Item.message = s.impl.pushed.map Item.message ++ s.executed e := by
  rw [← sends_trace P h]
  exact Transition.collect_eq (fun _ _ _ => Session.pushed_step P) (trace_step P h)

theorem given_step {s t : SharedImpl M Rq B} {e : Event M B Rq} (h : s.step P e = some t) :
    (s.posted.flatMap ContextCall.messages ++ s.given e).Perm
      (s.executed e ++ t.posted.flatMap ContextCall.messages) := by
  obtain ⟨-, u, hu, rfl⟩ := moves_of_step P h
  rw [posted_settle]
  cases hu with
  | dispatch c => simp [given, executed]
  | invoke c posted t hposted => simp [given, executed, hposted]
  | complete e calls kept t he ht => exact List.perm_append_comm
  | _ => simp [given, executed]

theorem given_of_run {isSsl onError isOpen : Bool} {now : ℤ} {es : List (Event M B Rq)}
    {t : SharedImpl M Rq B} (hr : run P (init P isSsl onError isOpen now) es = some t) :
    (Transition.collect (step P) given (init P isSsl onError isOpen now) es).Perm
      (t.impl.pushed.map Item.message ++ t.posted.flatMap ContextCall.messages) := by
  have hpushed : t.impl.pushed.map Item.message =
      Transition.collect (step P) executed (init P isSsl onError isOpen now) es :=
    Transition.collect_eq (fun _ _ _ => pushed_step P) hr
  rw [hpushed]
  exact Transition.collect_conserved_perm (fun _ _ _ => given_step P) hr

inductive Winding : List (Event M B Rq) → Prop where
  | releaseContext : Winding [.releaseContext]
  | invoke : Winding [.invoke]
  | complete (ticks : ℕ) (e : BeastRouter.Event M B Rq) :
    Winding [.elapse ticks, .complete e [] 0]

def Ends (s t : SharedImpl M Rq B) : Prop := ∃ es, Winding es ∧ run P s es = some t

def debt (s : SharedImpl M Rq B) : ℕ :=
  s.contexts + (s.posted.map fun c => c.cost + 1).sum + s.impl.work

theorem debt_settle (s : SharedImpl M Rq B) : s.settle.debt = s.debt := by
  rw [debt, impl_settle, contexts_settle, posted_settle, debt]

theorem debt_of_ends {s t : SharedImpl M Rq B} (h : Ends P s t) : t.debt < s.debt := by
  obtain ⟨es, hes, hr⟩ := h
  cases hes with
  | releaseContext =>
    obtain ⟨-, u, hu, rfl⟩ := moves_of_step P ((Transition.run_singleton _ _ _).symm.trans hr)
    rw [debt_settle]
    cases hu with
    | releaseContext n hn =>
      simp only [debt, hn]
      omega
  | invoke =>
    obtain ⟨-, u, hu, rfl⟩ := moves_of_step P ((Transition.run_singleton _ _ _).symm.trans hr)
    rw [debt_settle]
    cases hu with
    | invoke c posted t hposted ht =>
      have hwork := Session.work_step P ht
      rw [c.cost_event, c.isCompletion_event] at hwork
      simp only [debt, hposted, List.map_cons, List.sum_cons]
      simp only [Bool.false_eq_true, if_false, Nat.add_zero] at hwork
      omega
  | complete ticks e =>
    obtain ⟨v, hv, hr⟩ := Transition.run_cons.mp hr
    obtain ⟨-, u, hu, rfl⟩ := moves_of_step P ((Transition.run_singleton _ _ _).symm.trans hr)
    obtain ⟨-, w, hw, rfl⟩ := moves_of_step P hv
    rw [debt_settle]
    cases hw with
    | elapse _ x hx =>
      cases hu with
      | complete _ _ _ y he hy =>
        have hpassed := Session.work_step P hx
        have hdone := Session.work_step P ((Transition.run_singleton _ _ _).symm.trans hy)
        rw [if_pos he, BeastRouter.Event.cost_of_completion he] at hdone
        rw [impl_settle] at hdone
        simp only [BeastRouter.Event.cost, BeastRouter.Event.isCompletion, Bool.false_eq_true,
          if_false, Nat.add_zero] at hpassed
        change y.work + 1 ≤ x.work at hdone
        simp only [debt, contexts_settle, posted_settle]
        omega

theorem result_of_reached {now : ℤ} {w : Wait} (h : w.expiry ≤ now) :
    ∃ ec, w.result now = some ec := by
  cases hw : w.abortedAt with
  | none => exact ⟨.success, by simp [Wait.result, hw, h]⟩
  | some time => exact ⟨.operationAborted, by simp [Wait.result, hw]⟩

theorem exists_completion {s : Session M Rq B}
    (hs : s.pending .read + s.pending .write + s.pending .handshake + s.pending .wait ≠ 0) :
    ∃ ticks e t u, e.isCompletion = true ∧ s.step P (.elapse ticks) = some t ∧
      t.step P e = some u := by
  have hone : 0 < s.reads.length ∨ 0 < s.writes.length ∨ 0 < s.handshakes.length ∨
      0 < s.timer.waits.length := by
    simp only [Session.pending] at hs
    omega
  rcases hone with hread | hwrite | hhandshake | hwait
  · exact ⟨0, .readCompleted 0 .operationAborted [] s.parser.message, _, _, rfl, rfl,
      if_pos hread⟩
  · have hw : s.writes[0]? = some s.writes[0] := List.getElem?_eq_getElem hwrite
    exact ⟨0, .writeCompleted 0 .success, _, _, rfl, rfl,
      Option.map_eq_some_iff.mpr ⟨s.writes[0], hw, rfl⟩⟩
  · have hf : s.handshakes[0]? = some s.handshakes[0] := List.getElem?_eq_getElem hhandshake
    exact ⟨0, .handshakeCompleted 0 .success, _, _, rfl, rfl,
      Option.map_eq_some_iff.mpr ⟨s.handshakes[0], hf, rfl⟩⟩
  · have hw : s.timer.waits[0]? = some s.timer.waits[0] := List.getElem?_eq_getElem hwait
    have hreached : (s.timer.waits[0]).expiry ≤
        s.now + ((s.timer.waits[0]).expiry - s.now).toNat := by omega
    obtain ⟨ec, hec⟩ := result_of_reached hreached
    exact ⟨_, .waitCompleted 0, _, _, rfl, rfl,
      Option.map_eq_some_iff.mpr ⟨ec, Option.bind_eq_some_iff.mpr ⟨_, hw, hec⟩, rfl⟩⟩

theorem step_of_act {s u : SharedImpl M Rq B} {e : Event M B Rq} (halive : s.destroyed = false)
    (h : s.act P e = some u) : s.step P e = some u.settle := by
  rw [step, halive, if_neg Bool.false_ne_true, h, Option.map_some]

theorem can_end {s : SharedImpl M Rq B} (hs : s.Held) (halive : s.destroyed = false) :
    ∃ t, Ends P s t := by
  by_cases hcontexts : 0 < s.contexts
  · exact ⟨_, _, .releaseContext, (Transition.run_singleton _ _ _).trans
      (step_of_act P halive (if_pos hcontexts))⟩
  · cases hposted : s.posted with
    | cons c posted =>
      obtain ⟨t, ht⟩ := ContextCall.step_event P (hs.posted c (hposted ▸ List.mem_cons_self))
      refine ⟨_, _, .invoke, (Transition.run_singleton _ _ _).trans
        (step_of_act P halive (u := { s with impl := t, posted := posted }) ?_)⟩
      simp [act, hposted, ht]
    | nil =>
      have huse : s.useCount ≠ 0 := fun h => by simp [hs.destroyed.mpr h] at halive
      have hpending : s.impl.pending .read + s.impl.pending .write +
          s.impl.pending .handshake + s.impl.pending .wait ≠ 0 := by
        simp only [useCount, hposted, List.length_nil] at huse
        omega
      obtain ⟨ticks, e, t, u, he, ht, hu⟩ := exists_completion P hpending
      have hpassed : s.step P (.elapse ticks) = some { s with impl := t } := by
        refine (step_of_act P halive (u := { s with impl := t }) (by rw [act, ht]; rfl)).trans ?_
        obtain rfl := Option.some.inj ht
        exact congrArg some (if_neg huse)
      have hdone : Session.run P t (e :: List.map ContextCall.event []) = some u :=
        (Transition.run_singleton _ _ _).trans hu
      refine ⟨_, _, .complete ticks e, Transition.run_cons.mpr ⟨_, hpassed,
        (Transition.run_singleton _ _ _).trans (step_of_act P halive
          (u := { s with impl := u, contexts := s.contexts }) ?_)⟩⟩
      exact (if_pos ⟨he, .inr rfl, .inr rfl⟩).trans
        (Option.map_eq_some_iff.mpr ⟨u, hdone, rfl⟩)

theorem idle_of_destroyed {s : SharedImpl M Rq B} (hs : s.Held) (hgone : s.destroyed = true) :
    s.posted = [] ∧ s.impl.writes = [] := by
  have huse := hs.destroyed.mp hgone
  simp only [useCount, Session.pending, Nat.add_eq_zero_iff, List.length_eq_zero_iff] at huse
  exact ⟨huse.1.2, huse.2.1.1.2⟩

theorem ends_when_released (isSsl onError isOpen : Bool) (now : ℤ) (es : List (Event M B Rq))
    (t : SharedImpl M Rq B) (hr : run P (init P isSsl onError isOpen now) es = some t) :
    (t.destroyed = true ↔ t.useCount = 0) ∧
    (t.destroyed = true →
      (t.impl.isOpen = true → t.shutdowns = 1) ∧
      (Transition.collect (step P) given (init P isSsl onError isOpen now) es).Perm
        (t.impl.pushed.map Item.message) ∧
      ((∀ e ∈ Transition.collect (step P) trace (init P isSsl onError isOpen now) es,
          e.goesOn onError = true) →
        t.impl.written.map Item.message =
          SingleServer.upTo P.needEof (t.impl.pushed.map Item.message))) ∧
    Transition.Inevitable (Ends P) (fun u => u.destroyed = true) t := by
  have hheld : t.Held := held_of_run P hr
  refine ⟨hheld.destroyed, fun hgone => ⟨fun hopen => ?_, ?_, fun hgo => ?_⟩, ?_⟩
  · rw [hheld.shutdowns, hgone, hopen]
    rfl
  · have hposted := (idle_of_destroyed hheld hgone).1
    have hgiven := given_of_run P hr
    rwa [hposted, List.flatMap_nil, List.append_nil] at hgiven
  · have htrace := trace_of_run P hr
    have hwire := (Session.written_of_run P hgo htrace).2 (idle_of_destroyed hheld hgone).2
    exact (congrArg (List.map Item.message) hwire).trans (SingleServer.upTo_map _ _).symm
  · refine Transition.inevitable_of_measure debt (I := Held) ?_ (fun u v _ => debt_of_ends P) ?_
      hheld
    · rintro u v hu ⟨fs, -, hfs⟩
      exact Transition.run_invariant (fun _ _ _ => held_step P) hu hfs
    · intro u hu
      cases hgone : u.destroyed with
      | true => exact .inl rfl
      | false => exact .inr (can_end P hu hgone)

def sampleRequest : List (Event ℕ ℕ ℕ) :=
  [.dispatch (.call (.recvFor 5)), .releaseContext, .invoke,
    .complete (.readCompleted 0 .success [4] 0) [.call (.send 6), .call (.send 7)] 0,
    .complete (.writeCompleted 0 .success) [] 0, .complete (.waitCompleted 0) [] 0,
    .complete (.writeCompleted 0 .success) [] 0]

theorem ends_when_released_request :
    ∃ t, run .sample (init .sample false true true 0) sampleRequest = some t ∧
      t.destroyed = true ∧ t.shutdowns = 1 ∧ t.impl.written.map Item.message = [6, 7] := by
  refine ⟨_, rfl, rfl, ?_, ?_⟩
  · exact ((ends_when_released .sample false true true 0 sampleRequest _ rfl).2.1 rfl).1 rfl
  · have hall := ((ends_when_released .sample false true true 0 sampleRequest _ rfl).2.1 rfl).2.2
    exact hall (by decide)

end SharedImpl
end BeastRouter
