import BeastRouter.Foundation.Serial
import BeastRouter.Server.Service

namespace BeastRouter.Program
variable {M Rq B U Sm V : Type} (C : Setting M Rq B U Sm V) (S : Service)

def view (p : Program M Rq B U Sm V) : Serial ℕ Rq M V :=
  ⟨p.host.data, fun k => p.host.heard k, fun k => p.host.spoken k⟩

def Answers (regs : List (Registration Rq U Sm (Outbox V M))) (f : Rq → V → List M × V) :
    Prop :=
  ∀ h : Host M Rq B U Sm V, h.Built C → h.registered = regs → ∀ message s,
    (h.answer C message s).calls.flatMap Call.messages = (f message h.data).1 ∧
      (h.answer C message s).data = (f message h.data).2

theorem heard_set {h : Host M Rq B U Sm V} {i : ℕ} {s u : Session M Rq B}
    (hi : h.sessions[i]? = some s) {added : List Rq} (hadded : u.dispatched = s.dispatched ++ added)
    (k : ℕ) :
    (h.sessions.set i u)[k]?.elim [] Session.dispatched =
      h.heard k ++ if i = k then added else [] := by
  have hlt : i < h.sessions.length := (List.getElem?_eq_some_iff.mp hi).1
  rw [Host.heard]
  split_ifs with hk
  · subst hk
    rw [List.getElem?_set_self hlt, hi, Option.elim_some, Option.elim_some, hadded]
  · rw [List.getElem?_set_ne hk, List.append_nil]

theorem answers_session {p : Program M Rq B U Sm V} {i : ℕ} {e : BeastRouter.Event M B Rq}
    {s t : Session M Rq B} (hi : p.host.sessions[i]? = some s)
    (ht : s.step C.platform e = some t) (k : ℕ) :
    p.answers C k (.session i e) =
      if i = k then (s.newDispatches t).flatMap fun message =>
        (p.host.answer C message t).calls.flatMap Call.messages
      else [] := by
  simp only [answers, Host.replied]
  split_ifs with hk
  · subst hk
    rw [Host.replies_eq C hi ht, List.flatMap_assoc]
  · rfl

theorem view_step {f : Rq → V → List M × V} {p q : Program M Rq B U Sm V} (hs : p.Sound C S)
    (hf : Answers C p.host.registered f) {e : Event M Rq B U Sm V} (h : p.step C S e = some q) :
    ∃ order, Serial.run f p.view order = some q.view := by
  have hspoken := spoken_step C S hs h
  cases moves_of_step C S h with
  | register reg host hhost =>
    cases (Host.moves_of_step C hs.built hhost).2
    exact ⟨[], rfl⟩
  | quiet e now listener hstep hsame => exact ⟨[], rfl⟩
  | accepted e now listener socket hstep hsocket =>
    refine ⟨[], congrArg some (Serial.ext rfl (funext fun k => ?_) (funext fun k => ?_))⟩
    · exact (Host.elim_getElem?_append (dispatched_opened C S now) p.host.sessions k).symm
    · exact ((hspoken k).trans (List.append_nil _)).symm
  | session i e host he hhost =>
    cases (Host.moves_of_step C hs.built hhost).2 with
    | quiet i e s t hi ht hnone =>
      have hdispatched := (Session.newDispatches_step C.platform ht).1
      rw [hnone] at hdispatched
      have hanswers := answers_session C hi ht
      refine ⟨[], congrArg some (Serial.ext rfl (funext fun k => ?_) (funext fun k => ?_))⟩
      · have hsame := heard_set hi hdispatched k
        rw [ite_self, List.append_nil] at hsame
        exact hsame.symm
      · have hsame := hspoken k
        rw [hanswers k, hnone, List.flatMap_nil, ite_self, List.append_nil] at hsame
        exact hsame.symm
    | dispatched i e s t message hi ht hmessage =>
      have hdispatched := (Session.newDispatches_step C.platform ht).1
      rw [hmessage] at hdispatched
      have hanswers := answers_session C hi ht
      have hcalls (cs : List (Call M)) : (t.calls C.platform cs).dispatched = t.dispatched :=
        congrArg (fun a => a.2.2) (Session.flow_calls C.platform cs t).incoming_eq
      obtain ⟨hsent, hdata⟩ := hf p.host hs.built rfl message t
      refine ⟨[(i, message)], (Transition.run_singleton _ _ _).trans (congrArg some ?_)⟩
      refine Serial.ext hdata.symm (funext fun k => ?_) (funext fun k => ?_)
      · exact (heard_set hi ((hcalls _).trans hdispatched) k).symm
      · have hgrown := hspoken k
        rw [hanswers k, hmessage, List.flatMap_singleton, hsent] at hgrown
        exact hgrown.symm

theorem serial_run {f : Rq → V → List M × V} {p q : Program M Rq B U Sm V} (hs : p.Sound C S)
    (hf : Answers C p.host.registered f) {es : List (Event M Rq B U Sm V)}
    (hes : ∀ e ∈ es, given e = []) (hr : run C S p es = some q) :
    ∃ order, Serial.run f p.view order = some q.view := by
  induction es generalizing p with
  | nil =>
    obtain rfl := Option.some.inj hr
    exact ⟨[], rfl⟩
  | cons e es ih =>
    obtain ⟨u, hu, hrest⟩ := Transition.run_cons.mp hr
    have hsame := registered_step C S hs hu
    rw [hes e (.head es), List.append_nil] at hsame
    obtain ⟨first, hfirst⟩ := view_step C S hs hf hu
    obtain ⟨later, hlater⟩ := ih (sound_step C S p e u hs hu) (hsame ▸ hf)
      (fun g hg => hes g (.tail e hg)) hrest
    exact ⟨first ++ later, Transition.run_append_some.mpr ⟨u.view, hfirst, hlater⟩⟩

theorem view_registers {regs : List (Registration Rq U Sm (Outbox V M))}
    {p q : Program M Rq B U Sm V} (hs : p.Sound C S)
    (hr : run C S p (regs.map .register) = some q) : q.view = p.view := by
  induction regs generalizing p with
  | nil =>
    obtain rfl := Option.some.inj hr
    rfl
  | cons reg regs ih =>
    obtain ⟨u, hu, hrest⟩ := Transition.run_cons.mp hr
    rw [ih (sound_step C S p _ u hs hu) hrest]
    cases moves_of_step C S hu with
    | register reg host hhost =>
      cases (Host.moves_of_step C hs.built hhost).2
      rfl

theorem serial_of_registers {regs : List (Registration Rq U Sm (Outbox V M))}
    {f : Rq → V → List M × V} (hf : Answers C regs f) {es : List (Event M Rq B U Sm V)}
    (hes : ∀ e ∈ es, given e = []) {onError : Bool} {data : V} {t : Program M Rq B U Sm V}
    (hr : run C S (init C onError data) (regs.map .register ++ es) = some t) :
    (∃ order, Serial.run f (.init data) order = some t.view) ∧
      ∀ k s, t.host.sessions[k]? = some s → s.written.map Item.message <+: t.view.said k := by
  constructor
  · obtain ⟨u, hu, hrest⟩ := Transition.run_append_some.mp hr
    have hview := view_registers C S (sound_init C S onError data) hu
    have hregs := registered_run C S hu
    rw [List.flatMap_map] at hregs
    have hgiven : regs.flatMap (fun reg => given (.register reg : Event M Rq B U Sm V)) = regs :=
      List.flatMap_singleton' regs
    rw [hgiven] at hregs
    obtain ⟨order, horder⟩ := serial_run C S (sound_run C S hu) (hregs ▸ hf) hes hrest
    rw [hview] at horder
    exact ⟨order, horder⟩
  · intro k s hs
    have hsaid : t.view.said k = s.pushed.map Item.message := by
      simp only [view, Host.spoken, hs, Option.elim_some]
    rw [hsaid]
    exact (served_run C S hr hs).1.map Item.message

theorem registered_registers {regs : List (Registration Rq U Sm (Outbox V M))}
    {es : List (Event M Rq B U Sm V)} (hes : ∀ e ∈ es, given e = []) {onError : Bool} {data : V}
    {t : Program M Rq B U Sm V}
    (hr : run C S (init C onError data) (regs.map .register ++ es) = some t) :
    t.host.registered = regs := by
  rw [registered_run C S hr, List.flatMap_append, List.flatMap_eq_nil_iff.mpr hes,
    List.append_nil, List.flatMap_map]
  exact List.flatMap_singleton' regs

theorem serial_once {regs : List (Registration Rq U Sm (Outbox V M))} {f : Rq → V → List M × V}
    (hf : Answers C regs f) (hquiet : MadeBy (fun c => c.isRecv = false) regs)
    {es : List (Event M Rq B U Sm V)} (hes : ∀ e ∈ es, given e = []) {onError : Bool} {data : V}
    {t : Program M Rq B U Sm V}
    (hr : run C S (init C onError data) (regs.map .register ++ es) = some t) :
    ∃ order, Serial.run f (.init data) order = some t.view ∧ (order.map Prod.fst).Nodup := by
  obtain ⟨⟨order, horder⟩, -⟩ := serial_of_registers C S hf hes hr
  refine ⟨order, horder, Serial.nodup_of_run _ horder fun k => ?_⟩
  rw [← registered_registers C S hes hr] at hquiet
  change (t.host.heard k).length ≤ 1
  rw [Host.heard]
  cases hk : t.host.sessions[k]? with
  | none => exact Nat.zero_le 1
  | some s =>
    rw [Option.elim_some]
    rcases one_request_run C S hr hquiet hk with ⟨hnone, -⟩ | ⟨message, -, hone, -⟩
    · rw [hnone]
      exact Nat.zero_le 1
    · rw [hone]
      exact Nat.le_refl 1

end BeastRouter.Program
