import BeastRouter.Server.Program
import BeastRouter.Session.Terminal

namespace BeastRouter

def Call.isRecv {M : Type} : Call M → Bool
  | .recv => true
  | .recvFor _ => true
  | _ => false

theorem Call.sum_receives {M : Type} (cs : List (Call M)) :
    (cs.map Call.receives).sum = (cs.filter Call.isRecv).length := by
  induction cs with
  | nil => rfl
  | cons c cs ih =>
    rw [List.map_cons, List.sum_cons, ih]
    cases c with
    | recv | recvFor => exact Nat.add_comm 1 _
    | send | sendFor => exact Nat.zero_add _

namespace Session
variable {M Rq B : Type} (P : Platform M Rq B)

def promised (hs : List (Handshake M)) : ℕ :=
  (hs.map fun h => (h.func.map Call.receives).sum).sum

def budget (s : Session M Rq B) : ℕ := s.started .read + promised s.handshakes

theorem budget_calls (cs : List (Call M)) (s : Session M Rq B) :
    (s.calls P cs).budget = s.budget + (cs.filter Call.isRecv).length := by
  have hstarted := started_calls P cs s
  rw [Call.sum_receives] at hstarted
  rw [budget, budget, (extends_calls P cs s).handshakes, hstarted]
  omega

theorem budget_step {s t : Session M Rq B} {e : Event M B Rq} (he : e.isOwner = false)
    (h : s.step P e = some t) : t.budget ≤ s.budget := by
  have hnot : e.isHandshake = false := by cases e <;> first | rfl | cases he
  have hstarted := started_step P h
  have hhandshakes := (extends_step P hnot h).handshakes
  rw [budget, budget, hstarted, hhandshakes]
  cases moves_of_step P h with
  | call c => cases he
  | handshakeCompleted i ec f hf =>
    have herase := sum_eraseIdx (fun h : Handshake M => (h.func.map Call.receives).sum) hf
    simp only [released, dropHandshake, promised]
    cases ec with
    | success =>
      simp only [recvs, hf, Option.elim_some]
      omega
    | endOfStream | operationAborted | timedOut | badDescriptor | other =>
      simp only [recvs]
      omega
  | _ => exact Nat.le_refl _

theorem reads_le_started {isSsl onError isOpen : Bool} {now : ℤ} {es : List (Event M B Rq)}
    {t : Session M Rq B} (hr : run P (init P isSsl onError isOpen now) es = some t) :
    t.dispatched.length + t.reads.length ≤ t.started .read := by
  have hconserved := conserved_run P (o := .read) hr
  have hdispatched := dispatched_run P hr
  have hnone : (init P isSsl onError isOpen now).dispatched.length = 0 := rfl
  have hempty : (init P isSsl onError isOpen now).reads.length = 0 := rfl
  simp only [pending] at hconserved
  omega

end Session

namespace Program
variable {M Rq B U Sm V : Type} (C : Setting M Rq B U Sm V) (S : Service)

def lived (k : ℕ) (p : Program M Rq B U Sm V) :
    Event M Rq B U Sm V → List (BeastRouter.Event M B Rq)
  | .session i e => p.host.enacted C k (.session i e)
  | _ => []

def answers (k : ℕ) (p : Program M Rq B U Sm V) : Event M Rq B U Sm V → List M
  | .session i e => p.host.replied C k (.session i e)
  | _ => []

def exchanged (k : ℕ) (p : Program M Rq B U Sm V) : Event M Rq B U Sm V → List (Rq × List M)
  | .session i e => p.host.exchanged C k (.session i e)
  | _ => []

def rereads (k : ℕ) (p : Program M Rq B U Sm V) : Event M Rq B U Sm V → List (Call M)
  | .session i e => if i = k then (p.host.replies C k e).filter Call.isRecv else []
  | _ => []

theorem receive_silent : (S.receive : Call M).messages = [] := by
  unfold Service.receive
  cases S.duration <;> rfl

theorem sends_opening (s : Session M Rq B) : s.sends S.opening = [] := by
  unfold Service.opening
  cases S.isSsl with
  | true => rfl
  | false => exact receive_silent S

theorem sends_of_not_owner {s : Session M Rq B} (hs : ∀ h ∈ s.handshakes, h.func = [S.receive])
    {e : BeastRouter.Event M B Rq} (he : e.isOwner = false) : s.sends e = [] := by
  cases e with
  | call c => cases he
  | handshakeCompleted i ec =>
    cases ec with
    | success =>
      cases hi : s.handshakes[i]? with
      | none => simp [Session.sends, hi]
      | some h =>
        have hfunc := hs h (List.mem_of_getElem? hi)
        simp [Session.sends, hi, hfunc, receive_silent]
    | _ => rfl
  | _ => rfl

theorem pushed_opened (now : ℤ) : (S.opened C.platform now).pushed.map Item.message = [] := by
  have hpushed := Session.pushed_step C.platform (step_opening C S now)
  rw [sends_opening] at hpushed
  exact hpushed

theorem budget_opened (now : ℤ) : (S.opened C.platform now).budget = 1 := by
  have hreceive : ((S.receive : Call M).receives) = 1 := by
    unfold Service.receive
    cases S.duration <;> rfl
  unfold Service.opened
  cases hssl : S.isSsl with
  | true =>
    simp [Session.budget, Session.promised, Session.doHandshake, Session.emit, Session.started,
      Session.init, Action.starts, hreceive]
  | false =>
    have hcalls := Session.budget_calls C.platform [S.receive]
      (Session.init C.platform false S.onError true now)
    rw [← Call.sum_receives, List.map_singleton, List.sum_singleton, hreceive] at hcalls
    exact hcalls

theorem sessions_register {p : Program M Rq B U Sm V} (hs : p.Sound C S)
    {reg : Registration Rq U Sm (Outbox V M)} {host : Host M Rq B U Sm V}
    (hhost : p.host.step C (.register reg) = some host) : host.sessions = p.host.sessions := by
  cases (Host.moves_of_step C hs.built hhost).2
  rfl

theorem lived_step {p q : Program M Rq B U Sm V} (hs : p.Sound C S) {e : Event M Rq B U Sm V}
    (h : p.step C S e = some q) (k : ℕ) :
    (∀ s, p.host.sessions[k]? = some s → ∃ u, q.host.sessions[k]? = some u ∧
        Session.run C.platform s (p.lived C k e) = some u) ∧
      (p.host.sessions[k]? = none → p.lived C k e = [] ∧
        (q.host.sessions[k]? = none ∨
          ∃ now, q.host.sessions[k]? = some (S.opened C.platform now)))
      := by
  cases moves_of_step C S h with
  | register reg host hhost =>
    have hsame := sessions_register C S hs hhost
    rw [hsame]
    exact ⟨fun s hk => ⟨s, hk, rfl⟩, fun hk => ⟨rfl, .inl hk⟩⟩
  | quiet e now listener hstep hsame =>
    exact ⟨fun s hk => ⟨s, hk, rfl⟩, fun hk => ⟨rfl, .inl hk⟩⟩
  | accepted e now listener socket hstep hsocket =>
    constructor
    · intro s hk
      have hlt := (List.getElem?_eq_some_iff.mp hk).1
      exact ⟨s, (List.getElem?_append_left hlt).trans hk, rfl⟩
    · intro hk
      refine ⟨rfl, ?_⟩
      rcases (List.getElem?_eq_none_iff.mp hk).eq_or_lt with rfl | hlt
      · exact .inr ⟨now, by simp⟩
      · refine .inl (List.getElem?_eq_none_iff.mpr ?_)
        rw [List.length_append]
        exact hlt
  | session i e host he hhost =>
    constructor
    · intro s hk
      exact Host.enacted_step C hs.built hhost hk
    · intro hk
      obtain ⟨hborn, -, hnil⟩ := Host.sessions_step C hs.built hhost hk
      refine ⟨hnil, ?_⟩
      rcases hborn with hnone | ⟨p, hp, -⟩
      · exact .inl hnone
      · cases hp

theorem spoken_step {p q : Program M Rq B U Sm V} (hs : p.Sound C S) {e : Event M Rq B U Sm V}
    (h : p.step C S e = some q) (k : ℕ) :
    q.host.spoken k = p.host.spoken k ++ p.answers C k e := by
  cases moves_of_step C S h with
  | register reg host hhost =>
    have hsame := sessions_register C S hs hhost
    simp only [Host.spoken, hsame, answers, List.append_nil]
  | quiet e now listener hstep hsame => exact (List.append_nil _).symm
  | accepted e now listener socket hstep hsocket =>
    have hnew := Host.elim_getElem?_append
      (f := fun s : Session M Rq B => s.pushed.map Item.message) (pushed_opened C S now)
      p.host.sessions k
    exact hnew.trans (List.append_nil _).symm
  | session i e host he hhost =>
    have hspoken := Host.spoken_step C hs.built hhost k
    have hsaid : p.host.said C k (.session i e) = p.host.replied C k (.session i e) := by
      simp only [Host.said, Host.replied]
      split_ifs
      · cases hk : p.host.sessions[k]? with
        | none => rfl
        | some s =>
          rw [Option.elim_some,
            sends_of_not_owner S (hs.opening s (List.mem_of_getElem? hk)) he, List.nil_append]
      · rfl
    rw [hsaid] at hspoken
    exact hspoken

def allowance (k : ℕ) (p : Program M Rq B U Sm V) : ℕ :=
  p.host.sessions[k]?.elim 1 Session.budget

theorem allowance_step {p q : Program M Rq B U Sm V} (hs : p.Sound C S)
    {e : Event M Rq B U Sm V} (h : p.step C S e = some q) (k : ℕ) :
    q.allowance k ≤ p.allowance k + (p.rereads C k e).length := by
  cases moves_of_step C S h with
  | register reg host hhost =>
    have hsame := sessions_register C S hs hhost
    simp only [allowance, hsame]
    exact Nat.le_add_right _ _
  | quiet e now listener hstep hsame => exact Nat.le_add_right _ _
  | accepted e now listener socket hstep hsocket =>
    apply Nat.le_of_eq
    exact Host.elim_getElem?_append (budget_opened C S now) p.host.sessions k
  | session i e host he hhost =>
    simp only [rereads]
    cases (Host.moves_of_step C hs.built hhost).2 with
    | quiet i e s t hi ht hnone =>
      have hlt : i < p.host.sessions.length := (List.getElem?_eq_some_iff.mp hi).1
      simp only [allowance]
      split_ifs with hk
      · subst hk
        rw [List.getElem?_set_self hlt, hi, Option.elim_some, Option.elim_some]
        exact Nat.le_add_right_of_le (Session.budget_step C.platform he ht)
      · rw [List.getElem?_set_ne hk]
        exact Nat.le_refl _
    | dispatched i e s t message hi ht hmessage =>
      have hlt : i < p.host.sessions.length := (List.getElem?_eq_some_iff.mp hi).1
      simp only [allowance]
      split_ifs with hk
      · subst hk
        rw [List.getElem?_set_self hlt, hi, Option.elim_some, Option.elim_some,
          Session.budget_calls, Host.replies_eq C hi ht, hmessage, List.flatMap_singleton]
        exact Nat.add_le_add_right (Session.budget_step C.platform he ht) _
      · rw [List.getElem?_set_ne hk]
        exact Nat.le_refl _

theorem lived_run {onError : Bool} {data : V} {es : List (Event M Rq B U Sm V)} (k : ℕ) :
    ∀ {t : Program M Rq B U Sm V}, run C S (init C onError data) es = some t →
      (t.host.sessions[k]? = none →
        Transition.collect (step C S) (lived C k) (init C onError data) es = []) ∧
      ∀ s, t.host.sessions[k]? = some s →
        ∃ now, Session.run C.platform (S.opened C.platform now)
        (Transition.collect (step C S) (lived C k) (init C onError data) es) = some s := by
  induction es using List.reverseRecOn with
  | nil =>
    intro t hr
    obtain rfl := Option.some.inj hr
    exact ⟨fun _ => rfl, nofun⟩
  | append_singleton es e ih =>
    intro t hr
    obtain ⟨u, hu, hstep⟩ := Transition.run_append_some.mp hr
    rw [Transition.run_singleton] at hstep
    rw [Transition.collect_append hu, Transition.collect_singleton]
    obtain ⟨hnil, hlives⟩ := ih hu
    obtain ⟨hsome, hnone⟩ := lived_step C S (sound_run C S hu) hstep k
    cases hk : u.host.sessions[k]? with
    | none =>
      obtain ⟨hquiet, hborn⟩ := hnone hk
      rw [hnil hk, hquiet]
      refine ⟨fun _ => rfl, fun s hs => ?_⟩
      rcases hborn with hborn | ⟨now, hborn⟩
      · rw [hborn] at hs
        cases hs
      · exact ⟨now, hborn.symm.trans hs⟩
    | some s =>
      obtain ⟨v, hv, hrun⟩ := hsome s hk
      obtain ⟨now, hlife⟩ := hlives s hk
      refine ⟨fun hn => ?_, fun w hw => ?_⟩
      · rw [hv] at hn
        cases hn
      · obtain rfl := Option.some.inj (hv.symm.trans hw)
        exact ⟨now, Transition.run_append_some.mpr ⟨s, hlife, hrun⟩⟩

theorem life_run {onError : Bool} {data : V} {es : List (Event M Rq B U Sm V)}
    {t : Program M Rq B U Sm V} (hr : run C S (init C onError data) es = some t) {k : ℕ}
    {s : Session M Rq B} (hs : t.host.sessions[k]? = some s) :
    ∃ now, Session.run C.platform (.init C.platform S.isSsl S.onError true now)
      (S.opening :: Transition.collect (step C S) (lived C k) (init C onError data) es) =
        some s := by
  obtain ⟨now, hrun⟩ := (lived_run C S k hr).2 s hs
  exact ⟨now, Transition.run_cons.mpr ⟨_, step_opening C S now, hrun⟩⟩

theorem session_each (onError : Bool) (data : V) (es : List (Event M Rq B U Sm V))
    (t : Program M Rq B U Sm V) (hr : run C S (init C onError data) es = some t) :
    t.listener.delivered = List.range t.host.sessions.length ∧
      ∀ k s, t.host.sessions[k]? = some s → ∃ now,
        Session.run C.platform (.init C.platform S.isSsl S.onError true now)
          (S.opening :: Transition.collect (step C S) (lived C k) (init C onError data) es) =
            some s := by
  have hsound := sound_run C S hr
  constructor
  · rw [hsound.paired]
    exact hsound.orderly.delivered_eq
  · exact fun k s hs => life_run C S hr hs

theorem session_each_get :
    ∃ t, run .sampleServer ⟨false, true, some 5⟩ (init .sampleServer true ()) sampleRequest =
        some t ∧
      t.listener.delivered = [0] ∧ t.host.sessions.length = 1 := by
  refine ⟨_, rfl, ?_, rfl⟩
  exact (session_each .sampleServer ⟨false, true, some 5⟩ true () sampleRequest _ rfl).1

def Answered (onError : Bool) (data : V) (es : List (Event M Rq B U Sm V)) (k : ℕ) (message : Rq)
    (sent : List M) : Prop :=
  ∃ es' e u, es' ++ [e] <+: es ∧ run C S (init C onError data) es' = some u ∧
    (message, sent) ∈ u.exchanged C k e

theorem answers_eq (k : ℕ) (p : Program M Rq B U Sm V) (e : Event M Rq B U Sm V) :
    p.answers C k e = (p.exchanged C k e).flatMap Prod.snd := by
  cases e with
  | session i e => exact Host.replied_eq C k p.host (.session i e)
  | _ => rfl

theorem heard_step {p q : Program M Rq B U Sm V} (hs : p.Sound C S) {e : Event M Rq B U Sm V}
    (h : p.step C S e = some q) (k : ℕ) :
    q.host.heard k = p.host.heard k ++ (p.exchanged C k e).map Prod.fst := by
  cases moves_of_step C S h with
  | register reg host hhost =>
    have hsame := sessions_register C S hs hhost
    simp only [Host.heard, hsame, exchanged, List.map_nil, List.append_nil]
  | quiet e now listener hstep hsame => exact (List.append_nil _).symm
  | accepted e now listener socket hstep hsocket =>
    have hnew := Host.elim_getElem?_append (dispatched_opened C S now) p.host.sessions k
    exact hnew.trans (List.append_nil _).symm
  | session i e host he hhost => exact Host.heard_step C hs.built hhost k

theorem answered_run {onError : Bool} {data : V} {es : List (Event M Rq B U Sm V)} (k : ℕ)
    {t : Program M Rq B U Sm V} (hr : run C S (init C onError data) es = some t) :
    ∃ parts, List.Forall₂ (Answered C S onError data es k) (t.host.heard k) parts ∧
      Transition.collect (step C S) (answers C k) (init C onError data) es = parts.flatten := by
  obtain ⟨handed, hhanded⟩ : ∃ handed, handed =
      Transition.collect (step C S) (exchanged C k) (init C onError data) es := ⟨_, rfl⟩
  have hheard : t.host.heard k = handed.map Prod.fst := by
    have hcollect := Transition.collect_eq_invariant (sound_step C S)
      (fun _ _ _ hs h => heard_step C S hs h k) (sound_init C S onError data) hr
    simp only [List.map_eq_flatMap] at hcollect
    rw [hhanded, List.map_eq_flatMap, Transition.collect_flatMap]
    exact hcollect
  refine ⟨handed.map Prod.snd, ?_, ?_⟩
  · rw [hheard, List.forall₂_map_left_iff, List.forall₂_map_right_iff, List.forall₂_same]
    intro x hx
    rw [hhanded] at hx
    exact Transition.mem_collect hx
  · rw [← List.flatMap_def, hhanded, Transition.collect_flatMap]
    exact congrArg (fun f => Transition.collect (step C S) f (init C onError data) es)
      (funext fun p => funext fun e => answers_eq C k p e)

theorem underway_run {onError : Bool} {data : V} {es : List (Event M Rq B U Sm V)}
    {t : Program M Rq B U Sm V} (hr : run C S (init C onError data) es = some t) {k : ℕ}
    {s : Session M Rq B} (hs : t.host.sessions[k]? = some s) {w : Write M} (hw : w ∈ s.writes) :
    w.item ∈ s.written ∧ w.close = C.platform.needEof w.item.message := by
  obtain ⟨now, hlife⟩ := life_run C S hr hs
  have hmarked : s.Marked C.platform :=
    Transition.run_invariant (fun s e t hs h => Session.marked_step C.platform hs h)
      (by simp [Session.Marked, Session.init]) hlife
  exact ⟨Session.written_of_underway C.platform hlife hw, hmarked w hw⟩

theorem served_run {onError : Bool} {data : V} {es : List (Event M Rq B U Sm V)}
    {t : Program M Rq B U Sm V} (hr : run C S (init C onError data) es = some t) {k : ℕ}
    {s : Session M Rq B} (hs : t.host.sessions[k]? = some s) :
    s.written <+: s.pushed ∧
      (∃ parts, List.Forall₂ (Answered C S onError data es k) s.dispatched parts ∧
        s.pushed.map Item.message = parts.flatten) ∧
      s.dispatched.length + s.reads.length ≤
        1 + (Transition.collect (step C S) (rereads C k) (init C onError data) es).length := by
  obtain ⟨now, hlife⟩ := life_run C S hr hs
  refine ⟨?_, ?_, ?_⟩
  · have hsound := Session.sound_of_run C.platform hlife
    exact hsound.started_prefix
  · have hspoken := Transition.collect_eq_invariant (sound_step C S)
      (fun _ _ _ hp h => spoken_step C S hp h k) (sound_init C S onError data) hr
    obtain ⟨parts, hparts, hcollect⟩ := answered_run C S k hr
    rw [Host.spoken, hs, hcollect] at hspoken
    rw [Host.heard, hs] at hparts
    exact ⟨parts, hparts, hspoken⟩
  · have hallowance := Transition.collect_bound (sound_step C S)
      (fun _ _ _ hp h => allowance_step C S hp h k) (sound_init C S onError data) hr
    have hfirst : (init C onError data : Program M Rq B U Sm V).allowance k = 1 := rfl
    have hreads := Session.reads_le_started C.platform hlife
    rw [hfirst, allowance, hs, Option.elim_some, Session.budget] at hallowance
    omega

def given : Event M Rq B U Sm V → List (Registration Rq U Sm (Outbox V M))
  | .register reg => [reg]
  | _ => []

theorem registered_step {p q : Program M Rq B U Sm V} (hs : p.Sound C S)
    {e : Event M Rq B U Sm V} (h : p.step C S e = some q) :
    q.host.registered = p.host.registered ++ given e := by
  cases moves_of_step C S h with
  | register reg host hhost =>
    cases (Host.moves_of_step C hs.built hhost).2
    rfl
  | quiet e now listener hstep hsame => exact (List.append_nil _).symm
  | accepted e now listener socket hstep hsocket => exact (List.append_nil _).symm
  | session i e host he hhost =>
    cases (Host.moves_of_step C hs.built hhost).2 <;> exact (List.append_nil _).symm

theorem registered_run {onError : Bool} {data : V} {es : List (Event M Rq B U Sm V)}
    {t : Program M Rq B U Sm V} (hr : run C S (init C onError data) es = some t) :
    t.host.registered = es.flatMap given := by
  have hcollect := Transition.collect_eq_invariant (sound_step C S)
    (fun _ _ _ hs h => registered_step C S hs h) (sound_init C S onError data) hr
  rw [Transition.collect_eq_flatMap given hr] at hcollect
  exact hcollect

theorem rereads_step {p q : Program M Rq B U Sm V} (hs : p.Sound C S) {e : Event M Rq B U Sm V}
    (h : p.step C S e = some q) (hquiet : MadeBy (fun c => c.isRecv = false) p.host.registered)
    (k : ℕ) : p.rereads C k e = [] := by
  cases moves_of_step C S h with
  | session i e host he hhost =>
    have hanswer := Host.obeys_answer (composes_calls _) C hquiet (by simp [Call.isRecv])
    simp only [rereads]
    split_ifs with hk
    · subst hk
      cases (Host.moves_of_step C hs.built hhost).2 with
      | quiet i e s t hi ht hnone =>
        rw [Host.replies_eq C hi ht, hnone]
        rfl
      | dispatched i e s t message hi ht hmessage =>
        rw [Host.replies_eq C hi ht, hmessage, List.flatMap_singleton]
        refine List.filter_eq_nil_iff.mpr fun c hc => ?_
        simp [hanswer message t c hc]
    · rfl
  | _ => rfl

theorem rereads_run {p t : Program M Rq B U Sm V} {es : List (Event M Rq B U Sm V)}
    (hs : p.Sound C S) (hr : run C S p es = some t)
    (hquiet : MadeBy (fun c => c.isRecv = false) t.host.registered) (k : ℕ) :
    p.host.registered ⊆ t.host.registered ∧
      Transition.collect (step C S) (rereads C k) p es = [] := by
  induction es generalizing p with
  | nil =>
    obtain rfl := Option.some.inj hr
    exact ⟨List.Subset.refl _, rfl⟩
  | cons e es ih =>
    obtain ⟨u, hu, hrest⟩ := Transition.run_cons.mp hr
    obtain ⟨hsubset, hnil⟩ := ih (sound_step C S p e u hs hu) hrest
    have hgrown := registered_step C S hs hu
    have hfirst : p.host.registered ⊆ t.host.registered :=
      List.Subset.trans (hgrown ▸ List.subset_append_left _ _) hsubset
    refine ⟨hfirst, ?_⟩
    rw [Transition.collect, hu, Option.elim_some, hnil, List.append_nil]
    exact rereads_step C S hs hu (fun reg hreg => hquiet reg (hfirst hreg)) k

theorem one_request_run {onError : Bool} {data : V} {es : List (Event M Rq B U Sm V)}
    {t : Program M Rq B U Sm V} (hr : run C S (init C onError data) es = some t)
    (hquiet : MadeBy (fun c => c.isRecv = false) t.host.registered) {k : ℕ} {s : Session M Rq B}
    (hs : t.host.sessions[k]? = some s) :
    s.dispatched = [] ∧ s.pushed = [] ∨
      ∃ message sent, s.dispatched = [message] ∧ s.reads = [] ∧
        Answered C S onError data es k message sent ∧ s.pushed.map Item.message = sent := by
  obtain ⟨-, ⟨parts, hparts, hpushed⟩, hbound⟩ := served_run C S hr hs
  obtain ⟨-, hnil⟩ := rereads_run C S (sound_init C S onError data) hr hquiet k
  rw [hnil, List.length_nil] at hbound
  generalize s.dispatched = messages at hparts hbound ⊢
  cases hparts with
  | nil => exact .inl ⟨rfl, List.map_eq_nil_iff.mp hpushed⟩
  | cons hfirst hrest =>
    rw [List.length_cons] at hbound
    cases hrest with
    | nil =>
      refine .inr ⟨_, _, rfl, List.length_eq_zero_iff.mp (by omega), hfirst, ?_⟩
      simpa using hpushed
    | cons => simp only [List.length_cons] at hbound; omega

theorem one_request_each (onError : Bool) (data : V) (es : List (Event M Rq B U Sm V))
    (t : Program M Rq B U Sm V) (hr : run C S (init C onError data) es = some t)
    (hquiet : MadeBy (fun c => c.isRecv = false) t.host.registered) (k : ℕ) (s : Session M Rq B)
    (hs : t.host.sessions[k]? = some s) :
    s.dispatched = [] ∧ s.pushed = [] ∨
      ∃ message sent, s.dispatched = [message] ∧ s.reads = [] ∧
        Answered C S onError data es k message sent ∧ s.pushed.map Item.message = sent :=
  one_request_run C S hr hquiet hs

theorem one_request_each_get :
    ∃ t s, run .sampleServer ⟨false, true, some 5⟩
      (init .sampleServer true ()) sampleRequest =
        some t ∧
      t.host.sessions[0]? = some s ∧ s.reads = [] := by
  refine ⟨_, _, rfl, rfl, ?_⟩
  have hone := one_request_each .sampleServer ⟨false, true, some 5⟩ true () sampleRequest _ rfl
    (fun _ hreg => by cases hreg) 0 _ rfl
  rcases hone with ⟨-, hpushed⟩ | ⟨message, sent, -, hreads, -⟩
  · cases hpushed
  · exact hreads

end Program
end BeastRouter
