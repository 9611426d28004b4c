import BeastRouter.Connector
import BeastRouter.Server.Routed
import BeastRouter.Session.Wire
import BeastRouter.Session.Work

namespace BeastRouter

structure Printer (Rq : Type) where
  printed : List Rq
  stops : ℕ
  deriving DecidableEq, Repr

-- `host` is there from `on_connect` on.
structure Client (M Rq B U Sm : Type) where
  connector : Connector
  host : Option (Host M Rq B U Sm (Printer Rq))

namespace Client
variable {M Rq B U Sm : Type} (C : Setting M Rq B U Sm (Printer Rq)) (req : M) (timeout : ℤ)

inductive Event (M Rq B : Type) where
  | connector (e : Connector.Event) (now : ℤ)
  | session (e : BeastRouter.Event M B Rq)

def init : Client M Rq B U Sm := ⟨.init true, none⟩

def onResponse (rp : Rq) (o : Outbox (Printer Rq) M) : Outbox (Printer Rq) M :=
  { o with data := ⟨o.data.printed ++ [rp], o.data.stops + 1⟩ }

def onConnect (now : ℤ) : Option (Host M Rq B U Sm (Printer Rq)) :=
  Host.run C (.init C ⟨[], 0⟩)
    [.register (.handleResponse (lambdaChain onResponse)), .initContext false true true now,
      .session 0 (.call (.sendFor req timeout)), .session 0 (.call (.recvFor timeout))]

-- `on_error` of the session stops the event loop as well.
def stopped (c : Client M Rq B U Sm) : Bool :=
  c.host.any fun h => 0 < h.data.stops || h.sessions.any fun s => s.log.any Action.isReport

-- `on_error` of the connector throws, out of `exec`.
def threw (c : Client M Rq B U Sm) : Bool := !c.connector.errors.isEmpty

def step (c : Client M Rq B U Sm) : Event M Rq B → Option (Client M Rq B U Sm)
  | .connector e now =>
    if c.stopped || c.threw then none
    else
      (c.connector.step e).bind fun connector =>
        if c.connector.handed < connector.handed then
          (onConnect C req timeout now).map fun host => ⟨connector, some host⟩
        else some { c with connector := connector }
  | .session e =>
    if c.stopped || c.threw || e.isOwner then none
    else
      c.host.bind fun host =>
        (host.step C (.session 0 e)).map fun host => { c with host := some host }

abbrev run := Transition.run (step C req timeout)

structure Serves (now : ℤ) (es : List (BeastRouter.Event M B Rq))
    (h : Host M Rq B U Sm (Printer Rq)) : Prop where
  built : h.Built C
  registered : h.registered = [.handleResponse (lambdaChain onResponse)]
  served : ∃ s, h.sessions = [s] ∧
    Session.run C.platform (.init C.platform false true true now) es = some s ∧
    h.data = ⟨s.dispatched, s.dispatched.length⟩

theorem answer_eq (hclient : C.isRequest = false) {h : Host M Rq B U Sm (Printer Rq)}
    (hregs : h.registered = [.handleResponse (lambdaChain onResponse)]) (rp : Rq)
    (s : Session M Rq B) :
    h.answer C rp s = ⟨[], ⟨h.data.printed ++ [rp], h.data.stops + 1⟩, true, none⟩ := by
  have hchain : Router.lastRegistered (h.installed C) .unknown "" =
      some (lambdaChain onResponse) := by
    rw [Host.installed, hclient, hregs]
    rfl
  rw [Host.answer, hclient, if_neg Bool.false_ne_true, fallbackAnswer, hchain]
  exact chainAnswer_lambda onResponse rp _ _ _ _

theorem serves_step (hclient : C.isRequest = false) {now : ℤ}
    {es : List (BeastRouter.Event M B Rq)} {h h' : Host M Rq B U Sm (Printer Rq)}
    (hs : Serves C now es h) {e : BeastRouter.Event M B Rq}
    (hstep : h.step C (.session 0 e) = some h') : Serves C now (es ++ [e]) h' := by
  obtain ⟨hbuilt, hregs, s, hsessions, hrun, hdata⟩ := hs
  have hbuilt' := Host.built_step C hbuilt hstep
  have hrun' {t : Session M Rq B} (ht : s.step C.platform e = some t) :
      Session.run C.platform (.init C.platform false true true now) (es ++ [e]) = some t :=
    Transition.run_append_some.mpr ⟨s, hrun, (Transition.run_singleton _ _ _).trans ht⟩
  have hfirst {u : Session M Rq B} (hu : h.sessions[0]? = some u) : u = s := by
    rw [hsessions] at hu
    exact (Option.some.inj hu).symm
  cases (Host.moves_of_step C hbuilt hstep).2 with
  | quiet i e u t hu ht hnone =>
    obtain rfl := hfirst hu
    have hdispatched := (Session.newDispatches_step C.platform ht).1
    rw [hnone, List.append_nil] at hdispatched
    refine ⟨hbuilt', hregs, t, by simp [hsessions], hrun' ht, ?_⟩
    rw [hdispatched]
    exact hdata
  | dispatched i e u t message hu ht hmessage =>
    obtain rfl := hfirst hu
    have hdispatched := (Session.newDispatches_step C.platform ht).1
    rw [hmessage] at hdispatched
    have hanswer := answer_eq C hclient hregs message t
    refine ⟨hbuilt', hregs, t, ?_, hrun' ht, ?_⟩
    · simp [hsessions, hanswer, Session.calls]
    · rw [hdispatched]
      simp [hanswer, hdata]

theorem serves_onConnect (hclient : C.isRequest = false) {now : ℤ}
    {h : Host M Rq B U Sm (Printer Rq)} (hh : onConnect C req timeout now = some h) :
    Serves C now [.call (.sendFor req timeout), .call (.recvFor timeout)] h := by
  obtain ⟨h₁, hregister, hh⟩ := Transition.run_cons.mp hh
  obtain ⟨h₂, hinit, hh⟩ := Transition.run_cons.mp hh
  obtain ⟨h₃, hsend, hh⟩ := Transition.run_cons.mp hh
  rw [Transition.run_singleton] at hh
  have hbuilt₁ := Host.built_step C (Host.built_init C _) hregister
  have hbuilt₂ := Host.built_step C hbuilt₁ hinit
  have hstart : Serves C now [] h₂ := by
    cases (Host.moves_of_step C (Host.built_init C _) hregister).2
    cases (Host.moves_of_step C hbuilt₁ hinit).2
    exact ⟨hbuilt₂, rfl, _, rfl, rfl, rfl⟩
  exact serves_step C hclient (serves_step C hclient hstart hsend) hh

def opening : List (BeastRouter.Event M B Rq) :=
  [.call (.sendFor req timeout), .call (.recvFor timeout)]

structure Asked (s : Session M Rq B) : Prop where
  handshakes : s.handshakes = []
  pushed : s.pushed.map Item.message = [req]
  written : s.written.map Item.message = [req]
  started : s.started .read = 1

theorem asked_opening {now : ℤ} {s : Session M Rq B}
    (hr : Session.run C.platform (.init C.platform false true true now) (opening req timeout) =
      some s) : Asked req s := by
  obtain rfl := Option.some.inj hr
  exact ⟨rfl, rfl, rfl, rfl⟩

theorem asked_step {s t : Session M Rq B} (hs : Asked req s) {e : BeastRouter.Event M B Rq}
    (he : e.isOwner = false) (hsound : t.station.Sound) (h : s.step C.platform e = some t) :
    Asked req t := by
  obtain ⟨hhandshakes, hpushed, hwritten, hstarted⟩ := hs
  have hnone : t.handshakes = [] := by
    refine List.eq_nil_iff_forall_not_mem.mpr fun f hf => ?_
    have hmem := Session.handshakes_subset C.platform he h f hf
    rw [hhandshakes] at hmem
    cases hmem
  have hsends : s.sends e = [] := by
    cases e with
    | call c => cases he
    | handshakeCompleted i ec => cases ec <;> simp [Session.sends, hhandshakes]
    | _ => rfl
  have hrecvs : s.recvs e = 0 := by
    cases e with
    | call c => cases he
    | handshakeCompleted i ec => cases ec <;> simp [Session.recvs, hhandshakes]
    | _ => rfl
  have hpushed' := Session.pushed_step C.platform h
  rw [hpushed, hsends, List.append_nil] at hpushed'
  refine ⟨hnone, hpushed', ?_, by rw [Session.started_step C.platform h, hstarted, hrecvs]⟩
  have hrun := (Transition.run_singleton (Session.step C.platform) s e).trans h
  have hmore := (Session.written_run C.platform hrun).map Item.message
  have hless : t.written.map Item.message <+: t.pushed.map Item.message :=
    hsound.started_prefix.map Item.message
  rw [hwritten] at hmore
  rw [hpushed'] at hless
  exact hless.eq_of_length_le hmore.length_le

theorem asked_run {now : ℤ} {es : List (BeastRouter.Event M B Rq)}
    (hes : ∀ e ∈ es, e.isOwner = false) {s : Session M Rq B}
    (hr : Session.run C.platform (.init C.platform false true true now)
      (opening req timeout ++ es) = some s) : Asked req s := by
  obtain ⟨u, hu, hrest⟩ := Transition.run_append_some.mp hr
  have hstart : Asked req u ∧ u.station.Sound :=
    ⟨asked_opening C req timeout hu, Session.sound_of_run C.platform hu⟩
  refine (Transition.run_invariant_along (I := fun s => Asked req s ∧ s.station.Sound)
    (P := fun _ e _ => e.isOwner = false) ?_ hstart (Transition.along_of_mem hes u) hrest).1
  rintro v e w ⟨hasked, hsound⟩ he hw
  have hsound' := Session.sound_of_step C.platform hsound hw
  exact ⟨asked_step C req hasked he hsound' hw, hsound'⟩

namespace Event

def isHandler : Event M Rq B → Bool
  | connector e _ => e.isHandler
  | session e => e.isCompletion

def lived : Event M Rq B → List (BeastRouter.Event M B Rq)
  | session e => [e]
  | _ => []

end Event

inductive Moves (c : Client M Rq B U Sm) : Event M Rq B → Client M Rq B U Sm → Prop where
  | quiet (e : Connector.Event) (now : ℤ) (connector : Connector)
    (hconnector : c.connector.step e = some connector)
    (hsame : connector.handed = c.connector.handed) :
    Moves c (.connector e now) { c with connector := connector }
  | connected (e : Connector.Event) (now : ℤ) (connector : Connector)
    (h : Host M Rq B U Sm (Printer Rq)) (hconnector : c.connector.step e = some connector)
    (hmore : c.connector.handed < connector.handed)
    (hh : onConnect C req timeout now = some h) :
    Moves c (.connector e now) ⟨connector, some h⟩
  | session (e : BeastRouter.Event M B Rq) (h h' : Host M Rq B U Sm (Printer Rq))
    (he : e.isOwner = false) (hhost : c.host = some h)
    (hstep : h.step C (.session 0 e) = some h') :
    Moves c (.session e) { c with host := some h' }

theorem moves_of_step {c d : Client M Rq B U Sm} {e : Event M Rq B}
    (h : c.step C req timeout e = some d) : Moves C req timeout c e d := by
  cases e with
  | connector e now =>
    simp only [step] at h
    split_ifs at h
    obtain ⟨connector, hconnector, h⟩ := Option.bind_eq_some_iff.mp h
    split_ifs at h with hmore
    · obtain ⟨host, hhost, rfl⟩ := Option.map_eq_some_iff.mp h
      exact .connected e now connector host hconnector hmore hhost
    · have hle := (Connector.left_step hconnector).2
      have hsame : connector.handed = c.connector.handed := by omega
      exact Option.some.inj h ▸ .quiet e now connector hconnector hsame
  | session e =>
    simp only [step] at h
    split_ifs at h with hgoes
    obtain ⟨host, hhost, h⟩ := Option.bind_eq_some_iff.mp h
    obtain ⟨host', hhost', rfl⟩ := Option.map_eq_some_iff.mp h
    have he : e.isOwner = false := by
      simp only [Bool.or_eq_true, not_or, Bool.not_eq_true] at hgoes
      exact hgoes.2
    exact .session e host host' he hhost hhost'

structure Sound (es : List (Event M Rq B)) (c : Client M Rq B U Sm) : Prop where
  connector : ∃ r, Connector.Accounts true r c.connector ∧ c.connector.Owned
  bound : es.countP Event.isHandler + c.connector.left ≤
    2 + (es.flatMap Event.lived).countP BeastRouter.Event.isCompletion
  unowned : ∀ e ∈ es.flatMap Event.lived, e.isOwner = false
  host : (c.host = none ∧ c.connector.handed = 0 ∧ es.flatMap Event.lived = []) ∨
    ∃ h now, c.host = some h ∧ c.connector.handed = 1 ∧
      Serves C now (opening req timeout ++ es.flatMap Event.lived) h

theorem sound_init : Sound C req timeout [] (init : Client M Rq B U Sm) where
  connector := ⟨⟨none, none⟩, ⟨rfl, rfl, rfl, rfl, rfl⟩, ⟨fun _ => rfl, rfl, rfl⟩⟩
  bound := Nat.le_refl _
  unowned := nofun
  host := .inl ⟨rfl, rfl, rfl⟩

theorem sound_step (hclient : C.isRequest = false) {es : List (Event M Rq B)}
    {c d : Client M Rq B U Sm} (hc : Sound C req timeout es c) {e : Event M Rq B}
    (h : c.step C req timeout e = some d) : Sound C req timeout (es ++ [e]) d := by
  obtain ⟨⟨r, haccounts, howned⟩, hbound, hunowned, hhost⟩ := hc
  have hhandlers : (es ++ [e]).countP Event.isHandler =
      es.countP Event.isHandler + if e.isHandler then 1 else 0 := by
    rw [List.countP_append, List.countP_singleton]
  have hlived : (es ++ [e]).flatMap Event.lived = es.flatMap Event.lived ++ e.lived := by
    rw [List.flatMap_append, List.flatMap_singleton]
  cases moves_of_step C req timeout h with
  | quiet e now connector hconnector hsame =>
    have hleft := (Connector.left_step hconnector).1
    simp only [Event.lived, List.append_nil] at hlived
    refine ⟨⟨_, Connector.accounts_step haccounts howned hconnector⟩, ?_, ?_, ?_⟩
    · have hcount : (es ++ [Event.connector e now]).countP Event.isHandler =
          es.countP Event.isHandler + if e.isHandler then 1 else 0 := hhandlers
      rw [hcount, hlived]
      dsimp only
      omega
    · rwa [hlived]
    · rw [hlived, hsame]
      exact hhost
  | connected e now connector host hconnector hmore hstart =>
    have hleft := (Connector.left_step hconnector).1
    have haccounts' := Connector.accounts_step haccounts howned hconnector
    simp only [Event.lived, List.append_nil] at hlived
    refine ⟨⟨_, haccounts'⟩, ?_, ?_, ?_⟩
    · have hcount : (es ++ [Event.connector e now]).countP Event.isHandler =
          es.countP Event.isHandler + if e.isHandler then 1 else 0 := hhandlers
      rw [hcount, hlived]
      dsimp only
      omega
    · rwa [hlived]
    · have hone : connector.handed ≤ 1 := by
        rw [haccounts'.1.handed]
        split_ifs
        · exact Nat.le_refl 1
        · exact Nat.zero_le 1
      rcases hhost with ⟨-, -, hnone⟩ | ⟨h, now', -, hhanded, -⟩
      · have hfirst : connector.handed = 1 := by omega
        refine .inr ⟨host, now, rfl, hfirst, ?_⟩
        rw [hlived, hnone, List.append_nil]
        exact serves_onConnect C req timeout hclient hstart
      · omega
  | session e host host' he hhost' hstep =>
    simp only [Event.lived] at hlived
    refine ⟨⟨r, haccounts, howned⟩, ?_, ?_, ?_⟩
    · have hcount : (es ++ [Event.session e]).countP Event.isHandler =
          es.countP Event.isHandler + if e.isCompletion then 1 else 0 := hhandlers
      rw [hcount, hlived, List.countP_append, List.countP_singleton]
      dsimp only
      omega
    · rw [hlived]
      exact List.forall_mem_append.mpr ⟨hunowned, List.forall_mem_singleton.mpr he⟩
    · rcases hhost with ⟨hnone, -⟩ | ⟨h, now, hsome, hhanded, hserves⟩
      · rw [hhost'] at hnone
        cases hnone
      · obtain rfl := Option.some.inj (hhost'.symm.trans hsome)
        refine .inr ⟨host', now, rfl, hhanded, ?_⟩
        rw [hlived, ← List.append_assoc]
        exact serves_step C hclient hserves hstep

theorem sound_run (hclient : C.isRequest = false) {es : List (Event M Rq B)}
    {c : Client M Rq B U Sm} (hr : run C req timeout init es = some c) :
    Sound C req timeout es c :=
  Transition.run_history_invariant (sound_init C req timeout)
    (fun _ _ _ _ _ _ hstep hs => sound_step C req timeout hclient hs hstep) es c
    (List.prefix_refl es) hr

theorem serves_exchange {now : ℤ} {es : List (BeastRouter.Event M B Rq)}
    {h : Host M Rq B U Sm (Printer Rq)} (hs : Serves C now (opening req timeout ++ es) h)
    (hes : ∀ e ∈ es, e.isOwner = false) :
    ∃ s, h.sessions = [s] ∧ s.written.map Item.message = [req] ∧
      h.data = ⟨s.dispatched, s.dispatched.length⟩ ∧
      s.dispatched.length + s.reads.length + es.countP BeastRouter.Event.isEndRead = 1 ∧
      es.countP BeastRouter.Event.isCompletion ≤ 4 := by
  obtain ⟨-, -, s, hsessions, hrun, hdata⟩ := hs
  have hasked := asked_run C req timeout hes hrun
  refine ⟨s, hsessions, hasked.written, hdata, ?_, ?_⟩
  · have hconserved := Session.conserved_run C.platform (o := .read) hrun
    have hdispatched := Session.dispatched_run C.platform hrun
    have hstarted : (Session.init C.platform false true true now).started .read = 0 := rfl
    have hpending : (Session.init C.platform false true true now).pending .read = 0 := rfl
    have hnone : (Session.init C.platform false true true now).dispatched.length = 0 := rfl
    have hopening :
        (opening req timeout : List (BeastRouter.Event M B Rq)).countP
          BeastRouter.Event.isEndRead = 0 := rfl
    rw [hasked.started, hstarted, hpending] at hconserved
    rw [List.countP_append, hopening] at hdispatched
    simp only [Session.pending] at hconserved
    omega
  · have hwork := Session.work_run C.platform hrun
    have hnone : (Session.init C.platform false true true now).work = 0 := rfl
    have hcost : ((opening req timeout ++ es).map BeastRouter.Event.cost).sum = 4 := by
      have hzero : es.map BeastRouter.Event.cost = es.map fun _ => 0 :=
        List.map_congr_left fun e he => by
          have howner := hes e he
          cases e <;> first | rfl | cases howner
      rw [List.map_append, List.sum_append, hzero]
      simp [opening, BeastRouter.Event.cost, Call.cost]
    rw [hnone, hcost, List.countP_append] at hwork
    omega

theorem exchanges_once (hclient : C.isRequest = false) (es : List (Event M Rq B))
    (t : Client M Rq B U Sm) (hr : run C req timeout init es = some t)
    (h : Host M Rq B U Sm (Printer Rq)) (hhost : t.host = some h) :
    ∃ s, h.sessions = [s] ∧ s.written.map Item.message = [req] ∧
      h.data.printed = s.dispatched ∧ h.data.stops = s.dispatched.length ∧
      s.dispatched.length + s.reads.length +
        (es.flatMap Event.lived).countP BeastRouter.Event.isEndRead = 1 := by
  have hsound := sound_run C req timeout hclient hr
  rcases hsound.host with ⟨hnone, -⟩ | ⟨h', now, hsome, -, hserves⟩
  · rw [hhost] at hnone
    cases hnone
  · obtain rfl := Option.some.inj (hhost.symm.trans hsome)
    obtain ⟨s, hsessions, hwritten, hdata, hone, -⟩ :=
      serves_exchange C req timeout hserves hsound.unowned
    exact ⟨s, hsessions, hwritten, by rw [hdata], by rw [hdata], hone⟩

def sampleClient : Setting ℕ ℕ ℕ Unit Unit (Printer ℕ) where
  platform := .sample
  http :=
    { method := fun _ => .unknown
      target := fun _ => ""
      version := fun _ => 11
      regex := fun _ => none
      emptyMatch := ()
      send := fun _ _ => () }
  response := fun _ => 0
  order := .leftToRight
  iteration := .asStored
  isRequest := false

def connected : List (Event ℕ ℕ ℕ) :=
  [.connector .doResolve 0, .connector .release 0, .connector (.resolved .success) 1,
    .connector (.connected .success true) 2]

theorem exchanges_once_response :
    ∃ t h s, run sampleClient 7 1 init (connected ++ [.session (.writeCompleted 0 .success),
        .session (.readCompleted 0 .success [4] 0)]) = some t ∧ t.host = some h ∧
      h.sessions = [s] ∧ s.written.map Item.message = [7] ∧ h.data.printed = [4] := by
  refine ⟨_, _, _, rfl, rfl, rfl, ?_, rfl⟩
  obtain ⟨s, hsessions, hwritten, -⟩ := exchanges_once sampleClient 7 1 rfl
    (connected ++ [.session (.writeCompleted 0 .success),
      .session (.readCompleted 0 .success [4] 0)]) _ rfl _ rfl
  obtain rfl := List.singleton_inj.mp hsessions
  exact hwritten

end Client
end BeastRouter
