import BeastRouter.Session.Reads

namespace BeastRouter

namespace Event
variable {M B Rq : Type}

def isSecuring : Event M B Rq → Bool
  | handshakeCompleted _ .success => true
  | _ => false

def isRefused : Event M B Rq → Bool
  | handshakeCompleted _ ec => ec.failed
  | _ => false

def endsHandshake : Event M B Rq → Bool
  | handshakeCompleted _ _ => true
  | _ => false

theorem countP_endsHandshake (es : List (Event M B Rq)) :
    es.countP endsHandshake = es.countP isSecuring + es.countP isRefused := by
  induction es with
  | nil => rfl
  | cons e es ih =>
    have he : (if e.endsHandshake then 1 else 0) =
        (if e.isSecuring then 1 else 0) + (if e.isRefused then 1 else 0) := by
      cases e with
      | handshakeCompleted i ec => cases ec <;> rfl
      | _ => rfl
    simp only [List.countP_cons, ih, he]
    omega

end Event

namespace Session
variable {M Rq B : Type} (P : Platform M Rq B)

def openSsl (onError isOpen : Bool) (now : ℤ) (c : Call M) : Session M Rq B :=
  (init P true onError isOpen now).doHandshake [c] none

def Silent (s : Session M Rq B) : Prop := s.transport = ([], [], [], s.handshakes, [])

theorem silent_openSsl (onError isOpen : Bool) (now : ℤ) (c : Call M) :
    (openSsl P onError isOpen now c).Silent := rfl

theorem Silent.of_transport {s t : Session M Rq B} (hs : s.Silent)
    (h : t.transport = s.transport) : t.Silent := by
  have hhandshakes : t.handshakes = s.handshakes := congrArg (fun a => a.2.2.2.1) h
  rw [Silent, h, hhandshakes]
  exact hs

theorem started_call {s : Session M Rq B} (hs : s.Silent) (c : Call M) :
    (s.call P c).transfers ≠ [] := by
  have hqueue : s.queue = [] := congrArg (fun a => a.2.2.1) hs
  have htimer (d : ℤ) : (s.doTimer d).queue = [] := hqueue
  cases c with
  | recv => simp [call, recv, doRead, emit, transfers, Action.isIo]
  | recvFor d => simp [call, recvFor, doRead, emit, transfers, Action.isIo]
  | send m =>
    simp [call, send, enqueue, hqueue, ConnQueue.push_nil, handled, doWrite, emit, transfers,
      Action.isIo]
  | sendFor m d =>
    simp [call, sendFor, enqueue, htimer, ConnQueue.push_nil, handled, doWrite, emit, transfers,
      Action.isIo]

theorem silent_step {s t : Session M Rq B} {e : Event M B Rq} (hs : s.Silent)
    (hcall : ∀ c, e ≠ .call c) (hhandshake : e.isHandshake = false)
    (hsecuring : e.isSecuring = false) (h : s.step P e = some t) : t.Silent := by
  have hreads : s.reads = [] := congrArg (fun a => a.1) hs
  have hwrites : s.writes = [] := congrArg (fun a => a.2.1) hs
  cases moves_of_step P h with
  | call c => exact absurd rfl (hcall c)
  | handshake func => cases hhandshake
  | handshakeFor func d => cases hhandshake
  | readCompleted i ec received partialMessage u hu hi => simp [hreads] at hi
  | writeCompleted i ec w hw => simp [hwrites] at hw
  | handshakeCompleted i ec f hf =>
    have hfailed : ec.failed = true := by
      cases ec <;> first | rfl | cases hsecuring
    have hdrop : (s.dropHandshake i).Silent := by
      simpa [Silent, transport, dropHandshake, transfers] using hs
    rw [handshakeDone, if_pos hfailed]
    exact hdrop.of_transport (control_onHandshake P ec _).transport_eq
  | waitCompleted i t ht => exact hs.of_transport (control_waitDone P ht).transport_eq
  | elapse ticks => exact hs
  | closeSocket => exact hs

theorem transfers_step {s t : Session M Rq B} {e : Event M B Rq} (he : e.isHandshake = false)
    (h : s.step P e = some t) : s.transfers <+: t.transfers := by
  have hreleased : (s.released e).transfers = s.transfers := by cases e <;> rfl
  exact hreleased ▸ (extends_step P he h).transfers

theorem silent_run {es : List (Event M B Rq)} {s t : Session M Rq B} (hs : s.Silent)
    (hes : ∀ e ∈ es, (∀ c, e ≠ .call c) ∧ e.isHandshake = false ∧ e.isSecuring = false)
    (hr : run P s es = some t) : t.Silent := by
  refine Transition.run_invariant_along
    (P := fun _ e _ => (∀ c, e ≠ .call c) ∧ e.isHandshake = false ∧ e.isSecuring = false)
    ?_ hs (Transition.along_of_mem hes s) hr
  rintro s e t hs ⟨hcall, hhandshake, hsecuring⟩ h
  exact silent_step P hs hcall hhandshake hsecuring h

theorem silent_or_started {es : List (Event M B Rq)} {s t : Session M Rq B}
    (hs : s.Silent ∨ s.transfers ≠ [])
    (hes : ∀ e ∈ es, e.isHandshake = false ∧ e.isSecuring = false)
    (hr : run P s es = some t) : t.Silent ∨ t.transfers ≠ [] := by
  refine Transition.run_invariant_along (I := fun s => s.Silent ∨ s.transfers ≠ [])
    (P := fun _ e _ => e.isHandshake = false ∧ e.isSecuring = false)
    ?_ hs (Transition.along_of_mem hes s) hr
  rintro s e t (hs | hs) ⟨hhandshake, hsecuring⟩ h
  · by_cases hcall : ∃ c, e = .call c
    · obtain ⟨c, rfl⟩ := hcall
      exact .inr (Option.some.inj h ▸ started_call P hs c)
    · exact .inl (silent_step P hs (fun c hc => hcall ⟨c, hc⟩) hhandshake hsecuring h)
  · refine .inr fun ht => hs ?_
    exact List.prefix_nil.mp (ht ▸ transfers_step P hhandshake h)

theorem handshakes_step {s t : Session M Rq B} {e : Event M B Rq} (he : e.isHandshake = false)
    (h : s.step P e = some t) :
    t.handshakes.length + (if e.endsHandshake then 1 else 0) = s.handshakes.length := by
  rw [(extends_step P he h).handshakes]
  cases e with
  | handshakeCompleted i ec =>
    obtain ⟨f, hf, -⟩ := Option.map_eq_some_iff.mp h
    have hi : i < s.handshakes.length := (List.getElem?_eq_some_iff.mp hf).1
    have herase := List.length_eraseIdx_add_one hi
    simpa [released, dropHandshake, Event.endsHandshake] using herase
  | _ => rfl

theorem handshakes_run {es : List (Event M B Rq)} {s t : Session M Rq B}
    (hes : ∀ e ∈ es, e.isHandshake = false) (hr : run P s es = some t) :
    t.handshakes.length + es.countP Event.endsHandshake = s.handshakes.length := by
  induction es generalizing s with
  | nil =>
    obtain rfl := Option.some.inj hr
    rfl
  | cons e es ih =>
    obtain ⟨u, hu, hr⟩ := Transition.run_cons.mp hr
    have hhead := handshakes_step P (hes e (.head es)) hu
    have htail := ih (fun f hf => hes f (.tail e hf)) hr
    rw [List.countP_cons]
    omega

theorem handshake_ends_once {es : List (Event M B Rq)} {onError isOpen : Bool} {now : ℤ}
    {c : Call M} {t : Session M Rq B} (hes : ∀ e ∈ es, e.isHandshake = false)
    (hr : run P (openSsl P onError isOpen now c) es = some t) :
    ¬ ((∃ e ∈ es, e.isSecuring = true) ∧ ∃ e ∈ es, e.isRefused = true) := by
  rintro ⟨hsecuring, hrefused⟩
  have hends := handshakes_run P hes hr
  have hone : (openSsl P onError isOpen now c).handshakes.length = 1 := rfl
  have hpos := List.countP_pos_iff.mpr hsecuring
  have hpos' := List.countP_pos_iff.mpr hrefused
  rw [hone, Event.countP_endsHandshake] at hends
  omega

structure Gated (s : Session M Rq B) (es : List (Event M B Rq)) : Prop where
  after_success : ∀ es' t, es' <+: es → run P s es' = some t → t.transfers ≠ [] →
    ∃ e ∈ es', e.isSecuring = true
  never_after_failure : ∀ es' t, es' <+: es → run P s es' = some t →
    (∃ e ∈ es', e.isRefused = true) → t.transfers = []

theorem calls_of_gated {s t : Session M Rq B} {es : List (Event M B Rq)} (hs : s.Silent)
    (hes : ∀ e ∈ es, e.isHandshake = false) (hr : run P s es = some t) (hgated : Gated P s es)
    (pre : List (Event M B Rq)) (c : Call M) (hpre : pre ++ [.call c] <+: es) :
    ∃ e ∈ pre, e.isSecuring = true := by
  obtain ⟨post, rfl⟩ := hpre
  obtain ⟨v, hv, -⟩ := Transition.run_append_some.mp hr
  obtain ⟨u, hu, hlast⟩ := Transition.run_append_some.mp hv
  rw [Transition.run_singleton] at hlast
  by_contra hnone
  push Not at hnone
  have hquiet (e : Event M B Rq) (he : e ∈ pre) :
      e.isHandshake = false ∧ e.isSecuring = false :=
    ⟨hes e (by simp [he]), Bool.eq_false_iff.mpr (hnone e he)⟩
  have hstarted : v.transfers ≠ [] := by
    rcases silent_or_started P (.inl hs) hquiet hu with hus | hus
    · exact Option.some.inj hlast ▸ started_call P hus c
    · refine fun hvs => hus ?_
      exact List.prefix_nil.mp (hvs ▸ transfers_step P rfl hlast)
  obtain ⟨e, he, hsecuring⟩ := hgated.after_success _ v (List.prefix_append _ _) hv hstarted
  rcases List.mem_append.mp he with he | he
  · exact hnone e he hsecuring
  · rw [List.mem_singleton.mp he] at hsecuring
    cases hsecuring

theorem secured_of_started {s t : Session M Rq B} {es : List (Event M B Rq)} (hs : s.Silent)
    (hes : ∀ e ∈ es, e.isHandshake = false)
    (hcalls : ∀ pre c, pre ++ [.call c] <+: es → ∃ e ∈ pre, e.isSecuring = true)
    (hr : run P s es = some t) (hstarted : t.transfers ≠ []) :
    ∃ e ∈ es, e.isSecuring = true := by
  by_contra hnone
  push Not at hnone
  refine hstarted (congrArg (fun a => a.2.2.2.2) (silent_run P hs ?_ hr))
  intro e he
  refine ⟨?_, hes e he, Bool.eq_false_iff.mpr (hnone e he)⟩
  rintro c rfl
  obtain ⟨pre, post, rfl⟩ := List.append_of_mem he
  have hpre : pre ++ [.call c] <+: pre ++ .call c :: post := ⟨post, by simp⟩
  obtain ⟨f, hf, hsecuring⟩ := hcalls pre c hpre
  exact hnone f (List.mem_append_left _ hf) hsecuring

theorem io_after_handshake_iff (onError isOpen : Bool) (now : ℤ) (c : Call M)
    (es : List (Event M B Rq)) (t : Session M Rq B) (hes : ∀ e ∈ es, e.isHandshake = false)
    (hr : run P (openSsl P onError isOpen now c) es = some t) :
    Gated P (openSsl P onError isOpen now c) es ↔
      ∀ pre c', pre ++ [.call c'] <+: es → ∃ e ∈ pre, e.isSecuring = true := by
  have hsilent := silent_openSsl P onError isOpen now c
  refine ⟨calls_of_gated P hsilent hes hr, fun hcalls => ?_⟩
  have hafter (es' : List (Event M B Rq)) (u : Session M Rq B) (hes' : es' <+: es)
      (hu : run P (openSsl P onError isOpen now c) es' = some u) (hstarted : u.transfers ≠ []) :
      ∃ e ∈ es', e.isSecuring = true :=
    secured_of_started P hsilent (fun e he => hes e (hes'.subset he))
      (fun pre c' hpre => hcalls pre c' (hpre.trans hes')) hu hstarted
  refine ⟨hafter, fun es' u hes' hu hrefused => ?_⟩
  by_contra hstarted
  exact handshake_ends_once P (fun e he => hes e (hes'.subset he)) hu
    ⟨hafter es' u hes' hu hstarted, hrefused⟩

theorem io_after_handshake_of_server :
    Gated .sample (openSsl .sample true true 0 .recv : Session ℕ ℕ ℕ)
      [.elapse 3, .handshakeCompleted 0 .success, .call (.send 7)] := by
  refine (io_after_handshake_iff .sample true true 0 .recv
    [.elapse 3, .handshakeCompleted 0 .success, .call (.send 7)] _ (by decide) rfl).mpr ?_
  rintro pre c' ⟨post, hpost⟩
  cases pre with
  | nil => simp at hpost
  | cons e pre =>
    cases pre with
    | nil => simp at hpost
    | cons f pre =>
      simp only [List.cons_append, List.cons.injEq] at hpost
      exact ⟨f, by simp, by rw [hpost.2.1]; rfl⟩

theorem io_during_handshake :
    ¬ ∀ (es : List (Event ℕ ℕ ℕ)),
      Gated .sample (openSsl .sample true true 0 (.send 7)) es := by
  intro h
  obtain ⟨e, he, hsecuring⟩ :=
    (h [.call (.recvFor 1000)]).after_success [.call (.recvFor 1000)] _ (List.prefix_refl _) rfl
      (by decide)
  rw [List.mem_singleton.mp he] at hsecuring
  cases hsecuring

end Session
end BeastRouter
