import BeastRouter.Foundation.Unwinding
import BeastRouter.Server.NotFound
import BeastRouter.Session.Receive
import BeastRouter.Session.Wire

namespace BeastRouter

namespace Session
variable {M Rq B : Type} (P : Platform M Rq B)

theorem dispatched_of_no_byte (hempty : P.parse [] = none) {es : List (Event M B Rq)}
    {s t : Session M Rq B} (hs : After P P.emptyMessage [] 0 s)
    (hok : ∀ e ∈ es, e.isFailedRead = false) (hnone : es.flatMap Event.received = [])
    (hr : run P s es = some t) : t.dispatched = [] := by
  induction es generalizing s with
  | nil =>
    obtain rfl := Option.some.inj hr
    exact hs.2.2
  | cons e es ih =>
    obtain ⟨u, hu, hrest⟩ := Transition.run_cons.mp hr
    have hok' (f : Event M B Rq) (hf : f ∈ es) : f.isFailedRead = false := hok f (.tail e hf)
    rw [List.flatMap_cons, List.append_eq_nil_iff] at hnone
    cases he : e.isRead with
    | false => exact ih (after_of_incoming P (incoming_step P he hu) hs) hok' hnone.2 hrest
    | true =>
      cases e with
      | readCompleted i ec received partialMessage =>
        obtain rfl : received = [] := hnone.1
        by_cases heof : ec = .endOfStream
        · subst heof
          exact ih (after_endOfStream P hs hu) hok' hnone.2 hrest
        · have hfailed : ec.failed = false := by
            simpa [Event.isFailedRead, heof] using hok _ (.head _)
          obtain rfl := (ErrorCode.failed_eq_false ec).mp hfailed
          obtain ⟨-, v, hv, -⟩ := readDone_eq P hu
          have hfresh : (s.dropRead i).parser.complete = false := hs.1
          have hbuf : (s.dropRead i).buffer = [] := hs.2.1
          simp [parseInto, ErrorCode.failed, hfresh, hbuf, hempty] at hv
      | _ => cases he

theorem dispatched_leftovers {encode : Rq → List B} {m : Rq} {ms : List Rq} (hframed : Framed P)
    (hwf : WellFormed P encode m) {isSsl onError isOpen : Bool} {now : ℤ}
    {es : List (Event M B Rq)} {t : Session M Rq B} (hok : ∀ e ∈ es, e.isFailedRead = false)
    (hsent : es.flatMap Event.received <+: (m :: ms).flatMap encode)
    (hr : run P (init P isSsl onError isOpen now) es = some t) :
    ∃ k, t.dispatched = leftovers P m k := by
  have hstart : After P m [] 0 (init P isSsl onError isOpen now) := ⟨rfl, rfl, rfl⟩
  have hafter := after_run P hframed hwf hstart hok hsent hr
  rw [Nat.zero_add] at hafter
  refine ⟨es.countP Event.isWholeRead, ?_⟩
  cases hk : es.countP Event.isWholeRead with
  | zero =>
    rw [hk] at hafter
    exact hafter.2.2
  | succ k =>
    rw [hk] at hafter
    exact hafter.2

theorem head_leftovers {m : Rq} {k : ℕ} (hne : leftovers P m k ≠ []) :
    (leftovers P m k).head? = some m := by
  cases k with
  | zero => exact absurd rfl hne
  | succ k => simp [leftovers, List.range_succ_eq_map]

end Session

structure Wire (M Rq B : Type) where
  transfer : M → Rq
  encode : Rq → List B

def Wire.bytes {M Rq B : Type} (w : Wire M Rq B) (ms : List M) : List B :=
  (ms.map w.transfer).flatMap w.encode

structure Wire.Readable {M' M Rq B : Type} (w : Wire M Rq B) (P : Platform M' Rq B)
    (ms : List M) : Prop where
  framed : Session.Framed P
  empty : P.parse [] = none
  wellFormed : ∀ m ∈ ms, Session.WellFormed P w.encode (w.transfer m)

theorem Wire.bytes_mono {M Rq B : Type} (w : Wire M Rq B) {ms ms' : List M} (h : ms <+: ms') :
    w.bytes ms <+: w.bytes ms' := by
  obtain ⟨more, rfl⟩ := h
  rw [bytes, bytes, List.map_append, List.flatMap_append]
  exact List.prefix_append _ _

namespace Host
variable {M Rq B U Sm V : Type} (C : Setting M Rq B U Sm V)

def outgoing (i : ℕ) (h : Host M Rq B U Sm V) : List M :=
  h.sessions[i]?.elim [] fun s => s.written.map Item.message

def Event.bytes (i : ℕ) : Event M Rq B U Sm V → List B
  | .session j e => if j = i then e.received else []
  | _ => []

def Event.failsRead (i : ℕ) : Event M Rq B U Sm V → Bool
  | .session j e => j == i && e.isFailedRead
  | _ => false

theorem received_enacted (i : ℕ) (h : Host M Rq B U Sm V) (e : Event M Rq B U Sm V) :
    (h.enacted C i e).flatMap BeastRouter.Event.received = e.bytes i := by
  have hcalls (cs : List (Call M)) :
      (cs.map (@BeastRouter.Event.call M B Rq)).flatMap BeastRouter.Event.received =
        [] := by
    induction cs with
    | nil => rfl
    | cons c cs ih => exact ih
  cases e with
  | session j e =>
    simp only [enacted, Event.bytes]
    split_ifs
    · rw [List.flatMap_cons, hcalls, List.append_nil]
    · rfl
  | _ => rfl

theorem failed_enacted {i : ℕ} {h : Host M Rq B U Sm V} {e : Event M Rq B U Sm V}
    (he : e.failsRead i = false) : ∀ f ∈ h.enacted C i e, f.isFailedRead = false := by
  cases e with
  | session j e =>
    simp only [enacted]
    split_ifs with hj
    · subst hj
      intro f hf
      rcases List.mem_cons.mp hf with rfl | hf
      · simpa [Event.failsRead] using he
      · obtain ⟨c, -, rfl⟩ := List.mem_map.mp hf
        rfl
    · simp
  | _ => simp [enacted]

theorem failed_collect {i : ℕ} {es : List (Event M Rq B U Sm V)}
    (hok : ∀ e ∈ es, e.failsRead i = false) (h : Host M Rq B U Sm V) :
    ∀ f ∈ Transition.collect (step C) (enacted C i) h es, f.isFailedRead = false := by
  induction es generalizing h with
  | nil => simp [Transition.collect]
  | cons e es ih =>
    intro f hf
    rcases List.mem_append.mp hf with hf | hf
    · exact failed_enacted C (hok e (.head _)) f hf
    · cases ht : h.step C e with
      | none => simp [ht] at hf
      | some t => exact ih (fun g hg => hok g (.tail e hg)) t f (by simpa [ht] using hf)

theorem received_run {data : V} {es : List (Event M Rq B U Sm V)} {t : Host M Rq B U Sm V}
    (hr : run C (init C data) es = some t) (i : ℕ) :
    (Transition.collect (step C) (enacted C i) (init C data) es).flatMap
        BeastRouter.Event.received = es.flatMap (Event.bytes i) := by
  rw [Transition.collect_flatMap]
  simp only [received_enacted]
  exact Transition.collect_eq_flatMap (Event.bytes i) hr

theorem heard_of_some {i : ℕ} {h : Host M Rq B U Sm V} (hne : h.heard i ≠ []) :
    ∃ s, h.sessions[i]? = some s ∧ h.heard i = s.dispatched := by
  unfold heard at hne ⊢
  cases hs : h.sessions[i]? with
  | none => simp [hs] at hne
  | some s => exact ⟨s, rfl, rfl⟩

theorem heard_of_stream {encode : Rq → List B} (hframed : Session.Framed C.platform)
    (hempty : C.platform.parse [] = none) {data : V} {es : List (Event M Rq B U Sm V)}
    {t : Host M Rq B U Sm V} (hr : run C (init C data) es = some t) {i : ℕ} {ms : List Rq}
    (hok : ∀ e ∈ es, e.failsRead i = false)
    (hwf : ∀ m ∈ ms, Session.WellFormed C.platform encode m)
    (hsent : es.flatMap (Event.bytes i) <+: ms.flatMap encode) (hne : t.heard i ≠ []) :
    ∃ m, ms.head? = some m ∧ ∃ k, t.heard i = Session.leftovers C.platform m k := by
  obtain ⟨s, hs, hheard⟩ := heard_of_some hne
  obtain ⟨p, -, hrun⟩ := enacted_from_birth C (built_init C data) hr rfl hs
  have hok' := failed_collect C hok (init C data)
  rw [← received_run C hr i] at hsent
  cases ms with
  | nil =>
    have hnone := List.prefix_nil.mp hsent
    have hstart : Session.After C.platform C.platform.emptyMessage [] 0 (Born C p) :=
      ⟨rfl, rfl, rfl⟩
    rw [hheard] at hne
    exact absurd (Session.dispatched_of_no_byte C.platform hempty hstart hok' hnone hrun) hne
  | cons m ms =>
    refine ⟨m, rfl, ?_⟩
    rw [hheard]
    exact Session.dispatched_leftovers C.platform hframed (hwf m (.head _)) hok' hsent hrun

theorem head_mono {l l' : List M} {m : M} (h : l <+: l') (hm : l.head? = some m) :
    l'.head? = some m := by
  obtain ⟨more, rfl⟩ := h
  rw [List.head?_append, hm, Option.some_or]

def asked (i : ℕ) (h : Host M Rq B U Sm V) : Event M Rq B U Sm V → List M
  | .session j e => if j = i then h.sessions[i]?.elim [] fun s => s.sends e else []
  | _ => []

theorem said_eq (i : ℕ) (h : Host M Rq B U Sm V) (e : Event M Rq B U Sm V) :
    h.said C i e = h.asked i e ++ h.replied C i e := by
  cases e with
  | session j e =>
    simp only [said, asked, replied]
    split_ifs <;> rfl
  | _ => rfl

theorem said_of_not_asked (i : ℕ) (h : Host M Rq B U Sm V) (es : List (Event M Rq B U Sm V))
    (howner : Transition.collect (step C) (asked i) h es = []) :
    Transition.collect (step C) (said C i) h es =
      Transition.collect (step C) (replied C i) h es := by
  induction es generalizing h with
  | nil => rfl
  | cons e es ih =>
    rw [Transition.collect, List.append_eq_nil_iff] at howner
    rw [Transition.collect, Transition.collect, said_eq, howner.1, List.nil_append]
    cases ht : h.step C e with
    | none => rfl
    | some t =>
      rw [ht, Option.elim_some] at howner
      rw [Option.elim_some, Option.elim_some, ih t howner.2]

theorem outgoing_step {h t : Host M Rq B U Sm V} (hb : h.Built C) {e : Event M Rq B U Sm V}
    (hstep : h.step C e = some t) (i : ℕ) : h.outgoing i <+: t.outgoing i := by
  unfold outgoing
  cases hs : h.sessions[i]? with
  | none => exact List.nil_prefix
  | some s =>
    obtain ⟨u, hu, hrun⟩ := enacted_step C hb hstep hs
    rw [hu]
    exact (Session.written_run C.platform hrun).map Item.message

theorem outgoing_prefix_spoken {data : V} {es : List (Event M Rq B U Sm V)}
    {t : Host M Rq B U Sm V} (hr : run C (init C data) es = some t) (i : ℕ) :
    t.outgoing i <+: t.spoken i := by
  unfold outgoing spoken
  cases hs : t.sessions[i]? with
  | none => exact List.prefix_refl _
  | some s =>
    obtain ⟨p, -, hrun⟩ := enacted_from_birth C (built_init C data) hr rfl hs
    have hsound := Session.sound_of_run C.platform hrun
    have hstream : s.written <+: s.pushed := hsound.started_prefix
    exact hstream.map Item.message

end Host

structure Link (M N Rq Rs B : Type) where
  client : ℕ
  server : ℕ
  request : Wire M Rq B
  response : Wire N Rs B

section
variable {M N Rq Rs B U U' Sm Sm' V V' : Type}

-- `requested` and `responded` are the bytes that have come out of the connection at its ends.
structure Conversation (M N Rq Rs B U U' Sm Sm' V V' : Type) where
  client : Host M Rs B U Sm V
  server : Host N Rq B U' Sm' V'
  requested : List B
  responded : List B

namespace Conversation

def init (C : Setting M Rs B U Sm V) (D : Setting N Rq B U' Sm' V') (v : V) (w : V') :
    Conversation M N Rq Rs B U U' Sm Sm' V V' :=
  ⟨.init C v, .init D w, [], []⟩

abbrev Event (M N Rq Rs B U U' Sm Sm' V V' : Type) : Type :=
  Host.Event M Rs B U Sm V ⊕ Host.Event N Rq B U' Sm' V'

variable [DecidableEq B] (C : Setting M Rs B U Sm V) (D : Setting N Rq B U' Sm' V')
  (L : Link M N Rq Rs B)

def step (c : Conversation M N Rq Rs B U U' Sm Sm' V V') :
    Event M N Rq Rs B U U' Sm Sm' V V' → Option (Conversation M N Rq Rs B U U' Sm Sm' V V')
  | .inl e =>
    let responded := c.responded ++ e.bytes L.client
    if responded.isPrefixOf (L.response.bytes (c.server.outgoing L.server)) then
      (c.client.step C e).map fun client => { c with client := client, responded := responded }
    else none
  | .inr e =>
    let requested := c.requested ++ e.bytes L.server
    if requested.isPrefixOf (L.request.bytes (c.client.outgoing L.client)) then
      (c.server.step D e).map fun server => { c with server := server, requested := requested }
    else none

abbrev run := Transition.run (step C D L)

theorem step_inl {c d : Conversation M N Rq Rs B U U' Sm Sm' V V'} {e : Host.Event M Rs B U Sm V}
    (h : c.step C D L (.inl e) = some d) :
    c.client.step C e = some d.client ∧ d.server = c.server ∧ d.requested = c.requested ∧
      d.responded = c.responded ++ e.bytes L.client ∧
      d.responded <+: L.response.bytes (c.server.outgoing L.server) := by
  simp only [step, Option.ite_none_right_eq_some, List.isPrefixOf_iff_prefix] at h
  obtain ⟨hstream, h⟩ := h
  obtain ⟨client, hclient, rfl⟩ := Option.map_eq_some_iff.mp h
  exact ⟨hclient, rfl, rfl, rfl, hstream⟩

theorem step_inr {c d : Conversation M N Rq Rs B U U' Sm Sm' V V'}
    {e : Host.Event N Rq B U' Sm' V'} (h : c.step C D L (.inr e) = some d) :
    c.server.step D e = some d.server ∧ d.client = c.client ∧ d.responded = c.responded ∧
      d.requested = c.requested ++ e.bytes L.server ∧
      d.requested <+: L.request.bytes (c.client.outgoing L.client) := by
  simp only [step, Option.ite_none_right_eq_some, List.isPrefixOf_iff_prefix] at h
  obtain ⟨hstream, h⟩ := h
  obtain ⟨server, hserver, rfl⟩ := Option.map_eq_some_iff.mp h
  exact ⟨hserver, rfl, rfl, rfl, hstream⟩

theorem client_run {v : V} {w : V'} {es : List (Event M N Rq Rs B U U' Sm Sm' V V')}
    {c : Conversation M N Rq Rs B U U' Sm Sm' V V'} (hr : run C D L (init C D v w) es = some c) :
    Host.run C (.init C v) (es.filterMap Sum.getLeft?) = some c.client := by
  refine Transition.run_component (f := client) (fun s e t h => ?_) hr
  cases e with
  | inl e => exact (step_inl C D L h).1
  | inr e => exact (step_inr C D L h).2.1

theorem server_run {v : V} {w : V'} {es : List (Event M N Rq Rs B U U' Sm Sm' V V')}
    {c : Conversation M N Rq Rs B U U' Sm Sm' V V'} (hr : run C D L (init C D v w) es = some c) :
    Host.run D (.init D w) (es.filterMap Sum.getRight?) = some c.server := by
  refine Transition.run_component (f := server) (fun s e t h => ?_) hr
  cases e with
  | inl e => exact (step_inl C D L h).2.1
  | inr e => exact (step_inr C D L h).1

structure Carried (c : Conversation M N Rq Rs B U U' Sm Sm' V V') : Prop where
  client_built : c.client.Built C
  server_built : c.server.Built D
  requested : c.requested <+: L.request.bytes (c.client.outgoing L.client)
  responded : c.responded <+: L.response.bytes (c.server.outgoing L.server)

theorem carried_step {c d : Conversation M N Rq Rs B U U' Sm Sm' V V'}
    {e : Event M N Rq Rs B U U' Sm Sm' V V'} (hc : c.Carried C D L)
    (h : c.step C D L e = some d) : d.Carried C D L := by
  cases e with
  | inl e =>
    obtain ⟨hclient, hserver, hrequested, -, hresponded⟩ := step_inl C D L h
    have hgrown := Host.outgoing_step C hc.client_built hclient L.client
    refine ⟨Host.built_step C hc.client_built hclient, hserver ▸ hc.server_built, ?_, ?_⟩
    · exact hrequested ▸ hc.requested.trans (L.request.bytes_mono hgrown)
    · exact hserver ▸ hresponded
  | inr e =>
    obtain ⟨hserver, hclient, hresponded, -, hrequested⟩ := step_inr C D L h
    have hgrown := Host.outgoing_step D hc.server_built hserver L.server
    refine ⟨hclient ▸ hc.client_built, Host.built_step D hc.server_built hserver, ?_, ?_⟩
    · exact hclient ▸ hrequested
    · exact hresponded ▸ hc.responded.trans (L.response.bytes_mono hgrown)

theorem carried_run {v : V} {w : V'} {es : List (Event M N Rq Rs B U U' Sm Sm' V V')}
    {c : Conversation M N Rq Rs B U U' Sm Sm' V V'} (hr : run C D L (init C D v w) es = some c) :
    c.Carried C D L :=
  Transition.run_invariant (fun _ _ _ hc h => carried_step C D L hc h)
    ⟨Host.built_init C v, Host.built_init D w, List.nil_prefix, List.nil_prefix⟩ hr

theorem requested_run {v : V} {w : V'} {es : List (Event M N Rq Rs B U U' Sm Sm' V V')}
    {c : Conversation M N Rq Rs B U U' Sm Sm' V V'} (hr : run C D L (init C D v w) es = some c) :
    c.requested = (es.filterMap Sum.getRight?).flatMap (Host.Event.bytes L.server) := by
  induction es using List.reverseRecOn generalizing c with
  | nil =>
    obtain rfl := Option.some.inj hr
    rfl
  | append_singleton es e ih =>
    obtain ⟨b, hb, hstep⟩ := Transition.run_append_some.mp hr
    rw [Transition.run_singleton] at hstep
    rw [List.filterMap_append, List.flatMap_append, ← ih hb]
    cases e with
    | inl e => exact (step_inl C D L hstep).2.2.1.trans (List.append_nil _).symm
    | inr e =>
      rw [(step_inr C D L hstep).2.2.2.1]
      simp

theorem responded_run {v : V} {w : V'} {es : List (Event M N Rq Rs B U U' Sm Sm' V V')}
    {c : Conversation M N Rq Rs B U U' Sm Sm' V V'} (hr : run C D L (init C D v w) es = some c) :
    c.responded = (es.filterMap Sum.getLeft?).flatMap (Host.Event.bytes L.client) := by
  induction es using List.reverseRecOn generalizing c with
  | nil =>
    obtain rfl := Option.some.inj hr
    rfl
  | append_singleton es e ih =>
    obtain ⟨b, hb, hstep⟩ := Transition.run_append_some.mp hr
    rw [Transition.run_singleton] at hstep
    rw [List.filterMap_append, List.flatMap_append, ← ih hb]
    cases e with
    | inl e =>
      rw [(step_inl C D L hstep).2.2.2.1]
      simp
    | inr e => exact (step_inr C D L hstep).2.2.1.trans (List.append_nil _).symm

def failsRead : Event M N Rq Rs B U U' Sm Sm' V V' → Bool
  | .inl e => e.failsRead L.client
  | .inr e => e.failsRead L.server

theorem server_heard {v : V} {w : V'} {es : List (Event M N Rq Rs B U U' Sm Sm' V V')}
    {c : Conversation M N Rq Rs B U U' Sm Sm' V V'} (hr : run C D L (init C D v w) es = some c)
    (hreadable : L.request.Readable D.platform (c.client.outgoing L.client))
    (hok : ∀ e ∈ es, failsRead L e = false) (hne : c.server.heard L.server ≠ []) :
    ∃ q, (c.client.outgoing L.client).head? = some q ∧
      ∃ k, c.server.heard L.server = Session.leftovers D.platform (L.request.transfer q) k := by
  have hsent := (carried_run C D L hr).requested
  rw [requested_run C D L hr] at hsent
  have hok' (e : Host.Event N Rq B U' Sm' V') (he : e ∈ es.filterMap Sum.getRight?) :
      e.failsRead L.server = false := by
    obtain ⟨f, hf, hright⟩ := List.mem_filterMap.mp he
    obtain rfl := Sum.getRight?_eq_some_iff.mp hright
    exact hok _ hf
  obtain ⟨m, hm, hk⟩ := Host.heard_of_stream D hreadable.framed hreadable.empty
    (server_run C D L hr) hok' (List.forall_mem_map.mpr hreadable.wellFormed) hsent hne
  rw [List.head?_map, Option.map_eq_some_iff] at hm
  obtain ⟨q, hq, rfl⟩ := hm
  exact ⟨q, hq, hk⟩

theorem client_heard {v : V} {w : V'} {es : List (Event M N Rq Rs B U U' Sm Sm' V V')}
    {c : Conversation M N Rq Rs B U U' Sm Sm' V V'} (hr : run C D L (init C D v w) es = some c)
    (hreadable : L.response.Readable C.platform (c.server.outgoing L.server))
    (hok : ∀ e ∈ es, failsRead L e = false) (hne : c.client.heard L.client ≠ []) :
    ∃ r, (c.server.outgoing L.server).head? = some r ∧
      ∃ k, c.client.heard L.client = Session.leftovers C.platform (L.response.transfer r) k := by
  have hsent := (carried_run C D L hr).responded
  rw [responded_run C D L hr] at hsent
  have hok' (e : Host.Event M Rs B U Sm V) (he : e ∈ es.filterMap Sum.getLeft?) :
      e.failsRead L.client = false := by
    obtain ⟨f, hf, hleft⟩ := List.mem_filterMap.mp he
    obtain rfl := Sum.getLeft?_eq_some_iff.mp hleft
    exact hok _ hf
  obtain ⟨m, hm, hk⟩ := Host.heard_of_stream C hreadable.framed hreadable.empty
    (client_run C D L hr) hok' (List.forall_mem_map.mpr hreadable.wellFormed) hsent hne
  rw [List.head?_map, Option.map_eq_some_iff] at hm
  obtain ⟨r, hr', rfl⟩ := hm
  exact ⟨r, hr', hk⟩

theorem first_answer (v : V) (w : V')
    (es : List (Event M N Rq Rs B U U' Sm Sm' V V'))
    (c : Conversation M N Rq Rs B U U' Sm Sm' V V') (hr : run C D L (init C D v w) es = some c)
    (hrequests : L.request.Readable D.platform (c.client.outgoing L.client))
    (hresponses : L.response.Readable C.platform (c.server.outgoing L.server))
    (hok : ∀ e ∈ es, failsRead L e = false)
    (howner : Transition.collect (Host.step D) (Host.asked L.server) (.init D w)
      (es.filterMap Sum.getRight?) = [])
    (hne : c.client.heard L.client ≠ []) :
    let exchanged := Transition.collect (Host.step D) (Host.exchanged D L.server) (.init D w)
      (es.filterMap Sum.getRight?)
    ∃ q r, (c.client.spoken L.client).head? = some q ∧
      c.server.heard L.server = exchanged.map Prod.fst ∧
      (c.server.heard L.server).head? = some (L.request.transfer q) ∧
      (exchanged.flatMap Prod.snd).head? = some r ∧
      (c.client.heard L.client).head? = some (L.response.transfer r) := by
  intro exchanged
  obtain ⟨r, hr', k, hclient⟩ := client_heard C D L hr hresponses hok hne
  have hserver := server_run C D L hr
  have hgiven : c.server.heard L.server = exchanged.map Prod.fst :=
    Host.heard_run D hserver L.server
  have hspoken : (c.server.spoken L.server).head? = some r :=
    Host.head_mono (Host.outgoing_prefix_spoken D hserver L.server) hr'
  rw [Host.spoken_run D hserver, Host.said_of_not_asked D L.server _ _ howner,
    Host.replied_run] at hspoken
  have hheard : c.server.heard L.server ≠ [] := by
    intro hnil
    rw [hgiven, List.map_eq_nil_iff] at hnil
    rw [show Transition.collect (Host.step D) (Host.exchanged D L.server) (.init D w)
      (es.filterMap Sum.getRight?) = [] from hnil] at hspoken
    cases hspoken
  obtain ⟨q, hq, j, hleft⟩ := server_heard C D L hr hrequests hok hheard
  refine ⟨q, r, ?_, hgiven, ?_, hspoken, ?_⟩
  · exact Host.head_mono (Host.outgoing_prefix_spoken C (client_run C D L hr) L.client) hq
  · rw [hleft] at hheard ⊢
    exact Session.head_leftovers D.platform hheard
  · rw [hclient] at hne ⊢
    exact Session.head_leftovers C.platform hne

end Conversation
end

namespace Conversation

abbrev Token : Type := (Verb × String) ⊕ StringResponse

theorem framed_sample {M Rq B : Type} (blank : Rq) (method : Rq → Verb) (target : Rq → String)
    (response : StringResponse → M) (read : B → Option Rq) (isRequest : Bool) :
    Session.Framed (Setting.sample blank method target response read isRequest).platform := by
  intro bs m rest more h
  cases bs with
  | nil => cases h
  | cons b bs =>
    obtain ⟨m', hread, heq⟩ := Option.map_eq_some_iff.mp h
    obtain ⟨rfl, rfl⟩ := Prod.mk.inj heq
    exact Option.map_eq_some_iff.mpr ⟨m', hread, rfl⟩

def sampleAsker : Setting (Verb × String) StringResponse Token Unit Unit Unit :=
  .sample ⟨0, 0, "", ""⟩ (fun _ => .unknown) (fun _ => "") (fun _ => (.unknown, ""))
    Sum.getRight? false

def sampleAnswerer : Setting StringResponse (Verb × String) Token Unit Unit Unit :=
  .sample (.unknown, "") Prod.fst Prod.snd id Sum.getLeft? true

def sampleLink : Link (Verb × String) StringResponse (Verb × String) StringResponse Token :=
  ⟨0, 0, ⟨id, fun request => [.inl request]⟩, ⟨id, fun response => [.inr response]⟩⟩

def sampleGreeting : StringResponse := ⟨200, 11, "Hello", "text/html"⟩

def sampleExchange : List (Event (Verb × String) StringResponse (Verb × String) StringResponse
    Token Unit Unit Unit Unit Unit Unit) :=
  [.inr (.register (.get "a"
      ⟨[⟨.plain (.lambda .void), .void, rfl, .contextOnly fun s =>
        ((), s.1, { s.2 with calls := s.2.calls ++ [.send sampleGreeting] })⟩], by simp⟩)),
    .inr (.initContext false true true 0), .inr (.session 0 (.call .recv)),
    .inl (.initContext false true true 0),
    .inl (.register (.handleResponse
      ⟨[⟨.plain (.lambda .void), .void, rfl, .contextOnly fun s => ((), s)⟩], by simp⟩)),
    .inl (.session 0 (.call (.send (.get, "a")))), .inl (.session 0 (.call .recv)),
    .inr (.session 0 (.readCompleted 0 .success [.inl (.get, "a")] (.unknown, ""))),
    .inl (.session 0 (.readCompleted 0 .success [.inr sampleGreeting] ⟨0, 0, "", ""⟩))]

theorem first_answer_greeting :
    ∃ c, run sampleAsker sampleAnswerer sampleLink (init sampleAsker sampleAnswerer () ())
        sampleExchange = some c ∧
      (c.server.heard 0).head? = some (.get, "a") ∧
      (c.client.heard 0).head? = some sampleGreeting := by
  refine ⟨_, rfl, ?_⟩
  have hanswer := first_answer sampleAsker sampleAnswerer sampleLink () () sampleExchange _ rfl
    ⟨framed_sample _ _ _ _ _ _, rfl, fun _ _ _ => rfl⟩
    ⟨framed_sample _ _ _ _ _ _, rfl, fun _ _ _ => rfl⟩ (by decide) rfl (by decide)
  obtain ⟨q, r, hall⟩ := hanswer
  have hgiven : r = sampleGreeting := (Option.some.inj hall.2.2.2.1).symm
  have hsent : q = (.get, "a") := (Option.some.inj hall.1).symm
  exact ⟨hall.2.2.1.trans (congrArg some hsent), hall.2.2.2.2.trans (congrArg some hgiven)⟩
end Conversation
end BeastRouter
