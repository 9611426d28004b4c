import Mathlib.Data.List.InsertIdx
import BeastRouter.Foundation.SingleServer
import BeastRouter.Session.Frame

namespace BeastRouter.Session
open SingleServer (Station)
variable {M Rq B : Type} (P : Platform M Rq B)

def station (s : Session M Rq B) : Station (Item M) where
  queue := s.queue
  serving := s.writes.map Write.item
  current := s.serializer
  arrived := s.pushed
  started := s.written
  underflows := s.underflows

theorem Control.station_eq {timer : Timer} {timedOut : Bool} {s t : Session M Rq B}
    (h : Control timer timedOut s t) : t.station = s.station := by
  obtain ⟨shutdowns, as, has, rfl⟩ := h
  have hpushed : as.filterMap Action.asPush = [] :=
    List.filterMap_eq_nil_iff.mpr fun a ha => (inert_of_isControl (has a ha)).1
  have hwritten : as.filterMap Action.asWrite = [] :=
    List.filterMap_eq_nil_iff.mpr fun a ha => (inert_of_isControl (has a ha)).2.1
  have hpops : as.countP Action.isPopEmpty = 0 :=
    List.countP_eq_zero.mpr fun a ha =>
      Bool.eq_false_iff.mp (inert_of_isControl (has a ha)).2.2.2
  simp [station, pushed, written, underflows, hpushed, hwritten, hpops]

theorem station_emit {a : Action M Rq} (hpush : a.asPush = none) (hwrite : a.asWrite = none)
    (hpop : a.isPopEmpty = false) (s : Session M Rq B) : (s.emit a).station = s.station := by
  simp only [station, emit, pushed, written, underflows, List.filterMap_append,
    List.filterMap_cons, hpush, hwrite, List.filterMap_nil, List.append_nil, List.countP_append,
    List.countP_singleton, hpop, Bool.false_eq_true, if_false, Nat.add_zero]

theorem station_doRead (d : Option ℤ) (s : Session M Rq B) :
    (s.doRead d).station = s.station := station_emit rfl rfl rfl _

theorem station_doHandshake (f : List (Call M)) (d : Option ℤ) (s : Session M Rq B) :
    (s.doHandshake f d).station = s.station := station_emit rfl rfl rfl _

theorem station_onRead (ec : ErrorCode) (s : Session M Rq B) :
    (s.onRead P ec).station = s.station := by
  obtain ⟨u, hu, heq⟩ := onRead_eq P ec s
  rw [heq, ← hu.station_eq]
  split_ifs
  · rfl
  · exact station_emit rfl rfl rfl _

theorem station_doWrite (item : Item M) (s : Session M Rq B) :
    (s.doWrite P item).station = s.station.start item := by
  simp [station, doWrite, emit, Station.start, pushed, written, underflows]

theorem station_enqueue (message : M) (deadline : Option ℤ) (s : Session M Rq B) :
    (s.enqueue P message deadline).station =
      s.station.arrive ⟨s.allocated, message, deadline⟩ := by
  cases hq : s.queue with
  | nil =>
    simp only [enqueue, hq, ConnQueue.push_nil, handled, station_doWrite]
    simp [station, emit, Station.arrive, Station.startFront, hq, pushed, written, underflows,
      List.filterMap_cons]
  | cons x items =>
    simp only [enqueue, hq, ConnQueue.push_cons, handled]
    simp [station, emit, Station.arrive, hq, pushed, written, underflows]

theorem station_queueOnWrite (s : Session M Rq B) :
    (s.queueOnWrite P).station = s.station.advance := by
  cases hq : s.queue with
  | nil => simp [queueOnWrite, hq, ConnQueue.onWrite, station, emit, Station.advance, pushed,
      written, underflows]
  | cons x items =>
    simp only [queueOnWrite, hq, ConnQueue.onWrite_cons]
    cases items with
    | nil => simp [handled, station, Station.advance, Station.startFront, hq, pushed, written,
        underflows]
    | cons y items =>
      simp only [handled, List.head?_cons, station_doWrite]
      simp [station, Station.advance, Station.startFront, hq, pushed, written, underflows]

def returnsEarly (s : Session M Rq B) : Event M B Rq → Bool
  | .writeCompleted i ec =>
    ec == .endOfStream || (ec.failed && s.onError) || s.writes[i]?.any (·.close)
  | _ => false

theorem station_onWrite (ec : ErrorCode) (close : Bool) (s : Session M Rq B) :
    (s.onWrite P ec close).station =
      if ec == .endOfStream || (ec.failed && s.onError) || close then s.station
      else s.station.advance := by
  obtain ⟨u, hu, heq⟩ := onWrite_eq P ec close s
  rw [heq, ← hu.station_eq]
  split_ifs
  · rfl
  · exact station_queueOnWrite P u

def arrivals (s : Session M Rq B) : Call M → List (SingleServer.Event (Item M))
  | .send message => [.arrive ⟨s.allocated, message, none⟩]
  | .sendFor message duration => [.arrive ⟨s.allocated, message, some (s.now + duration)⟩]
  | _ => []

theorem station_call (c : Call M) (s : Session M Rq B) :
    Transition.run Station.step s.station (arrivals s c) = some (s.call P c).station := by
  cases c with
  | recv => simp [arrivals, call, recv, station_doRead]
  | recvFor d => simp [arrivals, call, recvFor, station_doRead, (control_doTimer d s).station_eq]
  | send m => simp [arrivals, Transition.run, Station.step, call, send, station_enqueue]
  | sendFor m d =>
    have hd : (s.doTimer d).allocated = s.allocated := rfl
    simp [arrivals, Transition.run, Station.step, call, sendFor, station_enqueue, hd,
      (control_doTimer d s).station_eq]

def arrivalsOf (P : Platform M Rq B) :
    Session M Rq B → List (Call M) → List (SingleServer.Event (Item M))
  | _, [] => []
  | s, c :: func => arrivals s c ++ arrivalsOf P (s.call P c) func

theorem station_calls (func : List (Call M)) (s : Session M Rq B) :
    Transition.run Station.step s.station (arrivalsOf P s func) =
      some (s.calls P func).station := by
  induction func generalizing s with
  | nil => rfl
  | cons c func ih =>
    exact Transition.run_append_some.mpr ⟨_, station_call P c s, ih (s.call P c)⟩

def stationEvents (P : Platform M Rq B) (s : Session M Rq B) :
    Event M B Rq → List (SingleServer.Event (Item M))
  | .call c => arrivals s c
  | .writeCompleted i ec => if s.returnsEarly (.writeCompleted i ec) then [.halt i] else [.depart i]
  | .handshakeCompleted i .success =>
    s.handshakes[i]?.elim [] fun h => arrivalsOf P (s.dropHandshake i).cancelTimer h.func
  | _ => []

theorem station_writeCompleted {i : ℕ} {w : Write M} (ec : ErrorCode) {s : Session M Rq B}
    (hw : s.writes[i]? = some w) :
    Transition.run Station.step s.station
        (stationEvents P s (.writeCompleted i ec : Event M B Rq)) =
      some ((s.dropWrite i).onWrite P ec w.close).station := by
  have hi : i < s.station.serving.length := by
    simpa [station] using (List.getElem?_eq_some_iff.mp hw).1
  have hrelease : (s.dropWrite i).station = s.station.release i := by
    simp [station, dropWrite, Station.release, List.eraseIdx_map, pushed, written, underflows]
  have hon : (s.dropWrite i).onError = s.onError := rfl
  rw [station_onWrite, hrelease, hon, stationEvents]
  cases hearly : s.returnsEarly (.writeCompleted i ec : Event M B Rq) with
  | true =>
    have hclose : (ec == .endOfStream || (ec.failed && s.onError) || w.close) = true := by
      simpa [returnsEarly, hw] using hearly
    simp only [hclose, if_true, Transition.run_singleton, Station.step, hi]
  | false =>
    have hclose : (ec == .endOfStream || (ec.failed && s.onError) || w.close) = false := by
      simpa [returnsEarly, hw] using hearly
    simp only [hclose, Bool.false_eq_true, if_false, if_true, Transition.run_singleton,
      Station.step, hi]

theorem station_handshakeCompleted {i : ℕ} {f : Handshake M} (ec : ErrorCode)
    {s : Session M Rq B} (hf : s.handshakes[i]? = some f) :
    Transition.run Station.step s.station
        (stationEvents P s (.handshakeCompleted i ec : Event M B Rq)) =
      some ((s.dropHandshake i).handshakeDone P f.func ec).station := by
  by_cases hec : ec = .success
  · subst hec
    have hdone (u : Session M Rq B) :
        u.handshakeDone P f.func .success = u.cancelTimer.calls P f.func := by
      simp [handshakeDone, onHandshake_success, ErrorCode.failed]
    have hcalls := station_calls P f.func (s.dropHandshake i).cancelTimer
    rw [(control_cancelTimer _).station_eq] at hcalls
    rw [hdone, stationEvents, hf, Option.elim_some]
    exact hcalls
  · have hfailed : ec.failed = true := ec.failed_iff.mpr hec
    have hnone : stationEvents P s (.handshakeCompleted i ec : Event M B Rq) = [] := by
      cases ec <;> simp_all [stationEvents]
    rw [hnone, handshakeDone, if_pos hfailed, (control_onHandshake P ec _).station_eq]
    rfl

theorem station_step {s t : Session M Rq B} {e : Event M B Rq} (h : s.step P e = some t) :
    Transition.run Station.step s.station (stationEvents P s e) = some t.station := by
  cases moves_of_step P h with
  | call c => exact station_call P c s
  | handshake func =>
    rw [station_doHandshake]
    rfl
  | handshakeFor func d =>
    rw [doHandshakeFor, station_doHandshake, (control_expiresFromNow d s).station_eq]
    rfl
  | readCompleted i ec received partialMessage u hu =>
    rw [station_onRead, parseInto_eq P hu]
    rfl
  | writeCompleted i ec w hw => exact station_writeCompleted P ec hw
  | handshakeCompleted i ec f hf => exact station_handshakeCompleted P ec hf
  | waitCompleted i t ht =>
    rw [(control_waitDone P ht).station_eq]
    rfl
  | elapse ticks => rfl
  | closeSocket => rfl

theorem sends_eq (s : Session M Rq B) (e : Event M B Rq) :
    ((stationEvents P s e).flatMap SingleServer.Event.items).map Item.message = s.sends e := by
  have harrivals (s : Session M Rq B) (c : Call M) :
      ((arrivals s c).flatMap SingleServer.Event.items).map Item.message = c.messages := by
    cases c <;> rfl
  have hcalls (func : List (Call M)) (s : Session M Rq B) :
      ((arrivalsOf P s func).flatMap SingleServer.Event.items).map Item.message =
        func.flatMap Call.messages := by
    induction func generalizing s with
    | nil => rfl
    | cons c func ih =>
      rw [arrivalsOf, List.flatMap_append, List.map_append, harrivals s c, ih, List.flatMap_cons]
  cases e with
  | call c => exact harrivals s c
  | writeCompleted i ec =>
    simp only [stationEvents, sends]
    split_ifs <;> rfl
  | handshakeCompleted i ec =>
    cases ec with
    | success =>
      simp only [stationEvents, sends]
      cases s.handshakes[i]? with
      | none => rfl
      | some h => exact hcalls h.func _
    | _ => rfl
  | _ => rfl

theorem pushed_step {s t : Session M Rq B} {e : Event M B Rq} (h : s.step P e = some t) :
    t.pushed.map Item.message = s.pushed.map Item.message ++ s.sends e := by
  have harrived : t.pushed = s.pushed ++ (stationEvents P s e).flatMap SingleServer.Event.items :=
    Station.arrived_run (station_step P h)
  rw [harrived, List.map_append, sends_eq]

theorem sound_of_step {s t : Session M Rq B} {e : Event M B Rq} (hs : s.station.Sound)
    (h : s.step P e = some t) : t.station.Sound :=
  Transition.run_invariant Station.sound_step hs (station_step P h)

theorem sound_of_run {isSsl onError isOpen : Bool} {now : ℤ} {es : List (Event M B Rq)}
    {t : Session M Rq B} (hr : run P (init P isSsl onError isOpen now) es = some t) :
    t.station.Sound := by
  obtain ⟨fs, hfs⟩ := Transition.run_refines (fun s e u hu => ⟨_, station_step P hu⟩) hr
  exact Station.sound_run hfs

theorem written_of_underway {isSsl onError isOpen : Bool} {now : ℤ} {es : List (Event M B Rq)}
    {t : Session M Rq B} (hr : run P (init P isSsl onError isOpen now) es = some t)
    {w : Write M} (hw : w ∈ t.writes) : w.item ∈ t.written := by
  obtain ⟨fs, hfs⟩ := Transition.run_refines (fun s e u hu => ⟨_, station_step P hu⟩) hr
  have hserving : t.station.serving ⊆ t.station.started :=
    Transition.run_invariant Station.serving_step (List.nil_subset _) hfs
  exact hserving (List.mem_map_of_mem hw)

theorem written_of_one {isSsl onError isOpen : Bool} {now : ℤ} {es : List (Event M B Rq)}
    {t : Session M Rq B} (hr : run P (init P isSsl onError isOpen now) es = some t)
    (hone : t.pushed.length ≤ 1) : t.written = t.pushed := by
  obtain ⟨fs, hfs⟩ := Transition.run_refines (fun s e u hu => ⟨_, station_step P hu⟩) hr
  have hprompt : t.station.Prompt :=
    Transition.run_invariant Station.prompt_step ⟨fun _ => rfl, fun h => absurd rfl h⟩ hfs
  have hsound := sound_of_run P hr
  have hsent : t.written <+: t.pushed := hsound.started_prefix
  refine hsent.eq_of_length_le ?_
  by_cases hnone : t.pushed = []
  · simp [hnone]
  · have hpos := List.length_pos_iff.mpr (hprompt.2 hnone)
    exact Nat.le_trans hone hpos

theorem stationEvents_arrive {s : Session M Rq B} {e : Event M B Rq}
    (he : ∀ i ec, e ≠ .writeCompleted i ec) :
    ∀ f ∈ stationEvents P s e, ∃ x, f = .arrive x := by
  have harrivals (s : Session M Rq B) (c : Call M) :
      ∀ f ∈ arrivals s c, ∃ x, f = .arrive x := by
    cases c <;> simp [arrivals]
  have hcalls (func : List (Call M)) (s : Session M Rq B) :
      ∀ f ∈ arrivalsOf P s func, ∃ x, f = .arrive x := by
    induction func generalizing s with
    | nil => simp [arrivalsOf]
    | cons c func ih =>
      intro f hf
      rcases List.mem_append.mp hf with hf | hf
      · exact harrivals s c f hf
      · exact ih (s.call P c) f hf
  cases e with
  | call c => exact harrivals s c
  | writeCompleted i ec => exact absurd rfl (he i ec)
  | handshakeCompleted i ec =>
    cases ec with
    | success =>
      cases hi : s.handshakes[i]? with
      | none => simp [stationEvents, hi]
      | some h =>
        simp only [stationEvents, hi, Option.elim_some]
        exact hcalls h.func _
    | _ => simp [stationEvents]
  | _ => simp [stationEvents]

theorem stationEvents_not_halt {s : Session M Rq B} {e : Event M B Rq}
    (hearly : s.returnsEarly e = false) : ∀ f ∈ stationEvents P s e, f.isHalt = false := by
  intro f hf
  by_cases he : ∃ i ec, e = .writeCompleted i ec
  · obtain ⟨i, ec, rfl⟩ := he
    rw [stationEvents, hearly] at hf
    rw [List.mem_singleton.mp hf]
    rfl
  · obtain ⟨x, rfl⟩ := stationEvents_arrive P (fun i ec h => he ⟨i, ec, h⟩) f hf
    rfl

theorem sound_busy_of_step {s t : Session M Rq B} {e : Event M B Rq}
    (hs : s.station.Sound ∧ s.station.Busy) (hearly : s.returnsEarly e = false)
    (h : s.step P e = some t) : t.station.Sound ∧ t.station.Busy :=
  Station.sound_busy_run hs (stationEvents_not_halt P hearly) (station_step P h)

theorem outgoing_fifo (isSsl onError isOpen : Bool) (now : ℤ) (es : List (Event M B Rq))
    (t : Session M Rq B) (hr : run P (init P isSsl onError isOpen now) es = some t) :
    t.writes.length ≤ 1 ∧
    (∀ w ∈ t.writes, t.queue.head? = some w.item ∧ t.serializer = some w.item) ∧
    t.underflows = 0 ∧
    t.written <+: t.pushed ∧
    t.pushed.map Item.message =
      Transition.collect (step P) sends (init P isSsl onError isOpen now) es ∧
    (Transition.Along (step P) (fun s e _ => s.returnsEarly e = false)
        (init P isSsl onError isOpen now) es →
      (t.queue ≠ [] ↔ t.writes ≠ [])) := by
  have hsound := sound_of_run P hr
  refine ⟨?_, ?_, hsound.no_underflow, hsound.started_prefix, ?_, ?_⟩
  · simpa [station] using hsound.one_at_a_time
  · intro w hw
    exact hsound.serves_front w.item (List.mem_map_of_mem hw)
  · exact Transition.collect_eq (fun s e u hu => pushed_step P hu) hr
  · intro hearly
    have hempty : (init P isSsl onError isOpen now).station.Busy := by
      simp [Station.Busy, station, init]
    have hbusy : t.station.Sound ∧ t.station.Busy :=
      Transition.run_invariant_along (I := fun s => s.station.Sound ∧ s.station.Busy)
        (P := fun s e _ => s.returnsEarly e = false)
        (fun s e u hs he hu => sound_busy_of_step P hs he hu)
        ⟨Station.sound_empty, hempty⟩ hearly hr
    simpa [Station.Busy, station] using hbusy.2

theorem outgoing_fifo_two_sends :
    ∃ t, run .sample (init .sample false true true 0)
        [.call (.send 7), .call (.sendFor 8 5), .writeCompleted 0 .success] = some t ∧
      t.writes.length ≤ 1 ∧ t.written <+: t.pushed ∧ t.pushed.map Item.message = [7, 8] := by
  refine ⟨_, rfl, ?_⟩
  have h := outgoing_fifo .sample false true true 0
    [.call (.send 7), .call (.sendFor 8 5), .writeCompleted 0 .success] _ rfl
  exact ⟨h.1, h.2.2.2.1, h.2.2.2.2.1⟩

end BeastRouter.Session
