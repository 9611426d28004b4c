import BeastRouter.Session.Terminal

namespace BeastRouter

def Event.goesOn {M B Rq : Type} (onError : Bool) : Event M B Rq → Bool
  | .writeCompleted _ ec => ec != .endOfStream && !(ec.failed && onError)
  | _ => true

namespace Session
open SingleServer (Station upTo)
variable {M Rq B : Type} (P : Platform M Rq B)

theorem written_run {s t : Session M Rq B} {es : List (Event M B Rq)} (hr : run P s es = some t) :
    s.written <+: t.written := by
  obtain ⟨fs, hfs⟩ := Transition.run_refines (fun s e u hu => ⟨_, station_step P hu⟩) hr
  exact SingleServer.Station.started_run_mono hfs

def final (item : Item M) : Bool := P.needEof item.message

theorem returnsEarly_iff_close {s : Session M Rq B} {i : ℕ} {ec : ErrorCode} {w : Write M}
    (hw : s.writes[i]? = some w)
    (hec : (.writeCompleted i ec : Event M B Rq).goesOn s.onError = true) :
    s.returnsEarly (.writeCompleted i ec : Event M B Rq) = w.close := by
  simp only [Event.goesOn, Bool.and_eq_true, bne_iff_ne, ne_eq, Bool.not_eq_true'] at hec
  simp [returnsEarly, hw, hec.1, hec.2]

theorem stationEvents_obey {s : Session M Rq B} {e : Event M B Rq} (hs : s.Marked P)
    (he : e.goesOn s.onError = true) :
    Transition.Along Station.step (fun st f _ => st.obeys (final P) f) s.station
      (stationEvents P s e) := by
  by_cases hwrite : ∃ i ec, e = .writeCompleted i ec
  · obtain ⟨i, ec, rfl⟩ := hwrite
    have hitem {x : Item M} (hx : s.station.serving[i]? = some x) :
        s.returnsEarly (.writeCompleted i ec : Event M B Rq) = final P x := by
      rw [station, List.getElem?_map] at hx
      obtain ⟨w, hw, rfl⟩ := Option.map_eq_some_iff.mp hx
      rw [returnsEarly_iff_close hw he]
      exact hs w (List.mem_of_getElem? hw)
    rw [stationEvents]
    split_ifs with hearly
    · exact fun u _ => ⟨fun x hx => hitem hx ▸ hearly, trivial⟩
    · exact fun u _ => ⟨fun x hx => hitem hx ▸ Bool.eq_false_iff.mpr hearly, trivial⟩
  · have harrive := stationEvents_arrive P (s := s) fun i ec heq => hwrite ⟨i, ec, heq⟩
    refine (Transition.along_of_mem harrive s.station).imp ?_
    rintro st f u ⟨x, rfl⟩
    trivial

theorem phase_step {s t : Session M Rq B} {e : Event M B Rq} (hs : s.Marked P)
    (he : e.goesOn s.onError = true) (hphase : s.station.Phase (final P))
    (h : s.step P e = some t) : t.station.Phase (final P) :=
  Transition.run_invariant_along Station.phase_step hphase (stationEvents_obey P hs he)
    (station_step P h)

theorem phase_run {s t : Session M Rq B} {es : List (Event M B Rq)} (hs : s.Marked P)
    (hes : ∀ e ∈ es, e.goesOn s.onError = true) (hphase : s.station.Phase (final P))
    (hr : run P s es = some t) : t.station.Phase (final P) := by
  induction es generalizing s with
  | nil => exact Option.some.inj hr ▸ hphase
  | cons e es ih =>
    obtain ⟨u, hu, hr⟩ := Transition.run_cons.mp hr
    refine ih (marked_step P hs hu) ?_ (phase_step P hs (hes e (.head es)) hphase hu) hr
    rw [onError_step P hu]
    exact fun f hf => hes f (.tail e hf)

theorem written_of_run {isSsl onError isOpen : Bool} {now : ℤ} {es : List (Event M B Rq)}
    (hes : ∀ e ∈ es, e.goesOn onError = true) {t : Session M Rq B}
    (hr : run P (init P isSsl onError isOpen now) es = some t) :
    t.written <+: upTo (final P) t.pushed ∧
      (t.writes = [] → t.written = upTo (final P) t.pushed) := by
  have hmarked : (init P isSsl onError isOpen now).Marked P := nofun
  have hphase : (init P isSsl onError isOpen now).station.Phase (final P) := .idle rfl rfl nofun
  have hwire := Station.started_of_phase (sound_of_run P hr) (phase_run P hmarked hes hphase hr)
  exact ⟨hwire.1, fun hidle => hwire.2 (List.map_eq_nil_iff.mpr hidle)⟩

theorem pushed_of_run {isSsl onError isOpen : Bool} {now : ℤ} {es : List (Event M B Rq)}
    {t : Session M Rq B} (hr : run P (init P isSsl onError isOpen now) es = some t) :
    t.pushed.map Item.message =
      Transition.collect (step P) sends (init P isSsl onError isOpen now) es :=
  Transition.collect_eq (fun _ _ _ h => pushed_step P h) hr

theorem wire_upTo (isSsl onError isOpen : Bool) (now : ℤ) (es : List (Event M B Rq))
    (hes : ∀ e ∈ es, e.goesOn onError = true) (t : Session M Rq B)
    (hr : run P (init P isSsl onError isOpen now) es = some t) :
    let sent := Transition.collect (step P) sends (init P isSsl onError isOpen now) es
    t.written.map Item.message <+: upTo P.needEof sent ∧
      (t.writes = [] → t.written.map Item.message = upTo P.needEof sent) := by
  intro sent
  have hsent : sent = t.pushed.map Item.message := (pushed_of_run P hr).symm
  obtain ⟨hstarted, hall⟩ := written_of_run P hes hr
  rw [hsent, SingleServer.upTo_map]
  exact ⟨hstarted.map Item.message, fun hidle => congrArg (List.map Item.message) (hall hidle)⟩

theorem wire_upTo_three_sends :
    ∃ t, run .sample (init .sample false true true 0)
        [.call (.send 7), .call (.send 0), .call (.send 8), .writeCompleted 0 .success,
          .writeCompleted 0 .success] = some t ∧
      t.written.map Item.message = [7, 0] ∧ t.pushed.map Item.message = [7, 0, 8] := by
  refine ⟨_, rfl, ?_, rfl⟩
  exact (wire_upTo .sample false true true 0
    [.call (.send 7), .call (.send 0), .call (.send 8), .writeCompleted 0 .success,
      .writeCompleted 0 .success] (by decide) _ rfl).2 rfl

end Session
end BeastRouter
