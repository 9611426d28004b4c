import BeastRouter.Session.Reads
import BeastRouter.Session.Shutdown
import BeastRouter.Session.WriteQueue

namespace BeastRouter

def Event.endsOtherwise {M B Rq : Type} : Event M B Rq → Bool
  | readCompleted _ ec _ _ => ec == .endOfStream
  | writeCompleted _ ec => ec == .endOfStream
  | handshakeCompleted _ ec => ec == .endOfStream
  | waitCompleted _ => true
  | _ => false

namespace Session
open SingleServer (Station)
variable {M Rq B : Type} (P : Platform M Rq B)

def completed (s : Session M Rq B) : Event M B Rq → List (Item M)
  | .writeCompleted i .success => (s.writes[i]?.map Write.item).toList
  | _ => []

def Marked (s : Session M Rq B) : Prop := ∀ w ∈ s.writes, w.close = P.needEof w.item.message

theorem marked_step {s t : Session M Rq B} {e : Event M B Rq} (hs : s.Marked P)
    (h : s.step P e = some t) : t.Marked P := by
  have hreleased : ∀ w ∈ (s.released e).writes, w ∈ s.writes := by
    cases e with
    | writeCompleted i ec => exact fun w hw => List.mem_of_mem_eraseIdx hw
    | _ => exact fun w hw => hw
  cases he : e.isHandshake with
  | false =>
    intro w hw
    rcases (extends_step P he h).writes w hw with hw | hclose
    · exact hs w (hreleased w hw)
    · exact hclose
  | true =>
    cases moves_of_step P h with
    | handshake func => exact hs
    | handshakeFor func d => exact hs
    | _ => cases he

theorem station_returnsEarly {s t : Session M Rq B} {i : ℕ} {ec : ErrorCode}
    (he : s.returnsEarly (.writeCompleted i ec : Event M B Rq) = true)
    (h : s.step P (.writeCompleted i ec) = some t) :
    i < s.station.serving.length ∧ t.station = s.station.release i := by
  have hstation := station_step P h
  rw [stationEvents, if_pos he, Transition.run_singleton] at hstation
  simp only [Station.step, Option.ite_none_right_eq_some, Option.some.injEq] at hstation
  exact ⟨hstation.1, hstation.2.symm⟩

theorem halted_step {s t : Session M Rq B} {e : Event M B Rq} (hs : s.station.Sound)
    (he : s.returnsEarly e = true) (h : s.step P e = some t) : t.station.Halted := by
  cases e with
  | writeCompleted i ec =>
    obtain ⟨hi, hstation⟩ := station_returnsEarly P he h
    exact hstation ▸ Station.halted_release hs hi
  | _ => cases he

theorem departures_arrivals {s : Session M Rq B} {e : Event M B Rq}
    (he : ∀ i ec, e ≠ .writeCompleted i ec) (st : Station (Item M)) :
    Transition.collect Station.step Station.departures st (stationEvents P s e) = [] := by
  refine Transition.collect_eq_nil (fun f hf u => ?_) st
  obtain ⟨x, rfl⟩ := stationEvents_arrive P he f hf
  rfl

theorem departures_eq {s : Session M Rq B} {e : Event M B Rq} (hon : s.onError = true)
    (he : s.returnsEarly e = false) {t : Session M Rq B} (h : s.step P e = some t) :
    Transition.collect Station.step Station.departures s.station (stationEvents P s e) =
      s.completed e := by
  cases e with
  | writeCompleted i ec =>
    have hec : ec = .success := by
      simp only [returnsEarly, hon, Bool.and_true, Bool.or_eq_false_iff] at he
      exact (ErrorCode.failed_eq_false ec).mp he.1.2
    subst hec
    obtain ⟨w, hw, -⟩ := Option.map_eq_some_iff.mp h
    have hserving : s.station.serving[i]? = some w.item := by simp [station, hw]
    rw [stationEvents, if_neg (Bool.eq_false_iff.mp he)]
    have hrest : (s.station.step (.depart i)).elim []
        (fun st => Transition.collect Station.step Station.departures st []) = [] := by
      cases s.station.step (.depart i) <;> rfl
    rw [Transition.collect, hrest, Station.departures, hserving]
    simp [completed, hw]
  | handshakeCompleted i ec =>
    rw [departures_arrivals P (by simp)]
    rfl
  | _ =>
    rw [departures_arrivals P (by simp)]
    rfl

def Ledger (done : List (Item M)) (s : Session M Rq B) : Prop :=
  s.station.Halted ∨ s.written = done ++ s.station.serving

theorem ledger_step {s t : Session M Rq B} {e : Event M B Rq} {done : List (Item M)}
    (hon : s.onError = true) (hsound : s.station.Sound) (hs : s.Ledger done)
    (h : s.step P e = some t) : t.Ledger (done ++ s.completed e) := by
  have hstation := station_step P h
  rcases hs with hhalted | hdone
  · exact .inl (Station.halted_run hhalted hstation).1
  · cases he : s.returnsEarly e with
    | true => exact .inl (halted_step P hsound he h)
    | false =>
      have hstarted := Station.started_run hsound (stationEvents_not_halt P he) hdone hstation
      rw [departures_eq P hon he h] at hstarted
      exact .inr hstarted

theorem ledger_run {es : List (Event M B Rq)} {s t : Session M Rq B} {done : List (Item M)}
    (hon : s.onError = true) (hsound : s.station.Sound) (hs : s.Ledger done)
    (hr : run P s es = some t) :
    t.Ledger (done ++ Transition.collect (step P) completed s es) := by
  induction es generalizing s done with
  | nil =>
    obtain rfl := Option.some.inj hr
    simpa [Transition.collect] using hs
  | cons e es ih =>
    obtain ⟨u, hu, hr⟩ := Transition.run_cons.mp hr
    have hnext := ih ((onError_step P hu).trans hon) (sound_of_step P hsound hu)
      (ledger_step P hon hsound hs hu) hr
    rwa [Transition.collect, hu, Option.elim_some, ← List.append_assoc]

theorem returnsEarly_of_closing {s : Session M Rq B} {i : ℕ} {ec : ErrorCode} {w : Write M}
    (hon : s.onError = true) (hs : s.Marked P) (hw : s.writes[i]? = some w)
    (hec : ec ≠ .success ∨ P.needEof w.item.message = true) :
    s.returnsEarly (.writeCompleted i ec : Event M B Rq) = true := by
  rcases hec with hfailed | hclose
  · simp [returnsEarly, hon, ec.failed_iff.mpr hfailed]
  · have hmark : w.close = true := (hs w (List.mem_of_getElem? hw)).trans hclose
    simp [returnsEarly, hw, hmark]

section
variable {isSsl isOpen : Bool} {now : ℤ} {es : List (Event M B Rq)} {s : Session M Rq B}
  (hs : run P (init P isSsl true isOpen now) es = some s)
include hs

theorem onError_of_run : s.onError = true :=
  Transition.run_invariant (I := fun s => s.onError = true)
    (fun _ _ _ hs h => (onError_step P h).trans hs) rfl hs

theorem marked_of_run : s.Marked P :=
  Transition.run_invariant (fun _ _ _ hs h => marked_step P hs h) (by simp [Marked, init]) hs

theorem completed_before {i : ℕ} {w : Write M} (hw : s.writes[i]? = some w) :
    s.written = Transition.collect (step P) completed (init P isSsl true isOpen now) es ++
      [w.item] ∧
      ∃ later, s.pushed =
        Transition.collect (step P) completed (init P isSsl true isOpen now) es ++
          w.item :: later := by
  have hsound := sound_of_run P hs
  have hi : i < s.station.serving.length := by
    simpa [station] using (List.getElem?_eq_some_iff.mp hw).1
  have hserving : s.station.serving = [w.item] := by
    obtain ⟨rfl, x, hx, -⟩ := hsound.serving_eq hi
    have hfront : s.station.serving[0]? = some w.item := by simp [station, hw]
    simpa [hx] using hfront
  have hstart : (init P isSsl true isOpen now).station.Sound := Station.sound_empty
  have hempty : Ledger [] (init P isSsl true isOpen now) := .inr rfl
  rcases ledger_run P rfl hstart hempty hs with ⟨-, hidle⟩ | hdone
  · simp [hserving] at hidle
  · rw [hserving, List.nil_append] at hdone
    refine ⟨hdone, s.queue.tail, ?_⟩
    have hpushed : s.pushed = s.written ++ s.queue.tail := hsound.conserved
    rw [hpushed, hdone, List.append_assoc, List.singleton_append]

theorem shutdown_cause {e : Event M B Rq} {t : Session M Rq B} (h : s.step P e = some t)
    (hshut : t.shutdowns ≠ s.shutdowns) :
    e.endsOtherwise = true ∨ ∃ i w, e = .writeCompleted i .success ∧ s.writes[i]? = some w ∧
      P.needEof w.item.message = true := by
  have hreaches : s.reachesEof e = true := by
    by_contra hnot
    rw [shutdowns_step P h, Bool.eq_false_iff.mpr hnot] at hshut
    exact hshut rfl
  cases e with
  | readCompleted i ec received partialMessage => exact .inl hreaches
  | handshakeCompleted i ec => exact .inl hreaches
  | waitCompleted i => exact .inl rfl
  | writeCompleted i ec =>
    rcases Bool.or_eq_true_iff.mp hreaches with heof | hclosing
    · exact .inl heof
    · rw [onError_of_run P hs, Bool.and_true, Bool.and_eq_true, Bool.not_eq_true',
        ErrorCode.failed_eq_false, Option.any_eq_true] at hclosing
      obtain ⟨rfl, w, hw, hclose⟩ := hclosing
      have hmark := marked_of_run P hs w (List.mem_of_getElem? hw)
      exact .inr ⟨i, w, rfl, hw, hmark.symm.trans hclose⟩
  | call | handshake | handshakeFor | elapse | closeSocket => cases hreaches

end

-- There is no closed flag: a write that ends the session leaves its message at the front of the
-- queue, and from then on no push finds the queue empty.
theorem write_side_terminal (isSsl isOpen : Bool) (now : ℤ) (es : List (Event M B Rq))
    (s : Session M Rq B) (hs : run P (init P isSsl true isOpen now) es = some s) :
    (∀ i ec w t fs u, s.writes[i]? = some w →
      (ec ≠ .success ∨ P.needEof w.item.message = true) →
      s.step P (.writeCompleted i ec) = some t → run P t fs = some u →
      u.writes = [] ∧ u.written = s.written ∧
      ∃ later,
        s.pushed =
          Transition.collect (step P) completed (init P isSsl true isOpen now) es ++
            w.item :: later ∧
        u.written =
          Transition.collect (step P) completed (init P isSsl true isOpen now) es ++ [w.item]) ∧
    ∀ e t, s.step P e = some t → t.shutdowns ≠ s.shutdowns →
      e.endsOtherwise = true ∨
      ∃ i w later, e = .writeCompleted i .success ∧ s.writes[i]? = some w ∧
        P.needEof w.item.message = true ∧
        s.pushed =
          Transition.collect (step P) completed (init P isSsl true isOpen now) es ++
            w.item :: later := by
  constructor
  · intro i ec w t fs u hw hec ht hu
    have hearly := returnsEarly_of_closing P (onError_of_run P hs) (marked_of_run P hs) hw hec
    obtain ⟨hi, hstation⟩ := station_returnsEarly P hearly ht
    have hhalted : t.station.Halted :=
      hstation ▸ Station.halted_release (sound_of_run P hs) hi
    obtain ⟨fs', hfs⟩ := Transition.run_refines (fun s e u hu => ⟨_, station_step P hu⟩) hu
    obtain ⟨hend, hstarted⟩ := Station.halted_run hhalted hfs
    have hwritten : u.written = s.written :=
      hstarted.trans (congrArg Station.started hstation)
    obtain ⟨hdone, later, hpushed⟩ := completed_before P hs hw
    exact ⟨List.map_eq_nil_iff.mp hend.2, hwritten, later, hpushed, hwritten.trans hdone⟩
  · intro e t h hshut
    rcases shutdown_cause P hs h hshut with hother | ⟨i, w, he, hw, hclosing⟩
    · exact .inl hother
    · obtain ⟨-, later, hpushed⟩ := completed_before P hs hw
      exact .inr ⟨i, w, later, he, hw, hclosing, hpushed⟩

theorem write_side_terminal_of_closing_message :
    ∃ s t u : Session ℕ ℕ ℕ,
      run .sample (init .sample false true true 0)
        [.call (.send 7), .call (.send 0), .writeCompleted 0 .success] = some s ∧
      s.step .sample (.writeCompleted 0 .success) = some t ∧
      run .sample t [.call (.send 8), .call .recv] = some u ∧
      u.writes = [] ∧ u.written = s.written ∧ t.shutdowns ≠ s.shutdowns ∧
      ∃ (i : ℕ) (w : Write ℕ) (later : List (Item ℕ)), s.writes[i]? = some w ∧
        s.pushed = ⟨0, 7, none⟩ :: w.item :: later := by
  obtain ⟨hterminal, hcause⟩ := write_side_terminal .sample false true 0
    [.call (.send 7), .call (.send 0), .writeCompleted 0 .success] _ rfl
  obtain ⟨hwrites, hwritten, -⟩ := hterminal 0 .success ⟨⟨1, 0, none⟩, true⟩ _
    [.call (.send 8), .call .recv] _ rfl (.inr rfl) rfl rfl
  refine ⟨_, _, _, rfl, rfl, rfl, hwrites, hwritten, by decide, ?_⟩
  rcases hcause (.writeCompleted 0 .success) _ rfl (by decide) with hother | hclosing
  · cases hother
  · obtain ⟨i, w, later, -, hw, -, hpushed⟩ := hclosing
    exact ⟨i, w, later, hw, hpushed⟩

end Session
end BeastRouter
