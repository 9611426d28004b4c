import BeastRouter.Base.Dispatcher.Fallback
import BeastRouter.Session.Frame

namespace BeastRouter.Session
variable {M Rq B U Sm W : Type} (P : Platform M Rq B) (http : Http Rq Sm W)
  (order : ArgumentOrder) (iteration : IterationOrder Rq U Sm W)

def newDispatches (s t : Session M Rq B) : List Rq := t.dispatched.drop s.dispatched.length

def enteredFor (isRequest : Bool) (heap : Heap Rq U Sm W)
    (before after : List (Registration Rq U Sm W)) (message : Rq) (w : W) :
    List (Entry Rq U Sm W) :=
  let (dispatcher, heap) := Dispatcher.deploy http order isRequest heap before after
  let d :=
    if isRequest then dispatcher.doProcessRequest http iteration heap message w
    else dispatcher.doProcessResponse http heap message w
  d.elim [] Dispatch.entered

def dispatchFails (isRequest : Bool) (heap : Heap Rq U Sm W)
    (before after : List (Registration Rq U Sm W)) (message : Rq) : Bool :=
  if isRequest then
    Dispatcher.throwsFirst http message
      (Dispatcher.visited iteration (Dispatcher.deployed http order isRequest heap before after)
        (http.method message))
  else (before ++ after).isEmpty

theorem enteredFor_ne_nil_iff {isRequest : Bool} (heap : Heap Rq U Sm W)
    {before after : List (Registration Rq U Sm W)}
    (havailable : ∀ reg ∈ before ++ after, reg.available isRequest = true) (message : Rq)
    (w : W) :
    enteredFor http order iteration isRequest heap before after message w ≠ [] ↔
      dispatchFails http order iteration isRequest heap before after message = false := by
  cases isRequest with
  | true =>
    obtain ⟨storage, hstorage⟩ := Dispatcher.find_unknown_server http order heap before after
    obtain ⟨d, hd⟩ := Option.isSome_iff_exists.mp
      (Dispatcher.doProcessRequest_isSome http iteration message w hstorage)
    have hentered : enteredFor http order iteration true heap before after message w =
        d.entered := by
      simp only [enteredFor, if_true, hd, Option.elim_some]
    rw [hentered, Ne, Dispatcher.entered_eq_nil_iff http iteration hstorage hd,
      Bool.not_eq_true]
    rfl
  | false =>
    have hclient := Dispatcher.find_unknown_client http order heap havailable
    have hfails : dispatchFails http order iteration false heap before after message =
        (before ++ after).isEmpty := rfl
    rw [hfails, Bool.eq_false_iff]
    apply not_congr
    rw [List.isEmpty_iff, ← hclient]
    exact Dispatcher.entered_executeUnknown_eq_nil_iff http message w

theorem dispatched_onRead (ec : ErrorCode) (s : Session M Rq B) :
    (s.onRead P ec).dispatched =
      s.dispatched ++ if ec = .endOfStream then [] else [s.parser.message] := by
  obtain ⟨u, hu, heq⟩ := onRead_eq P ec s
  have hincoming := hu.incoming_eq
  have hparser : u.parser = s.parser := congrArg Prod.fst hincoming
  have hdispatched : u.dispatched = s.dispatched := congrArg (fun x => x.2.2) hincoming
  rw [heq]
  split_ifs
  · rw [hdispatched, List.append_nil]
  · rw [← hdispatched, ← hparser]
    simp [doProcessRequest, emit, dispatched]

theorem newDispatches_onRead {i : ℕ} {ec : ErrorCode} {received : List B} {partialMessage : Rq}
    {s u : Session M Rq B} (hu : (s.dropRead i).parseInto P ec received partialMessage = some u) :
    newDispatches s (u.onRead P ec) = if ec = .endOfStream then [] else [u.parser.message] := by
  have hsame : u.dispatched = s.dispatched := by
    rw [parseInto_eq P hu]
    rfl
  rw [newDispatches, dispatched_onRead, hsame, List.drop_left]

def HandledIffRead (isRequest : Bool) (heap : Heap Rq U Sm W)
    (before after : List (Registration Rq U Sm W)) (w : W) (s : Session M Rq B) :
    Event M B Rq → Session M Rq B → Prop
  | .readCompleted _ ec _ _, t =>
    (((newDispatches s t).flatMap fun message =>
        enteredFor http order iteration isRequest heap before after message w) ≠ [] ↔
      ec = .success) ∧
    (ec ≠ .success → newDispatches s t = [])
  | _, _ => True

def ReadsWhole (isRequest : Bool) (heap : Heap Rq U Sm W)
    (before after : List (Registration Rq U Sm W)) (s : Session M Rq B) : Event M B Rq → Prop
  | .readCompleted i ec received partialMessage =>
    ec = .endOfStream ∨
      ec = .success ∧ ∀ u, (s.dropRead i).parseInto P ec received partialMessage = some u →
        dispatchFails http order iteration isRequest heap before after u.parser.message = false
  | _ => True

theorem handledIffRead_step {isRequest : Bool} (heap : Heap Rq U Sm W)
    {before after : List (Registration Rq U Sm W)}
    (havailable : ∀ reg ∈ before ++ after, reg.available isRequest = true)
    (w : W) {s t : Session M Rq B} {e : Event M B Rq} (h : s.step P e = some t) :
    HandledIffRead http order iteration isRequest heap before after w s e t ↔
      ReadsWhole P http order iteration isRequest heap before after s e := by
  cases moves_of_step P h with
  | readCompleted i ec received partialMessage u hu =>
    rw [HandledIffRead, newDispatches_onRead P hu, ReadsWhole]
    by_cases heof : ec = .endOfStream
    · simp [heof]
    · rw [if_neg heof, List.flatMap_singleton,
        enteredFor_ne_nil_iff http order iteration heap havailable]
      constructor
      · rintro ⟨hiff, hnothing⟩
        have hec : ec = .success := by
          by_contra hfailed
          cases hnothing hfailed
        refine .inr ⟨hec, fun v hv => ?_⟩
        rw [← Option.some.inj (hu.symm.trans hv)]
        exact hiff.mpr hec
      · rintro (hec | ⟨hec, henters⟩)
        · exact absurd hec heof
        · exact ⟨iff_of_true (henters u hu) hec, fun hfailed => absurd hec hfailed⟩
  | _ => exact Iff.rfl

theorem handled_iff_read (isRequest : Bool) (heap : Heap Rq U Sm W)
    (before after : List (Registration Rq U Sm W))
    (havailable : ∀ reg ∈ before ++ after, reg.available isRequest = true)
    (world : Session M Rq B → W) (isSsl onError isOpen : Bool) (now : ℤ)
    (es : List (Event M B Rq)) :
    Transition.Along (step P)
      (fun s e t => HandledIffRead http order iteration isRequest heap before after (world s) s e t)
      (init P isSsl onError isOpen now) es ↔
    Transition.Along (step P)
      (fun s e _ => ReadsWhole P http order iteration isRequest heap before after s e)
      (init P isSsl onError isOpen now) es := by
  apply Transition.along_congr (I := fun _ => True)
  · intro s e t _ _
    trivial
  · intro s e t _ h
    exact handledIffRead_step P http order iteration heap havailable (world s) h
  · trivial

theorem handled_iff_read_request :
    Transition.Along (step (.tokens (.unknown, "")))
      (HandledIffRead .sample .leftToRight .asStored (U := Unit) true ⟨[]⟩ [] [] [])
      (init (.tokens (.unknown, "")) false true true 0)
      [.call .recv, .readCompleted 0 .success [(.get, "a")] (.unknown, "")] := by
  refine (handled_iff_read _ .sample .leftToRight .asStored true ⟨[]⟩ [] [] (by simp)
    (fun _ => []) false true true 0 _).mpr ?_
  intro s hs
  obtain rfl := Option.some.inj hs
  refine ⟨trivial, fun t _ => ⟨.inr ⟨rfl, fun u hu => ?_⟩, trivial⟩⟩
  obtain rfl := Option.some.inj hu
  rfl

theorem partial_request_handled :
    ¬ ∀ es : List (Event ℕ (Verb × String) (Verb × String)),
      Transition.Along (step (.tokens (.unknown, "")))
        (HandledIffRead .sample .leftToRight .asStored (U := Unit) true ⟨[]⟩ [] [] [])
        (init (.tokens (.unknown, "")) false true true 0) es := by
  intro h
  have hrun := h [.call .recv, .readCompleted 0 (.other 104) [] (.get, "")]
  obtain ⟨-, hrun⟩ := hrun _ rfl
  obtain ⟨hread, -⟩ := hrun _ rfl
  have hsuccess := hread.1.mp (by
    intro hnil
    exact absurd (congrArg List.length hnil) (by decide))
  cases hsuccess

end BeastRouter.Session
