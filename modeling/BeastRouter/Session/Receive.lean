import Mathlib.Logic.Function.Iterate
import BeastRouter.Session.Frame

namespace BeastRouter.Session
variable {M Rq B : Type} (P : Platform M Rq B)

def Framed (P : Platform M Rq B) : Prop :=
  ∀ bs m rest more, P.parse bs = some (m, rest) → P.parse (bs ++ more) = some (m, rest ++ more)

def WellFormed (P : Platform M Rq B) (encode : Rq → List B) (m : Rq) : Prop :=
  ∀ rest, P.parse (encode m ++ rest) = some (m, rest)

theorem parse_first {encode : Rq → List B} {bytes rest : List B} {m m' : Rq} {ms : List Rq}
    (hframed : Framed P) (hwf : WellFormed P encode m)
    (hsent : bytes <+: (m :: ms).flatMap encode) (hparse : P.parse bytes = some (m', rest)) :
    m' = m := by
  obtain ⟨more, hmore⟩ := hsent
  have hwhole := hframed bytes m' rest more hparse
  rw [hmore, List.flatMap_cons, hwf] at hwhole
  exact (congrArg Prod.fst (Option.some.inj hwhole)).symm

def leftovers (P : Platform M Rq B) (m : Rq) (k : ℕ) : List Rq :=
  (List.range k).map fun j => P.movedFrom^[j] m

def After (P : Platform M Rq B) (m : Rq) (bytes : List B) : ℕ → Session M Rq B → Prop
  | 0, s => s.parser.complete = false ∧ s.buffer = bytes ∧ s.dispatched = []
  | k + 1, s =>
      s.parser = ⟨P.movedFrom^[k + 1] m, true⟩ ∧ s.dispatched = leftovers P m (k + 1)

theorem after_of_incoming {m : Rq} {bytes : List B} {k : ℕ} {s t : Session M Rq B}
    (h : t.incoming = s.incoming) (hs : After P m bytes k s) : After P m bytes k t := by
  have hparser : t.parser = s.parser := congrArg Prod.fst h
  have hbuffer : t.buffer = s.buffer := congrArg (fun x => x.2.1) h
  have hdispatched : t.dispatched = s.dispatched := congrArg (fun x => x.2.2) h
  cases k with
  | zero => exact ⟨hparser ▸ hs.1, hbuffer.trans hs.2.1, hdispatched.trans hs.2.2⟩
  | succ k => exact ⟨hparser.trans hs.1, hdispatched.trans hs.2⟩

theorem incoming_onRead_success (s : Session M Rq B) :
    (s.onRead P .success).incoming =
      ({ s.parser with message := P.movedFrom s.parser.message }, s.buffer,
        s.dispatched ++ [s.parser.message]) := by
  simp [onRead, ErrorCode.failed, doProcessRequest, cancelTimer, emit, incoming, dispatched,
    List.filterMap_cons]

theorem after_onRead {m : Rq} {bytes : List B} {k : ℕ} {s : Session M Rq B}
    (hparser : s.parser = ⟨P.movedFrom^[k] m, true⟩)
    (hdispatched : s.dispatched = leftovers P m k) :
    After P m bytes (k + 1) (s.onRead P .success) := by
  have h := incoming_onRead_success P s
  constructor
  · rw [show (s.onRead P .success).parser = _ from congrArg Prod.fst h, hparser,
      Function.iterate_succ_apply']
  · rw [show (s.onRead P .success).dispatched = _ from congrArg (fun x => x.2.2) h, hparser,
      hdispatched, leftovers, leftovers, List.range_succ, List.map_append]
    rfl

theorem after_readDone {encode : Rq → List B} {m : Rq} {ms : List Rq} (hframed : Framed P)
    (hwf : WellFormed P encode m) {i k : ℕ} {bytes received : List B} {partialMessage : Rq}
    {s t : Session M Rq B} (hs : After P m bytes k s)
    (hsent : bytes ++ received <+: (m :: ms).flatMap encode)
    (h : s.readDone P i .success received partialMessage = some t) :
    After P m (bytes ++ received) (k + 1) t := by
  obtain ⟨-, u, hu, rfl⟩ := readDone_eq P h
  cases k with
  | zero =>
    obtain ⟨hcomplete, hbuffer, hdispatched⟩ := hs
    have hfresh : (s.dropRead i).parser.complete = false := hcomplete
    have hbuf : (s.dropRead i).buffer = bytes := hbuffer
    simp only [parseInto, ErrorCode.failed, hfresh, hbuf, Bool.false_eq_true, if_false] at hu
    obtain ⟨⟨m', rest⟩, hparse, rfl⟩ := Option.map_eq_some_iff.mp hu
    obtain rfl := parse_first P hframed hwf hsent hparse
    exact after_onRead P rfl hdispatched
  | succ k =>
    obtain ⟨hparser, hdispatched⟩ := hs
    have hspent : (s.dropRead i).parser = ⟨P.movedFrom^[k + 1] m, true⟩ := hparser
    simp only [parseInto, ErrorCode.failed, hspent, Bool.false_eq_true, if_false, if_true,
      Option.ite_none_right_eq_some, Option.some.injEq] at hu
    obtain ⟨-, rfl⟩ := hu
    exact after_onRead P hspent hdispatched

theorem after_endOfStream {m : Rq} {i k : ℕ} {bytes received : List B} {partialMessage : Rq}
    {s t : Session M Rq B} (hs : After P m bytes k s)
    (h : s.readDone P i .endOfStream received partialMessage = some t) :
    After P m (bytes ++ received) k t := by
  obtain ⟨-, u, hu, rfl⟩ := readDone_eq P h
  obtain ⟨v, hv, heq⟩ := onRead_eq P .endOfStream u
  rw [heq, if_pos rfl]
  apply after_of_incoming P hv.incoming_eq
  simp only [parseInto, ErrorCode.failed, if_true, Option.some.injEq] at hu
  cases k with
  | zero =>
    obtain ⟨hcomplete, hbuffer, hdispatched⟩ := hs
    have hfresh : (s.dropRead i).parser.complete = false := hcomplete
    rw [← hu]
    refine ⟨by simp [hfresh], ?_, hdispatched⟩
    rw [← hbuffer]
    rfl
  | succ k =>
    obtain ⟨hparser, hdispatched⟩ := hs
    have hspent : (s.dropRead i).parser = ⟨P.movedFrom^[k + 1] m, true⟩ := hparser
    rw [← hu]
    exact ⟨by simp [hspent], hdispatched⟩

theorem after_run {encode : Rq → List B} {m : Rq} {ms : List Rq} (hframed : Framed P)
    (hwf : WellFormed P encode m) {es : List (Event M B Rq)} {k : ℕ} {bytes : List B}
    {s t : Session M Rq B} (hs : After P m bytes k s)
    (hok : ∀ e ∈ es, e.isFailedRead = false)
    (hsent : bytes ++ es.flatMap Event.received <+: (m :: ms).flatMap encode)
    (hr : run P s es = some t) :
    After P m (bytes ++ es.flatMap Event.received) (k + es.countP Event.isWholeRead) t := by
  induction es generalizing s k bytes with
  | nil =>
    obtain rfl := Option.some.inj hr
    simpa using hs
  | cons e es ih =>
    obtain ⟨u, hu, hrest⟩ := Transition.run_cons.mp hr
    have hok' (f : Event M B Rq) (hf : f ∈ es) : f.isFailedRead = false := hok f (.tail e hf)
    rw [List.flatMap_cons, ← List.append_assoc] at hsent ⊢
    cases he : e.isRead with
    | false =>
      have hnone : e.received = [] ∧ e.isWholeRead = false := by
        cases e <;> first | exact ⟨rfl, rfl⟩ | cases he
      rw [hnone.1, List.append_nil] at hsent ⊢
      rw [List.countP_cons_of_neg (by rw [hnone.2]; exact Bool.false_ne_true)]
      exact ih (after_of_incoming P (incoming_step P he hu) hs) hok' hsent hrest
    | true =>
      cases e with
      | readCompleted i ec received partialMessage =>
        by_cases heof : ec = .endOfStream
        · subst heof
          rw [List.countP_cons_of_neg Bool.false_ne_true]
          exact ih (after_endOfStream P hs hu) hok' hsent hrest
        · have hfailed : ec.failed = false := by
            simpa [Event.isFailedRead, heof] using hok _ (.head _)
          obtain rfl := (ErrorCode.failed_eq_false ec).mp hfailed
          rw [List.countP_cons_of_pos rfl, Nat.add_comm _ 1, ← Nat.add_assoc]
          have hnext := after_readDone P hframed hwf hs (List.IsPrefix.trans ⟨_, rfl⟩ hsent) hu
          exact ih hnext hok' hsent hrest
      | _ => cases he

theorem leftovers_prefix_iff (m : Rq) (ms : List Rq) (k : ℕ) :
    leftovers P m k <+: ms ↔ ∀ j, j < k → ms[j]? = some (P.movedFrom^[j] m) := by
  rw [List.prefix_iff_getElem?]
  simp [leftovers]

theorem dispatched_prefix_iff (encode : Rq → List B) (m : Rq) (ms : List Rq) (hframed : Framed P)
    (hwf : ∀ m' ∈ m :: ms, WellFormed P encode m') (isSsl onError isOpen : Bool) (now : ℤ)
    (es : List (Event M B Rq)) (t : Session M Rq B)
    (hok : ∀ e ∈ es, e.isFailedRead = false)
    (hsent : es.flatMap Event.received <+: (m :: ms).flatMap encode)
    (hr : run P (init P isSsl onError isOpen now) es = some t) :
    t.dispatched.length = es.countP Event.isWholeRead ∧
    (t.dispatched <+: m :: ms ↔
      ∀ k, k < es.countP Event.isWholeRead → (m :: ms)[k]? = some (P.movedFrom^[k] m)) := by
  have hstart : After P m [] 0 (init P isSsl onError isOpen now) := ⟨rfl, rfl, rfl⟩
  have hafter := after_run P hframed (hwf m (.head _)) hstart hok hsent hr
  rw [Nat.zero_add] at hafter
  have hdispatched : t.dispatched = leftovers P m (es.countP Event.isWholeRead) := by
    cases hk : es.countP Event.isWholeRead with
    | zero =>
      rw [hk] at hafter
      exact hafter.2.2
    | succ k =>
      rw [hk] at hafter
      exact hafter.2
  rw [hdispatched]
  exact ⟨by simp [leftovers], leftovers_prefix_iff P m (m :: ms) _⟩

theorem framed_sample : Framed .sample := by
  intro bs m rest more h
  cases bs with
  | nil => cases h
  | cons b bs =>
    obtain ⟨rfl, rfl⟩ := Prod.mk.inj (Option.some.inj h)
    rfl

theorem dispatched_prefix_two_receives :
    ∃ t, run .sample (init .sample false true true 0)
        [.call .recv, .readCompleted 0 .success [0, 0] 0, .call .recv,
          .readCompleted 0 .success [] 0] = some t ∧
      t.dispatched <+: [0, 0] := by
  refine ⟨_, rfl, ?_⟩
  refine (dispatched_prefix_iff .sample (fun m => [m]) 0 [0] framed_sample
    (fun _ _ _ => rfl) false true true 0
    [.call .recv, .readCompleted 0 .success [0, 0] 0, .call .recv, .readCompleted 0 .success [] 0]
    _ (by decide) (by decide) rfl).2.mpr ?_
  decide

theorem second_receive_repeats :
    (∀ m, WellFormed .sample (fun m => [m]) m) ∧
    ∃ t, run .sample (init .sample false true true 0)
        [.call .recv, .readCompleted 0 .success [5, 6] 0, .call .recv,
          .readCompleted 0 .success [] 0] = some t ∧
      t.dispatched = [5, 0] ∧ ¬ t.dispatched <+: [5, 6] :=
  ⟨fun _ _ => rfl, _, rfl, by decide, by decide⟩

end BeastRouter.Session
