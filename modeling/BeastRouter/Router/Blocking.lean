import BeastRouter.Foundation.WaitFor
import BeastRouter.Router.Consistency

namespace BeastRouter

namespace Frame
variable {Rq U Sm W : Type}

def entersToWrite : Frame Rq U Sm W → Bool
  | addResource _ => true
  | _ => false

def entersToRead : Frame Rq U Sm W → Bool
  | processRequest _ => true
  | _ => false

end Frame

namespace System
variable {T Rq U Sm W : Type} (D : Deployment Rq U Sm W)

def entersToWrite (s : System T Rq U Sm W) (t : T) : Bool :=
  (s.threads t).head?.any Frame.entersToWrite

def entersToRead (s : System T Rq U Sm W) (t : T) : Bool :=
  (s.threads t).head?.any Frame.entersToRead

-- Who has to be gone before a thread is let in. A mutex may or may not let a reader in before a
-- waiting writer; here the reader waits for it.
inductive Waits (s : System T Rq U Sm W) : T → T → Prop where
  | writer (t u : T) (ht : s.entersToWrite t = true)
    (hu : u ∈ s.lock.readers ∨ s.lock.writer = some u) : Waits s t u
  | reader (t u : T) (ht : s.entersToRead t = true)
    (hu : s.lock.writer = some u ∨ s.entersToWrite u = true) : Waits s t u

def Upgrading (s : System T Rq U Sm W) (t : T) : Prop :=
  s.entersToWrite t = true ∧ t ∈ s.lock.readers

def Unblocked (s : System T Rq U Sm W) : Prop :=
  (∀ t, ¬ s.Upgrading t) ∧ ¬ WaitFor.Deadlock s.Waits

theorem ne_of_entersToWrite {s : System T Rq U Sm W} {t u : T} (ht : s.entersToWrite t = true)
    {frames : List (Frame Rq U Sm W)} (hu : s.threads u = frames)
    (hframes : frames.head?.any Frame.entersToWrite = false) : t ≠ u := by
  rintro rfl
  rw [entersToWrite, hu, hframes] at ht
  cases ht

variable [DecidableEq T]

namespace Sound
variable {D} {s : System T Rq U Sm W}

theorem reader_not_entering (hs : s.Sound D) {t : T} (ht : t ∈ s.lock.readers) :
    s.entersToRead t = false := by
  have hcount : 0 < (s.threads t).countP Frame.isReading := by
    rw [hs.reading]
    exact List.count_pos_iff.mpr ht
  have hstacked := hs.stacked t
  unfold entersToRead
  cases hframes : s.threads t with
  | nil => rfl
  | cons frame frames =>
    rw [hframes] at hcount hstacked
    cases frame with
    | processRequest request =>
      obtain rfl := hstacked.bottom rfl
      cases hcount
    | _ => rfl

theorem writer_not_entering (hs : s.Sound D) {t : T} (ht : s.lock.writer = some t) :
    s.entersToWrite t = false ∧ s.entersToRead t = false := by
  have hwriting := (hs.writing t).mpr ht
  have hstacked := hs.stacked t
  unfold entersToWrite entersToRead
  cases hframes : s.threads t with
  | nil => exact ⟨rfl, rfl⟩
  | cons frame frames =>
    rw [hframes] at hwriting hstacked
    rw [List.any_cons, hstacked.rest, Bool.or_false] at hwriting
    cases frame <;> first | exact ⟨rfl, rfl⟩ | cases hwriting

end Sound

def rank (s : System T Rq U Sm W) (t : T) : ℕ :=
  if s.entersToWrite t then 1 else if s.entersToRead t then 2 else 0

theorem rank_of_holder {s : System T Rq U Sm W} (hs : s.Sound D) (hnone : ∀ t, ¬ s.Upgrading t)
    {t : T} (ht : t ∈ s.lock.readers ∨ s.lock.writer = some t) : s.rank t = 0 := by
  unfold rank
  rcases ht with hreader | hwriter
  · have hwrite : s.entersToWrite t = false := by
      by_contra hwrite
      exact hnone t ⟨Bool.not_eq_false _ ▸ hwrite, hreader⟩
    simp [hwrite, hs.reader_not_entering hreader]
  · obtain ⟨hwrite, hread⟩ := hs.writer_not_entering hwriter
    simp [hwrite, hread]

theorem rank_of_waits {s : System T Rq U Sm W} (hs : s.Sound D) (hnone : ∀ t, ¬ s.Upgrading t)
    (t u : T) (h : s.Waits t u) : s.rank u < s.rank t := by
  cases h with
  | writer ht hu =>
    rw [rank_of_holder D hs hnone hu]
    simp [rank, ht]
  | reader ht hu =>
    have hread : s.rank t = 2 := by
      unfold entersToRead at ht
      unfold rank entersToWrite entersToRead
      cases hframes : s.threads t with
      | nil =>
        rw [hframes] at ht
        cases ht
      | cons frame frames =>
        rw [hframes] at ht
        cases frame <;> first | rfl | cases ht
    rw [hread]
    rcases hu with hwriter | hwrite
    · rw [rank_of_holder D hs hnone (.inr hwriter)]
      exact Nat.zero_lt_two
    · simp [rank, hwrite]

theorem unblocked_iff {s : System T Rq U Sm W} (hs : s.Sound D) :
    s.Unblocked ↔ ∀ t, ¬ s.Upgrading t :=
  ⟨And.left, fun hnone => ⟨hnone, WaitFor.not_deadlock_of_rank (rank_of_waits D hs hnone)⟩⟩

theorem upgrading_other {s s' : System T Rq U Sm W} {t u : T} (hs : s.Upgrading t) (hne : t ≠ u)
    {frames : List (Frame Rq U Sm W)} (hthreads : s'.threads = Function.update s.threads u frames)
    (hreader : t ∈ s.lock.readers → t ∈ s'.lock.readers) : s'.Upgrading t := by
  refine ⟨?_, hreader hs.2⟩
  rw [entersToWrite, hthreads, Function.update_of_ne hne]
  exact hs.1

theorem upgrading_kept {t : T} (s : System T Rq U Sm W) (e : Event T Rq U Sm W)
    (s' : System T Rq U Sm W) (hs : s.Upgrading t) (h : s.step D e = some s') :
    s'.Upgrading t := by
  cases moves_of_step D h with
  | call u op ht => exact upgrading_other hs (ne_of_entersToWrite hs.1 ht rfl) rfl id
  | handlerRegisters u reg p v fallback frames ht =>
    exact upgrading_other hs (ne_of_entersToWrite hs.1 ht rfl) rfl id
  | lockWrite u reg frames ht hwriter hreaders =>
    exact absurd hreaders (List.ne_nil_of_mem hs.2)
  | lockRead u request frames ht hwriter =>
    exact upgrading_other hs (ne_of_entersToWrite hs.1 ht rfl) rfl (List.mem_cons_of_mem u)
  | update u reg frames ht => exact upgrading_other hs (ne_of_entersToWrite hs.1 ht rfl) rfl id
  | visit u p frame frames ht hnext =>
    exact upgrading_other hs (ne_of_entersToWrite hs.1 ht rfl) rfl id
  | runChain u p v fallback frames ht =>
    exact upgrading_other hs (ne_of_entersToWrite hs.1 ht rfl) rfl id
  | unlockWrite u frames ht hwriter =>
    exact upgrading_other hs (ne_of_entersToWrite hs.1 ht rfl) rfl id
  | unlockRead u p frames ht hreader =>
    have hne := ne_of_entersToWrite hs.1 ht rfl
    exact upgrading_other hs hne rfl (List.mem_erase_of_ne hne).mpr

theorem upgrading_run {s s' : System T Rq U Sm W} {es : List (Event T Rq U Sm W)} {t : T}
    (hs : s.Upgrading t) (hr : run D s es = some s') : s'.Upgrading t :=
  Transition.run_invariant (upgrading_kept D) hs hr

open Router (sampleRoute)

end System
end BeastRouter
