import Mathlib.Data.Int.Notation
import Mathlib.Data.List.Basic
import Mathlib.Data.List.Perm.Basic
import BeastRouter.Base.ErrorCode

namespace BeastRouter

structure Wait where
  expiry : ℤ
  abortedAt : Option ℤ
  deriving DecidableEq, Repr

namespace Wait

def abort (now : ℤ) (w : Wait) : Wait := { w with abortedAt := w.abortedAt.or (some now) }

def Pending (w : Wait) : Prop := w.abortedAt = none

instance (w : Wait) : Decidable w.Pending := inferInstanceAs (Decidable (w.abortedAt = none))

-- An aborted wait completes at any later time; a pending one is over at its expiry.
def result (now : ℤ) (w : Wait) : Option ErrorCode :=
  match w.abortedAt with
  | some _ => some .operationAborted
  | none => if w.expiry ≤ now then some .success else none

theorem result_cases {now : ℤ} {w : Wait} {ec : ErrorCode} (h : w.result now = some ec) :
    ec = .success ∨ ec = .operationAborted := by
  unfold result at h
  split at h
  · exact .inr (Option.some.inj h).symm
  · exact .inl (Option.some.inj (Option.ite_none_right_eq_some.mp h).2).symm

end Wait

structure Timer where
  expiry : ℤ
  waits : List Wait
  deriving DecidableEq, Repr

namespace Timer

-- `time_point::max()` of the steady clock
def timePointMax : ℤ := 9223372036854775807

def new : Timer := ⟨timePointMax, []⟩

def cancel (now : ℤ) (t : Timer) : Timer := { t with waits := t.waits.map (Wait.abort now) }

def expiresFromNow (now duration : ℤ) (t : Timer) : Timer :=
  { t.cancel now with expiry := now + duration }

def asyncWait (t : Timer) : Timer := { t with waits := t.waits ++ [⟨t.expiry, none⟩] }

def drop (i : ℕ) (t : Timer) : Timer := { t with waits := t.waits.eraseIdx i }

def pendings (t : Timer) : List Wait := t.waits.filter fun w => w.abortedAt.isNone

def Guards (t : Timer) (deadlines : List ℤ) : Prop :=
  ∀ δ ∈ deadlines, ∃ w ∈ t.pendings, w.expiry ≤ δ

def Single (t : Timer) : Prop := t.pendings = [] ∨ t.pendings = [⟨t.expiry, none⟩]

instance (t : Timer) (deadlines : List ℤ) : Decidable (t.Guards deadlines) :=
  inferInstanceAs (Decidable (∀ δ ∈ deadlines, ∃ w ∈ t.pendings, w.expiry ≤ δ))

@[simp] theorem pendings_cancel (now : ℤ) (t : Timer) : (t.cancel now).pendings = [] := by
  refine List.filter_eq_nil_iff.mpr fun w hw => ?_
  obtain ⟨v, -, rfl⟩ := List.mem_map.mp hw
  cases h : v.abortedAt <;> simp [Wait.abort, h]

@[simp] theorem pendings_expiresFromNow (now d : ℤ) (t : Timer) :
    (t.expiresFromNow now d).pendings = [] :=
  pendings_cancel now t

theorem pendings_rearm (now d : ℤ) (t : Timer) :
    (t.expiresFromNow now d).asyncWait.pendings = [⟨now + d, none⟩] := by
  have h := pendings_expiresFromNow now d t
  simp only [pendings, asyncWait, List.filter_append] at h ⊢
  rw [h]
  rfl

theorem guards_congr {t : Timer} {ds ds' : List ℤ} (h : ∀ δ, δ ∈ ds ↔ δ ∈ ds') :
    t.Guards ds ↔ t.Guards ds' :=
  forall_congr' fun δ => imp_congr_left (h δ)

theorem guards_of_idle {t : Timer} (h : t.pendings = []) (ds : List ℤ) :
    t.Guards ds ↔ ds = [] := by
  simp [Guards, h, List.eq_nil_iff_forall_not_mem]

theorem guards_rearm (now d : ℤ) (t : Timer) (ds : List ℤ) :
    (t.expiresFromNow now d).asyncWait.Guards ds ↔ ∀ δ ∈ ds, now + d ≤ δ := by
  simp [Guards, pendings_rearm]

theorem single_new : new.Single := .inl rfl

theorem single_cancel (now : ℤ) (t : Timer) : (t.cancel now).Single :=
  .inl (pendings_cancel now t)

theorem single_expiresFromNow (now d : ℤ) (t : Timer) : (t.expiresFromNow now d).Single :=
  .inl (pendings_expiresFromNow now d t)

theorem single_rearm (now d : ℤ) (t : Timer) : (t.expiresFromNow now d).asyncWait.Single :=
  .inr (pendings_rearm now d t)

theorem pendings_drop_perm {t : Timer} {i : ℕ} {w : Wait} (h : t.waits[i]? = some w) :
    ([w].filter (fun w => w.abortedAt.isNone) ++ (t.drop i).pendings).Perm t.pendings := by
  obtain ⟨hi, rfl⟩ := List.getElem?_eq_some_iff.mp h
  have hperm := (List.getElem_cons_eraseIdx_perm hi).filter fun w => w.abortedAt.isNone
  rwa [← List.singleton_append, List.filter_append] at hperm

theorem single_drop {t : Timer} (h : t.Single) (i : ℕ) : (t.drop i).Single := by
  have hsub : (t.drop i).pendings.Sublist t.pendings := (List.eraseIdx_sublist t.waits i).filter _
  rcases h with h | h
  · rw [h] at hsub
    exact .inl (List.sublist_nil.mp hsub)
  · rw [h] at hsub
    exact List.sublist_singleton.mp hsub

theorem guards_drop_aborted {t : Timer} {i : ℕ} {w : Wait} (h : t.waits[i]? = some w)
    (hw : ¬ w.Pending) (ds : List ℤ) : (t.drop i).Guards ds ↔ t.Guards ds := by
  have hnone : w.abortedAt.isNone = false := by
    simpa [Wait.Pending, Option.isSome_iff_ne_none] using hw
  have hperm := pendings_drop_perm h
  simp only [List.filter_cons, hnone, Bool.false_eq_true, if_false, List.filter_nil,
    List.nil_append] at hperm
  simp only [Guards, hperm.mem_iff]

theorem guards_drop_pending {t : Timer} {i : ℕ} {w : Wait} (hs : t.Single)
    (h : t.waits[i]? = some w) (hw : w.Pending) (ds : List ℤ) :
    (t.drop i).Guards ds ↔ ds = [] := by
  refine guards_of_idle ?_ ds
  have hlen := (pendings_drop_perm h).length_eq
  have hone : t.pendings.length ≤ 1 := by rcases hs with hs | hs <;> simp [hs]
  have hnone : w.abortedAt.isNone = true := by simpa [Wait.Pending] using hw
  simp only [List.filter_cons, hnone, if_true, List.filter_nil, List.length_append,
    List.length_singleton] at hlen
  exact List.length_eq_zero_iff.mp (by omega)

theorem expiry_of_pending {t : Timer} {i : ℕ} {w : Wait} (hs : t.Single)
    (h : t.waits[i]? = some w) (hw : w.Pending) : w.expiry = t.expiry := by
  have hmem : w ∈ t.pendings :=
    List.mem_filter.mpr ⟨List.mem_of_getElem? h, by simpa [Wait.Pending] using hw⟩
  rcases hs with hs | hs
  · simp [hs] at hmem
  · rw [hs, List.mem_singleton] at hmem
    rw [hmem]

end Timer
end BeastRouter
