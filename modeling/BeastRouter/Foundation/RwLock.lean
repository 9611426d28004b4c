import BeastRouter.Foundation.Transition

namespace RwLock

structure Lock (T : Type) where
  readers : List T
  writer : Option T
  deriving DecidableEq, Repr

namespace Lock
variable {T : Type}

def free : Lock T := ⟨[], none⟩

def lockShared (t : T) (l : Lock T) : Option (Lock T) :=
  if l.writer = none then some { l with readers := t :: l.readers } else none

def unlockShared [DecidableEq T] (t : T) (l : Lock T) : Option (Lock T) :=
  if t ∈ l.readers then some { l with readers := l.readers.erase t } else none

def lock (t : T) (l : Lock T) : Option (Lock T) :=
  if l.writer = none ∧ l.readers = [] then some { l with writer := some t } else none

def unlock [DecidableEq T] (t : T) (l : Lock T) : Option (Lock T) :=
  if l.writer = some t then some { l with writer := none } else none

theorem lockShared_eq {t : T} {l l' : Lock T} (h : l.lockShared t = some l') :
    l.writer = none ∧ l' = { l with readers := t :: l.readers } := by
  simpa [lockShared, eq_comm] using h

theorem unlockShared_eq [DecidableEq T] {t : T} {l l' : Lock T} (h : l.unlockShared t = some l') :
    t ∈ l.readers ∧ l' = { l with readers := l.readers.erase t } := by
  simpa [unlockShared, eq_comm] using h

theorem lock_eq {t : T} {l l' : Lock T} (h : l.lock t = some l') :
    l.writer = none ∧ l.readers = [] ∧ l' = { l with writer := some t } := by
  simpa [lock, eq_comm, and_assoc] using h

theorem unlock_eq [DecidableEq T] {t : T} {l l' : Lock T} (h : l.unlock t = some l') :
    l.writer = some t ∧ l' = { l with writer := none } := by
  simpa [unlock, eq_comm] using h

def Exclusive (l : Lock T) : Prop := l.readers ≠ [] → l.writer = none

end Lock

-- A value behind a lock. `log` has the updates in the order in which their threads were let in,
-- and `pending` is the one whose thread has not applied it yet.
structure Guarded (T V A : Type) where
  lock : Lock T
  value : V
  log : List A
  pending : Option A

inductive Access (T A : Type) where
  | lockShared (t : T)
  | unlockShared (t : T)
  | lock (t : T) (a : A)
  | apply (t : T)
  | unlock (t : T)

namespace Guarded
variable {T V A : Type} (f : V → A → V)

def step [DecidableEq T] (s : Guarded T V A) : Access T A → Option (Guarded T V A)
  | .lockShared t => (s.lock.lockShared t).map fun l => { s with lock := l }
  | .unlockShared t => (s.lock.unlockShared t).map fun l => { s with lock := l }
  | .lock t a =>
    (s.lock.lock t).map fun l => { s with lock := l, log := s.log ++ [a], pending := some a }
  | .apply t =>
    if s.lock.writer = some t then
      s.pending.map fun a => { s with value := f s.value a, pending := none }
    else none
  | .unlock t =>
    if s.pending.isNone then (s.lock.unlock t).map fun l => { s with lock := l } else none

structure Coherent (v : V) (s : Guarded T V A) : Prop where
  exclusive : s.lock.Exclusive
  owned : s.lock.writer = none → s.pending = none
  folded : s.log.foldl f v = s.pending.elim s.value (f s.value)

theorem Coherent.read {v : V} {s : Guarded T V A} (hs : s.Coherent f v)
    (hreaders : s.lock.readers ≠ []) : s.value = s.log.foldl f v := by
  rw [hs.folded, hs.owned (hs.exclusive hreaders), Option.elim_none]

theorem Coherent.quiet {v : V} {s : Guarded T V A} (hs : s.Coherent f v)
    (hwriter : s.lock.writer = none) : s.value = s.log.foldl f v := by
  rw [hs.folded, hs.owned hwriter, Option.elim_none]

end Guarded
end RwLock
