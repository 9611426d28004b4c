import BeastRouter.Foundation.Unwinding
import BeastRouter.Server

namespace BeastRouter.Host
variable {M Rq B U Sm : Type} (C : Setting M Rq B U Sm Unit)

def concerns (i : ℕ) : Event M Rq B U Sm Unit → Bool
  | .session j _ => j == i
  | _ => true

structure Alike (i : ℕ) (h h' : Host M Rq B U Sm Unit) : Prop where
  heap : h'.heap = h.heap
  router : h'.router = h.router
  count : h'.sessions.length = h.sessions.length
  session : h'.sessions[i]? = h.sessions[i]?
  running : h.thrown = none → h'.thrown = none

theorem Alike.dispatch_eq {i : ℕ} {h h' : Host M Rq B U Sm Unit} (ha : Alike i h h')
    (message : Rq) (s : Session M Rq B) : h'.dispatch C message s = h.dispatch C message s := by
  rw [dispatch, dispatch, ha.heap, ha.router]

theorem running_of_step {h t : Host M Rq B U Sm Unit} {e : Event M Rq B U Sm Unit}
    (hstep : h.step C e = some t) : h.thrown = none := by
  cases hthrown : h.thrown with
  | none => rfl
  | some path => cases e <;> simp [step, hthrown] at hstep

theorem alike_process {i : ℕ} {h h' t : Host M Rq B U Sm Unit} (ha : Alike i h h')
    (hgoes : h.thrown = none) {messages : List Rq} {s : Session M Rq B}
    (hp : h.process C i messages s = some t) :
    ∃ t', h'.process C i messages s = some t' ∧ Alike i t t' := by
  cases messages with
  | nil =>
    obtain rfl := Option.some.inj hp
    exact ⟨_, rfl, ha.heap, ha.router, by simpa using ha.count,
      by simp only [List.getElem?_set, ha.count, ha.session], fun _ => ha.running hgoes⟩
  | cons message messages =>
    obtain ⟨d, hd, rfl⟩ := Option.map_eq_some_iff.mp hp
    refine ⟨_, Option.map_eq_some_iff.mpr ⟨d, (ha.dispatch_eq C message s).trans hd, rfl⟩,
      ?_⟩
    exact ⟨ha.heap, ha.router, by simpa using ha.count,
      by simp only [List.getElem?_set, ha.count, ha.session], id⟩

theorem process_frame {i j : ℕ} {h t : Host M Rq B U Sm Unit} {messages : List Rq}
    {s : Session M Rq B} (hj : j ≠ i) (hp : h.process C j messages s = some t) :
    t.heap = h.heap ∧ t.router = h.router ∧ t.sessions.length = h.sessions.length ∧
      t.sessions[i]? = h.sessions[i]? := by
  cases messages with
  | nil =>
    obtain rfl := Option.some.inj hp
    exact ⟨rfl, rfl, List.length_set, List.getElem?_set_ne hj⟩
  | cons message messages =>
    obtain ⟨d, -, rfl⟩ := Option.map_eq_some_iff.mp hp
    exact ⟨rfl, rfl, List.length_set, List.getElem?_set_ne hj⟩

theorem unwinding (i : ℕ) : Transition.Unwinding (step C) (concerns i) (Alike i) where
  skip := by
    intro h h' e t he ha hstep
    have hgoes := running_of_step C hstep
    cases e with
    | session j e =>
      have hj : j ≠ i := by simpa [concerns] using he
      simp only [step, hgoes, Option.isSome_none, Bool.false_eq_true, if_false] at hstep
      obtain ⟨s, hs, hstep⟩ := Option.bind_eq_some_iff.mp hstep
      obtain ⟨u, hu, hprocess⟩ := Option.bind_eq_some_iff.mp hstep
      obtain ⟨hheap, hrouter, hcount, hsession⟩ := process_frame C hj hprocess
      exact ⟨ha.heap.trans hheap.symm, ha.router.trans hrouter.symm, ha.count.trans hcount.symm,
        ha.session.trans hsession.symm, fun _ => ha.running hgoes⟩
    | _ => cases he
  keep := by
    intro h h' e t he ha hstep
    have hgoes := running_of_step C hstep
    have hgoes' := ha.running hgoes
    cases e with
    | register reg =>
      simp only [step, hgoes, hgoes', Option.isSome_none, Bool.false_or] at hstep ⊢
      split_ifs at hstep ⊢
      obtain rfl := Option.some.inj hstep
      refine ⟨_, rfl, ?_, ha.router, ha.count, ha.session, fun _ => rfl⟩
      simp only [ha.heap, ha.router]
    | initContext isSsl onError isOpen now =>
      simp only [step, hgoes, hgoes', Option.isSome_none, Bool.false_eq_true, if_false] at hstep ⊢
      obtain rfl := Option.some.inj hstep
      refine ⟨_, rfl, ha.heap, ha.router, by simp [ha.count], ?_, fun _ => rfl⟩
      simp only [List.getElem?_append, ha.count, ha.session]
    | session j e =>
      obtain rfl : j = i := by simpa [concerns] using he
      simp only [step, hgoes, hgoes', Option.isSome_none, Bool.false_eq_true, if_false] at hstep ⊢
      obtain ⟨s, hs, hstep⟩ := Option.bind_eq_some_iff.mp hstep
      obtain ⟨u, hu, hprocess⟩ := Option.bind_eq_some_iff.mp hstep
      obtain ⟨t', ht', halike⟩ := alike_process C ha hgoes hprocess
      refine ⟨t', ?_, halike⟩
      rw [ha.session, hs, Option.bind_some, hu, Option.bind_some]
      exact ht'

theorem session_isolated (es : List (Event M Rq B U Sm Unit)) (t : Host M Rq B U Sm Unit)
    (hr : run C (init C ()) es = some t) (i : ℕ) :
    ∃ t', run C (init C ()) (es.filter (concerns i)) = some t' ∧
      t'.sessions[i]? = t.sessions[i]? := by
  have hstart : Alike i (init C () : Host M Rq B U Sm Unit) (init C ()) :=
    ⟨rfl, rfl, rfl, rfl, id⟩
  obtain ⟨t', ht', halike⟩ := (unwinding C i).run_purged hstart hr
  exact ⟨t', ht', halike.session⟩

theorem session_isolated_request :
    ∃ t t', run .sampleServer (init .sampleServer ())
        (sampleRequest ++ [.initContext false true true 0, .session 1 (.call .recv)]) = some t ∧
      run .sampleServer (init .sampleServer ())
        [.initContext false true true 0, .initContext false true true 0,
          .session 1 (.call .recv)] = some t' ∧
      t'.sessions[1]? = t.sessions[1]? := by
  obtain ⟨t', ht', heq⟩ := session_isolated .sampleServer
    (sampleRequest ++ [.initContext false true true 0, .session 1 (.call .recv)]) _ rfl 1
  exact ⟨_, t', rfl, ht', heq⟩

end BeastRouter.Host
