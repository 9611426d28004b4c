import BeastRouter.Listener.Close

namespace BeastRouter

def OnAccept.completion : OnAccept → Option Completion
  | .entered c => some c
  | .posted => none

namespace Listener

inductive Callback where
  | onAccept (socket : ℕ)
  | onError (ec : ErrorCode) (what : String)
  deriving DecidableEq, Repr

namespace Callback

def socket : Callback → Option ℕ
  | onAccept socket => some socket
  | onError _ _ => none

def error : Callback → Option (ErrorCode × String)
  | onAccept _ => none
  | onError ec what => some (ec, what)

end Callback

def announce (onError : Bool) (c : Completion) : List Callback :=
  if c.ec.failed then (if onError then [.onError c.ec "accept/loop"] else [])
  else c.socket.toList.map .onAccept

def spawned (s : Listener) : Event → List Completion
  | .runStrand => s.strand.head?.toList
  | _ => []

def callbacks (s : Listener) (e : Event) : List Callback :=
  (s.spawned e).flatMap (announce s.onError)

def finished (s : Listener) : Event → List Completion
  | .acceptCompleted i => (s.accepts[i]?.bind Accept.result).toList
  | _ => []

def waiting (s : Listener) : List Completion := s.strand ++ s.calls.filterMap OnAccept.completion

def pending (s : Listener) : List Completion := s.waiting ++ s.accepts.filterMap Accept.result

theorem Sound.accepts_eq {s : Listener} (hs : s.Sound) {i : ℕ} {a : Accept}
    (hi : s.accepts[i]? = some a) : i = 0 ∧ s.accepts = [a] ∧ s.calls = [] := by
  obtain ⟨hlt, hget⟩ := List.getElem?_eq_some_iff.mp hi
  have hone := hs.one
  obtain ⟨b, hb⟩ := List.length_eq_one_iff.mp (show s.accepts.length = 1 by omega)
  have hzero : i = 0 := by omega
  subst hzero
  refine ⟨rfl, ?_, List.length_eq_zero_iff.mp (by omega)⟩
  simpa [hb] using hi

theorem Sound.calls_eq {s : Listener} (hs : s.Sound) {i : ℕ} {k : OnAccept}
    (hi : s.calls[i]? = some k) : i = 0 ∧ s.calls = [k] ∧ s.accepts = [] := by
  obtain ⟨hlt, hget⟩ := List.getElem?_eq_some_iff.mp hi
  have hone := hs.one
  obtain ⟨b, hb⟩ := List.length_eq_one_iff.mp (show s.calls.length = 1 by omega)
  have hzero : i = 0 := by omega
  subst hzero
  refine ⟨rfl, ?_, List.length_eq_zero_iff.mp (by omega)⟩
  simpa [hb] using hi

theorem waiting_step {s t : Listener} {e : Event} (hs : s.Sound) (h : s.step e = some t) :
    s.waiting ++ s.finished e = s.spawned e ++ t.waiting := by
  cases moves_of_step h with
  | loop setup =>
    rcases loop_cases setup s with ⟨-, isOpen, errors, heq⟩ | ⟨-, heq⟩ <;>
      simp [heq, waiting, finished, spawned, doAccept]
  | close => simp [waiting, finished, spawned, close]
  | acceptReady i ec => simp [waiting, finished, spawned, acceptReady]
  | acceptCompleted i c atClose hi =>
    obtain ⟨rfl, haccepts, hcalls⟩ := hs.accepts_eq hi
    simp [waiting, finished, spawned, enterOnAccept, haccepts, hcalls, OnAccept.completion]
  | post i c hi =>
    obtain ⟨rfl, hcalls, -⟩ := hs.calls_eq hi
    simp [waiting, finished, spawned, postSpawnConnect, hcalls, OnAccept.completion]
  | rearm i hi =>
    obtain ⟨rfl, hcalls, -⟩ := hs.calls_eq hi
    simp [waiting, finished, spawned, leaveOnAccept, doAccept, hcalls, OnAccept.completion]
  | runStrand c strand hstrand =>
    obtain ⟨delivered, errors, heq⟩ := onSpawnConnect_eq c { s with strand := strand }
    simp [heq, waiting, finished, spawned, hstrand]

theorem onSpawnConnect_announces (c : Completion) (s : Listener) :
    (s.onSpawnConnect c).delivered =
      s.delivered ++ (announce s.onError c).filterMap Callback.socket ∧
    (s.onSpawnConnect c).errors = s.errors ++ (announce s.onError c).filterMap Callback.error := by
  obtain ⟨ec, socket⟩ := c
  unfold onSpawnConnect announce report
  split_ifs
  · exact ⟨by simp [Callback.socket], by simp [Callback.error]⟩
  · exact ⟨by simp, by simp⟩
  · cases socket with
    | none => exact ⟨rfl, by simp⟩
    | some socket => exact ⟨by simp [Callback.socket], by simp [Callback.error]⟩

theorem announced_step {s t : Listener} {e : Event} (hlaunched : s.launched = true)
    (h : s.step e = some t) :
    t.delivered = s.delivered ++ (s.callbacks e).filterMap Callback.socket ∧
    t.errors = s.errors ++ (s.callbacks e).filterMap Callback.error := by
  cases moves_of_step h with
  | loop setup hnot => simp [hlaunched] at hnot
  | runStrand c strand hstrand =>
    have hcallbacks : s.callbacks .runStrand = announce s.onError c := by
      simp [callbacks, spawned, hstrand]
    rw [hcallbacks]
    exact onSpawnConnect_announces c { s with strand := strand }
  | close | acceptReady | acceptCompleted | post | rearm =>
    constructor <;>
      simp [callbacks, spawned, close, acceptReady, enterOnAccept, postSpawnConnect,
        leaveOnAccept, doAccept]

theorem launched_step {s t : Listener} {e : Event} (hs : s.launched = true)
    (h : s.step e = some t) : t.launched = true ∧ t.onError = s.onError := by
  cases moves_of_step h with
  | loop setup hnot => simp [hs] at hnot
  | runStrand c strand hstrand =>
    obtain ⟨delivered, errors, heq⟩ := onSpawnConnect_eq c { s with strand := strand }
    rw [heq]
    exact ⟨hs, rfl⟩
  | close | acceptReady | acceptCompleted | post | rearm => exact ⟨hs, rfl⟩

def Proper (c : Completion) : Prop := c.socket.isSome = !c.ec.failed

structure Orderly (s : Listener) : Prop where
  proper : ∀ c ∈ s.pending, Proper c
  accepted_eq : s.accepted = s.delivered ++ s.pending.filterMap Completion.socket
  numbered : s.accepted = List.range s.accepted.length

theorem orderly_of_pending {s t : Listener} (failed : List Completion) (hs : s.Orderly)
    (haccepted : t.accepted = s.accepted) (hdelivered : t.delivered = s.delivered)
    (hpending : t.pending = s.pending ++ failed)
    (hfailed : ∀ c ∈ failed, c.ec.failed = true ∧ c.socket = none) : t.Orderly := by
  have hnone : failed.filterMap Completion.socket = [] :=
    List.filterMap_eq_nil_iff.mpr fun c hc => (hfailed c hc).2
  constructor
  · intro c hc
    rw [hpending] at hc
    rcases List.mem_append.mp hc with hc | hc
    · exact hs.proper c hc
    · simp [Proper, hfailed c hc]
  · rw [haccepted, hdelivered, hpending, List.filterMap_append, hnone, List.append_nil]
    exact hs.accepted_eq
  · rw [haccepted]
    exact hs.numbered

theorem orderly_doAccept {s : Listener} (hs : s.Orderly) (haccepts : s.accepts = []) :
    s.doAccept.Orderly := by
  cases hopen : s.isOpen with
  | true =>
    refine orderly_of_pending [] hs rfl rfl ?_ (by simp)
    simp [pending, waiting, doAccept, haccepts, hopen]
  | false =>
    refine orderly_of_pending [⟨.badDescriptor, none⟩] hs rfl rfl ?_ ?_
    · simp [pending, waiting, doAccept, haccepts, hopen]
    · simp [ErrorCode.failed]

theorem orderly_close {s : Listener} (hsound : s.Sound) (hs : s.Orderly) : s.close.Orderly := by
  cases haccepts : s.accepts with
  | nil =>
    refine orderly_of_pending [] hs rfl rfl ?_ (by simp)
    simp [pending, waiting, close, haccepts]
  | cons a rest =>
    have hone := hsound.one
    rw [haccepts, List.length_cons] at hone
    have hrest : rest = [] := List.length_eq_zero_iff.mp (by omega)
    obtain ⟨result, atClose⟩ := a
    cases result with
    | none =>
      refine orderly_of_pending [⟨.operationAborted, none⟩] hs rfl rfl ?_ ?_
      · simp [pending, waiting, close, haccepts, hrest, abort]
      · simp [ErrorCode.failed]
    | some c =>
      refine orderly_of_pending [] hs rfl rfl ?_ (by simp)
      simp [pending, waiting, close, haccepts, hrest, abort]

theorem orderly_acceptReady {s : Listener} {ec : ErrorCode} {atClose : Bool} (hs : s.Orderly)
    (haccepts : s.accepts = [⟨none, atClose⟩]) : (s.acceptReady 0 ec).Orderly := by
  obtain ⟨hproper, haccepted, hnumbered⟩ := hs
  have hpending : (s.acceptReady 0 ec).pending =
      s.pending ++ [⟨ec, if ec.failed then none else some s.accepted.length⟩] := by
    simp [pending, waiting, acceptReady, haccepts]
  constructor
  · intro c hc
    rw [hpending] at hc
    rcases List.mem_append.mp hc with hc | hc
    · exact hproper c hc
    · rw [List.mem_singleton.mp hc]
      cases hec : ec.failed <;> simp [Proper, hec]
  · rw [hpending, List.filterMap_append, ← List.append_assoc]
    cases hec : ec.failed <;> simp [acceptReady, hec, ← haccepted]
  · cases hec : ec.failed with
    | true => simpa [acceptReady, hec] using hnumbered
    | false => simpa [acceptReady, hec, List.range_succ] using hnumbered

theorem filterMap_announce {c : Completion} (onError : Bool) (hc : Proper c) :
    (announce onError c).filterMap Callback.socket = c.socket.toList := by
  obtain ⟨ec, socket⟩ := c
  cases hec : ec.failed with
  | true =>
    have hsocket : socket = none := by simpa [Proper, hec] using hc
    cases onError <;> simp [announce, hec, hsocket, Callback.socket]
  | false =>
    have hsocket : socket.isSome = true := by simpa [Proper, hec] using hc
    obtain ⟨socket, rfl⟩ := Option.isSome_iff_exists.mp hsocket
    simp [announce, hec, Callback.socket]

theorem orderly_runStrand {s t : Listener} {c : Completion} {strand : List Completion}
    (hs : s.Orderly) (hstrand : s.strand = c :: strand)
    (ht : onSpawnConnect c { s with strand := strand } = t) : t.Orderly := by
  obtain ⟨hproper, haccepted, hnumbered⟩ := hs
  have hsame : t.accepted = s.accepted ∧ s.pending = c :: t.pending := by
    obtain ⟨delivered, errors, heq⟩ := onSpawnConnect_eq c { s with strand := strand }
    rw [← ht, heq]
    exact ⟨rfl, by simp [pending, waiting, hstrand]⟩
  have hdelivered : t.delivered = s.delivered ++ c.socket.toList := by
    have hannounced := (onSpawnConnect_announces c { s with strand := strand }).1
    rw [ht, filterMap_announce s.onError (hproper c (by simp [hsame.2]))] at hannounced
    exact hannounced
  rw [hsame.2] at hproper haccepted
  refine ⟨fun c' hc' => hproper c' (.tail c hc'), ?_, hsame.1.symm ▸ hnumbered⟩
  rw [hsame.1, haccepted, hdelivered, List.append_assoc]
  cases hsocket : c.socket <;> simp [hsocket]

theorem orderly_step (s : Listener) (e : Event) (t : Listener) (hsound : s.Sound) (hs : s.Orderly)
    (h : s.step e = some t) : t.Orderly := by
  cases moves_of_step h with
  | loop setup hlaunched =>
    have hnone : s.accepts = [] := by
      have hone := hsound.one
      have hstarted := (hsound.unlaunched hlaunched).1
      exact List.length_eq_zero_iff.mp (by omega)
    rcases loop_cases setup s with ⟨-, isOpen, errors, heq⟩ | ⟨-, heq⟩
    · rw [heq]
      exact ⟨hs.proper, hs.accepted_eq, hs.numbered⟩
    · rw [heq]
      exact orderly_doAccept ⟨hs.proper, hs.accepted_eq, hs.numbered⟩ hnone
  | close => exact orderly_close hsound hs
  | acceptReady i ec atClose hi =>
    obtain ⟨rfl, haccepts, -⟩ := hsound.accepts_eq hi
    exact orderly_acceptReady hs haccepts
  | acceptCompleted i c atClose hi =>
    obtain ⟨rfl, haccepts, hcalls⟩ := hsound.accepts_eq hi
    refine orderly_of_pending [] hs rfl rfl ?_ (by simp)
    simp [pending, waiting, enterOnAccept, haccepts, hcalls, OnAccept.completion]
  | post i c hi =>
    obtain ⟨rfl, hcalls, -⟩ := hsound.calls_eq hi
    refine orderly_of_pending [] hs rfl rfl ?_ (by simp)
    simp [pending, waiting, postSpawnConnect, hcalls, OnAccept.completion]
  | rearm i hi =>
    obtain ⟨rfl, hcalls, haccepts⟩ := hsound.calls_eq hi
    refine orderly_doAccept ?_ haccepts
    refine orderly_of_pending [] hs rfl rfl ?_ (by simp)
    simp [pending, waiting, hcalls, OnAccept.completion]
  | runStrand c strand hstrand => exact orderly_runStrand hs hstrand rfl

theorem collect_callbacks {es : List Event} {s t : Listener} (hs : s.launched = true)
    (hr : run s es = some t) :
    Transition.collect step callbacks s es =
      (Transition.collect step spawned s es).flatMap (announce s.onError) := by
  induction es generalizing s with
  | nil => rfl
  | cons e es ih =>
    obtain ⟨u, hu, hr⟩ := Transition.run_cons.mp hr
    obtain ⟨hlaunched, honError⟩ := launched_step hs hu
    rw [Transition.collect, Transition.collect, hu, Option.elim_some, Option.elim_some,
      ih hlaunched hr, honError, List.flatMap_append, callbacks]

theorem filterMap_announced {served : List Completion} (onError : Bool)
    (hserved : ∀ c ∈ served, Proper c) :
    (served.flatMap (announce onError)).filterMap Callback.socket =
      served.filterMap Completion.socket := by
  induction served with
  | nil => rfl
  | cons c served ih =>
    have hc := filterMap_announce onError (hserved c (.head _))
    rw [List.flatMap_cons, List.filterMap_append, hc, ih fun d hd => hserved d (.tail c hd)]
    cases hsocket : c.socket <;> simp [hsocket]

theorem proper_finished {s : Listener} (hs : s.Orderly) (e : Event) :
    ∀ c ∈ s.finished e, Proper c := by
  intro c hc
  cases e with
  | acceptCompleted i =>
    obtain ⟨a, ha, hresult⟩ := Option.bind_eq_some_iff.mp (Option.mem_toList.mp hc)
    refine hs.proper c (List.mem_append_right _ ?_)
    exact List.mem_filterMap.mpr ⟨a, List.mem_of_getElem? ha, hresult⟩
  | _ => simp [finished] at hc

structure InOrder (onError : Bool) (completions : List Completion) (called : List Callback)
    (s : Listener) : Prop where
  one : s.accepts.length + s.calls.length = 1
  delivered : s.delivered <+: s.accepted
  distinct : s.accepted.Nodup
  accepted :
    s.accepted = (completions ++ s.accepts.filterMap Accept.result).filterMap Completion.socket
  proper : ∀ c ∈ completions, Proper c
  announced : ∃ served,
    completions = served ++ s.waiting ∧ called = served.flatMap (announce onError)
  sockets : s.delivered = called.filterMap Callback.socket
  errors : s.errors = called.filterMap Callback.error

theorem inOrder_run {s t : Listener} {es : List Event} (hsound : s.Sound) (hs : s.Orderly)
    (hlaunched : s.launched = true) (hstarted : s.started ≠ 0) (hwaiting : s.waiting = [])
    (hdelivered : s.delivered = []) (herrors : s.errors = []) (hr : run s es = some t) :
    t.InOrder s.onError (Transition.collect step finished s es)
      (Transition.collect step callbacks s es) := by
  have hstep (s : Listener) (e : Event) (t : Listener) (hs : s.Sound ∧ s.Orderly)
      (h : s.step e = some t) : t.Sound ∧ t.Orderly :=
    ⟨sound_step s e t hs.1 h, orderly_step s e t hs.1 hs.2 h⟩
  have hlaunch (s : Listener) (e : Event) (t : Listener) (hs : s.launched = true)
      (h : s.step e = some t) : t.launched = true := (launched_step hs h).1
  obtain ⟨hsound', horderly⟩ := Transition.run_invariant hstep ⟨hsound, hs⟩ hr
  have hconserved := Transition.collect_conserved sound_step (fun s e t => waiting_step) hsound hr
  have hproper := Transition.collect_forall hstep (fun s e hs => proper_finished hs.2 e)
    ⟨hsound, hs⟩ es
  have hcalled := collect_callbacks hlaunched hr
  have hsockets := Transition.collect_eq_invariant hlaunch
    (fun s e t hs h => (announced_step hs h).1) hlaunched hr
  have hreports := Transition.collect_eq_invariant hlaunch
    (fun s e t hs h => (announced_step hs h).2) hlaunched hr
  rw [hwaiting, List.nil_append] at hconserved
  rw [hdelivered, List.nil_append, Transition.collect_filterMap] at hsockets
  rw [herrors, List.nil_append, Transition.collect_filterMap] at hreports
  have hserved : t.delivered =
      (Transition.collect step spawned s es).filterMap Completion.socket := by
    rw [hsockets, hcalled, filterMap_announced]
    intro c hc
    exact hproper c (hconserved ▸ List.mem_append_left _ hc)
  refine ⟨?_, ⟨_, horderly.accepted_eq.symm⟩, ?_, ?_, hproper, ⟨_, hconserved, hcalled⟩,
    hsockets, hreports⟩
  · have hone := hsound'.one
    have hpositive : t.started ≠ 0 :=
      fun h => hstarted ((started_eq_zero_iff hsound hr).mp h).1
    omega
  · exact horderly.numbered ▸ List.nodup_range
  · rw [horderly.accepted_eq, hserved, hconserved, pending, ← List.filterMap_append,
      List.append_assoc]

theorem orderly_init (onError : Bool) : (init onError).Orderly :=
  ⟨by simp [pending, waiting, init], rfl, rfl⟩

theorem delivered_in_order (onError : Bool) (setup : Setup) (hsetup : setup.failed = false)
    (es : List Event) (t : Listener) (hr : run (init onError) (.loop setup :: es) = some t) :
    t.InOrder onError (Transition.collect step finished (init onError) (.loop setup :: es))
      (Transition.collect step callbacks (init onError) (.loop setup :: es)) := by
  obtain ⟨u, hu, hrest⟩ := Transition.run_cons.mp hr
  have hsound := sound_step _ _ u (sound_init onError) hu
  have horderly := orderly_step _ _ u (sound_init onError) (orderly_init onError) hu
  have hfresh : u = doAccept { init onError with launched := true, isOpen := true } := by
    rcases loop_cases setup (init onError) with ⟨hfailed, -⟩ | ⟨-, heq⟩
    · simp [hsetup] at hfailed
    · exact (Option.some.inj hu).symm.trans heq
  have hcollect {O : Type} (f : Listener → Event → List O)
      (hf : f (init onError) (.loop setup) = []) :
      Transition.collect step f (init onError) (.loop setup :: es) =
        Transition.collect step f u es := by
    rw [Transition.collect, hf, hu, Option.elim_some, List.nil_append]
  rw [hcollect finished rfl, hcollect callbacks rfl]
  subst hfresh
  exact inOrder_run hsound horderly rfl Nat.one_ne_zero rfl rfl rfl hrest

theorem delivered_in_order_past_failures :
    ∃ t, run (init true)
        [.loop ⟨.success, .success, .success, .success⟩, .acceptReady 0 .success,
          .acceptCompleted 0, .post 0, .rearm 0, .acceptReady 0 (.other 103), .acceptCompleted 0,
          .post 0, .runStrand, .rearm 0, .runStrand, .acceptReady 0 .success] = some t ∧
      t.delivered = [0] ∧ t.errors = [(.other 103, "accept/loop")] ∧ t.accepted = [0, 1] ∧
      t.delivered <+: t.accepted := by
  refine ⟨_, rfl, rfl, rfl, rfl, ?_⟩
  exact (delivered_in_order true ⟨.success, .success, .success, .success⟩ rfl
    [.acceptReady 0 .success, .acceptCompleted 0, .post 0, .rearm 0,
      .acceptReady 0 (.other 103), .acceptCompleted 0, .post 0, .runStrand, .rearm 0, .runStrand,
      .acceptReady 0 .success] _ rfl).delivered

end Listener
end BeastRouter
