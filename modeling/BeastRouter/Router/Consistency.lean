import Mathlib.Data.List.TakeWhile
import BeastRouter.Router.Concurrent

namespace BeastRouter

def Entry.visit {Rq U Sm W : Type} (e : Entry Rq U Sm W) : Visit Rq U Sm W :=
  ⟨e.method, e.path, e.storage, e.sm⟩

namespace System
open RwLock (Lock Guarded Access)
variable {T Rq U Sm W : Type} (D : Deployment Rq U Sm W)

def tableOf (regs : List (Registration Rq U Sm W)) : MethodMap Rq U Sm W :=
  Dispatcher.deployed D.http D.order D.isRequest D.base [] regs

def install (map : MethodMap Rq U Sm W) (reg : Registration Rq U Sm W) : MethodMap Rq U Sm W :=
  MethodMap.addResource reg.path reg.method (.new D.order reg.chain.1) map

theorem allocated_registerAll (regs : List (Registration Rq U Sm W)) :
    (router D).methodMap < (regs.foldl ((router D).register D.order)
      (Router.new D.http D.order D.isRequest D.base).2).maps.length := by
  rw [Router.length_registerAll]
  simp only [router, Router.new]
  split_ifs
  · simp [Router.notFound, Router.addResource, Heap.length_update]
  · simp

theorem tableOf_eq (regs : List (Registration Rq U Sm W)) :
    tableOf D regs = regs.foldl (install D) (tableOf D []) := by
  induction regs using List.reverseRecOn with
  | nil => rfl
  | append_singleton regs reg ih =>
    have hload := Router.load_register D.order (router D) (allocated_registerAll D regs) reg
    rw [List.foldl_append, ← ih]
    change ((regs ++ [reg]).foldl ((router D).register D.order) _).load (router D).methodMap = _
    rw [List.foldl_append]
    exact hload

def pending (s : System T Rq U Sm W) : Option (Registration Rq U Sm W) :=
  s.lock.writer.bind fun t => (s.threads t).head?.bind Frame.pending

def guarded (s : System T Rq U Sm W) :
    Guarded T (MethodMap Rq U Sm W) (Registration Rq U Sm W) where
  lock := s.lock
  value := table D s.heap
  log := s.log.map Prod.snd
  pending := pending s

section
variable [DecidableEq T]

theorem pending_setFrames {s : System T Rq U Sm W} {t : T} (h : s.lock.writer ≠ some t)
    (frames : List (Frame Rq U Sm W)) : pending (s.setFrames t frames) = pending s := by
  refine Option.bind_congr fun u hu => ?_
  have hne : u ≠ t := by
    rintro rfl
    exact h hu
  simp [setFrames, hne]

namespace Sound
variable {D} {s : System T Rq U Sm W}

theorem readers_ne_nil (hs : s.Sound D) {t : T} {frame : Frame Rq U Sm W}
    (ht : frame ∈ s.threads t) (hframe : frame.isReading = true) : s.lock.readers ≠ [] := by
  have hcount : 0 < s.lock.readers.count t := by
    rw [← hs.reading]
    exact List.countP_pos_iff.mpr ⟨frame, ht, hframe⟩
  exact List.ne_nil_of_mem (List.count_pos_iff.mp hcount)

theorem writer_eq_none (hs : s.Sound D) {t : T} {frame : Frame Rq U Sm W}
    {frames : List (Frame Rq U Sm W)} (ht : s.threads t = frame :: frames)
    (hframe : frame.isReading = true) : s.lock.writer = none := by
  have hmem : frame ∈ s.threads t := by
    rw [ht]
    exact .head frames
  exact hs.exclusive (hs.readers_ne_nil hmem hframe)

theorem writer_eq_some (hs : s.Sound D) {t : T} {frame : Frame Rq U Sm W}
    {frames : List (Frame Rq U Sm W)} (ht : s.threads t = frame :: frames)
    (hframe : frame.isWriting = true) : s.lock.writer = some t := by
  rw [← hs.writing, ht, List.any_cons, hframe, Bool.true_or]

end Sound

theorem pending_reading {s : System T Rq U Sm W} (hs : s.Sound D) {t : T}
    {frame : Frame Rq U Sm W} {frames : List (Frame Rq U Sm W)}
    (ht : s.threads t = frame :: frames) (hframe : frame.isReading = true)
    (frames' : List (Frame Rq U Sm W)) : pending (s.setFrames t frames') = pending s := by
  refine pending_setFrames ?_ frames'
  rw [hs.writer_eq_none ht hframe]
  exact (Option.some_ne_none t).symm

theorem guarded_step {s s' : System T Rq U Sm W} {e : Event T Rq U Sm W} (hs : s.Sound D)
    (h : s.step D e = some s') :
    guarded D s' = guarded D s ∨
      ∃ a : Access T (Registration Rq U Sm W),
        (guarded D s).step (install D) a = some (guarded D s') := by
  cases moves_of_step D h with
  | call t op ht =>
    have hwriter : s.lock.writer ≠ some t := by
      rw [ne_eq, ← hs.writing, ht]
      exact Bool.false_ne_true
    exact .inl (congrArg (Guarded.mk _ _ _) (pending_setFrames hwriter _))
  | handlerRegisters t reg p v fallback frames ht =>
    exact .inl (congrArg (Guarded.mk _ _ _) (pending_reading D hs ht rfl _))
  | lockWrite t reg frames ht hwriter hreaders =>
    refine .inr ⟨.lock t reg, ?_⟩
    simp [Guarded.step, guarded, Lock.lock, hwriter, hreaders, setFrames, pending, Frame.pending]
  | lockRead t request frames ht hwriter =>
    refine .inr ⟨.lockShared t, ?_⟩
    simp [Guarded.step, guarded, Lock.lockShared, hwriter, setFrames, pending]
  | update t reg frames ht =>
    have hwriter := hs.writer_eq_some ht rfl
    have htable : table D ((router D).register D.order s.heap reg) =
        install D (table D s.heap) reg := Router.load_register D.order (router D) hs.allocated reg
    refine .inr ⟨.apply t, ?_⟩
    simp [Guarded.step, guarded, hwriter, setFrames, pending, Frame.pending, ht, htable]
  | visit t p frame frames ht hnext =>
    exact .inl (congrArg (Guarded.mk _ _ _) (pending_reading D hs ht rfl _))
  | runChain t p v fallback frames ht =>
    exact .inl (congrArg (Guarded.mk _ _ _) (pending_reading D hs ht rfl _))
  | unlockWrite t frames ht hwriter =>
    refine .inr ⟨.unlock t, ?_⟩
    simp [Guarded.step, guarded, Lock.unlock, hwriter, setFrames, pending, Frame.pending, ht]
  | unlockRead t p frames ht hreader =>
    have hwriter := hs.exclusive (List.ne_nil_of_mem hreader)
    refine .inr ⟨.unlockShared t, ?_⟩
    simp [Guarded.step, guarded, Lock.unlockShared, hreader, hwriter, setFrames, pending]

end

def isWellFormed (val : Σ _ : String, Storage Rq U Sm W) : Bool := (D.http.regex val.1).isSome

def chosen (request : Rq) (vals : List (Σ _ : String, Storage Rq U Sm W)) :
    List (Visit Rq U Sm W) :=
  vals.filterMap fun val =>
    (Dispatcher.matchOf D.http request val.1).map fun sm =>
      ⟨D.http.method request, val.1, val.2, sm⟩

def routes (map : MethodMap Rq U Sm W) (request : Rq) : List (Visit Rq U Sm W) :=
  chosen D request ((resources D map request).takeWhile (isWellFormed D))

def notFound (map : MethodMap Rq U Sm W) : Option (Visit Rq U Sm W) :=
  (map.find .unknown "").map fun storage => ⟨.unknown, "", storage, D.http.emptyMatch⟩

structure Served (map : MethodMap Rq U Sm W) (request : Rq) (d : Dispatch Rq U Sm W) : Prop where
  error : d.regexError =
    ((resources D map request).find? fun val => !isWellFormed D val).map Sigma.fst
  entered : d.entered.map Entry.visit =
    routes D map request ++
      if d.regexError.isSome ||
          (d.entered.take (routes D map request).length).any fun e => (e.outcome request).verdict
        then [] else (notFound D map).toList
  fresh : ∀ e ∈ d.entered, e.ctx = ⟨none⟩

structure Looping (map : MethodMap Rq U Sm W) (p : Progress Rq U Sm W) : Prop where
  wellFormed : ∀ val ∈ (resources D map p.request).take p.position, isWellFormed D val = true
  error : p.dispatch.regexError = none
  entered : p.dispatch.entered.map Entry.visit =
    chosen D p.request ((resources D map p.request).take p.position)
  handled : p.dispatch.isHandled = p.dispatch.entered.any fun e => (e.outcome p.request).verdict
  fresh : ∀ e ∈ p.dispatch.entered, e.ctx = ⟨none⟩

def Accurate : Frame Rq U Sm W → Prop
  | .loop p => Looping D (tableOf D p.before) p
  | .chain p v false =>
    Looping D (tableOf D p.before) p ∧
      ∃ val, (resources D (tableOf D p.before) p.request)[p.position]? = some val ∧
        isWellFormed D val = true ∧ chosen D p.request [val] = [v]
  | .chain p v true =>
    Looping D (tableOf D p.before) p ∧
      (resources D (tableOf D p.before) p.request)[p.position]? = none ∧
      p.dispatch.isHandled = false ∧ notFound D (tableOf D p.before) = some v
  | .leaveRead p => Served D (tableOf D p.before) p.request p.dispatch
  | _ => True

namespace Looping
variable {D} {map : MethodMap Rq U Sm W} {p : Progress Rq U Sm W}

theorem thrown (h : Looping D map p) {val : Σ _ : String, Storage Rq U Sm W}
    (hget : (resources D map p.request)[p.position]? = some val)
    (hnone : D.http.regex val.1 = none) :
    Served D map p.request { p.dispatch with regexError := some val.1 } := by
  have hill : isWellFormed D val = false := by rw [isWellFormed, hnone, Option.isSome_none]
  have hsplit : resources D map p.request =
      (resources D map p.request).take p.position ++
        val :: (resources D map p.request).drop (p.position + 1) := by
    obtain ⟨hlt, rfl⟩ := List.getElem?_eq_some_iff.mp hget
    rw [← List.drop_eq_getElem_cons hlt, List.take_append_drop]
  refine ⟨?_, ?_, h.fresh⟩
  · have hfind :
        (resources D map p.request).find? (fun val => !isWellFormed D val) = some val := by
      refine List.find?_eq_some_iff_append.mpr ⟨by simp [hill], _, _, hsplit, fun v hv => ?_⟩
      simp [h.wellFormed v hv]
    rw [hfind, Option.map_some]
  · have hroutes : routes D map p.request =
        chosen D p.request ((resources D map p.request).take p.position) := by
      rw [routes, hsplit, List.takeWhile_append_of_pos h.wellFormed,
        List.takeWhile_cons_of_neg (by simp [hill]), List.append_nil, ← hsplit]
    rw [hroutes, Option.isSome_some, Bool.true_or, if_pos rfl, List.append_nil]
    exact h.entered

theorem finished (h : Looping D map p) (hget : (resources D map p.request)[p.position]? = none) :
    (resources D map p.request).find? (fun val => !isWellFormed D val) = none ∧
      p.dispatch.entered.map Entry.visit = routes D map p.request := by
  have hall : (resources D map p.request).take p.position = resources D map p.request :=
    List.take_of_length_le (List.getElem?_eq_none_iff.mp hget)
  have hwf := h.wellFormed
  have hentered := h.entered
  rw [hall] at hwf hentered
  refine ⟨List.find?_eq_none.mpr fun val hval => by simp [hwf val hval], ?_⟩
  rw [hentered, routes, List.takeWhile_eq_self_iff.mpr hwf]

theorem left (h : Looping D map p) (hget : (resources D map p.request)[p.position]? = none)
    (hend : p.dispatch.isHandled = true ∨ notFound D map = none) :
    Served D map p.request p.dispatch := by
  obtain ⟨hfind, hentered⟩ := h.finished hget
  refine ⟨?_, ?_, h.fresh⟩
  · rw [h.error, hfind, Option.map_none]
  · have hall : p.dispatch.entered.take (routes D map p.request).length = p.dispatch.entered := by
      rw [← hentered, List.length_map, List.take_length]
    rw [hall, h.error, ← h.handled, Option.isSome_none, Bool.false_or, hentered]
    rcases hend with hhandled | hnone
    · rw [if_pos hhandled, List.append_nil]
    · rw [hnone, Option.toList_none, ite_self, List.append_nil]

theorem fellBack (h : Looping D map p) (hget : (resources D map p.request)[p.position]? = none)
    (hhandled : p.dispatch.isHandled = false) {v : Visit Rq U Sm W} (hv : notFound D map = some v)
    (w : W) : Served D map p.request (ran w p v) := by
  obtain ⟨hfind, hentered⟩ := h.finished hget
  have hran : (ran w p v).entered =
      p.dispatch.entered ++ [⟨v.method, v.path, v.storage, v.sm, ⟨none⟩, w⟩] := rfl
  refine ⟨?_, ?_, ?_⟩
  · rw [hfind, Option.map_none]
    exact h.error
  · have hall : (ran w p v).entered.take (routes D map p.request).length = p.dispatch.entered := by
      rw [← hentered, List.length_map, hran, List.take_left]
    have herror : (ran w p v).regexError = none := h.error
    rw [hall, herror, ← h.handled, hhandled, Option.isSome_none, Bool.or_false,
      if_neg Bool.false_ne_true, hv, hran, List.map_append, hentered]
    rfl
  · rw [hran, List.forall_mem_append]
    exact ⟨h.fresh, by simp⟩

theorem skipped (h : Looping D map p) {val : Σ _ : String, Storage Rq U Sm W}
    (hget : (resources D map p.request)[p.position]? = some val)
    (hwf : isWellFormed D val = true) (hchosen : chosen D p.request [val] = []) :
    Looping D map { p with position := p.position + 1 } where
  wellFormed := by
    rw [List.take_add_one, hget, List.forall_mem_append]
    exact ⟨h.wellFormed, by simp [hwf]⟩
  error := h.error
  entered := by
    rw [List.take_add_one, hget, Option.toList_some, chosen, List.filterMap_append]
    change _ = _ ++ chosen D p.request [val]
    rw [hchosen, List.append_nil]
    exact h.entered
  handled := h.handled
  fresh := h.fresh

theorem chained (h : Looping D map p) {val : Σ _ : String, Storage Rq U Sm W}
    {v : Visit Rq U Sm W} (hget : (resources D map p.request)[p.position]? = some val)
    (hwf : isWellFormed D val = true) (hchosen : chosen D p.request [val] = [v]) (w : W) :
    Looping D map { p with position := p.position + 1, dispatch := ran w p v } where
  wellFormed := by
    rw [List.take_add_one, hget, List.forall_mem_append]
    exact ⟨h.wellFormed, by simp [hwf]⟩
  error := h.error
  entered := by
    rw [List.take_add_one, hget, Option.toList_some, chosen, List.filterMap_append]
    change (p.dispatch.entered ++ [_]).map Entry.visit = _ ++ chosen D p.request [val]
    rw [hchosen, List.map_append, h.entered]
    rfl
  handled := by
    change (_ || p.dispatch.isHandled) = (p.dispatch.entered ++ [_]).any _
    rw [h.handled, List.any_append, Bool.or_comm]
    simp
  fresh := by
    change ∀ e ∈ p.dispatch.entered ++ [_], e.ctx = ⟨none⟩
    rw [List.forall_mem_append]
    exact ⟨h.fresh, by simp⟩

end Looping

theorem accurate_nextResource {p : Progress Rq U Sm W} {frame : Frame Rq U Sm W}
    (h : Looping D (tableOf D p.before) p)
    (hnext : nextResource D (tableOf D p.before) p = some frame) : Accurate D frame := by
  unfold nextResource at hnext
  split at hnext
  · next val hget =>
    split at hnext
    · next hnone => exact Option.some.inj hnext ▸ h.thrown hget hnone
    · next re hre =>
      have hwf : isWellFormed D val = true := by rw [isWellFormed, hre, Option.isSome_some]
      have hmatch : Dispatcher.matchOf D.http p.request val.1 = re (D.http.target p.request) := by
        rw [Dispatcher.matchOf, hre, Option.bind_some]
      split at hnext
      · next hsm =>
        refine Option.some.inj hnext ▸ h.skipped hget hwf ?_
        simp [chosen, hmatch, hsm]
      · next sm hsm =>
        refine Option.some.inj hnext ▸ ⟨h, val, hget, hwf, ?_⟩
        simp [chosen, hmatch, hsm]
  · next hget =>
    split_ifs at hnext with hhandled
    · exact Option.some.inj hnext ▸ h.left hget (.inl hhandled)
    · obtain ⟨resourceMap, hunknown, rfl⟩ := Option.map_eq_some_iff.mp hnext
      split
      · next hnone =>
        refine h.left hget (.inr ?_)
        rw [notFound, MethodMap.find, hunknown, Option.bind_some, hnone, Option.map_none]
      · next storage hstorage =>
        refine ⟨h, hget, Bool.not_eq_true _ ▸ hhandled, ?_⟩
        rw [notFound, MethodMap.find, hunknown, Option.bind_some, hstorage, Option.map_some]

theorem accurate_afterChain {p : Progress Rq U Sm W} {v : Visit Rq U Sm W} {fallback : Bool}
    (h : Accurate D (.chain p v fallback)) (w : W) :
    Accurate D (afterChain p fallback (ran w p v)) := by
  cases fallback with
  | false =>
    obtain ⟨hloop, val, hget, hwf, hchosen⟩ := h
    exact hloop.chained hget hwf hchosen w
  | true =>
    obtain ⟨hloop, hget, hhandled, hv⟩ := h
    exact hloop.fellBack hget hhandled hv w

structure Held (regs : List (Registration Rq U Sm W)) (frame : Frame Rq U Sm W) : Prop where
  accurate : Accurate D frame
  current : ∀ p, frame.progress = some p → p.before = regs

theorem held_of_idle {frame : Frame Rq U Sm W} (h : frame.progress = none)
    (regs : List (Registration Rq U Sm W)) : Held D regs frame where
  accurate := by
    cases frame <;> trivial
  current := fun p hp => by
    rw [h] at hp
    cases hp

theorem held_cons {s : System T Rq U Sm W} {regs : List (Registration Rq U Sm W)} {t : T}
    {frame : Frame Rq U Sm W} {frames : List (Frame Rq U Sm W)}
    (hs : ∀ u, ∀ frame ∈ s.threads u, Held D regs frame)
    (ht : s.threads t = frame :: frames) :
    Held D regs frame ∧ ∀ frame ∈ frames, Held D regs frame :=
  List.forall_mem_cons.mp (ht ▸ hs t)

variable [DecidableEq T]

structure Consistent (s : System T Rq U Sm W) : Prop where
  sound : s.Sound D
  coherent : (guarded D s).Coherent (install D) (tableOf D [])
  held : ∀ t, ∀ frame ∈ s.threads t, Held D (s.log.map Prod.snd) frame
  served : ∀ x ∈ s.done, Served D (tableOf D x.2.before) x.2.request x.2.dispatch

theorem held_setFrames {s : System T Rq U Sm W} {regs : List (Registration Rq U Sm W)} {t : T}
    {frames : List (Frame Rq U Sm W)} (hs : ∀ u, ∀ frame ∈ s.threads u, Held D regs frame)
    (hframes : ∀ frame ∈ frames, Held D regs frame) :
    ∀ u, ∀ frame ∈ (s.setFrames t frames).threads u, Held D regs frame :=
  (Function.forall_update_iff s.threads fun _ frames => ∀ frame ∈ frames, Held D regs frame).mpr
    ⟨hframes, fun u _ => hs u⟩

theorem held_replace {s : System T Rq U Sm W} {regs : List (Registration Rq U Sm W)} {t : T}
    {frame frame' : Frame Rq U Sm W} {frames : List (Frame Rq U Sm W)}
    (hs : ∀ u, ∀ frame ∈ s.threads u, Held D regs frame) (ht : s.threads t = frame :: frames)
    (hframe' : Held D regs frame') :
    ∀ u, ∀ frame ∈ (s.setFrames t (frame' :: frames)).threads u, Held D regs frame :=
  held_setFrames D hs (List.forall_mem_cons.mpr ⟨hframe', (held_cons D hs ht).2⟩)

theorem Consistent.table_eq {s : System T Rq U Sm W} (hs : s.Consistent D) {t : T}
    {frame : Frame Rq U Sm W} (ht : frame ∈ s.threads t) (hframe : frame.isReading = true) :
    table D s.heap = tableOf D (s.log.map Prod.snd) := by
  rw [tableOf_eq]
  exact hs.coherent.read (install D) (hs.sound.readers_ne_nil ht hframe)

theorem held_step {s s' : System T Rq U Sm W} {e : Event T Rq U Sm W} (hs : s.Consistent D)
    (h : s.step D e = some s') :
    ∀ t, ∀ frame ∈ s'.threads t, Held D (s'.log.map Prod.snd) frame := by
  have hheld := hs.held
  cases moves_of_step D h with
  | call t op ht =>
    refine held_setFrames D hheld (List.forall_mem_singleton.mpr (held_of_idle D ?_ _))
    cases op <;> rfl
  | handlerRegisters t reg p v fallback frames ht =>
    exact held_setFrames D hheld
      (List.forall_mem_cons.mpr ⟨held_of_idle D rfl _, ht ▸ hheld t⟩)
  | lockWrite t reg frames ht hwriter hreaders =>
    have hidle (u : T) (frame : Frame Rq U Sm W) (hframe : frame ∈ s.threads u) :
        Held D ((s.log ++ [(t, reg)]).map Prod.snd) frame := by
      refine held_of_idle D (Option.not_isSome_iff_eq_none.mp fun hreading => ?_) _
      exact hs.sound.readers_ne_nil hframe hreading hreaders
    exact held_replace D (s := { s with log := s.log ++ [(t, reg)] }) hidle ht
      (held_of_idle D rfl _)
  | lockRead t request frames ht hwriter =>
    refine held_replace D hheld ht ⟨?_, ?_⟩
    · exact ⟨by simp, rfl, by simp [chosen], rfl, by simp⟩
    · intro p hp
      exact Option.some.inj hp ▸ rfl
  | update t reg frames ht => exact held_replace D hheld ht (held_of_idle D rfl _)
  | visit t p frame frames ht hnext =>
    obtain ⟨hloop, -⟩ := held_cons D hheld ht
    have hbefore := hloop.current p rfl
    have hmem : Frame.loop p ∈ s.threads t := by
      rw [ht]
      exact .head frames
    have htable := hs.table_eq D hmem rfl
    rw [htable, ← hbefore] at hnext
    refine held_replace D hheld ht ⟨?_, ?_⟩
    · exact accurate_nextResource D hloop.accurate hnext
    · intro p' hp'
      have hkept := (reading_nextResource D hnext).2.2
      rw [hp', Option.map_some, Option.some.injEq] at hkept
      exact hkept.trans hbefore
  | runChain t p v fallback frames ht =>
    obtain ⟨hchain, -⟩ := held_cons D hheld ht
    have hbefore := hchain.current p rfl
    refine held_replace D hheld ht ⟨?_, ?_⟩
    · exact accurate_afterChain D hchain.accurate s.world
    · intro p' hp'
      cases fallback <;> exact Option.some.inj hp' ▸ hbefore
  | unlockWrite t frames ht hwriter => exact held_setFrames D hheld (held_cons D hheld ht).2
  | unlockRead t p frames ht hreader => exact held_setFrames D hheld (held_cons D hheld ht).2

namespace Event

def requested (t : T) : Event T Rq U Sm W → List (Registration Rq U Sm W)
  | .call u (.register reg) => if u = t then [reg] else []
  | .handlerRegisters u reg => if u = t then [reg] else []
  | _ => []

end Event

def registered (t : T) (s : System T Rq U Sm W) : List (Registration Rq U Sm W) :=
  (s.log.filter fun x => x.1 = t).map Prod.snd

def waiting (t : T) (s : System T Rq U Sm W) : List (Registration Rq U Sm W) :=
  (s.threads t).filterMap Frame.waiting

theorem waiting_setFrames {s : System T Rq U Sm W} {u : T} {frames : List (Frame Rq U Sm W)}
    {regs : List (Registration Rq U Sm W)}
    (h : frames.filterMap Frame.waiting = (s.threads u).filterMap Frame.waiting ++ regs) (t : T) :
    waiting t (s.setFrames u frames) = waiting t s ++ if u = t then regs else [] := by
  by_cases hu : u = t
  · subst hu
    simp [waiting, h]
  · simp [waiting, threads_other (Ne.symm hu), hu]

theorem registered_append (s : System T Rq U Sm W) (u : T) (reg : Registration Rq U Sm W) (t : T) :
    registered t { s with log := s.log ++ [(u, reg)] } =
      registered t s ++ if u = t then [reg] else [] := by
  by_cases hu : u = t <;> simp [registered, hu]

theorem waiting_of_reading {frame : Frame Rq U Sm W} (h : frame.isReading = true) :
    frame.waiting = none := by
  cases frame <;> first | rfl | cases h

theorem requested_step {s s' : System T Rq U Sm W} {e : Event T Rq U Sm W} (hs : s.Sound D)
    (h : s.step D e = some s') (t : T) :
    registered t s' ++ waiting t s' = registered t s ++ waiting t s ++ e.requested t := by
  have hkept {u : T} {frames frames' : List (Frame Rq U Sm W)} (hu : s.threads u = frames)
      (hframes : frames'.filterMap Frame.waiting = frames.filterMap Frame.waiting) :
      registered t s ++ waiting t (s.setFrames u frames') =
        registered t s ++ waiting t s ++ [] := by
    have hsame : frames'.filterMap Frame.waiting =
        (s.threads u).filterMap Frame.waiting ++ [] := by
      rw [hframes, hu, List.append_nil]
    rw [waiting_setFrames hsame, ite_self, List.append_assoc]
  have hnew {u : T} {frames frames' : List (Frame Rq U Sm W)} {reg : Registration Rq U Sm W}
      (hu : s.threads u = frames) (hframes : frames'.filterMap Frame.waiting =
        frames.filterMap Frame.waiting ++ [reg]) :
      registered t s ++ waiting t (s.setFrames u frames') =
        registered t s ++ waiting t s ++ if u = t then [reg] else [] := by
    have hone : frames'.filterMap Frame.waiting =
        (s.threads u).filterMap Frame.waiting ++ [reg] := by
      rw [hframes, hu]
    rw [waiting_setFrames hone, List.append_assoc]
  cases moves_of_step D h with
  | call u op ht =>
    cases op with
    | register reg => exact hnew ht rfl
    | processRequest request => exact hkept ht rfl
  | handlerRegisters u reg p v fallback frames ht =>
    obtain rfl := (ht ▸ hs.stacked u).bottom rfl
    exact hnew ht rfl
  | lockWrite u reg frames ht hwriter hreaders =>
    have hbefore : waiting t s = (if u = t then [reg] else []) ++
        waiting t (s.setFrames u (.update reg :: frames)) := by
      by_cases hu : u = t
      · subst hu
        rw [waiting, waiting, ht, if_pos rfl, threads_self]
        rfl
      · simp [waiting, threads_other (Ne.symm hu), hu]
    change registered t { s with log := s.log ++ [(u, reg)] } ++
      waiting t (s.setFrames u (.update reg :: frames)) = _ ++ []
    rw [registered_append, hbefore, List.append_nil, List.append_assoc]
  | lockRead u request frames ht hwriter => exact hkept ht rfl
  | update u reg frames ht => exact hkept ht rfl
  | visit u p frame frames ht hnext =>
    have hframe := waiting_of_reading (reading_nextResource D hnext).1
    exact hkept ht (List.filterMap_cons_none hframe)
  | runChain u p v fallback frames ht =>
    cases fallback <;> exact hkept ht rfl
  | unlockWrite u frames ht hwriter => exact hkept ht rfl
  | unlockRead u p frames ht hreader => exact hkept ht rfl

theorem requested_run {w : W} {es : List (Event T Rq U Sm W)} {s : System T Rq U Sm W}
    (hr : run D (init D w) es = some s) (t : T) :
    registered t s ++ waiting t s = es.flatMap (Event.requested t) := by
  rw [← Transition.collect_eq_flatMap (Event.requested t) hr]
  exact Transition.collect_eq_invariant (g := fun s => registered t s ++ waiting t s)
    (sound_step D) (fun s e s' hs h => requested_step D hs h t) (sound_init D w) hr

open Router (sampleRoute)

def sample : Deployment (Verb × String) Unit Unit (List StringResponse) where
  http := .sample
  order := .leftToRight
  iteration := .asStored
  isRequest := true
  base := ⟨[]⟩

end System
end BeastRouter
