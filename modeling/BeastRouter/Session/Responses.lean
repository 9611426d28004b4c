import BeastRouter.Common.HttpUtility
import BeastRouter.Session.Wire

namespace BeastRouter

def Platform.sampleHttp : Platform HttpResponse ℕ ℕ :=
  ⟨Beast.sampleNeedEof, 0, Platform.sample.parse, Platform.sample.movedFrom,
    Platform.sample.shutdownResult⟩

namespace Session
open SingleServer (upTo)
variable {M Rq B : Type} (beast : Beast M) (P : Platform M Rq B)

theorem wire_of_made (hbeast : beast.Laws) (hrule : beast.NeedEofRule P.needEof)
    (isSsl onError isOpen : Bool) (now : ℤ) (es : List (Event M B Rq))
    (hes : ∀ e ∈ es, e.goesOn onError = true) (t : Session M Rq B)
    (hr : run P (init P isSsl onError isOpen now) es = some t) (made : List Made)
    (hmade : List.Forall₂ (Made.Makes beast) made
      (Transition.collect (step P) sends (init P isSsl onError isOpen now) es)) :
    ∃ unsent, List.Forall₂ (Made.Makes beast) (upTo Made.endsStream made)
        (t.written.map Item.message ++ unsent) ∧
      (t.writes = [] → unsent = []) := by
  obtain ⟨⟨unsent, hunsent⟩, hall⟩ := written_of_run P hes hr
  have hbound (m : Made) (rp : M) (h : m.Makes beast rp) : m.endsStream = P.needEof rp :=
    (Made.needEof_response hbeast hrule h).symm
  have hcut := SingleServer.upTo_forall₂ hbound hmade
  rw [← pushed_of_run P hr, SingleServer.upTo_map] at hcut
  refine ⟨unsent.map Item.message, ?_, fun hidle => ?_⟩
  · rw [← List.map_append, hunsent]
    exact hcut
  · rw [List.self_eq_append_right.mp ((hall hidle).trans hunsent.symm), List.map_nil]

def sampleResponses : List (Event HttpResponse ℕ ℕ) :=
  [.call (.send (HttpUtility.makeFileResponse .sample 11 "a.html" (some 4))),
    .call (.send (HttpUtility.makeMovedResponse .sample 11 "/")),
    .call (.send (HttpUtility.makeEmptyResponse .sample 200 11)), .writeCompleted 0 .success,
    .writeCompleted 0 .success]

theorem wire_of_made_moved :
    ∃ t, run .sampleHttp (init .sampleHttp false true true 0) sampleResponses = some t ∧
      List.Forall₂ (Made.Makes .sample) [.file 11 "a.html" (some 4), .moved 11 "/"]
        (t.written.map Item.message) := by
  refine ⟨_, rfl, ?_⟩
  obtain ⟨unsent, hwritten, hall⟩ := wire_of_made .sample .sampleHttp Beast.laws_sample
    Beast.needEofRule_sample false true true 0 sampleResponses (by decide) _ rfl
    [.file 11 "a.html" (some 4), .moved 11 "/", .empty 200 11]
    (.cons rfl (.cons rfl (.cons rfl .nil)))
  rw [hall rfl, List.append_nil] at hwritten
  exact hwritten

end Session
end BeastRouter
