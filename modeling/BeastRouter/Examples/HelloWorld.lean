import BeastRouter.Common.HttpUtility
import BeastRouter.Server.Routed
import BeastRouter.Server.Serial
import BeastRouter.Session.Shutdown

namespace BeastRouter.HelloWorld

abbrev Output (M : Type) : Type := Outbox UInt64 M

def rootPattern : String := "^/$"

def greeting (counter : UInt64) : String :=
  "Hello World: the request was triggered [" ++ toString counter ++ "] times"

variable {M Rq Sm : Type} (beast : Beast M) (http : Http Rq Sm Unit) (keepAlive : Rq → Bool)

def onRoot (rq : Rq) (o : Output M) : Output M :=
  let counter := o.data + 1
  let rp := HttpUtility.makeStringResponse beast 200 (http.version rq)
    (greeting counter) "text/html"
  let rp := rp.map (beast.setKeepAlive (keepAlive rq))
  { o with data := counter, calls := o.calls ++ rp.toList.map .send }

def routes : List (Registration Rq Unit Sm (Output M)) :=
  [.get rootPattern (lambdaChain (onRoot beast http keepAlive))]

-- `launch` comes after the route, and no route is added later.
def main {B : Type} (fs : List (Program.Event M Rq B Unit Sm UInt64)) :
    List (Program.Event M Rq B Unit Sm UInt64) :=
  (routes beast http keepAlive).map .register ++ fs

structure Patterns : Prop where
  root : ∃ re, http.regex rootPattern = some re ∧
    ∀ target, (re target).isSome = (target == "/")
  empty : ∃ re, http.regex "" = some re ∧ ∀ target, (re target).isSome = (target == "")

def greets (rq : Rq) : Bool := http.method rq == .get && http.target rq == "/"

def greet (rq : Rq) (counter : UInt64) : M :=
  beast.setKeepAlive (keepAlive rq)
    (beast.text (makeStringResponse 200 (http.version rq) (greeting counter) "text/html"))

def notFound (rq : Rq) : M :=
  beast.text (makeStringResponse 404 (http.version rq) "Not Found" "text/html")

def reply (rq : Rq) (counter : UInt64) : M × UInt64 :=
  if greets http rq then (greet beast http keepAlive rq (counter + 1), counter + 1)
  else (notFound beast http rq, counter)

theorem onRoot_eq (hbeast : beast.Laws) (rq : Rq) (counter : UInt64) (isOpen : Bool) :
    onRoot beast http keepAlive rq (.start counter isOpen) =
      ⟨counter + 1, isOpen, [.send (greet beast http keepAlive rq (counter + 1))]⟩ := by
  rw [onRoot, hbeast.makeStringResponse_eq (by decide)]
  rfl

theorem quiet_routes : MadeBy (fun c => c.isRecv = false) (routes beast http keepAlive) := by
  intro reg hreg
  obtain rfl := List.mem_singleton.mp hreg
  refine obeys_lambda fun rq counter isOpen c hc => ?_
  obtain ⟨m, -, rfl⟩ := List.mem_map.mp (show c ∈ (Option.toList _).map Call.send from hc)
  rfl

section
variable {B : Type} (C : Setting M Rq B Unit Sm UInt64) (S : Service)

theorem answers_reply (hbeast : beast.Laws) (hserver : C.isRequest = true)
    (hresponse : C.response = beast.text) (hp : Patterns C.http) :
    Program.Answers C (routes beast C.http keepAlive) fun rq counter =>
      ([(reply beast C.http keepAlive rq counter).1],
        (reply beast C.http keepAlive rq counter).2) := by
  intro h hb hregs message s
  have honly {reg : Registration Rq Unit Sm (Output M)} (hreg : reg ∈ h.registered) :
      reg = .get rootPattern (lambdaChain (onRoot beast C.http keepAlive)) :=
    List.mem_singleton.mp (show reg ∈ routes beast C.http keepAlive from hregs ▸ hreg)
  cases hgreets : greets C.http message with
  | true =>
    obtain ⟨hget, hroot⟩ := Bool.and_eq_true_iff.mp hgreets
    have hmethod : C.http.method message = .get := beq_iff_eq.mp hget
    have hchain : Router.lastRegistered h.registered (C.http.method message) rootPattern =
        some (lambdaChain (onRoot beast C.http keepAlive)) := by
      rw [hmethod, hregs]
      rfl
    have hanswer := Host.answer_of_lambda C hb hserver (by rw [hmethod]; rfl) hchain
      (Host.matches_of_pattern C hp.root hroot)
      (fun reg hreg _ hne => absurd (honly hreg ▸ rfl) hne) s
    rw [hanswer, onRoot_eq beast C.http keepAlive hbeast]
    simp only [reply, hgreets, if_true]
    exact ⟨rfl, trivial⟩
  | false =>
    have hmisses (reg : Registration Rq Unit Sm (Output M)) (hreg : reg ∈ h.registered)
        (hmethod : reg.method = C.http.method message) : Host.Misses C message reg.path := by
      rw [honly hreg] at hmethod ⊢
      refine Host.misses_of_pattern C hp.root ?_
      rw [greets, ← hmethod] at hgreets
      exact hgreets
    have hanswer := Host.answer_of_default C hb hserver
      (fun reg hreg => by rw [honly hreg]; exact Verb.noConfusion) hp.empty hmisses s
    rw [hanswer, Host.notFoundResponse, hresponse]
    simp only [reply, hgreets, Bool.false_eq_true, if_false]
    exact ⟨rfl, trivial⟩

def greeted (order : List (ℕ × Rq)) : ℕ := order.countP fun p => greets http p.2

theorem dataAfter_reply (order : List (ℕ × Rq)) (counter : UInt64) :
    Serial.dataAfter (fun rq counter => ([(reply beast http keepAlive rq counter).1],
      (reply beast http keepAlive rq counter).2)) counter order =
        counter + UInt64.ofNat (greeted http order) := by
  induction order generalizing counter with
  | nil => exact (UInt64.add_zero counter).symm
  | cons p order ih =>
    rw [Serial.dataAfter, List.foldl_cons]
    refine (ih _).trans ?_
    cases hgreets : greets http p.2 with
    | true =>
      simp only [reply, hgreets, if_true, greeted, List.countP_cons_of_pos, UInt64.ofNat_add]
      rw [UInt64.add_assoc, UInt64.add_comm 1]
      rfl
    | false =>
      simp only [reply, hgreets, Bool.false_eq_true, if_false, greeted, not_false_eq_true,
        List.countP_cons_of_neg]

structure Numbered (t : Program M Rq B Unit Sm UInt64) (order : List (ℕ × Rq)) :
    Prop where
  once : (order.map Prod.fst).Nodup
  accepted : ∀ p ∈ order, p.1 < t.host.sessions.length
  counted : t.host.data = UInt64.ofNat (greeted C.http order)
  told : ∀ k s, t.host.sessions[k]? = some s →
    k ∉ order.map Prod.fst ∧ s.dispatched = [] ∧ s.pushed = [] ∨
      ∃ earlier rq later, order = earlier ++ (k, rq) :: later ∧ s.dispatched = [rq] ∧
        s.pushed.map Item.message =
          [(reply beast C.http keepAlive rq (UInt64.ofNat (greeted C.http earlier))).1]

theorem numbered_run (hbeast : beast.Laws) (hserver : C.isRequest = true)
    (hresponse : C.response = beast.text) (hp : Patterns C.http) {onError : Bool}
    {fs : List (Program.Event M Rq B Unit Sm UInt64)}
    (hfs : ∀ e ∈ fs, Program.given e = []) {t : Program M Rq B Unit Sm UInt64}
    (hr : Program.run C S (.init C onError 0) (main beast C.http keepAlive fs) = some t) :
    ∃ order, Numbered beast keepAlive C t order := by
  obtain ⟨order, horder, honce⟩ := Program.serial_once C S
    (answers_reply beast keepAlive C hbeast hserver hresponse hp)
    (quiet_routes beast C.http keepAlive) hfs hr
  have hafter := dataAfter_reply beast C.http keepAlive
  refine ⟨order, honce, fun p hmem => ?_, ?_, fun k s hs => ?_⟩
  · obtain ⟨earlier, later, rfl⟩ := List.append_of_mem hmem
    have hheard : t.host.heard p.1 = [p.2] := (Serial.taken_up_once _ horder honce).1
    by_contra hlt
    rw [Host.heard, List.getElem?_eq_none (not_lt.mp hlt)] at hheard
    cases hheard
  · exact (Serial.data_run _ horder).trans ((hafter order 0).trans (UInt64.zero_add _))
  · have hheard : t.host.heard k = s.dispatched := by rw [Host.heard, hs, Option.elim_some]
    have hsaid : t.host.spoken k = s.pushed.map Item.message := by
      rw [Host.spoken, hs, Option.elim_some]
    by_cases hk : k ∈ order.map Prod.fst
    · obtain ⟨p, hmem, rfl⟩ := List.mem_map.mp hk
      obtain ⟨earlier, later, rfl⟩ := List.append_of_mem hmem
      obtain ⟨hheard', hsaid'⟩ := Serial.taken_up_once _ horder honce
      refine .inr ⟨earlier, p.2, later, rfl, hheard.symm.trans hheard', ?_⟩
      refine hsaid.symm.trans (hsaid'.trans ?_)
      rw [hafter, Serial.init, UInt64.zero_add]
      rfl
    · obtain ⟨hheard', hsaid'⟩ := Serial.untouched _ horder hk
      exact .inl ⟨hk, hheard.symm.trans hheard',
        List.map_eq_nil_iff.mp (hsaid.symm.trans hsaid')⟩

theorem append_append_cancel {a b x y : String} (h : a ++ x ++ b = a ++ y ++ b) : x = y := by
  have hlists := congrArg String.toList h
  simp only [String.toList_append, List.append_assoc, List.append_cancel_left_eq,
    List.append_cancel_right_eq] at hlists
  exact String.toList_inj.mp hlists

theorem greeting_injective {m n : UInt64} (h : greeting m = greeting n) : m = n := by
  have hrepr : m.toNat.repr = n.toNat.repr := append_append_cancel h
  have hdigits : Nat.toDigits 10 m.toNat = Nat.toDigits 10 n.toNat := by
    rw [← Nat.toList_repr, ← Nat.toList_repr, hrepr]
  apply UInt64.toNat_inj.mp
  calc
    m.toNat = Nat.ofDigitChars 10 (Nat.toDigits 10 m.toNat) 0 := Nat.ofDigitChars_ten_toDigits.symm
    _ = Nat.ofDigitChars 10 (Nat.toDigits 10 n.toNat) 0 := by rw [hdigits]
    _ = n.toNat := Nat.ofDigitChars_ten_toDigits

section
variable {beast keepAlive C} {t : Program M Rq B Unit Sm UInt64} {order : List (ℕ × Rq)}
  (h : Numbered beast keepAlive C t order)
include h

theorem Numbered.length_le : order.length ≤ t.host.sessions.length := by
  have hsubset : order.map Prod.fst ⊆ List.range t.host.sessions.length := by
    intro k hk
    obtain ⟨p, hp, rfl⟩ := List.mem_map.mp hk
    exact List.mem_range.mpr (h.accepted p hp)
  simpa using List.Nodup.length_le_of_subset h.once hsubset

theorem Numbered.one_answer {k : ℕ} {s : Session M Rq B}
    (hs : t.host.sessions[k]? = some s) : s.pushed.length ≤ 1 := by
  rcases h.told k s hs with ⟨-, -, hnone⟩ | ⟨_, _, _, -, -, hpushed⟩
  · simp [hnone]
  · have hlength := congrArg List.length hpushed
    rw [List.length_map] at hlength
    exact hlength.le

theorem Numbered.greeting_of {k : ℕ} {s : Session M Rq B} {rq : Rq}
    (hs : t.host.sessions[k]? = some s) (hheard : s.dispatched = [rq])
    (hgreets : greets C.http rq = true) :
    ∃ earlier later, order = earlier ++ (k, rq) :: later ∧
      s.pushed.map Item.message =
        [greet beast C.http keepAlive rq (UInt64.ofNat (greeted C.http earlier) + 1)] := by
  rcases h.told k s hs with ⟨-, hnone, -⟩ | ⟨earlier, rq', later, horder, hone, hpushed⟩
  · rw [hheard] at hnone
    cases hnone
  · obtain ⟨rfl, -⟩ := List.cons.inj (hheard.symm.trans hone)
    rw [reply, hgreets, if_pos rfl] at hpushed
    exact ⟨earlier, later, horder, hpushed⟩

theorem Numbered.told_apart (hbeast : beast.Laws) (hfew : t.host.sessions.length ≤ 2 ^ 64)
    {k k' : ℕ} (hne : k ≠ k')
    {s s' : Session M Rq B} {rq rq' : Rq} (hs : t.host.sessions[k]? = some s)
    (hs' : t.host.sessions[k']? = some s') (hheard : s.dispatched = [rq])
    (hheard' : s'.dispatched = [rq']) (hgreets : greets C.http rq = true)
    (hgreets' : greets C.http rq' = true) {i i' : Item M} (hi : i ∈ s.pushed)
    (hi' : i' ∈ s'.pushed) : beast.body i.message ≠ beast.body i'.message := by
  obtain ⟨earlier, later, horder, hpushed⟩ := h.greeting_of hs hheard hgreets
  obtain ⟨earlier', later', horder', hpushed'⟩ := h.greeting_of hs' hheard' hgreets'
  have hbody {j : Item M} {u : Session M Rq B} {rq : Rq} {counter : UInt64}
      (hu : u.pushed.map Item.message = [greet beast C.http keepAlive rq counter])
      (hj : j ∈ u.pushed) :
      beast.body j.message = .string (greeting counter) := by
    have hmem : j.message ∈ u.pushed.map Item.message := List.mem_map_of_mem hj
    rw [hu, List.mem_singleton] at hmem
    rw [hmem, greet, hbeast.body_setKeepAlive, hbeast.body_text]
    rfl
  have hcount : greeted C.http earlier ≠ greeted C.http earlier' :=
    Serial.countP_ne_of_split (horder.symm.trans horder') (fun heq => hne (congrArg Prod.fst heq))
      hgreets hgreets'
  have hlt {xs ys : List (ℕ × Rq)} {p : ℕ × Rq} (hxs : order = xs ++ p :: ys) :
      greeted C.http xs < 2 ^ 64 := by
    have hle : greeted C.http xs ≤ xs.length := List.countP_le_length
    have hlen := h.length_le
    rw [hxs, List.length_append, List.length_cons] at hlen
    omega
  rw [hbody hpushed hi, hbody hpushed' hi']
  intro heq
  have hsame := (UInt64.add_left_inj 1).mp (greeting_injective (ResponseBody.string.inj heq))
  have hnat := congrArg UInt64.toNat hsame
  rw [UInt64.toNat_ofNat_of_lt' (hlt horder), UInt64.toNat_ofNat_of_lt' (hlt horder')] at hnat
  exact hcount hnat

end

def Told (t : Program M Rq B Unit Sm UInt64) (k : ℕ) (message : M) : Prop :=
  ∃ s rq, t.host.sessions[k]? = some s ∧ s.dispatched = [rq] ∧ greets C.http rq = true ∧
    message ∈ s.written.map Item.message

def sampleMatch (path target : String) : Bool :=
  if path = rootPattern then target == "/" else target == path

def sampleSetting : Setting HttpResponse (Verb × String) (Verb × String) Unit Unit UInt64 where
  platform :=
    { needEof := Beast.sampleNeedEof
      emptyMessage := (.unknown, "")
      parse := fun
        | [] => none
        | b :: rest => some (b, rest)
      movedFrom := fun _ => (.unknown, "")
      shutdownResult := fun _ => .success }
  http :=
    { method := Prod.fst
      target := Prod.snd
      version := fun _ => 11
      regex := fun path => some fun target => if sampleMatch path target then some () else none
      emptyMatch := ()
      send := fun _ _ => () }
  response := Beast.text .sample
  order := .leftToRight
  iteration := .asStored
  isRequest := true

theorem patterns_sample : Patterns sampleSetting.http := by
  have hsome (b : Bool) : (if b then some () else none).isSome = b := by cases b <;> rfl
  exact ⟨⟨_, rfl, fun target => hsome _⟩, ⟨_, rfl, fun target => hsome _⟩⟩

def sampleRequests :
    List (Program.Event HttpResponse (Verb × String) (Verb × String) Unit Unit UInt64) :=
  [.listener (.loop ⟨.success, .success, .success, .success⟩) 0,
    .listener (.acceptReady 0 .success) 0, .listener (.acceptCompleted 0) 0, .listener (.post 0) 0,
    .listener (.rearm 0) 0, .listener .runStrand 7, .listener (.acceptReady 0 .success) 7,
    .listener (.acceptCompleted 0) 7, .listener (.post 0) 7, .listener .runStrand 8,
    .session 1 (.readCompleted 0 .success [(.get, "/")] (.unknown, "")),
    .session 0 (.readCompleted 0 .success [(.get, "/")] (.unknown, ""))]

theorem greetings_numbered (hbeast : beast.Laws) (hserver : C.isRequest = true)
    (hresponse : C.response = beast.text) (hp : Patterns C.http) (onError : Bool)
    (fs : List (Program.Event M Rq B Unit Sm UInt64))
    (hfs : ∀ e ∈ fs, Program.given e = []) (t : Program M Rq B Unit Sm UInt64)
    (hr : Program.run C S (.init C onError 0) (main beast C.http keepAlive fs) = some t) :
    (∃ order, Numbered beast keepAlive C t order) ∧
      (∀ (k : ℕ) (s : Session M Rq B), t.host.sessions[k]? = some s →
        s.written = s.pushed) ∧
      (t.host.sessions.length ≤ 2 ^ 64 →
        ∀ k k' m m', k ≠ k' → Told C t k m → Told C t k' m' →
        beast.body m ≠ beast.body m') := by
  obtain ⟨order, horder⟩ := numbered_run beast keepAlive C S hbeast hserver hresponse hp hfs hr
  have hwritten (k : ℕ) (s : Session M Rq B) (hs : t.host.sessions[k]? = some s) :
      s.written = s.pushed := by
    obtain ⟨now, hlife⟩ := Program.life_run C S hr hs
    exact Session.written_of_one C.platform hlife (horder.one_answer hs)
  refine ⟨⟨order, horder⟩, hwritten, ?_⟩
  rintro hfew k k' m m' hne ⟨s, rq, hs, hheard, hgreets, hm⟩
    ⟨s', rq', hs', hheard', hgreets', hm'⟩
  obtain ⟨i, hi, rfl⟩ := List.mem_map.mp hm
  obtain ⟨i', hi', rfl⟩ := List.mem_map.mp hm'
  exact horder.told_apart hbeast hfew hne hs hs' hheard hheard' hgreets hgreets'
    (hwritten k s hs ▸ hi)
    (hwritten k' s' hs' ▸ hi')

theorem greetings_numbered_two :
    ∃ t, Program.run sampleSetting ⟨false, true, some 1⟩ (.init sampleSetting true 0)
        (main .sample sampleSetting.http (fun _ => false) sampleRequests) = some t ∧
        t.host.data = 2 ∧
      (∃ order, Numbered .sample (fun _ => false) sampleSetting t order) ∧
      (∃ m, Told sampleSetting t 0 m) ∧ (∃ m, Told sampleSetting t 1 m) ∧
      ∀ m m', Told sampleSetting t 0 m → Told sampleSetting t 1 m' → m.body ≠ m'.body := by
  obtain ⟨horder, -, hapart⟩ := greetings_numbered .sample (fun _ => false)
    sampleSetting ⟨false, true, some 1⟩ Beast.laws_sample rfl rfl patterns_sample true
    sampleRequests (by decide) _ rfl
  refine ⟨_, rfl, rfl, horder, ?_, ?_, fun m m' => hapart (by decide) 0 1 m m' (by decide)⟩
  · exact ⟨_, _, _, rfl, rfl, rfl, .head _⟩
  · exact ⟨_, _, _, rfl, rfl, rfl, .head _⟩

theorem needEof_greet (hbeast : beast.Laws) {needEof : M → Bool}
    (hkeep : beast.KeepAliveRule needEof) (rq : Rq) (counter : UInt64) :
    needEof (greet beast C.http keepAlive rq counter) = !keepAlive rq := by
  refine hkeep _ _ ?_ (hbeast.bounded_sized ..)
  exact (hbeast.get_sized ..).trans rfl

theorem close_greet (hbeast : beast.Laws) (hserver : C.isRequest = true)
    (hresponse : C.response = beast.text) (hp : Patterns C.http)
    (hkeep : beast.KeepAliveRule C.platform.needEof) {onError : Bool}
    {fs : List (Program.Event M Rq B Unit Sm UInt64)}
    (hfs : ∀ e ∈ fs, Program.given e = []) {t : Program M Rq B Unit Sm UInt64}
    (hr : Program.run C S (.init C onError 0) (main beast C.http keepAlive fs) = some t) {k : ℕ}
    {s : Session M Rq B} (hs : t.host.sessions[k]? = some s) {rq : Rq}
    (hheard : s.dispatched = [rq]) (hgreets : greets C.http rq = true) {w : Write M}
    (hw : w ∈ s.writes) : w.close = !keepAlive rq := by
  obtain ⟨order, horder⟩ := numbered_run beast keepAlive C S hbeast hserver hresponse hp hfs hr
  obtain ⟨_, _, _, hpushed⟩ := horder.greeting_of hs hheard hgreets
  obtain ⟨hwritten, hclose⟩ := Program.underway_run C S hr hs hw
  have hmem : w.item.message ∈ s.pushed.map Item.message :=
    List.mem_map_of_mem ((Program.served_run C S hr hs).1.subset hwritten)
  rw [hpushed, List.mem_singleton] at hmem
  rw [hclose, hmem, needEof_greet beast keepAlive C hbeast hkeep]

theorem ends_as_asked (hbeast : beast.Laws) (hserver : C.isRequest = true)
    (hresponse : C.response = beast.text) (hp : Patterns C.http)
    (hkeep : beast.KeepAliveRule C.platform.needEof) (onError : Bool)
    (fs : List (Program.Event M Rq B Unit Sm UInt64))
    (hfs : ∀ e ∈ fs, Program.given e = []) (t u : Program M Rq B Unit Sm UInt64)
    (hr : Program.run C S (.init C onError 0) (main beast C.http keepAlive fs) = some t) (k : ℕ)
    (s : Session M Rq B) (hs : t.host.sessions[k]? = some s) (rq : Rq)
    (hheard : s.dispatched = [rq]) (hgreets : greets C.http rq = true) (i : ℕ)
    (hu : t.step C S (.session k (.writeCompleted i .success)) = some u) :
    ∃ s', u.host.sessions[k]? = some s' ∧
      s'.shutdowns = s.shutdowns + if !keepAlive rq && s.isOpen then 1 else 0 := by
  have hsound := Program.sound_run C S hr
  cases Program.moves_of_step C S hu with
  | session _ _ host he hhost =>
    cases (Host.moves_of_step C hsound.built hhost).2 with
    | quiet _ _ s₁ s' hs₁ hs' hnone =>
      obtain rfl := Option.some.inj (hs.symm.trans hs₁)
      refine ⟨s', List.getElem?_set_self (List.getElem?_eq_some_iff.mp hs).1, ?_⟩
      have hshutdowns := Session.shutdowns_step C.platform hs'
      cases Session.moves_of_step C.platform hs' with
      | writeCompleted _ _ w hw =>
        have hclose := close_greet beast keepAlive C S hbeast hserver hresponse hp hkeep hfs hr hs
          hheard hgreets
          (List.mem_of_getElem? hw)
        have hends : s.reachesEof
            (.writeCompleted i .success : BeastRouter.Event M B Rq) = !keepAlive rq := by
          simp [Session.reachesEof, ErrorCode.failed, hw, hclose]
        rw [hshutdowns, hends]
        split_ifs <;> rfl
    | dispatched _ _ s₁ s' message hs₁ hs' hmessage =>
      have hsame : s'.dispatched = s₁.dispatched :=
        congrArg (fun a => a.2.2) (Session.incoming_step C.platform rfl hs')
      simp [Session.newDispatches, hsame] at hmessage

theorem ends_as_asked_close :
    ∃ t u s s', Program.run sampleSetting ⟨false, true, some 1⟩ (.init sampleSetting true 0)
        (main .sample sampleSetting.http (fun _ => false) sampleRequests) = some t ∧
      t.step sampleSetting ⟨false, true, some 1⟩ (.session 1 (.writeCompleted 0 .success)) =
        some u ∧
      t.host.sessions[1]? = some s ∧ u.host.sessions[1]? = some s' ∧
      s'.shutdowns = s.shutdowns + 1 := by
  obtain ⟨s', hs', hshutdowns⟩ := ends_as_asked .sample (fun _ => false) sampleSetting
    ⟨false, true, some 1⟩ Beast.laws_sample rfl rfl patterns_sample Beast.keepAliveRule_sample
    true sampleRequests (by decide) _ _ rfl 1 _
    rfl (.get, "/") rfl rfl 0 rfl
  exact ⟨_, _, _, s', rfl, rfl, rfl, hs', hshutdowns⟩

end

end BeastRouter.HelloWorld
