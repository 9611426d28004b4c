import BeastRouter.Common.HttpUtility
import BeastRouter.Foundation.PathName
import BeastRouter.Server.Routed
import BeastRouter.Server.Serial
import Mathlib.Data.List.Infix

namespace BeastRouter

namespace TimeCounter

-- The n-th attempt to open a file finds the disk as `disk n` has it, and so with the clock.
structure Environment where
  docBasePath : String
  disk : ℕ → String → Option ℕ
  clock : ℕ → String

structure World where
  opened : List String
  readings : ℕ
  deriving DecidableEq, Repr

abbrev Output (M : Type) : Type := Outbox World M

def filePattern : String := "^.*\\.(js|html|css)$"

def rootPattern : String := "^/$"

def updatePattern : String := "^/update$"

def send {M : Type} (rp : Option M) (o : Output M) : Output M :=
  { o with calls := o.calls ++ rp.toList.map .send }

variable {M Rq Sm : Type} (beast : Beast M) (http : Http Rq Sm Unit) (E : Environment)

def isIllegal (target : String) : Bool :=
  target.toList.head? ≠ some '/' || ['.', '.'] <:+: target.toList

def onFile (rq : Rq) (o : Output M) : Output M :=
  let target := http.target rq
  let version := http.version rq
  if isIllegal target then
    send (HttpUtility.makeStringResponse beast 400 version "Illegal request-target" "text/html") o
  else
    let path := E.docBasePath ++ target
    let rp := HttpUtility.makeFileResponse beast version path (E.disk o.data.opened.length path)
    let o := { o with data := { o.data with opened := o.data.opened ++ [path] } }
    if beast.result rp ≠ 200 then
      send (HttpUtility.makeStringResponse beast 404 version "Not Found" "text/html") o
    else send (some rp) o

def onRoot (rq : Rq) (o : Output M) : Output M :=
  send (some (HttpUtility.makeMovedResponse beast (http.version rq) "/index.html")) o

def onUpdate (rq : Rq) (o : Output M) : Output M :=
  let now := E.clock o.data.readings
  let o := { o with data := { o.data with readings := o.data.readings + 1 } }
  send (HttpUtility.makeStringResponse beast 200 (http.version rq) now "text/html") o

def routes : List (Registration Rq Unit Sm (Output M)) :=
  [.get filePattern (lambdaChain (onFile beast http E)),
    .get rootPattern (lambdaChain (onRoot beast http)),
    .get updatePattern (lambdaChain (onUpdate beast http E))]

-- `launch` comes after the routes, and no route is added later.
def main {B : Type} (fs : List (Program.Event M Rq B Unit Sm World)) :
    List (Program.Event M Rq B Unit Sm World) :=
  (routes beast http E).map .register ++ fs

def hasExtension (target ext : String) : Prop := '.' :: ext.toList <:+ target.toList

instance (target ext : String) : Decidable (hasExtension target ext) :=
  inferInstanceAs (Decidable (_ <:+ _))

def isPage (target : String) : Bool :=
  (["js", "html", "css"].any fun ext => hasExtension target ext) &&
    target.toList.all fun c => c ≠ '\n' && c ≠ '\r'

structure Patterns : Prop where
  file : ∃ re, http.regex filePattern = some re ∧ ∀ target, (re target).isSome = isPage target
  root : ∃ re, http.regex rootPattern = some re ∧
    ∀ target, (re target).isSome = (target == "/")
  update : ∃ re, http.regex updatePattern = some re ∧
    ∀ target, (re target).isSome = (target == "/update")
  empty : ∃ re, http.regex "" = some re ∧ ∀ target, (re target).isSome = (target == "")

def Below (start : PathName.Directory) (path : String) : Prop :=
  PathName.resolve start E.docBasePath.toList <+: PathName.resolve start path.toList

theorem below_of_legal (hbase : E.docBasePath ≠ "") {target : String}
    (hlegal : isIllegal target = false) (start : PathName.Directory) :
    Below E start (E.docBasePath ++ target) := by
  simp only [isIllegal, Bool.or_eq_false_iff, decide_eq_false_iff_not, not_not] at hlegal
  obtain ⟨hhead, hdots⟩ := hlegal
  obtain ⟨rest, hrest⟩ := List.head?_eq_some_iff.mp hhead
  have hbase' : E.docBasePath.toList ≠ [] := by simpa using hbase
  rw [Below, String.toList_append, hrest]
  apply PathName.below hbase'
  rw [hrest] at hdots
  exact fun h => hdots (h.trans (List.suffix_cons _ _).isInfix)

theorem obeyed_routes {R : World → List (Call M) → World → Prop}
    (hfile : ∀ rq w isOpen, R w (onFile beast http E rq (.start w isOpen)).calls
      (onFile beast http E rq (.start w isOpen)).data)
    (hroot : ∀ rq w isOpen, R w (onRoot beast http rq (.start w isOpen)).calls
      (onRoot beast http rq (.start w isOpen)).data)
    (hupdate : ∀ rq w isOpen, R w (onUpdate beast http E rq (.start w isOpen)).calls
      (onUpdate beast http E rq (.start w isOpen)).data) : ObeyedBy R (routes beast http E) := by
  intro reg hreg
  simp only [routes, List.mem_cons, List.not_mem_nil, or_false] at hreg
  rcases hreg with rfl | rfl | rfl
  · exact obeys_lambda hfile
  · exact obeys_lambda hroot
  · exact obeys_lambda hupdate

theorem isRecv_send {rp : Option M} {o : Output M} (h : o.calls = []) :
    ∀ c ∈ (send rp o).calls, c.isRecv = false := by
  intro c hc
  rw [send, h, List.nil_append] at hc
  obtain ⟨m, -, rfl⟩ := List.mem_map.mp hc
  rfl

theorem quiet_routes : MadeBy (fun c => c.isRecv = false) (routes beast http E) := by
  refine obeyed_routes beast http E (fun rq w isOpen => ?_) (fun _ _ _ => isRecv_send rfl)
    fun _ _ _ => isRecv_send rfl
  simp only [onFile]
  split_ifs <;> exact isRecv_send rfl

def Confined (start : PathName.Directory) (v : World) (_ : List (Call M)) (w : World) :
    Prop :=
  (∀ path ∈ v.opened, Below E start path) → ∀ path ∈ w.opened, Below E start path

theorem composes_confined (start : PathName.Directory) :
    Composes (Confined E start : World → List (Call M) → World → Prop) where
  nil := fun _ => id
  append := fun hv hw => hw ∘ hv

theorem confined_routes (hbase : E.docBasePath ≠ "") (start : PathName.Directory) :
    ObeyedBy (Confined E start) (routes beast http E) := by
  refine obeyed_routes beast http E (fun rq w isOpen => ?_) (fun _ _ _ => id) fun _ _ _ => id
  simp only [onFile]
  split_ifs with hillegal hresult
  · exact id
  all_goals
    refine fun hw => List.forall_mem_append.mpr ⟨hw, fun path hpath => ?_⟩
    rw [List.mem_singleton.mp hpath]
    exact below_of_legal E hbase (Bool.eq_false_iff.mpr hillegal) start

section
variable {B : Type} (C : Setting M Rq B Unit Sm World) (S : Service)

theorem opens_below (hbase : E.docBasePath ≠ "") (start : PathName.Directory) (onError : Bool)
    (fs : List (Program.Event M Rq B Unit Sm World))
    (hfs : ∀ e ∈ fs, Program.given e = []) (t : Program M Rq B Unit Sm World)
    (hr : Program.run C S (.init C onError ⟨[], 0⟩) (main beast C.http E fs) = some t) :
    ∀ path ∈ t.host.data.opened, Below E start path := by
  have hregs : ObeyedBy (Confined E start) t.host.registered := by
    rw [Program.registered_registers C S hfs hr]
    exact confined_routes beast C.http E hbase start
  have hown (v : World) (message : M) : Confined E start v [.send message] v := id
  obtain ⟨-, cs, hbelow⟩ := Host.effect_run C (composes_confined E start) hown
    (Host.built_init C _) (Program.host_run C S hr) hregs
  exact hbelow fun path hpath => absurd hpath List.not_mem_nil

def sampleMatch (path target : String) : Bool :=
  if path = filePattern then isPage target
  else if path = rootPattern then target == "/"
  else if path = updatePattern then target == "/update"
  else target == path

def sampleSetting : Setting HttpResponse (Verb × String) (Verb × String) Unit Unit World where
  platform :=
    { needEof := Beast.sampleNeedEof
      emptyMessage := (.unknown, "")
      parse := fun
        | [] => none
        | b :: rest => some (b, rest)
      movedFrom := fun _ => (.unknown, "")
      shutdownResult := fun _ => .success }
  http :=
    { method := Prod.fst
      target := Prod.snd
      version := fun _ => 11
      regex := fun path => some fun target => if sampleMatch path target then some () else none
      emptyMatch := ()
      send := fun _ _ => () }
  response := Beast.text .sample
  order := .leftToRight
  iteration := .asStored
  isRequest := true

def sampleEnvironment : Environment :=
  ⟨"/srv", fun _ path => if path = "/srv/a.html" then some 5 else none,
    fun _ => "1970-01-01T00:00:00Z"⟩

def sampleRequest :
    List (Program.Event HttpResponse (Verb × String) (Verb × String) Unit Unit World) :=
  [.listener (.loop ⟨.success, .success, .success, .success⟩) 0,
    .listener (.acceptReady 0 .success) 0, .listener (.acceptCompleted 0) 0, .listener (.post 0) 0,
    .listener .runStrand 7,
    .session 0 (.readCompleted 0 .success [(.get, "/a.html")] (.unknown, ""))]

theorem opens_below_get :
    ∃ t, Program.run sampleSetting ⟨false, true, some 1⟩
      (.init sampleSetting true ⟨[], 0⟩)
        (main .sample sampleSetting.http sampleEnvironment sampleRequest) = some t ∧
      t.host.data.opened = ["/srv/a.html"] ∧
      ∀ path ∈ t.host.data.opened, Below sampleEnvironment ["home".toList] path := by
  refine ⟨_, rfl, ?_, ?_⟩
  · rfl
  · exact opens_below .sample sampleEnvironment sampleSetting ⟨false, true, some 1⟩
      (by decide) ["home".toList] true sampleRequest (by decide) _ rfl

def mimeOf (target : String) : String :=
  if hasExtension target "html" then "text/html"
  else if hasExtension target "css" then "text/css"
  else "application/javascript"

def page (rq : Rq) (w : World) : M × World :=
  let target := http.target rq
  let version := http.version rq
  let text (code : ℕ) (data : String) : M :=
    beast.text (makeStringResponse code version data "text/html")
  if http.method rq ≠ .get then (text 404 "Not Found", w)
  else if isPage target then
    if isIllegal target then (text 400 "Illegal request-target", w)
    else
      let path := E.docBasePath ++ target
      let w' := { w with opened := w.opened ++ [path] }
      match E.disk w.opened.length path with
      | none => (text 404 "Not Found", w')
      | some size =>
        (beast.set .contentType (mimeOf target)
          (beast.contentLength size (beast.create 200 version (.file path))), w')
  else if target = "/" then
    (beast.set .location "/index.html" (beast.create 301 version .empty), w)
  else if target = "/update" then
    (text 200 (E.clock w.readings), { w with readings := w.readings + 1 })
  else (text 404 "Not Found", w)

theorem getMimeType_eq {target : String} (hpage : isPage target = true) (base : String) :
    MimeType.getMimeType (HttpUtility.fileExtension (base ++ target)) = mimeOf target := by
  simp only [isPage, Bool.and_eq_true, List.any_eq_true, decide_eq_true_eq] at hpage
  obtain ⟨⟨ext, hext, stem, hstem⟩, -⟩ := hpage
  have hown : hasExtension target ext := ⟨stem, hstem⟩
  have hname : (base ++ target).toList = (base.toList ++ stem) ++ '.' :: ext.toList := by
    rw [String.toList_append, ← hstem, List.append_assoc]
  have hends {other : String} (h : hasExtension target other) :
      '.' :: other.toList <:+ '.' :: ext.toList ∨ '.' :: ext.toList <:+ '.' :: other.toList :=
    List.suffix_or_suffix_of_suffix h hown
  simp only [List.mem_cons, List.not_mem_nil, or_false] at hext
  rcases hext with rfl | rfl | rfl
  · rw [HttpUtility.fileExtension_append (by decide) hname, mimeOf,
      if_neg fun h => absurd (hends h) (by decide), if_neg fun h => absurd (hends h) (by decide)]
    rfl
  · rw [HttpUtility.fileExtension_append (by decide) hname, mimeOf, if_pos hown]
    rfl
  · rw [HttpUtility.fileExtension_append (by decide) hname, mimeOf,
      if_neg fun h => absurd (hends h) (by decide), if_pos hown]
    rfl

theorem send_text (hbeast : beast.Laws) {code : ℕ} (hcode : bodilessStatus code = false)
    (version : ℕ) (data : String)
    (w : World) (isOpen : Bool) :
    send (HttpUtility.makeStringResponse beast code version data "text/html") ⟨w, isOpen, []⟩ =
      ⟨w, isOpen, [.send (beast.text (makeStringResponse code version data "text/html"))]⟩ := by
  rw [hbeast.makeStringResponse_eq hcode]
  rfl

theorem onFile_eq (hbeast : beast.Laws) {rq : Rq} (hget : http.method rq = .get)
    (hpage : isPage (http.target rq) = true)
    (w : World) (isOpen : Bool) :
    onFile beast http E rq (.start w isOpen) =
      ⟨(page beast http E rq w).2, isOpen, [.send (page beast http E rq w).1]⟩ := by
  have hmime := getMimeType_eq hpage E.docBasePath
  let path := E.docBasePath ++ http.target rq
  cases hlegal : isIllegal (http.target rq) with
  | true =>
    simp only [onFile, page, hget, hpage, hlegal, if_true, ne_eq, not_true_eq_false, if_false]
    exact send_text beast hbeast (by decide) _ _ _ _
  | false =>
    simp only [onFile, page, Outbox.start, hget, hpage, hlegal, Bool.false_eq_true, if_true, ne_eq,
      not_true_eq_false, if_false]
    rcases Option.eq_none_or_eq_some (E.disk w.opened.length path) with hnone | ⟨size, hsome⟩
    · have hresult :
        beast.result (HttpUtility.makeFileResponse beast (http.version rq) path none) ≠
          200 := by
        rw [hbeast.result_noFile]
        decide
      simp only [path] at hresult hnone
      simp only [hnone, hresult, not_false_eq_true, if_true]
      exact send_text beast hbeast (by decide) _ _ _ _
    · have hresult := hbeast.result_file (http.version rq) size path
      simp only [path] at hresult hsome
      simp only [hsome, hresult, not_true_eq_false, if_false]
      rw [HttpUtility.makeFileResponse, hmime]
      rfl

theorem onRoot_eq {rq : Rq} (hget : http.method rq = .get) (hroot : http.target rq = "/")
    (w : World) (isOpen : Bool) :
    onRoot beast http rq (.start w isOpen) =
      ⟨(page beast http E rq w).2, isOpen, [.send (page beast http E rq w).1]⟩ := by
  have hpage : isPage "/" = false := by decide
  simp only [page, hget, hroot, hpage, ne_eq, not_true_eq_false, if_false, if_true,
    Bool.false_eq_true]
  rfl

theorem onUpdate_eq (hbeast : beast.Laws) {rq : Rq} (hget : http.method rq = .get)
    (hupdate : http.target rq = "/update")
    (w : World) (isOpen : Bool) :
    onUpdate beast http E rq (.start w isOpen) =
      ⟨(page beast http E rq w).2, isOpen, [.send (page beast http E rq w).1]⟩ := by
  have hpage : isPage "/update" = false := by decide
  have hroot : ¬"/update" = "/" := by decide
  simp only [page, hget, hupdate, hpage, hroot, ne_eq, not_true_eq_false, if_false, if_true,
    Bool.false_eq_true]
  exact send_text beast hbeast (by decide) _ _ _ _

theorem forall_patterns {P : String → Prop} (hfile : P filePattern) (hroot : P rootPattern)
    (hupdate : P updatePattern) :
    ∀ path ∈ [filePattern, rootPattern, updatePattern], P path := by
  intro path hpath
  simp only [List.mem_cons, List.not_mem_nil, or_false] at hpath
  rcases hpath with rfl | rfl | rfl
  · exact hfile
  · exact hroot
  · exact hupdate

section
variable (hserver : C.isRequest = true) {h : Host M Rq B Unit Sm World}
  (hb : h.Built C) (hregs : h.registered = routes beast C.http E) {message : Rq}
include hserver hb hregs

theorem answer_of_pattern (hget : C.http.method message = .get) {path : String}
    {f : Rq → Output M → Output M}
    (hchain : Router.lastRegistered (routes beast C.http E) .get path = some (lambdaChain f))
    (hmatch : ∃ re sm, C.http.regex path = some re ∧ re (C.http.target message) = some sm)
    (hothers : ∀ other ∈ [filePattern, rootPattern, updatePattern], other ≠ path →
      Host.Misses C message other) (s : Session M Rq B) :
    let o := f message (.start h.data s.isOpen)
    h.answer C message s = ⟨o.calls, o.data, true, none⟩ := by
  rw [← hregs] at hchain
  refine Host.answer_of_lambda C hb hserver (by rw [hget]; rfl) (by rw [hget]; exact hchain) hmatch
    (fun reg hreg hmethod hne => ?_) s
  rw [hregs] at hreg
  simp only [routes, List.mem_cons, List.not_mem_nil, or_false] at hreg
  rcases hreg with rfl | rfl | rfl
  · exact hothers filePattern (by simp) hne
  · exact hothers rootPattern (by simp) hne
  · exact hothers updatePattern (by simp) hne

theorem answer_of_fallback (hresponse : C.response = beast.text)
    (hempty : ∃ re, C.http.regex "" = some re ∧ ∀ target, (re target).isSome = (target == ""))
    (hmisses : C.http.method message = .get →
      ∀ path ∈ [filePattern, rootPattern, updatePattern],
      Host.Misses C message path)
    (s : Session M Rq B) :
    let rp := makeStringResponse 404 (C.http.version message) "Not Found" "text/html"
    (h.answer C message s).calls = [.send (beast.text rp)] ∧
      (h.answer C message s).data = h.data := by
  intro rp
  have hroutes (reg : Registration Rq Unit Sm (Output M)) (hreg : reg ∈ h.registered) :
      reg.method = .get ∧ reg.path ∈ [filePattern, rootPattern, updatePattern] := by
    rw [hregs] at hreg
    simp only [routes, List.mem_cons, List.not_mem_nil, or_false] at hreg
    rcases hreg with rfl | rfl | rfl
    · exact ⟨rfl, by simp [Registration.path]⟩
    · exact ⟨rfl, by simp [Registration.path]⟩
    · exact ⟨rfl, by simp [Registration.path]⟩
  have hunrouted (reg : Registration Rq Unit Sm (Output M)) (hreg : reg ∈ h.registered)
      (hmethod : reg.method = C.http.method message) : Host.Misses C message reg.path :=
    hmisses (hmethod.symm.trans (hroutes reg hreg).1) reg.path (hroutes reg hreg).2
  have hget (reg : Registration Rq Unit Sm (Output M)) (hreg : reg ∈ h.registered) :
      reg.method ≠ .unknown := by
    rw [(hroutes reg hreg).1]
    decide
  rw [Host.answer_of_default C hb hserver hget hempty hunrouted s, Host.notFoundResponse, hresponse]
  exact ⟨rfl, rfl⟩

theorem answer_of_get (hget : C.http.method message = .get) {path : String}
    {f : Rq → Output M → Output M}
    (hchain : Router.lastRegistered (routes beast C.http E) .get path = some (lambdaChain f))
    {p : String → Bool}
    (hpath : ∃ re, C.http.regex path = some re ∧ ∀ target, (re target).isSome = p target)
    (hp : p (C.http.target message) = true)
    (hothers : ∀ other ∈ [filePattern, rootPattern, updatePattern], other ≠ path →
      Host.Misses C message other)
    (s : Session M Rq B)
    (hpage : f message (.start h.data s.isOpen) =
      ⟨(page beast C.http E message h.data).2, s.isOpen,
        [.send (page beast C.http E message h.data).1]⟩) :
    (h.answer C message s).calls = [.send (page beast C.http E message h.data).1] ∧
      (h.answer C message s).data = (page beast C.http E message h.data).2 := by
  have hanswer := answer_of_pattern beast E C hserver hb hregs hget hchain
    (Host.matches_of_pattern C hpath hp) hothers s
  rw [hpage] at hanswer
  rw [hanswer]
  exact ⟨rfl, rfl⟩

theorem answer_eq_page (hbeast : beast.Laws) (hresponse : C.response = beast.text)
    (hp : Patterns C.http)
    (s : Session M Rq B) :
    (h.answer C message s).calls = [.send (page beast C.http E message h.data).1] ∧
      (h.answer C message s).data = (page beast C.http E message h.data).2 := by
  have hfallback (hmisses : C.http.method message = .get →
        ∀ path ∈ [filePattern, rootPattern, updatePattern], Host.Misses C message path)
      (hpage : page beast C.http E message h.data =
        (beast.text (makeStringResponse 404 (C.http.version message) "Not Found" "text/html"),
          h.data)) :
      (h.answer C message s).calls = [.send (page beast C.http E message h.data).1] ∧
        (h.answer C message s).data = (page beast C.http E message h.data).2 := by
    rw [hpage]
    exact answer_of_fallback beast E C hserver hb hregs hresponse hp.empty hmisses s
  by_cases hget : C.http.method message = .get
  swap
  · apply hfallback (fun h => absurd h hget)
    simp only [page, ne_eq, hget, not_false_eq_true, if_true]
  have hroot (hne : (C.http.target message == "/") = false) :
      Host.Misses C message rootPattern := Host.misses_of_pattern C hp.root hne
  have hupdate (hne : (C.http.target message == "/update") = false) :
      Host.Misses C message updatePattern := Host.misses_of_pattern C hp.update hne
  have hchains : Router.lastRegistered (routes beast C.http E) .get filePattern =
        some (lambdaChain (onFile beast C.http E)) ∧
      Router.lastRegistered (routes beast C.http E) .get rootPattern =
        some (lambdaChain (onRoot beast C.http)) ∧
      Router.lastRegistered (routes beast C.http E) .get updatePattern =
        some (lambdaChain (onUpdate beast C.http E)) := ⟨rfl, rfl, rfl⟩
  cases hpage : isPage (C.http.target message) with
  | true =>
    have hne {other : String} (hother : isPage other = false) :
        (C.http.target message == other) = false := by
      refine beq_eq_false_iff_ne.mpr fun heq => ?_
      rw [heq, hother] at hpage
      cases hpage
    apply answer_of_get beast E C hserver hb hregs hget hchains.1 hp.file hpage
    · exact forall_patterns (fun h => absurd rfl h) (fun _ => hroot (hne (by decide)))
        fun _ => hupdate (hne (by decide))
    · exact onFile_eq beast C.http E hbeast hget hpage h.data s.isOpen
  | false =>
    have hfile := Host.misses_of_pattern C hp.file hpage
    by_cases hslash : C.http.target message = "/"
    · have hother : (C.http.target message == "/update") = false := by rw [hslash]; decide
      apply answer_of_get beast E C hserver hb hregs hget hchains.2.1 hp.root
        (beq_iff_eq.mpr hslash)
      · exact forall_patterns (fun _ => hfile) (fun h => absurd rfl h) fun _ => hupdate hother
      · exact onRoot_eq beast C.http E hget hslash h.data s.isOpen
    · have hnotRoot := hroot (beq_eq_false_iff_ne.mpr hslash)
      by_cases htime : C.http.target message = "/update"
      · apply answer_of_get beast E C hserver hb hregs hget hchains.2.2 hp.update
          (beq_iff_eq.mpr htime)
        · exact forall_patterns (fun _ => hfile) (fun _ => hnotRoot) fun h => absurd rfl h
        · exact onUpdate_eq beast C.http E hbeast hget htime h.data s.isOpen
      · have hnone := hupdate (beq_eq_false_iff_ne.mpr htime)
        apply hfallback fun _ => forall_patterns hfile hnotRoot hnone
        simp only [page, ne_eq, hget, hpage, hslash, htime, not_true_eq_false, if_false,
          Bool.false_eq_true]

end

theorem answers_page (hbeast : beast.Laws) (hserver : C.isRequest = true)
    (hresponse : C.response = beast.text)
    (hp : Patterns C.http) :
    Program.Answers C (routes beast C.http E) fun rq w =>
      ([(page beast C.http E rq w).1], (page beast C.http E rq w).2) := by
  intro h hb hregs message s
  have hpage : (h.answer C message s).calls = _ ∧ _ :=
    answer_eq_page beast E C hserver hb hregs hbeast hresponse hp s
  rw [hpage.1]
  exact ⟨rfl, hpage.2⟩

theorem pages_served (hbeast : beast.Laws) (hserver : C.isRequest = true)
    (hresponse : C.response = beast.text)
    (hp : Patterns C.http) (onError : Bool)
    (fs : List (Program.Event M Rq B Unit Sm World))
    (hfs : ∀ e ∈ fs, Program.given e = []) (t : Program M Rq B Unit Sm World)
    (hr : Program.run C S (.init C onError ⟨[], 0⟩) (main beast C.http E fs) = some t) :
    (∃ order, Serial.run (fun rq w => ([(page beast C.http E rq w).1],
      (page beast C.http E rq w).2))
          (.init ⟨[], 0⟩) order = some t.view ∧ (order.map Prod.fst).Nodup) ∧
      ∀ k s, t.host.sessions[k]? = some s → s.written.map Item.message <+: t.view.said k := by
  have hanswers := answers_page beast E C hbeast hserver hresponse hp
  exact ⟨Program.serial_once C S hanswers (quiet_routes beast C.http E) hfs hr,
    (Program.serial_of_registers C S hanswers hfs hr).2⟩

theorem patterns_sample : Patterns sampleSetting.http := by
  have hsome (b : Bool) : (if b then some () else none).isSome = b := by cases b <;> rfl
  exact ⟨⟨_, rfl, fun target => hsome _⟩, ⟨_, rfl, fun target => hsome _⟩,
    ⟨_, rfl, fun target => hsome _⟩, ⟨_, rfl, fun target => hsome _⟩⟩

theorem pages_served_get :
    ∃ t order, Program.run sampleSetting ⟨false, true, some 1⟩
      (.init sampleSetting true ⟨[], 0⟩)
        (main .sample sampleSetting.http sampleEnvironment sampleRequest) = some t ∧
      t.view.said 0 = [⟨200, 11, [(.contentLength, "5"), (.contentType, "text/html")],
        .file "/srv/a.html"⟩] ∧
      Serial.run (fun rq w => ([(page .sample sampleSetting.http sampleEnvironment rq w).1],
          (page .sample sampleSetting.http sampleEnvironment rq w).2)) (.init ⟨[], 0⟩) order =
        some t.view ∧
      (order.map Prod.fst).Nodup := by
  obtain ⟨⟨order, horder, hnodup⟩, -⟩ :=
    pages_served .sample sampleEnvironment sampleSetting ⟨false, true, some 1⟩
      Beast.laws_sample rfl rfl patterns_sample true sampleRequest (by decide) _ rfl
  exact ⟨_, order, rfl, rfl, horder, hnodup⟩

end

end TimeCounter
end BeastRouter
