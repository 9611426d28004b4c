import BeastRouter.Router

namespace BeastRouter

inductive Field where
  | contentLength
  | contentType
  | location
  | connection
  | transferEncoding
  deriving DecidableEq, Repr

inductive ResponseBody where
  | empty
  | string (data : String)
  | file (name : String)
  deriving DecidableEq, Repr

-- Beast's response type `M`, as far as the library builds it and reads it.
structure Beast (M : Type) where
  create : ℕ → ℕ → ResponseBody → M
  set : Field → String → M → M
  contentLength : ℕ → M → M
  preparePayload : ℕ → M → Option M
  setKeepAlive : Bool → M → M
  result : M → ℕ
  version : M → ℕ
  body : M → ResponseBody
  get : Field → M → Option String

def bodilessStatus (result : ℕ) : Bool := result / 100 = 1 || result = 204 || result = 304

def isOld (version : ℕ) : Bool := version < 11

namespace Beast
variable {M : Type} (beast : Beast M)

def bounded (m : M) : Bool :=
  bodilessStatus (beast.result m) || (beast.get .contentLength m).isSome

-- `prepare_payload` throws where a body that must be empty is not.
structure Laws : Prop where
  result_create : ∀ code version body, beast.result (beast.create code version body) = code
  version_create : ∀ code version body, beast.version (beast.create code version body) = version
  body_create : ∀ code version body, beast.body (beast.create code version body) = body
  get_create : ∀ code version body field, beast.get field (beast.create code version body) = none
  result_set : ∀ field value m, beast.result (beast.set field value m) = beast.result m
  version_set : ∀ field value m, beast.version (beast.set field value m) = beast.version m
  body_set : ∀ field value m, beast.body (beast.set field value m) = beast.body m
  get_set : ∀ field value m field', beast.get field' (beast.set field value m) =
    if field' = field then some value else beast.get field' m
  result_contentLength : ∀ size m, beast.result (beast.contentLength size m) = beast.result m
  version_contentLength : ∀ size m, beast.version (beast.contentLength size m) = beast.version m
  body_contentLength : ∀ size m, beast.body (beast.contentLength size m) = beast.body m
  get_contentLength : ∀ size m field, beast.get .transferEncoding m = none →
    beast.get field (beast.contentLength size m) =
      if field = .contentLength then some (toString size) else beast.get field m
  preparePayload : ∀ size m, beast.preparePayload size m =
    if 0 < size && bodilessStatus (beast.result m) then none
    else some (beast.contentLength size m)
  body_setKeepAlive : ∀ keep m, beast.body (beast.setKeepAlive keep m) = beast.body m

-- how `need_eof` reads a response that says nothing of the connection
def NeedEofRule (needEof : M → Bool) : Prop :=
  ∀ m, beast.get .connection m = none → beast.get .transferEncoding m = none →
    needEof m = (isOld (beast.version m) || !beast.bounded m)

def KeepAliveRule (needEof : M → Bool) : Prop :=
  ∀ keep m, beast.get .connection m = none → beast.bounded m = true →
    needEof (beast.setKeepAlive keep m) = !keep

end Beast

namespace MimeType

def defaultMime : String := "application/type"

def mimeTypes : List (String × String) :=
  [("html", "text/html"), ("js", "application/javascript"), ("css", "text/css"),
    ("png", "image/png"), ("jpg", "image/jpeg"), ("fvl", "video/x-flv")]

def getMimeType (ext : String) : String := (mimeTypes.lookup ext).getD defaultMime

end MimeType

namespace HttpUtility
variable {M : Type} (beast : Beast M)

def createResponse (code version : ℕ) (body : ResponseBody) : M :=
  beast.create code version body

def makeEmptyResponse (code version : ℕ) : M := createResponse beast code version .empty

def makeMovedResponse (version : ℕ) (location : String) : M :=
  beast.set .location location (makeEmptyResponse beast 301 version)

def makeStringResponse (code version : ℕ) (data content : String) : Option M :=
  (beast.preparePayload data.utf8ByteSize
    (createResponse beast code version (.string data))).map (beast.set .contentType content)

def rfind (c : Char) (name : List Char) : Option ℕ :=
  (name.reverse.idxOf? c).map fun i => name.length - 1 - i

def fileExtension (fileName : String) : String :=
  match rfind '.' fileName.toList with
  | some idx => String.ofList (fileName.toList.drop (idx + 1))
  | none => ""

-- `opened` is the size of the file that was opened, or nothing where that failed.
def makeFileResponse (version : ℕ) (fileName : String) (opened : Option ℕ) : M :=
  match opened with
  | none => createResponse beast 404 version (.file "")
  | some size =>
    beast.set .contentType (MimeType.getMimeType (fileExtension fileName))
      (beast.contentLength size (createResponse beast 200 version (.file fileName)))

theorem idxOf_first {c : Char} {xs : List Char} (h : c ∉ xs) (ys : List Char) :
    (xs ++ c :: ys).idxOf? c = some xs.length := by
  induction xs with
  | nil => simp [List.idxOf?_cons]
  | cons x xs ih =>
    have hne : (x == c) = false := beq_false_of_ne fun heq => h (heq ▸ .head xs)
    rw [List.cons_append, List.idxOf?_cons, hne, ih fun hc => h (.tail x hc)]
    rfl

theorem fileExtension_append {ext : String} (hext : '.' ∉ ext.toList) {fileName : String}
    {stem : List Char} (hname : fileName.toList = stem ++ '.' :: ext.toList) :
    fileExtension fileName = ext := by
  have hfind : rfind '.' fileName.toList = some stem.length := by
    have hlast := idxOf_first (mt List.mem_reverse.mp hext) stem.reverse
    rw [rfind, hname, List.reverse_append, List.reverse_cons, List.append_assoc,
      List.singleton_append, hlast]
    simp
  have hdrop : fileName.toList.drop (stem.length + 1) = ext.toList := by
    rw [hname, ← List.drop_drop, List.drop_left]
    rfl
  rw [fileExtension, hfind]
  exact (congrArg String.ofList hdrop).trans String.ofList_toList

end HttpUtility

namespace Beast
variable {M : Type} (beast : Beast M)

def text (rp : StringResponse) : M :=
  beast.set .contentType rp.contentType (beast.contentLength rp.body.utf8ByteSize
    (HttpUtility.createResponse beast rp.code rp.version (.string rp.body)))

variable {beast} (hbeast : beast.Laws)
include hbeast

theorem Laws.makeStringResponse_eq {code : ℕ} (hcode : bodilessStatus code = false)
    (version : ℕ) (data content : String) :
    HttpUtility.makeStringResponse beast code version data content =
      some (beast.text (makeStringResponse code version data content)) := by
  rw [HttpUtility.makeStringResponse, HttpUtility.createResponse, hbeast.preparePayload,
    hbeast.result_create, hcode, Bool.and_false, if_neg Bool.false_ne_true]
  rfl

theorem Laws.result_file (version size : ℕ) (fileName : String) :
    beast.result (HttpUtility.makeFileResponse beast version fileName (some size)) = 200 := by
  rw [HttpUtility.makeFileResponse, hbeast.result_set, hbeast.result_contentLength,
    HttpUtility.createResponse, hbeast.result_create]

theorem Laws.result_noFile (version : ℕ) (fileName : String) :
    beast.result (HttpUtility.makeFileResponse beast version fileName none) = 404 :=
  hbeast.result_create 404 version (.file "")

theorem Laws.body_text (rp : StringResponse) : beast.body (beast.text rp) = .string rp.body := by
  rw [text, hbeast.body_set, hbeast.body_contentLength, HttpUtility.createResponse,
    hbeast.body_create]

theorem Laws.get_sized (size code version : ℕ) (body : ResponseBody) (value : String)
    (field : Field) :
    beast.get field (beast.set .contentType value
        (beast.contentLength size (beast.create code version body))) =
      if field = .contentType then some value
      else if field = .contentLength then some (toString size) else none := by
  have hnone := hbeast.get_create code version body
  rw [hbeast.get_set, hbeast.get_contentLength size _ field (hnone .transferEncoding), hnone]

theorem Laws.bounded_sized (size code version : ℕ) (body : ResponseBody) (value : String) :
    beast.bounded (beast.set .contentType value
      (beast.contentLength size (beast.create code version body))) = true := by
  rw [bounded, hbeast.get_sized, if_neg (by decide), if_pos rfl, Option.isSome_some, Bool.or_true]

theorem Laws.version_sized (size code version : ℕ) (body : ResponseBody) (value : String) :
    beast.version (beast.set .contentType value
      (beast.contentLength size (beast.create code version body))) = version := by
  rw [hbeast.version_set, hbeast.version_contentLength, hbeast.version_create]

end Beast

inductive Made where
  | empty (code version : ℕ)
  | moved (version : ℕ) (location : String)
  | string (code version : ℕ) (data content : String)
  | file (version : ℕ) (fileName : String) (opened : Option ℕ)
  deriving DecidableEq, Repr

namespace Made
open HttpUtility
variable {M : Type} (beast : Beast M)

def response : Made → Option M
  | empty code version => some (makeEmptyResponse beast code version)
  | moved version location => some (makeMovedResponse beast version location)
  | string code version data content =>
    HttpUtility.makeStringResponse beast code version data content
  | file version fileName opened => some (makeFileResponse beast version fileName opened)

def Makes (m : Made) (rp : M) : Prop := m.response beast = some rp

def version : Made → ℕ
  | empty _ version => version
  | moved version _ => version
  | string _ version _ _ => version
  | file version _ _ => version

def unbounded : Made → Bool
  | empty code _ => !bodilessStatus code
  | moved _ _ => true
  | string _ _ _ _ => false
  | file _ _ opened => opened.isNone

def endsStream (m : Made) : Bool := isOld m.version || m.unbounded

variable {beast}

theorem needEof_create (hbeast : beast.Laws) {needEof : M → Bool}
    (hrule : beast.NeedEofRule needEof) (code version : ℕ) (body : ResponseBody) :
    needEof (beast.create code version body) = (isOld version || !bodilessStatus code) := by
  rw [hrule _ (hbeast.get_create ..) (hbeast.get_create ..), hbeast.version_create, Beast.bounded,
    hbeast.result_create, hbeast.get_create, Option.isSome_none, Bool.or_false]

theorem needEof_sized (hbeast : beast.Laws) {needEof : M → Bool}
    (hrule : beast.NeedEofRule needEof) (size code version : ℕ) (body : ResponseBody)
    (value : String) :
    needEof (beast.set .contentType value
      (beast.contentLength size (beast.create code version body))) = isOld version := by
  have hget (field : Field) (h : field ≠ .contentType) (h' : field ≠ .contentLength) :=
    (hbeast.get_sized size code version body value field).trans
      ((if_neg h).trans (if_neg h'))
  rw [hrule _ (hget .connection (by decide) (by decide))
      (hget .transferEncoding (by decide) (by decide)), hbeast.version_sized, hbeast.bounded_sized,
    Bool.not_true, Bool.or_false]

theorem needEof_response (hbeast : beast.Laws) {needEof : M → Bool}
    (hrule : beast.NeedEofRule needEof) {m : Made} {rp : M} (h : m.Makes beast rp) :
    needEof rp = m.endsStream := by
  cases m with
  | empty code version =>
    obtain rfl := Option.some.inj h
    exact needEof_create hbeast hrule code version .empty
  | moved version location =>
    obtain rfl := Option.some.inj h
    have hget (field : Field) (hfield : field ≠ .location) :
        beast.get field (makeMovedResponse beast version location) = none := by
      rw [makeMovedResponse, hbeast.get_set, if_neg hfield]
      exact hbeast.get_create ..
    have hstatus : bodilessStatus 301 = false := by decide
    rw [hrule _ (hget .connection (by decide)) (hget .transferEncoding (by decide)), Beast.bounded,
      hget .contentLength (by decide), makeMovedResponse, hbeast.version_set, hbeast.result_set,
      makeEmptyResponse, createResponse, hbeast.version_create, hbeast.result_create, hstatus]
    rfl
  | string code version data content =>
    obtain ⟨u, hu, rfl⟩ := Option.map_eq_some_iff.mp h
    rw [hbeast.preparePayload, Option.ite_none_left_eq_some, Option.some.injEq] at hu
    obtain ⟨-, rfl⟩ := hu
    rw [createResponse, needEof_sized hbeast hrule]
    exact (Bool.or_false _).symm
  | file version fileName opened =>
    obtain rfl := Option.some.inj h
    cases opened with
    | none =>
      have hstatus : bodilessStatus 404 = false := by decide
      have hneed := needEof_create hbeast hrule 404 version (.file "")
      rw [hstatus] at hneed
      exact hneed
    | some size =>
      refine (needEof_sized hbeast hrule size 200 version (.file fileName) _).trans ?_
      exact (Bool.or_false _).symm

end Made

structure HttpResponse where
  result : ℕ
  version : ℕ
  fields : List (Field × String)
  body : ResponseBody
  deriving DecidableEq, Repr

namespace HttpResponse

def get (field : Field) (rp : HttpResponse) : Option String := rp.fields.lookup field

def erase (field : Field) (rp : HttpResponse) : HttpResponse :=
  { rp with fields := rp.fields.filter fun f => f.1 ≠ field }

def set (field : Field) (value : String) (rp : HttpResponse) : HttpResponse :=
  { rp with fields := (rp.erase field).fields ++ [(field, value)] }

theorem get_erase (field field' : Field) (rp : HttpResponse) :
    (rp.erase field).get field' = if field' = field then none else rp.get field' := by
  obtain ⟨result, version, fields, body⟩ := rp
  simp only [get, erase]
  induction fields with
  | nil => exact (ite_self none).symm
  | cons f fields ih =>
    obtain ⟨name, old⟩ := f
    by_cases hname : name = field
    · subst hname
      rw [List.filter_cons_of_neg (by simp), ih, List.lookup_cons]
      split_ifs with h
      · rfl
      · rw [beq_false_of_ne h]
    · rw [List.filter_cons_of_pos (by simpa using hname), List.lookup_cons, List.lookup_cons, ih]
      cases h : field' == name with
      | true =>
        obtain rfl := eq_of_beq h
        exact (if_neg hname).symm
      | false => rfl

theorem get_set (field field' : Field) (value : String) (rp : HttpResponse) :
    (rp.set field value).get field' = if field' = field then some value else rp.get field' := by
  have herased := get_erase field field' rp
  rw [get] at herased
  rw [get, set, List.lookup_append, herased]
  split_ifs with h
  · simp [h]
  · rw [List.lookup_cons, beq_false_of_ne h]
    exact Option.or_none

def setKeepAlive (keep : Bool) (rp : HttpResponse) : HttpResponse :=
  match isOld rp.version, keep with
  | true, true => rp.set .connection "keep-alive"
  | false, false => rp.set .connection "close"
  | true, false => rp.erase .connection
  | false, true => rp.erase .connection

end HttpResponse

namespace Beast
open HttpResponse

def sample : Beast HttpResponse where
  create := fun code version body => ⟨code, version, [], body⟩
  set := HttpResponse.set
  contentLength := fun size rp => rp.set .contentLength (toString size)
  preparePayload := fun size rp =>
    if 0 < size && bodilessStatus rp.result then none
    else some (rp.set .contentLength (toString size))
  setKeepAlive := HttpResponse.setKeepAlive
  result := HttpResponse.result
  version := HttpResponse.version
  body := HttpResponse.body
  get := HttpResponse.get

theorem laws_sample : sample.Laws where
  result_create := fun _ _ _ => rfl
  version_create := fun _ _ _ => rfl
  body_create := fun _ _ _ => rfl
  get_create := fun _ _ _ _ => rfl
  result_set := fun _ _ _ => rfl
  version_set := fun _ _ _ => rfl
  body_set := fun _ _ _ => rfl
  get_set := fun field value rp field' => get_set field field' value rp
  result_contentLength := fun _ _ => rfl
  version_contentLength := fun _ _ => rfl
  body_contentLength := fun _ _ => rfl
  get_contentLength := fun size rp field _ => get_set .contentLength field (toString size) rp
  preparePayload := fun _ _ => rfl
  body_setKeepAlive := fun keep rp => by
    change (rp.setKeepAlive keep).body = rp.body
    unfold HttpResponse.setKeepAlive
    split <;> rfl

def sampleNeedEof (rp : HttpResponse) : Bool :=
  !sample.bounded rp ||
    if isOld rp.version then rp.get .connection ≠ some "keep-alive"
    else rp.get .connection = some "close"

theorem needEofRule_sample : sample.NeedEofRule sampleNeedEof := by
  intro rp hnone _
  have hget : rp.get .connection = none := hnone
  rw [sampleNeedEof, hget, Bool.or_comm]
  change _ = (isOld rp.version || _)
  cases isOld rp.version <;> rfl

theorem keepAliveRule_sample : sample.KeepAliveRule sampleNeedEof := by
  intro keep rp hnone hbounded
  have hlength : (rp.setKeepAlive keep).get .contentLength = rp.get .contentLength := by
    unfold HttpResponse.setKeepAlive
    split <;> simp [get_set, get_erase]
  have hsame : (rp.setKeepAlive keep).result = rp.result ∧
      (rp.setKeepAlive keep).version = rp.version := by
    unfold HttpResponse.setKeepAlive
    split <;> exact ⟨rfl, rfl⟩
  have hbounded' : sample.bounded (rp.setKeepAlive keep) = true := by
    rw [← hbounded]
    exact congrArg₂ (fun result length => bodilessStatus result || length.isSome) hsame.1 hlength
  change sampleNeedEof (rp.setKeepAlive keep) = !keep
  rw [sampleNeedEof, hbounded', hsame.2]
  cases hold : isOld rp.version <;> cases keep <;>
    simp [HttpResponse.setKeepAlive, hold, get_set, get_erase]

end Beast
end BeastRouter
