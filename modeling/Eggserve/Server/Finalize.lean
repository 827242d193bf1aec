import Eggserve.Primitives.Canonical.RuntimeError
import Eggserve.Server.FileBody
import Eggserve.Static.Planner.Validators

/-! The final boundary of a response: the policy on metadata that every head
passes before it is written. -/
namespace Eggserve.Server
open Rust Eggserve.Primitives Eggserve.Static

/-! Headers as the transport holds them. -/

structure HyperField where
  name : Str
  value : List UInt8
  deriving DecidableEq

abbrev HyperHeaders := List HyperField

namespace HyperHeaders

def getAll (headers : HyperHeaders) (name : Str) : List (List UInt8) :=
  (headers.filter fun field => eqIgnoreAsciiCase field.name name).map (·.value)

def remove (headers : HyperHeaders) (name : Str) : HyperHeaders :=
  headers.filter fun field => !eqIgnoreAsciiCase field.name name

/-- The new value takes the place of all values of the name. -/
def insert (headers : HyperHeaders) (name : Str) (value : List UInt8) : HyperHeaders :=
  headers.remove name ++ [⟨name, value⟩]

end HyperHeaders

def isVisibleAscii (b : UInt8) : Bool := 32 ≤ b && b < 127 || b = 9

/-- `HeaderValue::from_str` of the transport. -/
def hyperFromStr (text : Str) : Option (List UInt8) :=
  if (utf8 text).all isVisibleAscii then some (utf8 text) else none

/-- `HeaderValue::to_str` of the transport. -/
def hyperToStr (value : List UInt8) : Option Str :=
  if value.all isVisibleAscii then fromUtf8 value else none

structure HyperResponse where
  status : StatusCode
  headers : HyperHeaders
  body : Option ResponseBody
  deriving DecidableEq

def hyperHeaders (headers : HeaderBlock) : HyperHeaders :=
  headers.map fun field => ⟨field.name.text, field.value.bytes⟩

/-- A canonical response as the transport takes it. A file needs a permit, and
a stream is dropped under a status without payload. -/
def toHyperResponse (response : Response) (filePermit : Bool) :
    Except ResponseConstructionError HyperResponse := do
  let headers := hyperHeaders response.headers
  match response.body with
  | some (.file source) =>
      failIf (filePermit = false) .fileStreamLimit
      return ⟨response.status, headers, some (.file source)⟩
  | some (.stream producer) =>
      return ⟨response.status, headers,
        some (if response.status.permitsPayloadBody then .stream producer else .empty)⟩
  | body => return ⟨response.status, headers, body⟩

/-- An error of the runtime as the transport takes it; its normalization is
expected to succeed. -/
def hyperRuntimeError (code : StatusCode) (policy : ErrorRepresentationPolicy) :
    MayPanic HyperResponse := do
  let normalized ← (normalizeResponse (runtimeErrorWithPolicy code false policy) false).toOption
  (toHyperResponse normalized true).toOption

def internalErrorWithPolicy : ErrorRepresentationPolicy → MayPanic HyperResponse :=
  hyperRuntimeError ⟨500, by decide⟩

def serviceUnavailableWithPolicy : ErrorRepresentationPolicy → MayPanic HyperResponse :=
  hyperRuntimeError ⟨503, by decide⟩

/-! The policy. -/

inductive DatePolicy where
  | systemClock
  | suppress
  | custom (provided : SystemTime)
  deriving DecidableEq

def isFormattableDate (time : SystemTime) : Bool := 0 ≤ time && time < year10000

def DatePolicy.now (clock : SystemTime) : DatePolicy → Option SystemTime
  | systemClock => some clock
  | suppress => none
  | custom provided => if isFormattableDate provided then some provided else none

/-- The names that a denylist must not hold. -/
def blockedHeaders : List String :=
  ["date", "content-length", "transfer-encoding", "connection", "keep-alive",
    "proxy-authenticate", "proxy-authorization", "proxy-connection", "te", "trailer", "upgrade",
    "content-range"]

/-- `validate_stripped_header_name` accepts the name. -/
def strippedHeaderAllowed (name : Str) : Bool :=
  (HeaderName.new name).isOk &&
    !blockedHeaders.any fun blocked => name.map Char.toLower = (blocked : Str)

structure ResponsePolicy where
  serverIdentification : Option Str
  datePolicy : DatePolicy
  strippedResponseHeaders : List Str
  errorPolicy : ErrorRepresentationPolicy
  validated : ∀ name ∈ strippedResponseHeaders, strippedHeaderAllowed name = true

inductive PolicyOwner where
  | eggServe
  | external
  deriving DecidableEq, Repr

inductive ResponseProvenance where
  | service
  | runtime
  deriving DecidableEq, Repr

structure H1ConnectionPolicy where
  responsePolicy : ResponsePolicy
  dateOwner : PolicyOwner
  serverOwner : PolicyOwner
  maxRequestsPerConnection : Option Nat

section

variable (dates : HttpDate) (config : H1ConnectionPolicy) (clock : SystemTime)

def externalDate (provenance : ResponseProvenance) : Bool :=
  provenance = .service && config.dateOwner = .external

/-- The denylist, then the identification of the server. -/
def finalizeServer (provenance : ResponseProvenance) (headers : HyperHeaders) : HyperHeaders :=
  let headers := config.responsePolicy.strippedResponseHeaders.foldl HyperHeaders.remove headers
  if provenance ≠ .service ∨ config.serverOwner = .eggServe then
    match config.responsePolicy.serverIdentification.bind hyperFromStr with
    | some value => (headers.remove "server").insert "server" value
    | none => headers.remove "server"
  else headers

def parseDateValue (value : List UInt8) : Option SystemTime :=
  (hyperToStr value).bind dates.parseHttpDate

/-- The date of a service is absent, or there is one and it can be read. -/
def datesValid (headers : HyperHeaders) : Bool :=
  match headers.getAll "date" with
  | [] => true
  | [value] => (parseDateValue dates value).isSome
  | _ => false

def setDate (headers : HyperHeaders) : MayPanic HyperHeaders :=
  match config.responsePolicy.datePolicy.now clock with
  | none => some (headers.remove "date")
  | some now => do
      let text ← dates.fmtHttpDate now
      match hyperFromStr text with
      | some value => some ((headers.remove "date").insert "date" value)
      | none => some (headers.remove "date")

def dropLateLastModified (headers : HyperHeaders) : HyperHeaders :=
  match (headers.getAll "date").head?.bind (parseDateValue dates),
    (headers.getAll "last-modified").head?.bind (parseDateValue dates) with
  | some date, some modified =>
      if date < modified then headers.remove "last-modified" else headers
  | _, _ => headers

/-- Finalization where the date is the runtime's. -/
def finalizeOwned (response : HyperResponse) (provenance : ResponseProvenance) :
    MayPanic HyperResponse := do
  let headers ← setDate dates config clock (finalizeServer config provenance response.headers)
  return { response with headers := dropLateLastModified dates headers }

/-- A response with an invalid date of its own is replaced by an error. -/
def finalizeRuntimeResponse (response : HyperResponse) (provenance : ResponseProvenance) :
    MayPanic HyperResponse :=
  if externalDate config provenance then
    let headers := finalizeServer config provenance response.headers
    if datesValid dates headers then
      some { response with headers := dropLateLastModified dates headers }
    else do
      let error ← internalErrorWithPolicy config.responsePolicy.errorPolicy
      finalizeOwned dates config clock error .runtime
  else finalizeOwned dates config clock response provenance

/-- What `finish` makes of the head: the request that reaches the limit also
closes the connection. -/
def finishDisposition (completed : Nat) (closeAfterResponse : Bool) : Bool :=
  closeAfterResponse || config.maxRequestsPerConnection.any (· ≤ completed + 1)

def applyHttp1Disposition (response : HyperResponse) (closeAfterResponse : Bool) : HyperResponse :=
  if closeAfterResponse then
    { response with headers := response.headers.insert "connection" (utf8 "close") }
  else response

end

/-! What finalization leaves alone. -/

/-- The fields that finalization may touch by itself. -/
def finalizedNames : List String := ["server", "date", "last-modified"]

/-- A name that neither the denylist nor finalization touches. -/
def Untouched (config : H1ConnectionPolicy) (name : Str) : Prop :=
  (∀ stripped ∈ config.responsePolicy.strippedResponseHeaders,
      eqIgnoreAsciiCase stripped name = false) ∧
    ∀ touched ∈ finalizedNames, eqIgnoreAsciiCase (touched : String) name = false

namespace HyperHeaders

variable {headers : HyperHeaders} {name other : Str}

theorem getAll_remove (h : eqIgnoreAsciiCase other name = false) :
    (headers.remove other).getAll name = headers.getAll name := by
  have hSame : (headers.remove other).filter (fun field => eqIgnoreAsciiCase field.name name) =
      headers.filter fun field => eqIgnoreAsciiCase field.name name := by
    rw [remove, List.filter_filter]
    refine List.filter_congr fun field _ => ?_
    by_cases hName : eqIgnoreAsciiCase field.name name = true
    · have hOther : eqIgnoreAsciiCase field.name other = false := by
        rw [eqIgnoreAsciiCase_congr_left hName, eqIgnoreAsciiCase_comm]
        exact h
      simp [hName, hOther]
    · simp [hName]
  rw [getAll, hSame, getAll]

theorem getAll_insert (h : eqIgnoreAsciiCase other name = false) (value : List UInt8) :
    (headers.insert other value).getAll name = headers.getAll name := by
  have hAppend : (headers.insert other value).getAll name =
      (headers.remove other).getAll name := by
    simp [insert, getAll, h]
  rw [hAppend, getAll_remove h]

theorem getAll_append (first second : HyperHeaders) (name : Str) :
    getAll (first ++ second) name = first.getAll name ++ second.getAll name := by
  simp [getAll]

theorem getAll_hyperHeaders_eq_nil {headers : HeaderBlock}
    (h : ∀ field ∈ headers, field.name.is name = false) :
    (hyperHeaders headers).getAll name = [] := by
  rw [getAll, List.map_eq_nil_iff, List.filter_eq_nil_iff]
  intro field hField
  obtain ⟨original, hOriginal, rfl⟩ := List.mem_map.mp hField
  simpa [HeaderName.is] using h original hOriginal

theorem getAll_foldl_remove {removed : List Str}
    (h : ∀ stripped ∈ removed, eqIgnoreAsciiCase stripped name = false) :
    (removed.foldl remove headers).getAll name = headers.getAll name := by
  induction removed generalizing headers with
  | nil => rfl
  | cons stripped rest ih =>
      rw [List.foldl_cons, ih fun other hOther => h other (List.mem_cons_of_mem _ hOther)]
      exact getAll_remove (h stripped List.mem_cons_self)

end HyperHeaders

section

variable {dates : HttpDate} {config : H1ConnectionPolicy} {clock : SystemTime} {name : Str}
  {headers finalized : HyperHeaders} {provenance : ResponseProvenance}

/-- The denylist holds no blocked name. -/
theorem not_stripped_of_blocked {blocked : String} (hBlocked : blocked ∈ blockedHeaders)
    (hLower : (blocked : Str).map Char.toLower = (blocked : Str)) :
    ∀ stripped ∈ config.responsePolicy.strippedResponseHeaders,
      eqIgnoreAsciiCase stripped blocked = false := by
  intro stripped hStripped
  have hAllowed := config.responsePolicy.validated stripped hStripped
  simp only [strippedHeaderAllowed, Bool.and_eq_true, Bool.not_eq_true', List.any_eq_false,
    decide_eq_true_eq] at hAllowed
  simpa [eqIgnoreAsciiCase, hLower] using hAllowed.2 blocked hBlocked

theorem getAll_finalizeServer
    (hStripped : ∀ stripped ∈ config.responsePolicy.strippedResponseHeaders,
      eqIgnoreAsciiCase stripped name = false)
    (hServer : eqIgnoreAsciiCase ("server" : String) name = false) :
    (finalizeServer config provenance headers).getAll name = headers.getAll name := by
  have hKept : (config.responsePolicy.strippedResponseHeaders.foldl HyperHeaders.remove
      headers).getAll name = headers.getAll name := HyperHeaders.getAll_foldl_remove hStripped
  simp only [finalizeServer]
  split
  · split
    · rw [HyperHeaders.getAll_insert hServer, HyperHeaders.getAll_remove hServer, hKept]
    · rw [HyperHeaders.getAll_remove hServer, hKept]
  · exact hKept

/-- Whether the date is valid is decided by the fields of the service. -/
theorem datesValid_finalizeServer :
    datesValid dates (finalizeServer config provenance headers) = datesValid dates headers := by
  have hDate : (finalizeServer config provenance headers).getAll "date" =
      headers.getAll "date" :=
    getAll_finalizeServer (not_stripped_of_blocked (by decide) (by decide)) (by decide)
  rw [datesValid, hDate, datesValid]

theorem getAll_setDate (h : Untouched config name)
    (hSet : setDate dates config clock headers = some finalized) :
    finalized.getAll name = headers.getAll name := by
  have hDate : eqIgnoreAsciiCase ("date" : String) name = false := h.2 _ (by decide)
  unfold setDate at hSet
  split at hSet
  · obtain rfl := Option.some.inj hSet
    exact HyperHeaders.getAll_remove hDate
  · obtain ⟨text, -, hSet⟩ := Option.bind_eq_some_iff.mp hSet
    split at hSet <;> obtain rfl := Option.some.inj hSet
    · rw [HyperHeaders.getAll_insert hDate, HyperHeaders.getAll_remove hDate]
    · exact HyperHeaders.getAll_remove hDate

theorem getAll_dropLateLastModified (h : Untouched config name) :
    (dropLateLastModified dates headers).getAll name = headers.getAll name := by
  have hModified : eqIgnoreAsciiCase ("last-modified" : String) name = false :=
    h.2 _ (by decide)
  unfold dropLateLastModified
  split
  · split
    · exact HyperHeaders.getAll_remove hModified
    · rfl
  · rfl

/-- Finalization of a response that keeps its date keeps status and body, and
the values of every name it does not touch. -/
theorem finalizeRuntimeResponse_keeps {response final : HyperResponse}
    (hDates : externalDate config provenance = true → datesValid dates response.headers = true)
    (hFinal : finalizeRuntimeResponse dates config clock response provenance = some final) :
    final.status = response.status ∧ final.body = response.body ∧
      ∀ name, Untouched config name →
        final.headers.getAll name = response.headers.getAll name := by
  unfold finalizeRuntimeResponse at hFinal
  split at hFinal
  · rename_i hExternal
    rw [if_pos (datesValid_finalizeServer.trans (hDates hExternal))] at hFinal
    obtain rfl := Option.some.inj hFinal
    refine ⟨rfl, rfl, fun name hName => ?_⟩
    exact (getAll_dropLateLastModified hName).trans
      (getAll_finalizeServer hName.1 (hName.2 _ (by decide)))
  · obtain ⟨headers, hSet, hFinal⟩ := Option.bind_eq_some_iff.mp hFinal
    obtain rfl := Option.some.inj hFinal
    refine ⟨rfl, rfl, fun name hName => ?_⟩
    exact ((getAll_dropLateLastModified hName).trans (getAll_setDate hName hSet)).trans
      (getAll_finalizeServer hName.1 (hName.2 _ (by decide)))

/-- A disposition touches `Connection` alone. -/
theorem applyHttp1Disposition_keeps (response : HyperResponse) (closeAfterResponse : Bool) :
    (applyHttp1Disposition response closeAfterResponse).status = response.status ∧
      (applyHttp1Disposition response closeAfterResponse).body = response.body ∧
      ∀ name, eqIgnoreAsciiCase ("connection" : String) name = false →
        (applyHttp1Disposition response closeAfterResponse).headers.getAll name =
          response.headers.getAll name := by
  unfold applyHttp1Disposition
  split
  · exact ⟨rfl, rfl, fun name hName => HyperHeaders.getAll_insert hName _⟩
  · exact ⟨rfl, rfl, fun _ _ => rfl⟩

theorem untouched_of_blocked {blocked : String} (hBlocked : blocked ∈ blockedHeaders)
    (hLower : (blocked : Str).map Char.toLower = (blocked : Str))
    (hNames : ∀ touched ∈ finalizedNames, eqIgnoreAsciiCase (touched : String) blocked = false) :
    Untouched config blocked :=
  ⟨not_stripped_of_blocked hBlocked hLower, hNames⟩

end

end Eggserve.Server
