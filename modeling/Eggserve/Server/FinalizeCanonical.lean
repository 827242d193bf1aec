import Eggserve.Server.Finalize
import Eggserve.Static.Planner.Exactness

/-! The final boundary as the HTTP/3 adapter applies it, on canonical fields.
HTTP/1 applies the same policy to the fields of the transport, in another order
of steps and against a date that was printed and read again. -/
namespace Eggserve.Server
open Rust Eggserve.Primitives Eggserve.Static

/-- What `httpdate` says of its texts on the wire: what it prints is a field
value as it stands, what it reads is visible ASCII, and a date that was read
falls on a second. -/
structure WireDates (dates : HttpDate) : Prop extends HttpDate.Exact dates where
  fmt_visible : ∀ time text, dates.fmtHttpDate time = some text →
    (utf8 text).all isVisibleAscii = true ∧ trimOws (utf8 text) = utf8 text
  parse_visible : ∀ text time, dates.parseHttpDate text = some time →
    (utf8 text).all isVisibleAscii = true
  parse_second : ∀ text time, dates.parseHttpDate text = some time →
    time / nanosPerSec * nanosPerSec = time

/-- The first value of a name. -/
def getFirst (headers : HeaderBlock) (name : Str) : Option HeaderValue :=
  (headers.find? (·.name.is name)).map (·.value)

/-- `let _ = headers.push_str(name, value)`. -/
def pushedStr (headers : HeaderBlock) (name value : Str) : HeaderBlock :=
  match headers.pushStr name value with
  | .ok pushed => pushed
  | .error _ => headers

/-- The predicate of the one `retain`. -/
def keepsField (policy : ResponsePolicy) (futureLastModified : Bool) (name : Str) : Bool :=
  let stripped := policy.strippedResponseHeaders.any fun denied => eqIgnoreAsciiCase denied name
  let owned := eqIgnoreAsciiCase name "server" || eqIgnoreAsciiCase name "date" ||
    futureLastModified && eqIgnoreAsciiCase name "last-modified"
  !(stripped || owned)

def isLater (now last : Option SystemTime) : Bool :=
  match now, last with
  | some now, some last => now < last
  | _, _ => false

def finalizeCanonicalResponse (dates : HttpDate) (policy : ResponsePolicy) (clock : SystemTime)
    (response : Response) : MayPanic Response :=
  let now := policy.datePolicy.now clock
  let lastModified := ((getFirst response.headers "last-modified").bind HeaderValue.toStr).bind
    dates.parseHttpDate
  let futureLastModified := isLater now lastModified
  let kept := response.headers.filter fun field =>
    keepsField policy futureLastModified field.name.text
  let identified :=
    match policy.serverIdentification with
    | some server => pushedStr kept "server" server
    | none => kept
  match now with
  | none => some { response with headers := identified, normalized := false }
  | some now =>
      (dates.fmtHttpDate now).map fun text =>
        { response with headers := pushedStr identified "date" text, normalized := false }

/-- The two fields that the server owns, where it sends them. -/
def ownedFields (server date : Option (List UInt8)) : HyperHeaders :=
  (server.map (HyperField.mk "server")).toList ++ (date.map (HyperField.mk "date")).toList

/-- The fields after a pass. -/
def finalFields (policy : ResponsePolicy) (futureLastModified : Bool)
    (server date : Option (List UInt8)) (headers : HyperHeaders) : HyperHeaders :=
  headers.filter (fun field => keepsField policy futureLastModified field.name) ++
    ownedFields server date

namespace HyperHeaders

end HyperHeaders

section Fields

variable {policy : ResponsePolicy} {server date : Option (List UInt8)} {headers : HyperHeaders}

/-- A field that is sent or not, by its name. -/
theorem getAll_optional (field name : Str) (value : Option (List UInt8)) :
    HyperHeaders.getAll (value.map (HyperField.mk field)).toList name =
      if eqIgnoreAsciiCase field name then value.toList else [] := by
  cases value with
  | none => simp [HyperHeaders.getAll]
  | some bytes => cases hName : eqIgnoreAsciiCase field name <;> simp [HyperHeaders.getAll, hName]

end Fields

/-! The pass of HTTP/1. -/

/-- The date as either pass sends it. -/
def sentDate (dates : HttpDate) (policy : ResponsePolicy) (clock : SystemTime) :
    MayPanic (Option (List UInt8)) :=
  match policy.datePolicy.now clock with
  | none => some none
  | some now => (dates.fmtHttpDate now).map fun text => some (utf8 text)

/-- The date of the first `Last-Modified`, if it can be read. -/
def firstLastModified (dates : HttpDate) (headers : HyperHeaders) : Option SystemTime :=
  (headers.getAll "last-modified").head?.bind (parseDateValue dates)

section Runtime

variable {dates : HttpDate} {config : H1ConnectionPolicy} {clock : SystemTime}
  {provenance : ResponseProvenance}

theorem setDate_eq (hDates : WireDates dates) (headers : HyperHeaders) :
    setDate dates config clock headers =
      (sentDate dates config.responsePolicy clock).map fun date =>
        headers.remove "date" ++ (date.map (HyperField.mk "date")).toList := by
  unfold setDate sentDate
  cases config.responsePolicy.datePolicy.now clock with
  | none => simp
  | some now =>
      cases hFmt : dates.fmtHttpDate now with
      | none => simp only [hFmt, Option.map_none, Option.bind_eq_bind, Option.bind_none]
      | some text =>
          have hValue : hyperFromStr text = some (utf8 text) :=
            if_pos (hDates.fmt_visible now text hFmt).1
          have hTwice : (headers.remove "date").remove "date" = headers.remove "date" := by
            simp only [HyperHeaders.remove, List.filter_filter, Bool.and_self]
          simp only [hFmt, hValue, HyperHeaders.insert, hTwice, Option.bind_eq_bind,
            Option.bind_some, Option.map_some, Option.toList_some]

section

variable {policy : ResponsePolicy} {server date : Option (List UInt8)} {headers : HyperHeaders}

end

end Runtime

/-! The pass of HTTP/3. -/

/-- The identification as HTTP/3 sends it. -/
def canonicalServer (policy : ResponsePolicy) : Option (List UInt8) :=
  policy.serverIdentification.bind fun server =>
    (HeaderValue.new server).toOption.map HeaderValue.bytes

section Canonical

variable {dates : HttpDate} {policy : ResponsePolicy} {clock : SystemTime}

/-- Text that is read as a date is the same text to both header types. -/
theorem parseDateValue_eq (hDates : WireDates dates) (value : HeaderValue) :
    value.toStr.bind dates.parseHttpDate = parseDateValue dates value.bytes := by
  unfold parseDateValue hyperToStr HeaderValue.toStr
  cases hVisible : value.bytes.all isVisibleAscii with
  | true => simp
  | false =>
      simp only [Bool.false_eq_true, ↓reduceIte, Option.bind_none, Option.bind_eq_none_iff]
      intro text hText
      rw [fromUtf8_eq_some_iff] at hText
      by_contra hParse
      obtain ⟨time, hTime⟩ := Option.ne_none_iff_exists'.mp hParse
      have hAll := hDates.parse_visible text time hTime
      rw [← hText, hVisible] at hAll
      cases hAll

theorem firstLastModified_hyperHeaders (hDates : WireDates dates) (headers : HeaderBlock) :
    ((getFirst headers "last-modified").bind HeaderValue.toStr).bind dates.parseHttpDate =
      firstLastModified dates (hyperHeaders headers) := by
  have hFirst : ((hyperHeaders headers).getAll "last-modified").head? =
      (getFirst headers "last-modified").map HeaderValue.bytes := by
    simp only [HyperHeaders.getAll, hyperHeaders, List.filter_map, List.map_map, List.head?_map,
      List.head?_filter, getFirst, Option.map_map]
    rfl
  rw [firstLastModified, hFirst]
  cases getFirst headers "last-modified" with
  | none => rfl
  | some value => exact parseDateValue_eq hDates value

/-- A push under a valid name adds the field if its value is one. -/
theorem hyperHeaders_pushedStr (headers : HeaderBlock) (name : HeaderName) (value : Str) :
    hyperHeaders (pushedStr headers name.text value) =
      hyperHeaders headers ++
        (((HeaderValue.new value).toOption.map HeaderValue.bytes).map
          (HyperField.mk name.text)).toList := by
  have hName := name.new_text
  unfold pushedStr HeaderBlock.pushStr
  cases hValue : HeaderValue.new value with
  | error e => simp [hName, Bind.bind, Except.bind, Except.toOption]
  | ok field =>
      simp [hName, Bind.bind, Except.bind, Except.toOption, Pure.pure, Except.pure, hyperHeaders]

theorem hyperHeaders_filter (headers : HeaderBlock) (keep : Str → Bool) :
    hyperHeaders (headers.filter fun field => keep field.name.text) =
      (hyperHeaders headers).filter fun field => keep field.name := by
  simp only [hyperHeaders, List.filter_map]
  rfl

theorem isValueByte_of_isVisibleAscii {b : UInt8} (h : isVisibleAscii b = true) :
    isValueByte b = true := by
  simp only [isVisibleAscii, isValueByte, Bool.or_eq_true, Bool.and_eq_true, decide_eq_true_eq]
    at h ⊢
  rcases h with ⟨hLow, hHigh⟩ | hTab
  · refine .inl ⟨hLow, ?_⟩
    rintro rfl
    exact absurd hHigh (by decide)
  · exact .inr hTab

/-- Visible text without blanks at its ends is a field value as it stands. -/
theorem new_plain {text : Str} (hVisible : (utf8 text).all isVisibleAscii = true)
    (hTrimmed : trimOws (utf8 text) = utf8 text) :
    (HeaderValue.new text).toOption.map HeaderValue.bytes = some (utf8 text) := by
  have hValid : (utf8 text).all isValueByte = true := by
    rw [List.all_eq_true] at hVisible ⊢
    intro b hMem
    exact isValueByte_of_isVisibleAscii (hVisible b hMem)
  rw [HeaderValue.new, HeaderValue.fromBytes, dif_pos hValid]
  simp only [Except.toOption, Option.map_some, hTrimmed]

def serverName : HeaderName := ⟨"server", by decide⟩

def dateName : HeaderName := ⟨"date", by decide⟩

/-- The pass of HTTP/3. -/
theorem finalizeCanonicalResponse_eq (hDates : WireDates dates) {response : Response}
    {date : Option (List UInt8)} (hSent : sentDate dates policy clock = some date) :
    ∃ headers, finalizeCanonicalResponse dates policy clock response =
        some { response with headers := headers, normalized := false } ∧
      hyperHeaders headers = finalFields policy
        (isLater (policy.datePolicy.now clock)
          (firstLastModified dates (hyperHeaders response.headers)))
        (canonicalServer policy) date (hyperHeaders response.headers) := by
  have hServer : ∀ kept : HeaderBlock,
      hyperHeaders (match policy.serverIdentification with
        | some server => pushedStr kept "server" server
        | none => kept) =
      hyperHeaders kept ++ ((canonicalServer policy).map (HyperField.mk "server")).toList := by
    intro kept
    unfold canonicalServer
    cases policy.serverIdentification with
    | none => exact (List.append_nil _).symm
    | some server => exact hyperHeaders_pushedStr kept serverName server
  unfold finalizeCanonicalResponse
  simp only [firstLastModified_hyperHeaders hDates]
  generalize isLater (policy.datePolicy.now clock)
    (firstLastModified dates (hyperHeaders response.headers)) = future
  cases hNow : policy.datePolicy.now clock with
  | none =>
      obtain rfl : none = date := by simpa [sentDate, hNow] using hSent
      refine ⟨_, rfl, ?_⟩
      rw [hServer, hyperHeaders_filter, finalFields, ownedFields]
      simp
  | some now =>
      obtain ⟨text, hFmt, rfl⟩ : ∃ text, dates.fmtHttpDate now = some text ∧
          some (utf8 text) = date := by
        simpa [sentDate, hNow] using hSent
      simp only [hFmt, Option.map_some]
      have hDate : ∀ kept : HeaderBlock, hyperHeaders (pushedStr kept "date" text) =
          hyperHeaders kept ++ ((some (utf8 text)).map (HyperField.mk "date")).toList := by
        intro kept
        rw [← new_plain (hDates.fmt_visible now text hFmt).1 (hDates.fmt_visible now text hFmt).2]
        exact hyperHeaders_pushedStr kept dateName text
      refine ⟨_, rfl, ?_⟩
      rw [hDate, hServer, hyperHeaders_filter, List.append_assoc]
      rfl

theorem finalizeCanonicalResponse_eq_none {response : Response}
    (hSent : sentDate dates policy clock = none) :
    finalizeCanonicalResponse dates policy clock response = none := by
  unfold sentDate at hSent
  unfold finalizeCanonicalResponse
  cases hNow : policy.datePolicy.now clock with
  | none => simp [hNow] at hSent
  | some now =>
      simp only [hNow, Option.map_eq_none_iff] at hSent
      simp only [hSent, Option.map_none]

end Canonical

/-! What a pass leaves. -/

section Passed

variable {dates : HttpDate} {policy : ResponsePolicy} {clock : SystemTime}
  {server date : Option (List UInt8)} {headers : HyperHeaders}

/-- A date is sent, or left out, where the time can be printed. -/
theorem fmtHttpDate_isSome (hDates : WireDates dates) (time : SystemTime) :
    (dates.fmtHttpDate time).isSome = isFormattableDate time := by
  by_cases hFormattable : 0 ≤ time ∧ time < year10000
  · obtain ⟨text, hFmt, -⟩ := hDates.parse_fmt time hFormattable.1 hFormattable.2
    simp [hFmt, isFormattableDate, hFormattable]
  · have hOutside : time < 0 ∨ year10000 ≤ time := by
      rwa [not_and_or, not_le, not_lt] at hFormattable
    rw [hDates.panics time hOutside]
    simpa [isFormattableDate] using hFormattable

/-- The clock can be printed where it is asked for. A provider's time is checked
before it is used. -/
def InstantFormattable (policy : ResponsePolicy) (clock : SystemTime) : Prop :=
  policy.datePolicy = .systemClock → isFormattableDate clock = true

theorem sentDate_isSome (hDates : WireDates dates) :
    (sentDate dates policy clock).isSome ↔ InstantFormattable policy clock := by
  unfold sentDate InstantFormattable
  cases policy.datePolicy with
  | systemClock => simp [DatePolicy.now, fmtHttpDate_isSome hDates]
  | suppress => simp [DatePolicy.now]
  | custom provided =>
      cases hFormattable : isFormattableDate provided with
      | false => simp [DatePolicy.now, hFormattable]
      | true => simp [DatePolicy.now, hFormattable, fmtHttpDate_isSome hDates]

end Passed

section Agreement

variable {dates : HttpDate} {config : H1ConnectionPolicy} {clock : SystemTime}
  {provenance : ResponseProvenance} {hyper : HyperResponse} {response : Response}

end Agreement

theorem all_isVisibleAscii_digits {text : Str} (hDigits : ∀ c ∈ text, c.isDigit = true) :
    (utf8 text).all isVisibleAscii = true := by
  rw [List.all_eq_true]
  intro b hMem
  obtain ⟨c, hc, hb⟩ := List.mem_flatMap.mp hMem
  have hCode : 48 ≤ c.toNat ∧ c.toNat ≤ 57 := by
    simpa [Char.isDigit, UInt32.le_iff_toNat_le] using hDigits c hc
  rw [utf8EncodeChar_ascii (by omega), List.mem_singleton] at hb
  have hByte : b.toNat = c.toNat := by rw [hb, toNat_ofNat_of_ascii (by omega)]
  simp only [isVisibleAscii, Bool.or_eq_true, Bool.and_eq_true, decide_eq_true_eq,
    UInt8.le_iff_toNat_le, UInt8.lt_iff_toNat_lt, hByte, UInt8.reduceToNat]
  omega

theorem sampleDates_wire : WireDates sampleDates where
  toExact := sampleDates_exact
  fmt_visible time text hFmt := by
    simp only [sampleDates] at hFmt
    split_ifs at hFmt
    · obtain rfl := Option.some.inj hFmt
      decide
    · obtain rfl := Option.some.inj hFmt
      exact ⟨all_isVisibleAscii_digits fun _ hc => isDigit_of_mem_decimal hc, trimOws_decimal _⟩
  parse_visible text time hParse := by
    simp only [sampleDates] at hParse
    split_ifs at hParse with hSample hDigits
    · rw [hSample]
      decide
    · refine all_isVisibleAscii_digits fun c hc => ?_
      simp only [isDigits, Bool.and_eq_true, List.all_eq_true] at hDigits
      exact hDigits.2 c hc
  parse_second text time hParse := by
    simp only [sampleDates] at hParse
    split_ifs at hParse
    · obtain rfl := Option.some.inj hParse
      decide
    · obtain rfl := Option.some.inj hParse
      rw [Int.mul_ediv_cancel _ (by decide)]

/-- A policy that identifies the server and denies one field. -/
def samplePolicy (identification : Str) (datePolicy : DatePolicy) : H1ConnectionPolicy where
  responsePolicy :=
    { serverIdentification := some identification
      datePolicy := datePolicy
      strippedResponseHeaders := ["X-Powered-By"]
      errorPolicy := .minimal
      validated := by decide }
  dateOwner := .eggServe
  serverOwner := .eggServe
  maxRequestsPerConnection := none

end Eggserve.Server
