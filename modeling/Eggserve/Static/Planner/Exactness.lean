import Eggserve.Static.Planner.Precedence

/-! What a validator that a client sends back says about the file. The tag is
exact to the nanosecond, the date to the second; both are printed, sent back and
read again. -/
namespace Eggserve.Static
open Rust Eggserve.Primitives

/-- `httpdate` in full: it prints no time before the epoch or from the year
10000 on, and what it prints has no blank at its ends. -/
structure HttpDate.Exact (dates : HttpDate) : Prop extends HttpDate.Lawful dates where
  panics : ∀ time, time < 0 ∨ year10000 ≤ time → dates.fmtHttpDate time = none
  trimmed : ∀ time text, dates.fmtHttpDate time = some text → trim text = text

/-- A date that was printed is read back to the second. -/
theorem HttpDate.Exact.parse_of_fmt {dates : HttpDate} (hDates : dates.Exact) {time : SystemTime}
    {text : Str} (hFmt : dates.fmtHttpDate time = some text) :
    dates.parseHttpDate text = some (time / nanosPerSec * nanosPerSec) ∧ 0 ≤ time ∧
      time < year10000 := by
  have hEpoch : 0 ≤ time := by
    by_contra hBefore
    rw [hDates.panics time (.inl (not_le.mp hBefore))] at hFmt
    cases hFmt
  have hYear : time < year10000 := by
    by_contra hLate
    rw [hDates.panics time (.inr (not_lt.mp hLate))] at hFmt
    cases hFmt
  obtain ⟨printed, hPrinted, hParse⟩ := hDates.parse_fmt time hEpoch hYear
  rw [hFmt] at hPrinted
  obtain rfl := Option.some.inj hPrinted
  exact ⟨hParse, hEpoch, hYear⟩

/-- What the validators are derived from. -/
@[ext]
structure FileState where
  len : Nat
  mtime : SystemTime
  len_le : len ≤ u64Max
  deriving DecidableEq

namespace FileState

def metadata (state : FileState) : Metadata where
  len := state.len
  modified := some state.mtime
  len_le := state.len_le

/-- The tag of a state, before it is printed. -/
def tag (state : FileState) : EntityTag := ⟨true, etagText state.len state.mtime⟩

end FileState

/-! The text of the tag. -/

/-- A number and the dash behind it can be read back. -/
theorem decimal_dash_inj {n m : Nat} {rest rest' : Str}
    (h : decimal n ++ '-' :: rest = decimal m ++ '-' :: rest') : n = m ∧ rest = rest' := by
  have hDash : ∀ k, '-' ∉ decimal k := fun k hMem =>
    absurd (isDigit_of_mem_decimal hMem) (by decide)
  have hFirst : decimal n = decimal m := by
    have hTake := congrArg (List.takeWhile (· ≠ '-')) h
    rwa [(takeWhile_ne_append rest (hDash n)).1, (takeWhile_ne_append rest' (hDash m)).1] at hTake
  refine ⟨?_, ?_⟩
  · rw [← decimalValue_decimal n, hFirst, decimalValue_decimal]
  · rw [hFirst] at h
    exact (List.cons.inj (List.append_cancel_left h)).2

theorem decimal_inj {n m : Nat} (h : decimal n = decimal m) : n = m := by
  rw [← decimalValue_decimal n, h, decimalValue_decimal]

/-- A number does not begin with a dash. -/
theorem decimal_ne_dash {n : Nat} (rest rest' : Str) : decimal n ++ rest ≠ '-' :: rest' := by
  intro h
  have hNonempty : decimal n ≠ [] := by simp [decimal]
  obtain ⟨c, tail, hDecimal⟩ := List.exists_cons_of_ne_nil hNonempty
  rw [hDecimal, List.cons_append] at h
  have hDigit : c.isDigit = true :=
    isDigit_of_mem_decimal (hDecimal ▸ List.mem_cons_self)
  rw [(List.cons.inj h).1] at hDigit
  exact absurd hDigit (by decide)

/-- The sign, the seconds and the nanoseconds make up the time. -/
theorem time_eq_of_parts {a b : Int} (hSign : 0 ≤ a ↔ 0 ≤ b)
    (hSecs : a.natAbs / nanosPerSec = b.natAbs / nanosPerSec)
    (hNanos : a.natAbs % nanosPerSec = b.natAbs % nanosPerSec) : a = b := by
  have hAbs : a.natAbs = b.natAbs := by
    rw [← Nat.div_add_mod a.natAbs nanosPerSec, hSecs, hNanos, Nat.div_add_mod]
  omega

/-- The sign is told from the seconds, so distinct states have distinct tags. -/
theorem etagText_inj {size size' : Nat} {mtime mtime' : SystemTime}
    (h : etagText size mtime = etagText size' mtime') : size = size' ∧ mtime = mtime' := by
  simp only [etagText] at h
  obtain ⟨hSize, hRest⟩ := decimal_dash_inj h
  refine ⟨hSize, ?_⟩
  by_cases hPos : 0 ≤ mtime <;> by_cases hPos' : 0 ≤ mtime'
  · simp only [hPos, hPos', ↓reduceIte, List.nil_append] at hRest
    obtain ⟨hSecs, hNanos⟩ := decimal_dash_inj hRest
    exact time_eq_of_parts (by simp only [hPos, hPos']) hSecs (decimal_inj hNanos)
  · simp only [hPos, hPos', ↓reduceIte, List.nil_append] at hRest
    exact absurd hRest (decimal_ne_dash _ _)
  · simp only [hPos, hPos', ↓reduceIte, List.nil_append] at hRest
    exact absurd hRest.symm (decimal_ne_dash _ _)
  · simp only [hPos, hPos', ↓reduceIte, List.append_assoc] at hRest
    obtain ⟨hSecs, hNanos⟩ := decimal_dash_inj (List.append_cancel_left hRest)
    exact time_eq_of_parts (by simp only [hPos, hPos']) hSecs (decimal_inj hNanos)

theorem FileState.tag_inj {s s' : FileState} : s.tag = s'.tag ↔ s = s' := by
  constructor
  · intro h
    obtain ⟨len, mtime, _⟩ := s
    obtain ⟨len', mtime', _⟩ := s'
    obtain ⟨rfl, rfl⟩ := etagText_inj (EntityTag.mk.inj h).2
    rfl
  · rintro rfl
    rfl

/-! Answers under the standard policy. -/

section Answers

variable (dates : HttpDate) (method : ReadOnlyMethod) (contentType : Str)

/-- The answer to a request in a state. -/
def answer (state : FileState) (request : RequestConditions) : MayPanic StaticResponsePlan :=
  planFileResponseWithPreconditionsAndMetadata dates method state.metadata contentType request {}

/-- The full response of the state is sent and carries the field. -/
def Emits (state : FileState) (name value : Str) : Prop :=
  ∃ full, answer dates method contentType state {} = some full ∧
    full.headers.get name = some value

def AnsweredWith (state : FileState) (request : RequestConditions) (status : ResponseStatus) :
    Prop :=
  ∃ plan, answer dates method contentType state request = some plan ∧ plan.status = status

end Answers

/-- The date text that a state is planned with, if the formatter does not panic. -/
def stateDate (dates : HttpDate) (state : FileState) : MayPanic (Option Str) :=
  if 0 ≤ state.mtime then (dates.fmtHttpDate state.mtime).map some else some none

section Steps

variable {dates : HttpDate} {method : ReadOnlyMethod} {contentType : Str} {state : FileState}

theorem answer_eq (request : RequestConditions) :
    answer dates method contentType state request =
      (stateDate dates state).bind fun lastModified =>
        planWithValidators dates method state.metadata contentType (some state.tag.print)
          lastModified request := by
  have hDate : lastModifiedStr dates state.metadata {} = stateDate dates state := by
    unfold lastModifiedStr stateDate FileState.metadata
    by_cases hEpoch : 0 ≤ state.mtime
    · simp only [↓reduceIte, Option.filter_some, hEpoch, decide_true]
    · simp only [↓reduceIte, Option.filter_some, hEpoch, decide_false, Bool.false_eq_true]
  have hTag : generateEtag state.metadata = some state.tag.print := rfl
  simp only [answer, planFileResponseWithPreconditionsAndMetadata, hDate, hTag, ↓reduceIte]
  rfl

/-- The full response carries both validators of the state. -/
theorem answer_plain (lastModified : Option Str)
    (hDate : stateDate dates state = some lastModified) :
    answer dates method contentType state {} =
      some (buildFullResponse method state.len contentType (some state.tag.print)
        lastModified) := by
  rw [answer_eq, hDate]
  rfl

theorem buildFullResponse_get_etag (len : Nat) (etag : Str) (lastModified : Option Str) :
    (buildFullResponse method len contentType (some etag) lastModified).headers.get "etag" =
      some etag := by
  cases lastModified <;> rfl

theorem buildFullResponse_get_lastModified (len : Nat) (etag : Str)
    (lastModified : Option Str) :
    (buildFullResponse method len contentType (some etag) lastModified).headers.get
      "last-modified" = lastModified := by
  cases lastModified <;> rfl

theorem emits_etag {value : Str} (h : Emits dates method contentType state "etag" value) :
    value = state.tag.print ∧ (stateDate dates state).isSome := by
  obtain ⟨full, hFull, hValue⟩ := h
  cases hDate : stateDate dates state with
  | none => simp [answer_eq, hDate] at hFull
  | some lastModified =>
      rw [answer_plain lastModified hDate] at hFull
      obtain rfl := Option.some.inj hFull
      rw [buildFullResponse_get_etag] at hValue
      exact ⟨(Option.some.inj hValue).symm, rfl⟩

theorem emits_lastModified {value : Str}
    (h : Emits dates method contentType state "last-modified" value) :
    stateDate dates state = some (some value) := by
  obtain ⟨full, hFull, hValue⟩ := h
  cases hDate : stateDate dates state with
  | none => simp [answer_eq, hDate] at hFull
  | some lastModified =>
      rw [answer_plain lastModified hDate] at hFull
      obtain rfl := Option.some.inj hFull
      rw [buildFullResponse_get_lastModified] at hValue
      rw [hValue]

theorem parse_stateDate (hDates : dates.Exact) {value : Str}
    (hDate : stateDate dates state = some (some value)) :
    dates.parseHttpDate value = some (state.mtime / nanosPerSec * nanosPerSec) ∧
      trim value = value ∧ 0 ≤ state.mtime ∧ state.mtime < year10000 := by
  unfold stateDate at hDate
  split_ifs at hDate with hEpoch
  · obtain ⟨text, hFmt, hText⟩ := Option.map_eq_some_iff.mp hDate
    obtain rfl := Option.some.inj hText
    obtain ⟨hParse, -, hYear⟩ := hDates.parse_of_fmt hFmt
    exact ⟨hParse, hDates.trimmed _ _ hFmt, hEpoch, hYear⟩
  · simp at hDate

theorem represents_state (dates : HttpDate) (state : FileState) (lastModified : Option Str) :
    Represents dates (some state.tag.print) lastModified (some state.tag)
      (lastModified.bind dates.parseHttpDate) where
  etag_eq := rfl
  date_eq := rfl
  tag_weak := by
    rintro _ ⟨⟩
    exact ⟨rfl, not_mem_etagText _ _ (by decide) (by decide),
      not_mem_etagText _ _ (by decide) (by decide)⟩

/-- The status is that of the decision procedure, where planning gets so far. -/
theorem answeredWith_iff (hDates : dates.Exact) {request : RequestConditions}
    {status : ResponseStatus} :
    AnsweredWith dates method contentType state request status ↔
      ∃ lastModified, stateDate dates state = some lastModified ∧
        decisionStatus dates elementwiseList (some state.tag)
          (lastModified.bind dates.parseHttpDate) state.metadata request = status := by
  unfold AnsweredWith
  rw [answer_eq]
  cases hDate : stateDate dates state with
  | none => simp
  | some lastModified =>
      obtain ⟨plan, hPlan, hStatus⟩ := planWithValidators_status
        (represents_state dates state lastModified) hDates.toLawful method state.metadata
        contentType request
      simp only [Option.bind_some, hPlan, Option.some.injEq, exists_eq_left', hStatus]

theorem rangeStatus_cases (tag : Option EntityTag) (date : Option SystemTime)
    (metadata : Metadata) (request : RequestConditions) :
    rangeStatus dates tag date metadata request = .ok ∨
      rangeStatus dates tag date metadata request = .partialContent ∨
      rangeStatus dates tag date metadata request = .notRangeSatisfiable := by
  unfold rangeStatus
  split
  · exact .inl rfl
  · split_ifs
    · exact .inl rfl
    · split
      · exact .inr (.inl rfl)
      · exact .inr (.inr rfl)
      · exact .inl rfl

/-- Without lost-update conditions, 304 is a matter of cache validation alone. -/
theorem decisionStatus_eq_notModified {tag : Option EntityTag} {date : Option SystemTime}
    {metadata : Metadata} {request : RequestConditions} (hMatch : request.ifMatch = none)
    (hSince : request.ifUnmodifiedSince = none) :
    decisionStatus dates elementwiseList tag date metadata request = .notModified ↔
      (request.ifNoneMatch.any (ifNoneMatchHolds elementwiseList tag) ||
        request.ifNoneMatch.isNone &&
          request.ifModifiedSince.any (dateHolds dates (· ≤ ·) date)) = true := by
  unfold decisionStatus
  simp only [hMatch, hSince, Option.any_none, Bool.and_false, Bool.or_self, Bool.false_eq_true,
    ↓reduceIte]
  split_ifs with hValid
  · simp only [hValid]
  · simp only [hValid]
    rcases rangeStatus_cases tag date metadata request with h | h | h <;> rw [h] <;> decide

theorem EntityTag.print_inj {a b : EntityTag} (h : a.print = b.print) : a = b := by
  obtain ⟨weak, text⟩ := a
  obtain ⟨weak', text'⟩ := b
  cases weak <;> cases weak' <;> simp_all [EntityTag.print, weakMark, quoted]

/-- A list that holds the tag of one state, and no other tag that matches the
tag of the second. -/
theorem ifNoneMatchHolds_iff {s s' : FileState} {value : Str} {before after : List EntityTag}
    (hList : parseTagList (trim value) = some (before ++ s.tag :: after))
    (hOther : ∀ other ∈ before ++ after, other.weakMatch s'.tag = false) :
    ifNoneMatchHolds elementwiseList (some s'.tag) value = true ↔ s = s' := by
  have hStar : trim value ≠ "*" := by
    intro hStar
    rw [hStar] at hList
    cases hList
  have hSymm : ∀ other ∈ before ++ after, s'.tag.weakMatch other = false := by
    intro other hMem
    have hNe := hOther other hMem
    simp only [EntityTag.weakMatch, decide_eq_false_iff_not] at hNe ⊢
    exact Ne.symm hNe
  have hAny : (before ++ s.tag :: after).any s'.tag.weakMatch = s'.tag.weakMatch s.tag := by
    rw [List.any_append, List.any_cons,
      List.any_eq_false.mpr fun other hMem => by simp [hSymm other (List.mem_append_left _ hMem)],
      List.any_eq_false.mpr fun other hMem => by simp [hSymm other (List.mem_append_right _ hMem)],
      Bool.or_false, Bool.false_or]
  simp only [ifNoneMatchHolds, hStar, decide_false, Bool.false_or, hList, hAny,
    EntityTag.weakMatch, decide_eq_true_eq]
  constructor
  · intro hText
    refine FileState.tag_inj.mp ?_
    simp only [FileState.tag, EntityTag.mk.injEq, true_and] at hText ⊢
    exact hText.symm
  · rintro rfl
    rfl

/-- Truncation to seconds keeps the order. -/
theorem truncated_le_iff {a b : Int} :
    a / nanosPerSec * nanosPerSec ≤ b / nanosPerSec * nanosPerSec ↔
      a / nanosPerSec ≤ b / nanosPerSec :=
  Int.mul_le_mul_right (by decide)

/-- A year that cannot be printed comes later by a second at least. -/
theorem later_second {a b : Int} (hPrinted : a < year10000) (hLate : ¬b < year10000) :
    a / nanosPerSec < b / nanosPerSec := by
  simp only [year10000, nanosPerSec] at *
  omega

/-- A date sent back is compared with the date of the state, both to the second. -/
theorem dateHolds_stateDate (hDates : dates.Exact) (compare : SystemTime → SystemTime → Bool)
    {s s' : FileState} {date text : Str} (hDate : stateDate dates s = some (some date))
    (hText : stateDate dates s' = some (some text)) :
    dateHolds dates compare ((some text).bind dates.parseHttpDate) date =
      compare (s'.mtime / nanosPerSec * nanosPerSec) (s.mtime / nanosPerSec * nanosPerSec) := by
  have hParse := (parse_stateDate hDates hDate).1
  have hParse' := (parse_stateDate hDates hText).1
  simp only [dateHolds, hParse, Option.bind_some, hParse']

/-- A state that is planned at all and is not before the epoch has a date. -/
theorem stateDate_eq_some (hDates : dates.Exact) (hEpoch : 0 ≤ state.mtime)
    (hYear : state.mtime < year10000) : ∃ text, stateDate dates state = some (some text) := by
  obtain ⟨text, hFmt, -⟩ := hDates.parse_fmt state.mtime hEpoch hYear
  exact ⟨text, by simp [stateDate, hEpoch, hFmt]⟩

theorem stateDate_eq_none (hDates : dates.Exact) (hYear : year10000 ≤ state.mtime) :
    stateDate dates state = none := by
  have hEpoch : 0 ≤ state.mtime := le_trans (by decide) hYear
  simp [stateDate, hEpoch, hDates.panics state.mtime (.inr hYear)]

/-- The tag sent back is answered with 304 in the same state and in no other. -/
theorem ifNoneMatch_exact (hDates : dates.Exact) {s s' : FileState} {value sent : Str}
    {before after : List EntityTag} {listed : EntityTag} {request : RequestConditions}
    (hEmits : Emits dates method contentType s "etag" sent) (hSent : listed.print = sent)
    (hList : parseTagList (trim value) = some (before ++ listed :: after))
    (hOther : ∀ other ∈ before ++ after, other.weakMatch s'.tag = false)
    (hMatch : request.ifMatch = none) (hSince : request.ifUnmodifiedSince = none)
    (hValue : request.ifNoneMatch = some value) :
    AnsweredWith dates method contentType s' request .notModified ↔ s = s' := by
  obtain ⟨hTag, hPlanned⟩ := emits_etag hEmits
  obtain rfl : listed = s.tag := EntityTag.print_inj (hSent.trans hTag)
  rw [answeredWith_iff hDates]
  simp only [decisionStatus_eq_notModified hMatch hSince, hValue, Option.any_some,
    Option.isNone_some, Bool.false_and, Bool.or_false, ifNoneMatchHolds_iff hList hOther]
  constructor
  · rintro ⟨-, -, hEq⟩
    exact hEq
  · rintro rfl
    obtain ⟨lastModified, hDate⟩ := Option.isSome_iff_exists.mp hPlanned
    exact ⟨lastModified, hDate, rfl⟩

/-- The date sent back is answered with 304 as long as the file is not modified
in a later second. -/
theorem ifModifiedSince_exact (hDates : dates.Exact) {s s' : FileState} {date : Str}
    {request : RequestConditions} (hEpoch : 0 ≤ s'.mtime)
    (hEmits : Emits dates method contentType s "last-modified" date)
    (hMatch : request.ifMatch = none) (hSince : request.ifUnmodifiedSince = none)
    (hNone : request.ifNoneMatch = none) (hModified : request.ifModifiedSince = some date) :
    AnsweredWith dates method contentType s' request .notModified ↔
      s'.mtime / nanosPerSec ≤ s.mtime / nanosPerSec := by
  have hDate := emits_lastModified hEmits
  rw [answeredWith_iff hDates]
  simp only [decisionStatus_eq_notModified hMatch hSince, hNone, hModified, Option.any_none,
    Option.isNone_none, Bool.true_and, Bool.false_or, Option.any_some]
  by_cases hYear : s'.mtime < year10000
  · obtain ⟨text, hText⟩ := stateDate_eq_some hDates hEpoch hYear
    simp only [hText, Option.some.injEq, exists_eq_left', dateHolds_stateDate hDates _ hDate hText,
      decide_eq_true_eq]
    exact truncated_le_iff
  · -- No answer is planned for a time that cannot be printed, and it is later.
    have hLate : ¬s'.mtime / nanosPerSec ≤ s.mtime / nanosPerSec :=
      not_le.mpr (later_second (parse_stateDate hDates hDate).2.2.2 hYear)
    simp only [stateDate_eq_none hDates (not_lt.mp hYear), hLate, reduceCtorEq, false_and,
      exists_false]

/-- In an unchanged state the date sent back fails no lost-update check. -/
theorem ifUnmodifiedSince_unchanged (hDates : dates.Exact) {date : Str}
    {request : RequestConditions}
    (hEmits : Emits dates method contentType state "last-modified" date)
    (hMatch : request.ifMatch = none) (hSince : request.ifUnmodifiedSince = some date) :
    ∃ status, AnsweredWith dates method contentType state request status ∧
      status ≠ .preconditionFailed := by
  have hDate := emits_lastModified hEmits
  refine ⟨_, (answeredWith_iff hDates).mpr ⟨_, hDate, rfl⟩, ?_⟩
  simp only [decisionStatus, hMatch, hSince, Option.any_none, Option.isNone_none, Bool.true_and,
    Bool.false_or, Option.any_some, dateHolds_stateDate hDates _ hDate hDate, gt_iff_lt, lt_irrefl,
    decide_false, Bool.false_eq_true, ↓reduceIte]
  split_ifs
  · decide
  · rcases @rangeStatus_cases dates (some state.tag) ((some date).bind dates.parseHttpDate)
      state.metadata request with h | h | h <;> rw [h] <;> decide

/-- In an unchanged state the date sent back authorises every satisfiable range. -/
theorem ifRange_unchanged (hDates : dates.Exact) {date header : Str} {range : FileRange}
    (hEmits : Emits dates method contentType state "last-modified" date)
    (hRange : evaluateRangeHeader header state.len = some (.satisfiable range)) :
    answer dates method contentType state { rangeHeader := some header, ifRange := some date } =
      some (buildRangeResponse method range state.len contentType (some state.tag.print)
        (some date)) := by
  have hDate := emits_lastModified hEmits
  have hTrim := (parse_stateDate hDates hDate).2.1
  have hHolds : ifRangeHolds dates (some state.tag) ((some date).bind dates.parseHttpDate) date =
      true := by
    rw [ifRangeHolds, hTrim, dateHolds_stateDate hDates _ hDate hDate]
    simp
  have hAllowed : rangeAllowed dates (some state.tag.print) (some date)
      { rangeHeader := some header, ifRange := some date } = true := by
    rw [rangeAllowed_eq (represents_state dates state (some date)) hDates.toLawful]
    simp only [Option.any_some, hHolds, Bool.not_true, Bool.not_false]
  have hPlan : planRange dates method state.metadata contentType (some state.tag.print)
      (some date) { rangeHeader := some header, ifRange := some date } =
      some (buildRangeResponse method range state.len contentType (some state.tag.print)
        (some date)) := by
    simp only [planRange, FileState.metadata, hRange, Option.map_some, hAllowed, ↓reduceIte]
  rw [answer_eq, hDate]
  exact hPlan

/-- The fields of a response that validate a stored one. -/
def validators (headers : HeaderMapPlan) : List ResponseHeader :=
  headers.headers.filter fun header => header.name = "etag" ∨ header.name = "last-modified"

theorem validators_buildFullResponse (len : Nat) (etag : Str) (lastModified : Option Str) :
    ((HeaderMapPlan.new.push "etag" etag).pushSome "last-modified" lastModified).headers.Perm
      (validators (buildFullResponse method len contentType (some etag) lastModified).headers) := by
  cases lastModified with
  | none => exact List.Perm.refl _
  | some text => exact List.Perm.swap _ _ _

/-- A 304 carries the validators of the full response and nothing else. -/
theorem notModified_validators (hDates : dates.Exact) {request : RequestConditions}
    {plan : StaticResponsePlan}
    (hPlan : answer dates method contentType state request = some plan)
    (hStatus : plan.status = .notModified) :
    ∃ full, answer dates method contentType state {} = some full ∧ full.status = .ok ∧
      plan.headers.headers.Perm (validators full.headers) := by
  rw [answer_eq] at hPlan
  obtain ⟨lastModified, hDate, hPlan⟩ := Option.bind_eq_some_iff.mp hPlan
  refine ⟨_, answer_plain lastModified hDate, rfl, ?_⟩
  unfold planWithValidators at hPlan
  split_ifs at hPlan with hLost
  · obtain rfl := Option.some.inj hPlan
    exact absurd hStatus (by decide)
  · split at hPlan
    · rename_i headers hHeaders
      obtain rfl := Option.some.inj hPlan
      rw [evaluateCacheValidation_eq_some hHeaders]
      exact validators_buildFullResponse state.len state.tag.print lastModified
    · obtain ⟨ranged, hRanged, hCode⟩ := planRange_status
        (represents_state dates state lastModified) hDates.toLawful method state.metadata
        contentType request
      rw [hPlan] at hRanged
      obtain rfl := Option.some.inj hRanged
      rw [hStatus] at hCode
      rcases @rangeStatus_cases dates (some state.tag) (lastModified.bind dates.parseHttpDate)
        state.metadata request with h | h | h <;> rw [h] at hCode <;> cases hCode

end Steps

/-- Validators are exact. A tag sent back in a list, among tags that do not match
the current one, is answered with 304 in the state it was emitted for and in no
other. A date sent back is answered with 304 exactly in the states of the same
second or an earlier one; in an unchanged state it fails no lost-update check
and authorises every satisfiable range. A 304 carries the validators of the full
response of its state. -/
theorem validators_exact {dates : HttpDate} (hDates : dates.Exact) (method : ReadOnlyMethod)
    (contentType : Str) (s s' : FileState) :
    (∀ sent value before listed after request,
      Emits dates method contentType s "etag" sent → listed.print = sent →
      parseTagList (trim value) = some (before ++ listed :: after) →
      (∀ other ∈ before ++ after, other.weakMatch s'.tag = false) →
      request.ifMatch = none → request.ifUnmodifiedSince = none →
      request.ifNoneMatch = some value →
      (AnsweredWith dates method contentType s' request .notModified ↔
        s.len = s'.len ∧ s.mtime = s'.mtime)) ∧
    (∀ date request, 0 ≤ s.mtime → 0 ≤ s'.mtime →
      Emits dates method contentType s "last-modified" date →
      request.ifMatch = none → request.ifUnmodifiedSince = none → request.ifNoneMatch = none →
      request.ifModifiedSince = some date →
      (AnsweredWith dates method contentType s' request .notModified ↔
        s'.mtime / nanosPerSec ≤ s.mtime / nanosPerSec)) ∧
    (∀ date request, Emits dates method contentType s "last-modified" date →
      request.ifMatch = none → request.ifUnmodifiedSince = some date →
      ∃ status, AnsweredWith dates method contentType s request status ∧
        status ≠ .preconditionFailed) ∧
    (∀ date header range, Emits dates method contentType s "last-modified" date →
      evaluateRangeHeader header s.len = some (.satisfiable range) →
      answer dates method contentType s { rangeHeader := some header, ifRange := some date } =
        some (buildRangeResponse method range s.len contentType (some s.tag.print)
          (some date))) ∧
    ∀ request plan, answer dates method contentType s request = some plan →
      plan.status = .notModified →
      ∃ full, answer dates method contentType s {} = some full ∧ full.status = .ok ∧
        plan.headers.headers.Perm (validators full.headers) := by
  refine ⟨?_, ?_, ?_, ?_, ?_⟩
  · intro sent value before listed after request hEmits hSent hList hOther hMatch hSince hValue
    rw [ifNoneMatch_exact hDates hEmits hSent hList hOther hMatch hSince hValue]
    exact ⟨fun hEq => hEq ▸ ⟨rfl, rfl⟩, fun ⟨hLen, hTime⟩ => FileState.ext hLen hTime⟩
  · intro date request _ hEpoch hEmits hMatch hSince hNone hModified
    exact ifModifiedSince_exact hDates hEpoch hEmits hMatch hSince hNone hModified
  · intro date request hEmits hMatch hSince
    exact ifUnmodifiedSince_unchanged hDates hEmits hMatch hSince
  · intro date header range hEmits hRange
    exact ifRange_unchanged hDates hEmits hRange
  · intro request plan hPlan hStatus
    exact notModified_validators hDates hPlan hStatus

theorem sampleDates_exact : sampleDates.Exact where
  toLawful := sampleDates_lawful
  panics time hTime := by
    have hOutside : ¬(0 ≤ time ∧ time < year10000) := by
      rintro ⟨hEpoch, hYear⟩
      rcases hTime with hBefore | hLate
      · exact absurd hEpoch (not_le.mpr hBefore)
      · exact absurd hYear (not_lt.mpr hLate)
    simp only [sampleDates, hOutside, ↓reduceIte]
  trimmed time text hFmt := by
    simp only [sampleDates] at hFmt
    split_ifs at hFmt
    · obtain rfl := Option.some.inj hFmt
      decide
    · obtain rfl := Option.some.inj hFmt
      exact trim_decimal _

/-- A file that is written twice within one second. -/
def firstState : FileState := ⟨5, 784111777 * nanosPerSec, sampleMetadata.len_le⟩

def secondState : FileState := ⟨5, 784111777 * nanosPerSec + 1, sampleMetadata.len_le⟩

theorem validators_exact_same_second :
    ¬AnsweredWith sampleDates .get "text/plain" secondState
        { ifNoneMatch := some "\"a,b\", W/\"5-784111777-0\"" } .notModified ∧
      AnsweredWith sampleDates .get "text/plain" secondState
        { ifModifiedSince := some "Sun, 06 Nov 1994 08:49:37 GMT" } .notModified := by
  have hExact := validators_exact sampleDates_exact .get "text/plain" firstState secondState
  constructor
  · rw [hExact.1 "W/\"5-784111777-0\"" "\"a,b\", W/\"5-784111777-0\"" [⟨false, "a,b"⟩]
      ⟨true, "5-784111777-0"⟩ [] { ifNoneMatch := some "\"a,b\", W/\"5-784111777-0\"" }
      ⟨_, rfl, by decide +kernel⟩ (by decide) (by decide +kernel) (by decide +kernel) rfl rfl rfl]
    decide
  · exact (hExact.2.1 "Sun, 06 Nov 1994 08:49:37 GMT" _ (by decide) (by decide)
      ⟨_, rfl, by decide +kernel⟩ rfl rfl rfl rfl).mpr (by decide)

end Eggserve.Static
