import Eggserve.Static.Planner.Plan

/-! Precedence of the conditional headers. The reference states the decision
procedure over parsed values: tags read by their grammar, dates as points in
time. The planner computes it over header texts. -/
namespace Eggserve.Static
open Rust Eggserve.Primitives

namespace EntityTag

def print (tag : EntityTag) : Str := weakMark tag.weak ++ quoted tag.tagText

def weakMatch (a b : EntityTag) : Bool := a.tagText = b.tagText

def strongMatch (a b : EntityTag) : Bool := !a.weak && !b.weak && a.tagText = b.tagText

end EntityTag

def parseEntityTag (value : Str) : Option EntityTag :=
  match parseTagList value with
  | some [tag] => if tag.print = value then some tag else none
  | _ => none

/-- The tag the policy lets out. It is derived from metadata and always weak. -/
def currentTag (metadata : Metadata) (policy : StaticMetadataPolicy) : Option EntityTag :=
  if policy.emitEtag then
    metadata.modified.map fun mtime => ⟨true, etagText metadata.len mtime⟩
  else none

/-- The modification date the policy lets out, to the second. -/
def currentDate (metadata : Metadata) (policy : StaticMetadataPolicy) : Option SystemTime :=
  if policy.emitLastModified then
    (metadata.modified.filter (0 ≤ ·)).map fun mtime => mtime / nanosPerSec * nanosPerSec
  else none

section Reference
variable (dates : HttpDate)

def ifMatchHolds (current : Option EntityTag) (value : Str) : Bool :=
  trim value = "*" ||
    match current, parseTagList (trim value) with
    | some tag, some tags => tags.any tag.strongMatch
    | _, _ => false

/-- `malformed` decides the lists that the grammar refuses. -/
def ifNoneMatchHolds (malformed : EntityTag → Str → Bool) (current : Option EntityTag)
    (value : Str) : Bool :=
  trim value = "*" ||
    match current with
    | none => false
    | some tag =>
        match parseTagList (trim value) with
        | some tags => tags.any tag.weakMatch
        | none => malformed tag (trim value)

def dateHolds (compare : SystemTime → SystemTime → Bool) (current : Option SystemTime)
    (value : Str) : Bool :=
  match dates.parseHttpDate value, current with
  | some time, some lastModified => compare lastModified time
  | _, _ => false

def tagHolds (current : Option EntityTag) (value : Str) : Bool :=
  match current, parseEntityTag value with
  | some tag, some listed => tag.strongMatch listed
  | _, _ => false

/-- A tag that matches strongly, or a date the file was not modified after. -/
def ifRangeHolds (tag : Option EntityTag) (date : Option SystemTime) (value : Str) : Bool :=
  tagHolds tag (trim value) || dateHolds dates (· ≤ ·) date (trim value)

/-- The last step of the procedure. -/
def rangeStatus (tag : Option EntityTag) (date : Option SystemTime) (metadata : Metadata)
    (request : RequestConditions) : ResponseStatus :=
  match request.rangeHeader with
  | none => .ok
  | some range =>
      if request.ifRange.any fun value => !ifRangeHolds dates tag date value then .ok
      else
        match evaluateRangeHeader range metadata.len with
        | some (.satisfiable _) => .partialContent
        | some .notSatisfiable => .notRangeSatisfiable
        | _ => .ok

/-- The decision procedure: lost-update preconditions, then cache validation,
then the range. -/
def decisionStatus (malformed : EntityTag → Str → Bool) (tag : Option EntityTag)
    (date : Option SystemTime) (metadata : Metadata) (request : RequestConditions) :
    ResponseStatus :=
  if (request.ifMatch.any fun value => !ifMatchHolds tag value) ||
      request.ifMatch.isNone && request.ifUnmodifiedSince.any (dateHolds dates (· > ·) date)
  then .preconditionFailed
  else if request.ifNoneMatch.any (ifNoneMatchHolds malformed tag) ||
      request.ifNoneMatch.isNone && request.ifModifiedSince.any (dateHolds dates (· ≤ ·) date)
  then .notModified
  else rangeStatus dates tag date metadata request

def referenceStatus (malformed : EntityTag → Str → Bool) (metadata : Metadata)
    (policy : StaticMetadataPolicy) (request : RequestConditions) : ResponseStatus :=
  decisionStatus dates malformed (currentTag metadata policy) (currentDate metadata policy)
    metadata request

end Reference

/-- A refused list matches nothing. -/
def strictList (_ : EntityTag) (_ : Str) : Bool := false

/-- A refused list is compared element by element. -/
def elementwiseList (tag : EntityTag) (value : Str) : Bool :=
  (value.splitOn ',').any (elementMatches tag.print)

/-! The texts of the planner against the values of the reference. -/

/-- The generated text has digits and dashes only. -/
theorem mem_etagText {c : Char} {size : Nat} {mtime : SystemTime} (h : c ∈ etagText size mtime) :
    c = '-' ∨ c.isDigit = true := by
  simp only [etagText, List.mem_append, List.mem_cons] at h
  rcases h with h | rfl | (h | h) | rfl | h
  · exact .inr (isDigit_of_mem_decimal h)
  · exact .inl rfl
  · split at h
    · simp at h
    · exact .inl (by simpa using h)
  · exact .inr (isDigit_of_mem_decimal h)
  · exact .inl rfl
  · exact .inr (isDigit_of_mem_decimal h)

theorem not_mem_etagText {c : Char} (size : Nat) (mtime : SystemTime) (hDash : c ≠ '-')
    (hDigit : c.isDigit = false) : c ∉ etagText size mtime := by
  intro h
  rcases mem_etagText h with h | h
  · exact hDash h
  · simp [hDigit] at h

theorem generateEtag_eq (metadata : Metadata) (policy : StaticMetadataPolicy) :
    (if policy.emitEtag then generateEtag metadata else none) =
      (currentTag metadata policy).map EntityTag.print := by
  cases hEmit : policy.emitEtag with
  | false => simp [currentTag, hEmit]
  | true =>
      cases hTime : metadata.modified with
      | none => simp [generateEtag, currentTag, hEmit, hTime]
      | some mtime =>
          simp [generateEtag, currentTag, hEmit, hTime, EntityTag.print, weakMark]

theorem currentTag_eq_some {metadata : Metadata} {policy : StaticMetadataPolicy} {tag : EntityTag}
    (h : currentTag metadata policy = some tag) :
    tag.weak = true ∧ '"' ∉ tag.tagText ∧ ',' ∉ tag.tagText := by
  rw [currentTag] at h
  split at h
  · obtain ⟨mtime, _, rfl⟩ := Option.map_eq_some_iff.mp h
    exact ⟨rfl, not_mem_etagText _ _ (by decide) (by decide),
      not_mem_etagText _ _ (by decide) (by decide)⟩
  · simp at h

theorem isPrefix_print {tag : EntityTag} (h : tag.weak = true) : "W/".toList <+: tag.print := by
  rw [EntityTag.print, h]
  exact List.prefix_append _ _

theorem stripWeak_print {tag : EntityTag} (h : tag.weak = true) :
    stripWeak tag.print = quoted tag.tagText := by
  rw [stripWeak, if_pos (isPrefix_print h), EntityTag.print, h]
  rfl

theorem strongMatch_weak {tag : EntityTag} (h : tag.weak = true) (other : EntityTag) :
    tag.strongMatch other = false := by
  simp [EntityTag.strongMatch, h]

theorem isSome_ite_some (holds : Bool) (headers : HeaderMapPlan) :
    (if holds then some headers else none).isSome = holds := by
  cases holds <;> rfl

theorem isSome_notModified (holds : Bool) (headers : HeaderMapPlan) :
    (match (if holds then ConditionalRequestOutcome.notModified headers else .fullResponse) with
      | .notModified headers => some headers
      | _ => none).isSome = holds := by
  cases holds <;> rfl

/-- What the reference needs to know of the texts the planner works with. -/
structure Represents (dates : HttpDate) (etag lastModified : Option Str) (tag : Option EntityTag)
    (date : Option SystemTime) : Prop where
  etag_eq : etag = tag.map EntityTag.print
  date_eq : lastModified.bind dates.parseHttpDate = date
  tag_weak : ∀ current, tag = some current →
    current.weak = true ∧ '"' ∉ current.tagText ∧ ',' ∉ current.tagText

theorem represents_metadata {dates : HttpDate} (hDates : dates.Lawful) {metadata : Metadata}
    {policy : StaticMetadataPolicy}
    (hTime : ∀ mtime, metadata.modified = some mtime → policy.emitLastModified = true →
      mtime < year10000) :
    ∃ lastModified, lastModifiedStr dates metadata policy = some lastModified ∧
      Represents dates (if policy.emitEtag then generateEtag metadata else none) lastModified
        (currentTag metadata policy) (currentDate metadata policy) := by
  suffices h : ∃ lastModified, lastModifiedStr dates metadata policy = some lastModified ∧
      lastModified.bind dates.parseHttpDate = currentDate metadata policy by
    obtain ⟨lastModified, hText, hDate⟩ := h
    exact ⟨lastModified, hText, generateEtag_eq metadata policy, hDate,
      fun _ h => currentTag_eq_some h⟩
  cases hEmit : policy.emitLastModified with
  | false => exact ⟨none, by simp [lastModifiedStr, hEmit], by simp [currentDate, hEmit]⟩
  | true =>
      cases hFilter : metadata.modified.filter (0 ≤ ·) with
      | none =>
          exact ⟨none, by simp [lastModifiedStr, hEmit, hFilter],
            by simp [currentDate, hEmit, hFilter]⟩
      | some mtime =>
          obtain ⟨hModified, hEpoch⟩ := Option.filter_eq_some_iff.mp hFilter
          obtain ⟨text, hFmt, hParse⟩ := hDates.parse_fmt mtime (by simpa using hEpoch)
            (hTime mtime hModified hEmit)
          exact ⟨some text, by simp [lastModifiedStr, hEmit, hFilter, hFmt],
            by simp [currentDate, hEmit, hFilter, hParse]⟩

section Steps
variable {dates : HttpDate} {etag lastModified : Option Str} {tag : Option EntityTag}
  {date : Option SystemTime} (h : Represents dates etag lastModified tag date)
include h

theorem datesCompare_eq (compare : SystemTime → SystemTime → Bool) (value : Str) :
    datesCompare dates compare lastModified value = dateHolds dates compare date value := by
  have hDate := h.date_eq
  cases hTime : dates.parseHttpDate value <;> cases date <;>
    simp [datesCompare, dateHolds, hTime, hDate]

/-- A weak tag matches no listed tag, so only the wildcard is left. -/
theorem ifMatchHolds_eq (value : Str) : ifMatchHolds tag value = decide (trim value = "*") := by
  unfold ifMatchHolds
  cases hTag : tag with
  | none => simp
  | some current =>
      cases hList : parseTagList (trim value) with
      | none => simp
      | some tags => simp [strongMatch_weak (h.tag_weak current hTag).1]

theorem lostUpdateFails_eq (request : RequestConditions) :
    lostUpdateFails dates etag lastModified request =
      (request.ifMatch.any (fun value => !ifMatchHolds tag value) ||
        request.ifMatch.isNone && request.ifUnmodifiedSince.any (dateHolds dates (· > ·) date)) := by
  rw [lostUpdateFails]
  cases hMatch : request.ifMatch with
  | none =>
      cases hSince : request.ifUnmodifiedSince with
      | none => simp
      | some value => simp [datesCompare_eq h]
  | some value =>
      simp only [Option.any_some, ifMatchHolds_eq h, Option.isNone_some, Bool.false_and,
        Bool.or_false]
      by_cases hStar : trim value = "*"
      · simp [hStar]
      · rw [if_neg hStar, decide_eq_false hStar, h.etag_eq]
        cases hTag : tag with
        | none => rfl
        | some current =>
            have hWeak := isPrefix_print (h.tag_weak current hTag).1
            simp only [Option.map_some, evaluateIfMatch, hStar, hWeak, ↓reduceIte]

theorem ifNoneMatch_eq {current : EntityTag} (hTag : tag = some current) (value : Str) :
    evaluateIfNoneMatch value current.print = ifNoneMatchHolds elementwiseList tag value := by
  obtain ⟨hWeak, hQuote, hComma⟩ := h.tag_weak current hTag
  unfold ifNoneMatchHolds
  rw [hTag]
  by_cases hStar : trim value = "*"
  · simp [evaluateIfNoneMatch, hStar]
  · rw [decide_eq_false hStar, Bool.false_or]
    cases hList : parseTagList (trim value) with
    | none => simp only [evaluateIfNoneMatch, hStar, ↓reduceIte, elementwiseList]
    | some tags =>
        rw [evaluateIfNoneMatch_of_grammar (stripWeak_print hWeak) hQuote hComma hStar hList]
        exact List.any_congr rfl fun other => decide_eq_decide.mpr eq_comm

theorem evaluateCacheValidation_isSome (ifNoneMatch ifModifiedSince : Option Str) :
    (evaluateCacheValidation dates etag lastModified ifNoneMatch ifModifiedSince).isSome =
      (ifNoneMatch.any (ifNoneMatchHolds elementwiseList tag) ||
        ifNoneMatch.isNone && ifModifiedSince.any (dateHolds dates (· ≤ ·) date)) := by
  unfold evaluateCacheValidation
  rw [h.etag_eq]
  cases ifNoneMatch with
  | none =>
      cases ifModifiedSince with
      | none => cases tag <;> rfl
      | some value =>
          simp only [Option.any_none, Bool.false_or, Option.isNone_none, Bool.true_and,
            Option.any_some, ← datesCompare_eq h]
          cases tag with
          | none => exact isSome_ite_some _ _
          | some current =>
              simp only [Option.map_some, evaluateConditionalHeaders]
              cases hParse : dates.parseHttpDate value with
              | none => simp only [datesCompare, hParse, Option.isSome_none]
              | some time => exact isSome_notModified _ _
  | some value =>
      simp only [Option.any_some, Option.isNone_some, Bool.false_and, Bool.or_false]
      cases hTag : tag with
      | none =>
          simp only [Option.map_none, ifNoneMatchHolds, Bool.or_false]
          by_cases hStar : trim value = "*"
          · rw [if_pos hStar, decide_eq_true hStar, Option.isSome_some]
          · rw [if_neg hStar, decide_eq_false hStar, Option.isSome_none]
      | some current =>
          simp only [Option.map_some, evaluateConditionalHeaders]
          rw [← hTag, ← ifNoneMatch_eq h hTag]
          exact isSome_notModified _ _

theorem tagHolds_eq (value : Str) : tagHolds tag value = false := by
  unfold tagHolds
  cases hTag : tag with
  | none => rfl
  | some current =>
      cases parseEntityTag value with
      | none => rfl
      | some listed => exact strongMatch_weak (h.tag_weak current hTag).1 listed

/-- Texts that begin like a tag are no dates, and no tag matches strongly. -/
theorem ifRangeAllowsRange_eq (hDates : dates.Lawful) (value : Str) :
    ifRangeAllowsRange dates value etag lastModified = ifRangeHolds dates tag date value := by
  rw [ifRangeHolds, tagHolds_eq h, Bool.false_or, ← datesCompare_eq h, ifRangeAllowsRange]
  -- A text that is no date is refused by the reference as well.
  have hNoDate : ¬(trim value ≠ [] ∧ '"' ∉ trim value ∧ '/' ∉ trim value) →
      datesCompare dates (· ≤ ·) lastModified (trim value) = false := by
    intro hPlain
    cases hParse : dates.parseHttpDate (trim value) with
    | none => simp [datesCompare, hParse]
    | some time => exact absurd (hDates.plain _ _ hParse) hPlain
  simp only [evaluateIfRange]
  split_ifs with hEmpty hQuote hWeak hDate
  · rw [hNoDate (by simp_all)]
  · have hHead : '"' ∈ trim value := List.mem_of_head? hQuote
    rw [hNoDate fun hPlain => hPlain.2.1 hHead]
    cases hTag : tag with
    | none => simp [h.etag_eq, hTag]
    | some current =>
        have hPrefix := isPrefix_print (h.tag_weak current hTag).1
        simp only [h.etag_eq, hTag, Option.map_some, hPrefix, not_true_eq_false, false_and,
          ↓reduceIte]
  · have hSlash : '/' ∈ trim value := hWeak.subset (by decide)
    rw [hNoDate fun hPlain => hPlain.2.2 hSlash]
  · exact hDate.symm
  · simpa using hDate

theorem rangeAllowed_eq (hDates : dates.Lawful) (request : RequestConditions) :
    rangeAllowed dates etag lastModified request =
      !request.ifRange.any fun value => !ifRangeHolds dates tag date value := by
  unfold rangeAllowed
  cases request.ifRange with
  | none => rfl
  | some value => simp [ifRangeAllowsRange_eq h hDates]

/-- The status of the last step. -/
theorem planRange_status (hDates : dates.Lawful) (method : ReadOnlyMethod) (metadata : Metadata)
    (contentType : Str) (request : RequestConditions) :
    ∃ plan, planRange dates method metadata contentType etag lastModified request = some plan ∧
      plan.status = rangeStatus dates tag date metadata request := by
  unfold planRange rangeStatus
  cases request.rangeHeader with
  | none => exact ⟨_, rfl, rfl⟩
  | some range =>
      obtain ⟨outcome, hOutcome⟩ := evaluateRangeHeader_isSome range metadata.len_le
      simp only [hOutcome, Option.map_some, Option.some.injEq, exists_eq_left']
      rw [rangeAllowed_eq h hDates]
      cases request.ifRange.any fun value => !ifRangeHolds dates tag date value <;>
        cases outcome <;> rfl

theorem planWithValidators_status (hDates : dates.Lawful) (method : ReadOnlyMethod)
    (metadata : Metadata) (contentType : Str) (request : RequestConditions) :
    ∃ plan, planWithValidators dates method metadata contentType etag lastModified request =
        some plan ∧
      plan.status = decisionStatus dates elementwiseList tag date metadata request := by
  have hCache := evaluateCacheValidation_isSome h request.ifNoneMatch request.ifModifiedSince
  unfold planWithValidators decisionStatus
  rw [lostUpdateFails_eq h, ← hCache]
  split_ifs with hLost hValid
  · exact ⟨_, rfl, rfl⟩
  · obtain ⟨headers, hHeaders⟩ := Option.isSome_iff_exists.mp hValid
    exact ⟨_, by rw [hHeaders], rfl⟩
  · rw [Option.not_isSome_iff_eq_none] at hValid
    rw [hValid]
    exact planRange_status h hDates method metadata contentType request

end Steps

/-- How a refused list is read does not show when there is none. -/
theorem referenceStatus_of_grammar (dates : HttpDate) (metadata : Metadata)
    (policy : StaticMetadataPolicy) {request : RequestConditions}
    (hList : ∀ value, request.ifNoneMatch = some value →
      trim value = "*" ∨ (parseTagList (trim value)).isSome) :
    referenceStatus dates elementwiseList metadata policy request =
      referenceStatus dates strictList metadata policy request := by
  have hHolds : request.ifNoneMatch.any
        (ifNoneMatchHolds elementwiseList (currentTag metadata policy)) =
      request.ifNoneMatch.any (ifNoneMatchHolds strictList (currentTag metadata policy)) := by
    cases hValue : request.ifNoneMatch with
    | none => rfl
    | some value =>
        unfold ifNoneMatchHolds
        rcases hList value hValue with hStar | hSome
        · simp [hStar]
        · obtain ⟨tags, hTags⟩ := Option.isSome_iff_exists.mp hSome
          simp [hTags]
  simp only [referenceStatus, decisionStatus, hHolds]

/-- Every request for every file gets a plan with the status of the decision
procedure. Only a list that the grammar refuses is read element by element,
where the grammar would find no tag at all. -/
theorem plan_status_reference {dates : HttpDate} (hDates : dates.Lawful) (method : ReadOnlyMethod)
    (metadata : Metadata) (contentType : Str) (request : RequestConditions)
    (policy : StaticMetadataPolicy)
    (hTime : ∀ mtime, metadata.modified = some mtime → policy.emitLastModified = true →
      mtime < year10000) :
    ∃ plan, planFileResponseWithPreconditionsAndMetadata dates method metadata contentType request
        policy = some plan ∧
      plan.status = referenceStatus dates elementwiseList metadata policy request ∧
      ((∀ value, request.ifNoneMatch = some value →
          trim value = "*" ∨ (parseTagList (trim value)).isSome) →
        plan.status = referenceStatus dates strictList metadata policy request) := by
  obtain ⟨lastModified, hText, hRepresents⟩ := represents_metadata hDates hTime
  obtain ⟨plan, hPlan, hStatus⟩ :=
    planWithValidators_status hRepresents hDates method metadata contentType request
  refine ⟨plan, ?_, hStatus, fun hList => ?_⟩
  · simp only [planFileResponseWithPreconditionsAndMetadata, hText, Option.bind_eq_bind,
      Option.bind_some]
    exact hPlan
  · exact hStatus.trans (referenceStatus_of_grammar dates metadata policy hList)

/-- Dates of which one is printed as `httpdate` prints it. -/
def sampleDates : HttpDate where
  fmtHttpDate time :=
    if 0 ≤ time ∧ time < year10000 then
      if time / nanosPerSec = 784111777 then some "Sun, 06 Nov 1994 08:49:37 GMT"
      else some (decimal (time / nanosPerSec).toNat)
    else none
  parseHttpDate text :=
    if text = "Sun, 06 Nov 1994 08:49:37 GMT" then some (784111777 * nanosPerSec)
    else if isDigits text then some (decimalValue text * nanosPerSec)
    else none

theorem sampleDates_lawful : sampleDates.Lawful where
  parse_fmt time hEpoch hYear := by
    by_cases hSample : time / nanosPerSec = 784111777
    · refine ⟨"Sun, 06 Nov 1994 08:49:37 GMT", ?_, ?_⟩
      · simp only [sampleDates, hEpoch, hYear, hSample, and_self, ↓reduceIte]
      · simp only [sampleDates, hSample, ↓reduceIte]
    · refine ⟨decimal (time / nanosPerSec).toNat, ?_, ?_⟩
      · simp only [sampleDates, hEpoch, hYear, hSample, and_self, ↓reduceIte]
      have hDigits := isDigits_decimal (time / nanosPerSec).toNat
      have hOther : decimal (time / nanosPerSec).toNat ≠ "Sun, 06 Nov 1994 08:49:37 GMT" := by
        intro hEq
        rw [hEq] at hDigits
        exact absurd hDigits (by decide)
      have hNonneg : 0 ≤ time / nanosPerSec := Int.ediv_nonneg hEpoch (by simp)
      simp only [sampleDates, hDigits, hOther, ↓reduceIte, decimalValue_decimal,
        Int.toNat_of_nonneg hNonneg]
  plain text time h := by
    simp only [sampleDates] at h
    split_ifs at h with hSample hDigits
    · rw [hSample]
      decide
    · obtain ⟨hNonempty, hAll⟩ : text ≠ [] ∧ ∀ c ∈ text, c.isDigit = true := by
        simpa [isDigits] using hDigits
      exact ⟨hNonempty, fun hMem => absurd (hAll _ hMem) (by decide),
        fun hMem => absurd (hAll _ hMem) (by decide)⟩

def sampleMetadata : Metadata where
  len := 5
  modified := some (784111777 * nanosPerSec)
  len_le := by decide

theorem plan_status_reference_tag_with_comma :
    ∃ plan, planFileResponseWithPreconditionsAndMetadata sampleDates .get sampleMetadata
        "text/plain" { ifNoneMatch := some "\"a,b\", W/\"5-784111777-0\"" } {} = some plan ∧
      plan.status = .notModified := by
  have hTime : ∀ mtime, sampleMetadata.modified = some mtime →
      ({} : StaticMetadataPolicy).emitLastModified = true → mtime < year10000 := by
    intro mtime hMtime _
    cases hMtime
    decide
  obtain ⟨plan, hPlan, hStatus, _⟩ := plan_status_reference sampleDates_lawful .get sampleMetadata
    "text/plain" { ifNoneMatch := some "\"a,b\", W/\"5-784111777-0\"" } {} hTime
  exact ⟨plan, hPlan, hStatus.trans (by decide +kernel)⟩

/-- The list `x, W/"5-784111777-0"` is no list of tags, yet its second element
gives 304. -/
theorem malformed_list_not_modified :
    (planFileResponseWithPreconditionsAndMetadata sampleDates .get sampleMetadata "text/plain"
        { ifNoneMatch := some "x, W/\"5-784111777-0\"" } {}).map (·.status) = some .notModified ∧
      referenceStatus sampleDates strictList sampleMetadata {}
        { ifNoneMatch := some "x, W/\"5-784111777-0\"" } = .ok := by
  decide +kernel

end Eggserve.Static
