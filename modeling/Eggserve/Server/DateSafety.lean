import Eggserve.Server.FinalizeCanonical

/-! Which times reach the date formatter. The planner leaves out times before
the epoch only, the time of a provider is checked at both ends, and the system
clock is not checked at all. -/
namespace Eggserve.Server
open Rust Eggserve.Primitives Eggserve.Static

section Planner

variable {dates : HttpDate} {method : ReadOnlyMethod} {metadata : Metadata} {contentType : Str}
  {request : RequestConditions} {policy : StaticMetadataPolicy}

/-- Once the date is printed, or left out, planning succeeds. -/
theorem planWithValidators_isSome (etag lastModified : Option Str) :
    (planWithValidators dates method metadata contentType etag lastModified request).isSome := by
  unfold planWithValidators
  split_ifs
  · rfl
  · split
    · rfl
    · unfold planRange
      cases request.rangeHeader with
      | none => rfl
      | some range =>
          obtain ⟨outcome, hOutcome⟩ := evaluateRangeHeader_isSome range metadata.len_le
          simp only [hOutcome, Option.map_some, Option.isSome_some]

/-- The modification time is before the year 10000 where it is sent at all. -/
def MtimePrintable (metadata : Metadata) (policy : StaticMetadataPolicy) : Prop :=
  policy.emitLastModified = true → ∀ mtime, metadata.modified = some mtime → mtime < year10000

theorem lastModifiedStr_isSome (hDates : WireDates dates) :
    (lastModifiedStr dates metadata policy).isSome ↔ MtimePrintable metadata policy := by
  unfold lastModifiedStr MtimePrintable
  cases policy.emitLastModified with
  | false => simp
  | true =>
      cases hModified : metadata.modified with
      | none => simp
      | some mtime =>
          by_cases hEpoch : 0 ≤ mtime
          · simp only [↓reduceIte, Option.filter_some, hEpoch, decide_true, Option.isSome_map,
              fmtHttpDate_isSome hDates, isFormattableDate, Bool.true_and, decide_eq_true_eq,
              Option.some.injEq, forall_eq', forall_const]
          · have hYear : mtime < year10000 := (not_le.mp hEpoch).trans (by decide)
            simp only [↓reduceIte, Option.filter_some, hEpoch, decide_false, Bool.false_eq_true,
              Option.isSome_some, Option.some.injEq, forall_eq', hYear, imp_self]

theorem plan_isSome (hDates : WireDates dates) :
    (planFileResponseWithPreconditionsAndMetadata dates method metadata contentType request
      policy).isSome ↔ MtimePrintable metadata policy := by
  rw [← lastModifiedStr_isSome hDates]
  unfold planFileResponseWithPreconditionsAndMetadata
  cases lastModifiedStr dates metadata policy with
  | none => simp
  | some lastModified =>
      simp only [Option.bind_eq_bind, Option.bind_some, Option.isSome_some, iff_true]
      exact planWithValidators_isSome _ lastModified

/-- A time before the epoch is planned like one that is not to be sent. -/
theorem plan_before_epoch {mtime : SystemTime} (hModified : metadata.modified = some mtime)
    (hEpoch : mtime < 0) :
    planFileResponseWithPreconditionsAndMetadata dates method metadata contentType request policy =
      planFileResponseWithPreconditionsAndMetadata dates method metadata contentType request
        { policy with emitLastModified := false } := by
  have hOmitted : lastModifiedStr dates metadata policy =
      lastModifiedStr dates metadata { policy with emitLastModified := false } := by
    unfold lastModifiedStr
    simp only [hModified, Option.filter_some, not_le.mpr hEpoch, decide_false, Bool.false_eq_true,
      ↓reduceIte, ite_self]
  unfold planFileResponseWithPreconditionsAndMetadata
  rw [hOmitted]

end Planner

theorem internalErrorWithPolicy_isSome (policy : ErrorRepresentationPolicy) :
    (internalErrorWithPolicy policy).isSome := by
  cases policy <;> decide

section Finalization

variable {dates : HttpDate} {config : H1ConnectionPolicy} {clock : SystemTime}

theorem finalizeOwned_isSome (hDates : WireDates dates) (response : HyperResponse)
    (provenance : ResponseProvenance) :
    (finalizeOwned dates config clock response provenance).isSome ↔
      InstantFormattable config.responsePolicy clock := by
  rw [← sentDate_isSome hDates, finalizeOwned, setDate_eq hDates]
  cases sentDate dates config.responsePolicy clock <;> simp

/-- HTTP/1 prints no date where a service sent a valid one of its own. -/
theorem finalizeRuntimeResponse_isSome (hDates : WireDates dates) (response : HyperResponse)
    (provenance : ResponseProvenance) :
    (finalizeRuntimeResponse dates config clock response provenance).isSome ↔
      externalDate config provenance = true ∧ datesValid dates response.headers = true ∨
        InstantFormattable config.responsePolicy clock := by
  simp only [finalizeRuntimeResponse, datesValid_finalizeServer]
  split_ifs with hExternal hDatesValid
  · simp [hExternal, hDatesValid]
  · obtain ⟨error, hError⟩ := Option.isSome_iff_exists.mp
      (internalErrorWithPolicy_isSome config.responsePolicy.errorPolicy)
    simp only [hError, Option.bind_eq_bind, Option.bind_some, finalizeOwned_isSome hDates,
      hDatesValid, Bool.false_eq_true, and_false, false_or]
  · simp only [finalizeOwned_isSome hDates, hExternal, Bool.false_eq_true, false_and, false_or]

theorem finalizeCanonicalResponse_isSome (hDates : WireDates dates) (policy : ResponsePolicy)
    (response : Response) :
    (finalizeCanonicalResponse dates policy clock response).isSome ↔
      InstantFormattable policy clock := by
  rw [← sentDate_isSome hDates]
  cases hSent : sentDate dates policy clock with
  | none => simp [finalizeCanonicalResponse_eq_none hSent]
  | some date =>
      obtain ⟨headers, hPass, -⟩ := @finalizeCanonicalResponse_eq dates policy clock hDates
        response date hSent
      simp [hPass]

end Finalization

def ResponsePolicy.withDatePolicy (policy : ResponsePolicy) (datePolicy : DatePolicy) :
    ResponsePolicy :=
  { policy with datePolicy := datePolicy }

def H1ConnectionPolicy.withDatePolicy (config : H1ConnectionPolicy) (datePolicy : DatePolicy) :
    H1ConnectionPolicy :=
  { config with responsePolicy := config.responsePolicy.withDatePolicy datePolicy }

/-- A provider whose time cannot be printed suppresses the date. -/
theorem now_custom {provided : SystemTime} (hProvided : isFormattableDate provided = false)
    (clock : SystemTime) : (DatePolicy.custom provided).now clock = DatePolicy.suppress.now clock := by
  simp [DatePolicy.now, hProvided]

/-- The formatter panics neither while a file is planned nor while a response
is finalized exactly when the modification time is before the year 10000, or is
not sent, and the system clock, where it is asked for, is neither before the
epoch nor in the year 10000. A time that is recognised as unprintable is left
out and nothing else changes. -/
theorem dateFormatter_safe_iff {dates : HttpDate} (hDates : WireDates dates)
    (method : ReadOnlyMethod) (metadata : Metadata) (contentType : Str)
    (request : RequestConditions) (metadataPolicy : StaticMetadataPolicy)
    (config : H1ConnectionPolicy) (clock : SystemTime) (provenance : ResponseProvenance)
    (hyper : HyperResponse) (response : Response) :
    ((planFileResponseWithPreconditionsAndMetadata dates method metadata contentType request
        metadataPolicy).isSome ↔ MtimePrintable metadata metadataPolicy) ∧
    ((finalizeRuntimeResponse dates config clock hyper provenance).isSome ↔
      externalDate config provenance = true ∧ datesValid dates hyper.headers = true ∨
        InstantFormattable config.responsePolicy clock) ∧
    ((finalizeCanonicalResponse dates config.responsePolicy clock response).isSome ↔
      InstantFormattable config.responsePolicy clock) ∧
    (∀ mtime, metadata.modified = some mtime → mtime < 0 →
      planFileResponseWithPreconditionsAndMetadata dates method metadata contentType request
          metadataPolicy =
        planFileResponseWithPreconditionsAndMetadata dates method metadata contentType request
          { metadataPolicy with emitLastModified := false }) ∧
    ∀ provided, isFormattableDate provided = false →
      finalizeRuntimeResponse dates (config.withDatePolicy (.custom provided)) clock hyper
          provenance =
        finalizeRuntimeResponse dates (config.withDatePolicy .suppress) clock hyper provenance ∧
      finalizeCanonicalResponse dates (config.responsePolicy.withDatePolicy (.custom provided))
          clock response =
        finalizeCanonicalResponse dates (config.responsePolicy.withDatePolicy .suppress) clock
          response := by
  refine ⟨plan_isSome hDates, finalizeRuntimeResponse_isSome hDates hyper provenance,
    finalizeCanonicalResponse_isSome hDates config.responsePolicy response, ?_, ?_⟩
  · intro mtime hModified hEpoch
    exact plan_before_epoch hModified hEpoch
  · intro provided hProvided
    have hNow := now_custom hProvided clock
    constructor
    · simp only [finalizeRuntimeResponse, finalizeOwned, setDate,
        H1ConnectionPolicy.withDatePolicy, ResponsePolicy.withDatePolicy, hNow]
      rfl
    · simp only [finalizeCanonicalResponse, ResponsePolicy.withDatePolicy, hNow]
      rfl

/-- A file of the year 9999 and the clock of its server. -/
theorem dateFormatter_safe_iff_last_year :
    (planFileResponseWithPreconditionsAndMetadata sampleDates .get
        ⟨5, some (year10000 - 1), by decide⟩ "text/plain" {} {}).isSome ∧
      (finalizeCanonicalResponse sampleDates (samplePolicy "eggserve" .systemClock).responsePolicy
        (year10000 - 1) ⟨⟨200, by decide⟩, [], none, true⟩).isSome := by
  have hSafe := dateFormatter_safe_iff sampleDates_wire .get ⟨5, some (year10000 - 1), by decide⟩
    "text/plain" {} {} (samplePolicy "eggserve" .systemClock) (year10000 - 1) .service
    ⟨⟨200, by decide⟩, [], none⟩ ⟨⟨200, by decide⟩, [], none, true⟩
  refine ⟨hSafe.1.mpr ?_, hSafe.2.2.1.mpr fun _ => by decide⟩
  rintro - mtime hModified
  obtain rfl := Option.some.inj hModified
  decide

/-- A file modified in the year 10000 makes planning panic, and so does the
system clock of either pass when it stands there or before the epoch. -/
theorem year10000_panics :
    planFileResponseWithPreconditionsAndMetadata sampleDates .get ⟨5, some year10000, by decide⟩
        "text/plain" {} {} = none ∧
      finalizeRuntimeResponse sampleDates (samplePolicy "eggserve" .systemClock) year10000
        ⟨⟨200, by decide⟩, [], none⟩ .service = none ∧
      finalizeCanonicalResponse sampleDates
        (samplePolicy "eggserve" .systemClock).responsePolicy (-1)
        ⟨⟨200, by decide⟩, [], none, true⟩ = none := by
  decide +kernel

end Eggserve.Server
