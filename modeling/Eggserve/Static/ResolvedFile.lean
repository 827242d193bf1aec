import Eggserve.Primitives.Body
import Eggserve.Static.Mime
import Eggserve.Static.Planner.Plan

/-! File capabilities and their conversion into body sources. The same byte
range appears three times: as header text, as a body plan and as a source. -/
namespace Eggserve.Static
open Rust Eggserve.Primitives

/-- A file opened by confined resolution, with the metadata of that moment. -/
structure ResolvedFile where
  file : File
  metadata : Metadata
  safeRelativeComponents : List Str

namespace ResolvedFile

/-- A body over an inclusive byte range of the file. -/
def intoRangeBody (resolved : ResolvedFile) (start endInclusive : Nat) :
    Except BodySourceError BodySource :=
  let totalLen := resolved.metadata.len
  if endInclusive < start ∨ endInclusive ≥ totalLen then .error .invalidRange
  else
    match FileRange.tryNew start endInclusive with
    | none => .error .invalidRange
    | some range =>
        .ok (.fileRange resolved.file range totalLen (mimeForPath resolved.safeRelativeComponents))

def intoBody (resolved : ResolvedFile) (plan : StaticResponsePlan) :
    Except BodySourceError BodySource :=
  match plan.body with
  | .empty => .ok .empty
  | .fullBytes data => .ok (.bytes data)
  | .fileFull =>
      .ok (.fileFull resolved.file resolved.metadata.len
        (mimeForPath resolved.safeRelativeComponents))
  -- The source repeats the checks of `into_range_body` here.
  | .fileRange start endInclusive => resolved.intoRangeBody start endInclusive

theorem intoRangeBody_of_lt {resolved : ResolvedFile} {range : FileRange}
    (hOrder : range.start ≤ range.endInclusive)
    (hEnd : range.endInclusive < resolved.metadata.len) :
    resolved.intoRangeBody range.start range.endInclusive =
      .ok (.fileRange resolved.file range resolved.metadata.len
        (mimeForPath resolved.safeRelativeComponents)) := by
  have hValid : ¬(range.endInclusive < range.start ∨ range.endInclusive ≥ resolved.metadata.len) := by
    omega
  simp [intoRangeBody, hValid, FileRange.tryNew, range.len_isSome]

end ResolvedFile

/-- A partial plan names one range within the file in its headers, its body
plan and its source, and the source carries exactly the bytes of that range. A
full plan for `GET` carries the whole file. A plan for `HEAD` has the same
headers and an empty source. -/
theorem partial_content_coherent {dates : HttpDate} {method : ReadOnlyMethod} {metadata : Metadata}
    {contentType : Str} {request : RequestConditions} {policy : StaticMetadataPolicy}
    {plan : StaticResponsePlan}
    (hPlan : planFileResponseWithPreconditionsAndMetadata dates method metadata contentType request
      policy = some plan)
    {resolved : ResolvedFile} (hMetadata : resolved.metadata = metadata)
    (hContent : resolved.file.content.length = metadata.len) (machine : Machine) :
    (plan.status = .partialContent → ∃ range : FileRange,
      range.start ≤ range.endInclusive ∧ range.endInclusive < metadata.len ∧
      FileRange.new range.start range.endInclusive = some range ∧
      range.len = range.endInclusive - range.start + 1 ∧
      plan.headers.get "content-length" =
        some (decimal (range.endInclusive - range.start + 1)) ∧
      plan.headers.get "content-range" =
        some (contentRange range.start range.endInclusive metadata.len) ∧
      (method = .get → plan.body = .fileRange range.start range.endInclusive ∧
        ∃ source, resolved.intoBody plan = .ok source ∧
          source.Carries machine resolved.file.content range.start
            (range.endInclusive - range.start + 1)) ∧
      (method = .head → resolved.intoBody plan = .ok .empty)) ∧
    (plan.status = .ok → method = .get →
      plan.headers.get "content-length" = some (decimal metadata.len) ∧
      ∃ source, resolved.intoBody plan = .ok source ∧
        source.Carries machine resolved.file.content 0 metadata.len) := by
  subst hMetadata
  have hBound := resolved.metadata.len_le
  rcases plan_cases hPlan with rfl | ⟨etag, lastModified, rfl⟩ | rfl | ⟨etag, lastModified, rfl |
    ⟨header, range, hRange, rfl⟩⟩
  · exact ⟨fun h => absurd h (by decide), fun h => absurd h (by decide)⟩
  · exact ⟨fun h => absurd h (by decide : ResponseStatus.notModified ≠ .partialContent),
      fun h => absurd h (by decide : ResponseStatus.notModified ≠ .ok)⟩
  · exact ⟨fun h => absurd h (by decide : ResponseStatus.notRangeSatisfiable ≠ .partialContent),
      fun h => absurd h (by decide : ResponseStatus.notRangeSatisfiable ≠ .ok)⟩
  · refine ⟨fun h => absurd h (by decide : ResponseStatus.ok ≠ .partialContent), ?_⟩
    rintro _ rfl
    refine ⟨buildFullResponse_contentLength .get _ contentType etag lastModified, _, rfl, ?_⟩
    rw [← hContent]
    exact BodySource.carries_fileFull machine resolved.file _
  · refine ⟨fun _ => ?_, fun h => absurd h (by decide : ResponseStatus.partialContent ≠ .ok)⟩
    obtain ⟨hOrder, hEnd⟩ := evaluateRangeHeader_within hRange
    obtain ⟨new, hNew, hStart, hStop, hLen⟩ :=
      FileRange.new_of_le hOrder (show range.endInclusive < u64Max by omega)
    obtain rfl : new = range := FileRange.ext hStart hStop
    obtain ⟨hLength, hContentRange⟩ :=
      buildRangeResponse_headers method new resolved.metadata.len contentType etag lastModified
    rw [hLen] at hLength
    refine ⟨new, hOrder, hEnd, hNew, hLen, hLength, hContentRange, ?_, ?_⟩
    · rintro rfl
      refine ⟨rfl, _, ResolvedFile.intoRangeBody_of_lt hOrder hEnd, ?_⟩
      exact BodySource.carries_fileRange machine _ _ hOrder (by omega) (by omega)
    · rintro rfl
      rfl

theorem five_le_u64Max : 5 ≤ u64Max := by decide

/-- Five bytes without a modification time, so that no date is formatted. -/
def fiveBytes : ResolvedFile where
  file := { content := [10, 11, 12, 13, 14], cursor := 0 }
  metadata := { len := 5, modified := none, len_le := five_le_u64Max }
  safeRelativeComponents := ["data.bin"]

def planFiveBytes (method : ReadOnlyMethod) : MayPanic StaticResponsePlan :=
  planFileResponseWithPreconditionsAndMetadata ⟨fun _ => none, fun _ => none⟩ method
    fiveBytes.metadata "application/octet-stream" { rangeHeader := some "bytes=1-3" } {}

theorem partial_content_coherent_middle :
    ∃ plan source, planFiveBytes .get = some plan ∧ plan.status = .partialContent ∧
      fiveBytes.intoBody plan = .ok source ∧
      source.Carries ⟨u64Max, by decide⟩ [10, 11, 12, 13, 14] 1 3 := by
  have hPlan : planFiveBytes .get = some (buildRangeResponse .get ⟨1, 3, by decide⟩ 5
      "application/octet-stream" none none) := by decide +kernel
  obtain ⟨range, _, _, _, _, _, _, hGet, _⟩ :=
    (partial_content_coherent hPlan rfl (by decide) ⟨u64Max, by decide⟩).1 rfl
  obtain ⟨hBody, source, hSource, hCarries⟩ := hGet rfl
  injection hBody with hStart hEnd
  rw [← hStart, ← hEnd] at hCarries
  exact ⟨_, source, hPlan, rfl, hSource, hCarries⟩

/-- The answer to `HEAD` announces the length of the range and has no body. -/
theorem head_partial_content_empty :
    (planFiveBytes .head).map (·.status) = some .partialContent ∧
      (planFiveBytes .head).bind (·.headers.get "content-length") = some "3" ∧
      ((planFiveBytes .head).map fun plan => (fiveBytes.intoBody plan).map BodySource.len) =
        some (.ok 0) := by
  decide +kernel

end Eggserve.Static
