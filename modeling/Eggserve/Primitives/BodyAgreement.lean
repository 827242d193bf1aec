import Eggserve.Primitives.BodyConsumers

/-! When the ways of draining a request body agree. -/
namespace Eggserve.Primitives
open Rust

namespace RequestBody

/-! In-memory bodies. -/

section Fixed

variable (body : RequestBody) (data : List UInt8)

/-- A consumer holds the data at an offset. -/
def fixedAt (offset : Nat) (state : BodyState) : RequestBody :=
  body.atPoint (some (.fixed data offset)) offset state

/-- The chunk at an offset. -/
def chunkAt (offset : Nat) : List UInt8 := (data.drop offset).take (chunkSize data offset)

theorem drop_eq_chunkAt_append (offset : Nat) :
    data.drop offset = chunkAt data offset ++ data.drop (offset + chunkSize data offset) := by
  rw [← List.drop_drop, chunkAt, List.take_append_drop]

theorem chunkAt_eq_drop {offset : Nat} (hLast : data.length ≤ offset + chunkSize data offset) :
    chunkAt data offset = data.drop offset := by
  rw [chunkAt, List.take_of_length_le]
  rw [List.length_drop]
  omega

theorem chunkSize_pos {offset : Nat} (hOffset : offset < data.length) :
    0 < chunkSize data offset := by
  unfold chunkSize
  omega

theorem chunkSize_le (offset : Nat) : chunkSize data offset ≤ data.length - offset := by
  unfold chunkSize
  omega

/-- How one step of a consumer hands out the data. -/
structure FixedStep (ending : List UInt8 → Drained)
    (step : RequestBody → Except RequestBodyError (Option (List UInt8)) × RequestBody) : Prop where
  append : ∀ chunk bytes, ending (chunk ++ bytes) = (ending bytes).prepend chunk
  exceeds : ∀ offset state, state.Live → offset < data.length →
    body.maxBytes < offset + chunkSize data offset →
    ∃ after, step (body.fixedAt data offset state) =
      (.error (.limitExceeded body.maxBytes (offset + chunkSize data offset)), after) ∧
      ∀ e, drained (.error e, after) = body.failOutcome e
  middle : ∀ offset state, state.Live → offset + chunkSize data offset ≤ body.maxBytes →
    offset + chunkSize data offset < data.length →
    step (body.fixedAt data offset state) =
      (.ok (some (chunkAt data offset)),
        body.fixedAt data (offset + chunkSize data offset) .streaming)
  last : ∀ offset state fuel, state.Live → offset < data.length →
    offset + chunkSize data offset ≤ body.maxBytes →
    data.length ≤ offset + chunkSize data offset →
    ∃ out, drainLoop step (fuel + 2) (body.fixedAt data offset state) = some out ∧
      drained out = ending (chunkAt data offset)

variable {body data}

/-- Data within the limit is handed out whole. -/
theorem FixedStep.drainLoop_eq {ending : List UInt8 → Drained}
    {step : RequestBody → Except RequestBodyError (Option (List UInt8)) × RequestBody}
    (hStep : body.FixedStep data ending step) (hLimit : data.length ≤ body.maxBytes)
    (fuel offset : Nat) (state : BodyState) (hLive : state.Live) (hOffset : offset < data.length)
    (hFuel : data.length - offset < fuel) :
    ∃ out, drainLoop step fuel (body.fixedAt data offset state) = some out ∧
      drained out = ending (data.drop offset) := by
  induction fuel generalizing offset state with
  | zero => omega
  | succ fuel ih =>
      have hSize := chunkSize_pos data hOffset
      have hBound := chunkSize_le data offset
      by_cases hLast : data.length ≤ offset + chunkSize data offset
      · obtain ⟨fuel, rfl⟩ : ∃ n, fuel = n + 1 := ⟨fuel - 1, by omega⟩
        rw [← chunkAt_eq_drop data hLast]
        exact hStep.last offset state fuel hLive hOffset (by omega) hLast
      · rw [drop_eq_chunkAt_append, hStep.append]
        exact drainLoop_succ (hStep.middle offset state hLive (by omega) (by omega))
          (ih _ .streaming (.inr rfl) (by omega) (by omega))

/-- Data over the limit fails at the first chunk that crosses it. -/
theorem FixedStep.drainLoop_over {ending : List UInt8 → Drained}
    {step : RequestBody → Except RequestBodyError (Option (List UInt8)) × RequestBody}
    (hStep : body.FixedStep data ending step) (hOver : body.maxBytes < data.length)
    (fuel offset : Nat) (state : BodyState) (hLive : state.Live) (hOffset : offset ≤ body.maxBytes)
    (hFuel : data.length - offset < fuel) :
    ∃ out total, drainLoop step fuel (body.fixedAt data offset state) = some out ∧
      drained out = body.failOutcome (.limitExceeded body.maxBytes total) := by
  induction fuel generalizing offset state with
  | zero => omega
  | succ fuel ih =>
      have hSize := chunkSize_pos data (show offset < data.length by omega)
      by_cases hCross : body.maxBytes < offset + chunkSize data offset
      · obtain ⟨after, hError, hDrained⟩ := hStep.exceeds offset state hLive (by omega) hCross
        exact ⟨_, _, drainLoop_error hError, hDrained _⟩
      · obtain ⟨out, total, hOut, hDrained⟩ :=
          ih (offset + chunkSize data offset) .streaming (.inr rfl) (by omega) (by omega)
        obtain ⟨out', hOut', hDrained'⟩ := drainLoop_succ
          (hStep.middle offset state hLive (by omega) (by omega)) ⟨out, hOut, hDrained⟩
        exact ⟨out', total, hOut', hDrained'⟩

variable (body data)

theorem checkedAdd_chunkSize {offset : Nat} (hWord : data.length ≤ u64Max)
    (hOffset : offset < data.length) :
    checkedAdd offset (chunkSize data offset) = some (offset + chunkSize data offset) := by
  have hBound := chunkSize_le data offset
  exact if_pos (by omega)

theorem nextChunk_fixed (hWord : data.length ≤ u64Max) {offset : Nat}
    (hOffset : offset < data.length) {state : BodyState} (hLive : state.Live) :
    (body.fixedAt data offset state).nextChunk =
      if offset + chunkSize data offset > body.maxBytes then
        (.error (.limitExceeded body.maxBytes (offset + chunkSize data offset)),
          (body.fixedAt data offset .streaming).fail)
      else if offset + chunkSize data offset ≥ data.length then
        (body.fixedAt data (offset + chunkSize data offset) .streaming).completeWith
          (some (chunkAt data offset))
      else
        (.ok (some (chunkAt data offset)),
          body.fixedAt data (offset + chunkSize data offset) .streaming) := by
  have hNotPast : ¬offset ≥ data.length := by omega
  have hAdd := checkedAdd_chunkSize data hWord hOffset
  rcases hLive with rfl | rfl <;>
    simp [nextChunk, fixedAt, atPoint, hNotPast, hAdd, chunkAt]

theorem pollNext_fixed (hWord : data.length ≤ u64Max) {offset : Nat}
    (hOffset : offset < data.length) {state : BodyState} (hLive : state.Live) :
    (body.fixedAt data offset state).pollNext =
      if offset + chunkSize data offset > body.maxBytes then
        (body.fixedAt data offset state).pollFail
          (.limitExceeded body.maxBytes (offset + chunkSize data offset))
      else if offset + chunkSize data offset ≥ data.length then
        (.ready (some (.ok (chunkAt data offset))),
          (body.fixedAt data (offset + chunkSize data offset) .streaming).finish)
      else
        (.ready (some (.ok (chunkAt data offset))),
          body.fixedAt data (offset + chunkSize data offset) .streaming) := by
  have hNotPast : ¬offset ≥ data.length := by omega
  have hAdd := checkedAdd_chunkSize data hWord hOffset
  rcases hLive with rfl | rfl <;>
    simp [pollNext, fixedAt, atPoint, hNotPast, hAdd, chunkAt, pollChunk]

/-- After a chunk that completes the body, the loop sees the end. -/
theorem drainLoop_last (fuel : Nat) {start after : RequestBody} {chunk : List UInt8}
    {step : RequestBody → Except RequestBodyError (Option (List UInt8)) × RequestBody}
    (hStep : step start = (.ok (some chunk), after)) (hDone : step after = (.ok none, after)) :
    drainLoop step (fuel + 2) start = some (.ok chunk, after) := by
  simp [drainLoop, hStep, hDone, Except.map]

theorem nextChunk_fixedStep (hWord : data.length ≤ u64Max) :
    body.FixedStep data body.endOutcome nextChunk where
  append := body.endOutcome_append
  exceeds offset state hLive hOffset hCross :=
    ⟨(body.fixedAt data offset .streaming).fail,
      by rw [body.nextChunk_fixed data hWord hOffset hLive, if_pos hCross], fun _ => rfl⟩
  middle offset state hLive hLimit hMore := by
    have hOffset : offset < data.length := by omega
    rw [body.nextChunk_fixed data hWord hOffset hLive, if_neg (by omega), if_neg (by omega)]
  last offset state fuel hLive hOffset hLimit hLast := by
    have hStep := body.nextChunk_fixed data hWord hOffset hLive
    rw [if_neg (by omega), if_pos hLast] at hStep
    rw [← body.endOutcome_atPoint (some (.fixed data (offset + chunkSize data offset)))
      (offset + chunkSize data offset) .streaming]
    change ∃ out, _ ∧ drained out = drained ((body.fixedAt data _ .streaming).completeWith _)
    generalize body.fixedAt data (offset + chunkSize data offset) .streaming = ending at hStep ⊢
    unfold completeWith at hStep ⊢
    generalize ending.finalizeTrailers = verdict at hStep ⊢
    rcases verdict with ⟨e | _, after⟩
    · exact ⟨(.error e, after), drainLoop_error hStep, rfl⟩
    · exact ⟨(.ok (chunkAt data offset), after.finish), drainLoop_last fuel hStep rfl, rfl⟩

theorem pollStep_fixedStep (hWord : data.length ≤ u64Max) :
    body.FixedStep data body.plainOutcome pollStep where
  append _ _ := rfl
  exceeds offset state hLive hOffset hCross :=
    ⟨(body.fixedAt data offset state).fail,
      by simp only [pollStep, body.pollNext_fixed data hWord hOffset hLive, if_pos hCross, pollFail],
      fun _ => rfl⟩
  middle offset state hLive hLimit hMore := by
    have hOffset : offset < data.length := by omega
    simp only [pollStep, body.pollNext_fixed data hWord hOffset hLive]
    rw [if_neg (by omega), if_neg (by omega)]
  last offset state fuel hLive hOffset hLimit hLast := by
    have hPoll := body.pollNext_fixed data hWord hOffset hLive
    rw [if_neg (by omega), if_pos hLast] at hPoll
    exact ⟨(.ok (chunkAt data offset),
      (body.fixedAt data (offset + chunkSize data offset) .streaming).finish),
      drainLoop_last fuel (by simp only [pollStep, hPoll]) rfl, rfl⟩

end Fixed

/-! Totals that a stream brings. -/

section Totals

variable (body : RequestBody)

/-- From `received` bytes on, all within bounds and before any transport error,
a chunk of the stream brings the total to the given number. -/
inductive Brings : Nat → List StreamPoll → Nat → Prop
  | pending {received total : Nat} {rest : List StreamPoll} (hRest : Brings received rest total) :
      Brings received (.pending :: rest) total
  | now {received : Nat} {chunk : List UInt8} {rest : List StreamPoll}
      (hWithin : body.Within received) :
      Brings received (.chunk chunk :: rest) (received + chunk.length)
  | later {received total : Nat} {chunk : List UInt8} {rest : List StreamPoll}
      (hWithin : body.Within received) (hRest : Brings (received + chunk.length) rest total) :
      Brings received (.chunk chunk :: rest) total

variable {body}

theorem Brings.within {received total : Nat} {stream : List StreamPoll}
    (hBrings : body.Brings received stream total) : body.Within received := by
  induction hBrings with
  | pending _ ih => exact ih
  | now hWithin => exact hWithin
  | later hWithin _ _ => exact hWithin

theorem Brings.le {received total : Nat} {stream : List StreamPoll}
    (hBrings : body.Brings received stream total) : received ≤ total := by
  induction hBrings with
  | pending _ ih => exact ih
  | now _ => omega
  | later _ _ ih => omega

theorem checkTotal_error_variant {total : Nat} {e : RequestBodyError}
    (hError : body.checkTotal total = .error e) :
    e.variant = .limitExceeded ↔ body.maxBytes < total := by
  unfold checkTotal at hError
  split at hError
  · obtain rfl := Except.error.inj hError
    simpa [RequestBodyError.variant]
  · split at hError
    · split at hError
      · obtain rfl := Except.error.inj hError
        simp [RequestBodyError.variant]
        omega
      · cases hError
    · cases hError

theorem checkEof_error_variant {e : RequestBodyError} (hError : body.checkEof = .error e) :
    e.variant = .prematureEof := by
  unfold checkEof at hError
  split at hError
  · split at hError
    · obtain rfl := Except.error.inj hError
      rfl
    · cases hError
  · cases hError

@[simp] theorem not_brings_nil {received total : Nat} : ¬body.Brings received [] total :=
  fun hBrings => nomatch hBrings

@[simp] theorem not_brings_error {received total : Nat} {message : Str} {rest : List StreamPoll} :
    ¬body.Brings received (.error message :: rest) total :=
  fun hBrings => nomatch hBrings

@[simp] theorem brings_pending {received total : Nat} {rest : List StreamPoll} :
    body.Brings received (.pending :: rest) total ↔ body.Brings received rest total :=
  ⟨fun (.pending hRest) => hRest, .pending⟩

theorem brings_chunk {received total : Nat} {chunk : List UInt8} {rest : List StreamPoll}
    (hWithin : body.Within received) :
    body.Brings received (.chunk chunk :: rest) total ↔
      total = received + chunk.length ∨ body.Brings (received + chunk.length) rest total := by
  constructor
  · intro hBrings
    cases hBrings with
    | now _ => exact .inl rfl
    | later _ hRest => exact .inr hRest
  · rintro (rfl | hRest)
    · exact .now hWithin
    · exact .later hWithin hRest

theorem checkedAdd_cases (a b : Nat) :
    (checkedAdd a b = none ∧ u64Max < a + b) ∨ (checkedAdd a b = some (a + b) ∧ a + b ≤ u64Max) := by
  unfold checkedAdd
  split
  · exact .inr ⟨rfl, by assumption⟩
  · exact .inl ⟨rfl, by omega⟩

/-- The specification overflows exactly when some chunk brings a total beyond
the machine word. -/
theorem streamSpec_overflow_iff (stream : List StreamPoll) (received : Nat)
    (hWithin : body.Within received) :
    body.streamSpec received stream = .error .overflow ↔
      ∃ total, u64Max < total ∧ body.Brings received stream total := by
  induction stream generalizing received with
  | nil =>
      simp only [streamSpec, not_brings_nil, and_false, exists_false, iff_false]
      split <;> simp
  | cons answer rest ih =>
      cases answer with
      | pending => simpa [streamSpec] using ih received hWithin
      | error message => simp [streamSpec]
      | chunk chunk =>
          simp only [streamSpec, brings_chunk hWithin]
          rcases checkedAdd_cases received chunk.length with ⟨hAdd, hWord⟩ | ⟨hAdd, hWord⟩
          · simp only [hAdd, true_iff]
            exact ⟨_, hWord, .inl rfl⟩
          · simp only [hAdd]
            cases hCheck : body.checkTotal (received + chunk.length) with
            | error e =>
                simp only [Except.error.injEq, reduceCtorEq, false_iff]
                rintro ⟨total, hTotal, rfl | hRest⟩
                · omega
                · rw [checkTotal_eq_ok.mpr hRest.within] at hCheck
                  cases hCheck
            | ok _ =>
                have hNext := checkTotal_eq_ok.mp hCheck
                simp only [map_eq_error, ih _ hNext]
                constructor
                · rintro ⟨total, hTotal, hRest⟩
                  exact ⟨total, hTotal, .inr hRest⟩
                · rintro ⟨total, hTotal, rfl | hRest⟩
                  · omega
                  · exact ⟨total, hTotal, hRest⟩

/-- The specification reports an exceeded limit exactly when some chunk brings
a total that fits the machine word and exceeds the limit. -/
theorem streamSpec_limitExceeded_iff (stream : List StreamPoll) (received : Nat)
    (hWithin : body.Within received) :
    (∃ e, body.streamSpec received stream = .error (.failed e) ∧ e.variant = .limitExceeded) ↔
      ∃ total, total ≤ u64Max ∧ body.maxBytes < total ∧ body.Brings received stream total := by
  induction stream generalizing received with
  | nil =>
      simp only [streamSpec, not_brings_nil, and_false, exists_false, iff_false]
      rintro ⟨e, hSpec, hVariant⟩
      split at hSpec
      · rename_i hEof
        obtain rfl := Stop.failed.inj (Except.error.inj hSpec)
        rw [checkEof_error_variant hEof] at hVariant
        cases hVariant
      · cases hSpec
  | cons answer rest ih =>
      cases answer with
      | pending => simpa [streamSpec] using ih received hWithin
      | error message =>
          simp only [streamSpec, not_brings_error, and_false, exists_false, iff_false]
          rintro ⟨e, hSpec, hVariant⟩
          obtain rfl := Stop.failed.inj (Except.error.inj hSpec)
          cases hVariant
      | chunk chunk =>
          simp only [streamSpec, brings_chunk hWithin]
          rcases checkedAdd_cases received chunk.length with ⟨hAdd, hWord⟩ | ⟨hAdd, hWord⟩
          · simp only [hAdd, Except.error.injEq, reduceCtorEq, false_and, exists_false, false_iff]
            rintro ⟨total, hTotal, -, rfl | hRest⟩
            · omega
            · have hLe := hRest.le
              omega
          · simp only [hAdd]
            cases hCheck : body.checkTotal (received + chunk.length) with
            | error e =>
                have hVariant := checkTotal_error_variant hCheck
                constructor
                · rintro ⟨_, hSpec, hLimit⟩
                  obtain rfl := Stop.failed.inj (Except.error.inj hSpec)
                  exact ⟨_, hWord, hVariant.mp hLimit, .inl rfl⟩
                · rintro ⟨total, hTotal, hLimit, rfl | hRest⟩
                  · exact ⟨e, rfl, hVariant.mpr hLimit⟩
                  · rw [checkTotal_eq_ok.mpr hRest.within] at hCheck
                    cases hCheck
            | ok _ =>
                have hNext := checkTotal_eq_ok.mp hCheck
                simp only [map_eq_error, ih _ hNext]
                constructor
                · rintro ⟨total, hTotal, hLimit, hRest⟩
                  exact ⟨total, hTotal, hLimit, .inr hRest⟩
                · rintro ⟨total, hTotal, hLimit, rfl | hRest⟩
                  · exact absurd hNext.1 (by omega)
                  · exact ⟨total, hTotal, hLimit, hRest⟩

end Totals

/-! Agreement. -/

section Agreement

variable {body : RequestBody}

/-- An outcome that a drop of the body does not change. -/
def Settled (outcome : Drained) : Prop :=
  outcome.shared.isBodyActive = false ∧
    ∀ bytes, outcome.result = .ok bytes → outcome.trailerError = none

theorem settled_endOutcome (hNoError : body.completedTrailerError = none) (bytes : List UInt8) :
    Settled (body.endOutcome bytes) := by
  rw [endOutcome_eq]
  cases body.trailerVerdict with
  | ok trailers => exact ⟨body.shared.isBodyActive_markComplete, fun _ _ => hNoError⟩
  | error message =>
      refine ⟨body.shared.isBodyActive_markFailed, fun _ hResult => ?_⟩
      cases hResult

theorem settled_failOutcome (body : RequestBody) (e : RequestBodyError) :
    Settled (body.failOutcome e) := by
  refine ⟨body.shared.isBodyActive_markFailed, fun _ hResult => ?_⟩
  cases hResult

theorem drained_drop {result : Except RequestBodyError (List UInt8)}
    (hSettled : Settled (drained (result, body))) :
    drained (result, body.drop) = drained (result, body) := by
  have hInactive : body.shared.isBodyActive = false := hSettled.1
  have hMark : body.shared.markAbandoned = body.shared := by
    simp [RequestShared.markAbandoned, RequestShared.mark, hInactive]
  unfold drop
  split
  · simp [drained, hMark]
  · rfl

/-- `read_all_with_trailers` returns, and hands out what the chunk loop left. -/
theorem readAllWithTrailers_of_drainNextChunk (hFresh : body.Fresh)
    {out : Except RequestBodyError (List UInt8) × RequestBody}
    (hChunks : body.drainNextChunk = some out) :
    ∃ whole, body.readAllWithTrailers = some whole ∧
      (Settled (drained out) → drainedWithTrailers whole = drained out) := by
  have hInner : body.inner ≠ none := by
    rcases hFresh.atStart with h | ⟨_, _, h⟩ | ⟨_, h⟩ <;> simp [h]
  rcases out with ⟨e | bytes, after⟩
  · exact ⟨(.error e, after.drop),
      by simp [readAllWithTrailers, hFresh.unread, hInner, hChunks], drained_drop⟩
  · cases hFailure : after.completedTrailerError with
    | none =>
        refine ⟨(.ok (bytes, after.completedTrailers), after.drop),
          by simp [readAllWithTrailers, hFresh.unread, hInner, hChunks, hFailure], ?_⟩
        intro hSettled
        simp only [drainedWithTrailers, drained_drop hSettled]
        rfl
    | some message =>
        refine ⟨(.error (.invalidTrailers message), after.drop),
          by simp [readAllWithTrailers, hFresh.unread, hInner, hChunks, hFailure], ?_⟩
        intro hSettled
        have hNone : after.completedTrailerError = none := hSettled.2 bytes rfl
        simp [hFailure] at hNone

/-- The final drop changes nothing when the outcome is settled. -/
theorem readAll_of_settled (alloc : Allocator)
    (out : Except RequestBodyError (List UInt8) × RequestBody) {expected : Drained}
    (hDrained : drained out = expected) (hOut : body.readAll alloc = (out.1, out.2.drop))
    (hSettled : Settled expected) : drained (body.readAll alloc) = expected := by
  subst hDrained
  rw [hOut]
  exact drained_drop hSettled

theorem readAll_empty (alloc : Allocator) (hFresh : body.Fresh)
    (hInner : body.inner = some .empty) : drained (body.readAll alloc) = body.endOutcome [] := by
  have hOut : body.readAll alloc =
      (((body.atPoint none 0 .unread).completeWith ([] : List UInt8)).1,
        ((body.atPoint none 0 .unread).completeWith ([] : List UInt8)).2.drop) := by
    simp [readAll, hFresh.unread, hInner, atPoint, hFresh.received]
  exact readAll_of_settled alloc _ (body.endOutcome_atPoint none 0 .unread []) hOut
    (settled_endOutcome hFresh.noError [])

theorem readAll_fixed (alloc : Allocator) (hFresh : body.Fresh) {data : List UInt8}
    (hWord : data.length ≤ u64Max) (hInner : body.inner = some (.fixed data 0))
    (hLimit : data.length ≤ body.maxBytes) :
    drained (body.readAll alloc) = body.endOutcome data := by
  have hOut : body.readAll alloc =
      (((body.atPoint none data.length .unread).completeWith data).1,
        ((body.atPoint none data.length .unread).completeWith data).2.drop) := by
    simp [readAll, hFresh.unread, hInner, atPoint, hFresh.received, checkedAdd, hWord, hLimit.not_gt]
  exact readAll_of_settled alloc _ (body.endOutcome_atPoint none _ .unread data) hOut
    (settled_endOutcome hFresh.noError data)

theorem readAll_fixed_over (alloc : Allocator) (hFresh : body.Fresh) {data : List UInt8}
    (hWord : data.length ≤ u64Max) (hInner : body.inner = some (.fixed data 0))
    (hOver : body.maxBytes < data.length) :
    drained (body.readAll alloc) =
      body.failOutcome (.limitExceeded body.maxBytes data.length) := by
  have hOut : body.readAll alloc = (.error (.limitExceeded body.maxBytes data.length),
      (body.atPoint none 0 .unread).fail.drop) := by
    simp [readAll, hFresh.unread, hInner, atPoint, hFresh.received, checkedAdd, hWord, hOver]
  exact readAll_of_settled alloc (_, (body.atPoint none 0 .unread).fail) rfl hOut
    (settled_failOutcome body _)

theorem readAll_refused (alloc : Allocator) (hFresh : body.Fresh) {stream : List StreamPoll}
    (hInner : body.inner = some (.incoming stream)) (hRefused : body.ReserveRefused alloc) :
    ∃ e, drained (body.readAll alloc) = body.failOutcome e ∧ e.variant = .limitExceeded := by
  have hRefusedHere : (body.atPoint none 0 .unread).ReserveRefused alloc := hRefused
  have hOut : body.readAll alloc = (.error (.limitExceeded body.maxBytes
      (min (body.declaredLength.getD 0) body.maxBytes)),
      (body.atPoint none 0 .unread).fail.drop) := by
    simp only [atPoint] at hRefusedHere ⊢
    simp [readAll, hFresh.unread, hInner, hFresh.received, hRefusedHere]
  exact ⟨_, readAll_of_settled alloc (_, (body.atPoint none 0 .unread).fail) rfl hOut
    (settled_failOutcome body _), rfl⟩

theorem readAll_incoming (alloc : Allocator) (hFresh : body.Fresh) {stream : List StreamPoll}
    (hInner : body.inner = some (.incoming stream)) (hReserved : ¬body.ReserveRefused alloc)
    {expected : Drained}
    (hSpec : body.specOutcome (body.stopOutcome .unread) (body.streamSpec 0 stream) = expected)
    (hSettled : Settled expected) :
    drained (body.readAll alloc) = expected := by
  have hReservedHere : ¬(body.atPoint none 0 .unread).ReserveRefused alloc := hReserved
  have hOut : body.readAll alloc =
      (((body.atPoint none 0 .unread).readStream [] stream).1,
        ((body.atPoint none 0 .unread).readStream [] stream).2.drop) := by
    simp only [atPoint] at hReservedHere ⊢
    simp [readAll, hFresh.unread, hInner, hFresh.received, hReservedHere]
  refine readAll_of_settled alloc _ ?_ hOut hSettled
  rw [body.readStream_eq, hSpec, prepend_nil]

/-- All outcomes of one finished body agree. -/
theorem agree_endOutcome (body : RequestBody) (bytes : List UInt8) {outcomes : List Drained}
    (hAll : ∀ outcome ∈ outcomes, outcome = body.endOutcome bytes) : Agree outcomes := by
  rw [endOutcome_eq] at hAll
  cases hVerdict : body.trailerVerdict with
  | ok trailers =>
      rw [hVerdict] at hAll
      refine .inl ⟨bytes, body.shared.markComplete, trailers.or body.completedTrailers, ?_⟩
      intro outcome hMem
      rw [hAll outcome hMem]
      exact ⟨rfl, rfl, rfl, rfl⟩
  | error message =>
      rw [hVerdict] at hAll
      refine .inr ⟨.invalidTrailers, body.shared.markFailed, ?_⟩
      intro outcome hMem
      rw [hAll outcome hMem]
      exact ⟨_, rfl, rfl, rfl, rfl⟩

/-- All outcomes of errors of one variant agree. -/
theorem agree_failOutcome (body : RequestBody) (variant : ErrorVariant)
    {outcomes : List Drained}
    (hAll : ∀ outcome ∈ outcomes, ∃ e, outcome = body.failOutcome e ∧ e.variant = variant) :
    Agree outcomes := by
  refine .inr ⟨variant, body.shared.markFailed, fun outcome hMem => ?_⟩
  obtain ⟨e, rfl, hVariant⟩ := hAll outcome hMem
  exact ⟨e, rfl, hVariant, rfl, rfl⟩

/-- An exceeded limit and a finished body never agree: the only error of
finishing is about trailers. -/
theorem not_agree_fail_end (body : RequestBody) {outcomes : List Drained} {e : RequestBodyError}
    (bytes : List UInt8) (hVariant : e.variant = .limitExceeded) (hFail : body.failOutcome e ∈ outcomes)
    (hEnd : body.endOutcome bytes ∈ outcomes) : ¬Agree outcomes := by
  rintro (⟨_, _, _, hAll⟩ | ⟨variant, _, hAll⟩)
  · cases (hAll _ hFail).1
  · obtain ⟨_, hResult, hSame, -⟩ := hAll _ hFail
    obtain ⟨finishing, hEndResult, hEndSame, -⟩ := hAll _ hEnd
    obtain rfl := Except.error.inj hResult
    rw [endOutcome_eq] at hEndResult
    cases hVerdict : body.trailerVerdict with
    | ok trailers => simp [hVerdict] at hEndResult
    | error message =>
        rw [hVerdict] at hEndResult
        obtain rfl := Except.error.inj hEndResult
        rw [← hSame, hVariant] at hEndSame
        cases hEndSame

/-- A body left in the middle agrees with nothing. -/
theorem not_agree_stopped (body : RequestBody) {outcomes : List Drained}
    (hStopped : body.stopOutcome .streaming ∈ outcomes) : ¬Agree outcomes := by
  rintro (⟨_, _, _, hAll⟩ | ⟨_, _, hAll⟩)
  · cases (hAll _ hStopped).1
  · obtain ⟨_, -, -, hState, -⟩ := hAll _ hStopped
    cases hState

theorem agree_fail_iff {e refusal : RequestBodyError} (hRefusal : refusal.variant = .limitExceeded) :
    Agree [body.failOutcome refusal, body.failOutcome e, body.failOutcome e, body.failOutcome e] ↔
      e.variant = .limitExceeded := by
  constructor
  · rintro (⟨_, _, _, hAll⟩ | ⟨variant, _, hAll⟩)
    · cases (hAll _ List.mem_cons_self).1
    · obtain ⟨_, hResult, hSame, -⟩ := hAll (body.failOutcome refusal) (by simp)
      obtain ⟨_, hOther, hOtherSame, -⟩ := hAll (body.failOutcome e) (by simp)
      obtain rfl := Except.error.inj hResult
      obtain rfl := Except.error.inj hOther
      rw [hOtherSame, ← hSame, hRefusal]
  · intro hVariant
    refine body.agree_failOutcome .limitExceeded fun outcome hMem => ?_
    simp only [List.mem_cons, List.not_mem_nil, or_false] at hMem
    rcases hMem with rfl | rfl | rfl | rfl
    · exact ⟨refusal, rfl, hRefusal⟩
    all_goals exact ⟨e, rfl, hVariant⟩

/-- What keeps the consumers together. The last chunk of in-memory data must not
meet a filled trailer slot. A stream must not bring a total beyond the machine
word, and where `read_all` cannot reserve its buffer, the stream must exceed the
limit anyway. -/
def UniformlyConsumable (alloc : Allocator) (body : RequestBody) : Prop :=
  match body.inner with
  | some (.fixed data _) =>
      data ≠ [] → data.length ≤ body.maxBytes → body.wireSlot.getD none = none
  | some (.incoming stream) =>
      (¬∃ total, u64Max < total ∧ body.Brings 0 stream total) ∧
        (body.ReserveRefused alloc →
          ∃ total, total ≤ u64Max ∧ body.maxBytes < total ∧ body.Brings 0 stream total)
  | _ => True

theorem trailerVerdict_eq_none {body : RequestBody} :
    body.wireSlot.getD none = none ↔
      ∃ trailers, body.trailerVerdict = .ok trailers ∧
        trailers.or body.completedTrailers = body.completedTrailers := by
  unfold trailerVerdict
  generalize body.wireSlot.getD none = wire
  rcases wire with _ | message | block
  · exact ⟨fun _ => ⟨none, rfl, rfl⟩, fun _ => rfl⟩
  · simp [drainAndValidateWireSlot]
  · simp only [drainAndValidateWireSlot]
    cases Trailers.withLimits block body.trailerLimits with
    | error e => simp
    | ok trailers => cases hSet : body.completedTrailers <;> simp

/-- The in-memory data that a poll completes without finalizing. -/
theorem agree_plainOutcome_iff {bytes : List UInt8} :
    Agree [body.endOutcome bytes, body.endOutcome bytes, body.endOutcome bytes,
      body.plainOutcome bytes] ↔ body.wireSlot.getD none = none := by
  rw [trailerVerdict_eq_none, endOutcome_eq]
  constructor
  · rintro (⟨_, shared, trailers, hAll⟩ | ⟨variant, shared, hAll⟩)
    · obtain ⟨hOk, -, -, hTrailers⟩ := hAll _ List.mem_cons_self
      obtain ⟨-, -, -, hPlain⟩ := hAll (body.plainOutcome bytes) (by simp)
      cases hVerdict : body.trailerVerdict with
      | error message => simp [hVerdict] at hOk
      | ok arrived =>
          rw [hVerdict] at hTrailers
          exact ⟨arrived, rfl, hTrailers.trans hPlain.symm⟩
    · obtain ⟨e, hError, -⟩ := hAll (body.plainOutcome bytes) (by simp)
      cases hError
  · rintro ⟨arrived, hVerdict, hTrailers⟩
    rw [hVerdict]
    refine .inl ⟨bytes, body.shared.markComplete, body.completedTrailers, ?_⟩
    simp [plainOutcome, drained, finish, hTrailers]

/-- The consumers of a body, given what the two loops leave behind. -/
theorem consumers_return (alloc : Allocator) (hFresh : body.Fresh) {chunks polls : Drained}
    (hChunks : ∃ out, body.drainNextChunk = some out ∧ drained out = chunks)
    (hPolls : ∃ out, body.drainPollNext = some out ∧ drained out = polls) :
    ∃ whole chunked polled wholly,
      body.readAllWithTrailers = some whole ∧ body.drainNextChunk = some chunked ∧
      body.drainPollNext = some polled ∧
      [drained (body.readAll alloc), drainedWithTrailers whole, drained chunked, drained polled] =
        [drained (body.readAll alloc), wholly, chunks, polls] ∧
      (Settled chunks → wholly = chunks) := by
  obtain ⟨chunked, hChunked, rfl⟩ := hChunks
  obtain ⟨polled, hPolled, rfl⟩ := hPolls
  obtain ⟨whole, hWhole, hSame⟩ := readAllWithTrailers_of_drainNextChunk hFresh hChunked
  exact ⟨whole, chunked, polled, _, hWhole, hChunked, hPolled, rfl, hSame⟩

/-- A body that holds no bytes ends at its first call. -/
theorem drains_nothing (hFresh : body.Fresh) {inner : BodyInner} (hInner : body.inner = some inner)
    (hNothing : inner = .empty ∨ inner = .fixed [] 0) :
    (∃ out, body.drainNextChunk = some out ∧ drained out = body.endOutcome []) ∧
      ∃ out, body.drainPollNext = some out ∧ drained out = body.endOutcome [] := by
  have hSize : body.size = 0 + 1 := by
    rcases hNothing with rfl | rfl <;> simp [size, hInner]
  have hNext : body.nextChunk =
      (body.atPoint (some inner) body.bytesReceived .streaming).completeWith none := by
    rcases hNothing with rfl | rfl <;> simp [nextChunk, hFresh.unread, hInner, atPoint]
  have hPoll : body.pollNext = body.pollEnd := by
    rcases hNothing with rfl | rfl <;> simp [pollNext, hFresh.unread, hInner]
  unfold drainNextChunk drainPollNext
  rw [hSize]
  constructor
  · rw [← body.endOutcome_atPoint (some inner) body.bytesReceived .streaming]
    exact drainLoop_completeWith_none 0 hNext
  · exact drainLoop_pollEnd 0 hPoll

theorem atPoint_start (hFresh : body.Fresh) {inner : BodyInner} (hInner : body.inner = some inner) :
    body.atPoint (some inner) 0 .unread = body := by
  rw [atPoint, ← hInner, ← hFresh.received, ← hFresh.unread]

theorem agree_empty (alloc : Allocator) (hFresh : body.Fresh)
    (hRead : drained (body.readAll alloc) = body.endOutcome [])
    (hDrains : (∃ out, body.drainNextChunk = some out ∧ drained out = body.endOutcome []) ∧
      ∃ out, body.drainPollNext = some out ∧ drained out = body.endOutcome []) :
    ∃ whole chunked polled,
      body.readAllWithTrailers = some whole ∧ body.drainNextChunk = some chunked ∧
      body.drainPollNext = some polled ∧
      Agree [drained (body.readAll alloc), drainedWithTrailers whole, drained chunked,
        drained polled] := by
  obtain ⟨whole, chunked, polled, wholly, hWhole, hChunked, hPolled, hAll, hSettled⟩ :=
    consumers_return alloc hFresh hDrains.1 hDrains.2
  refine ⟨whole, chunked, polled, hWhole, hChunked, hPolled, ?_⟩
  rw [hAll, hRead, hSettled (settled_endOutcome hFresh.noError [])]
  exact body.agree_endOutcome [] (by simp)

theorem agree_fixed_iff (alloc : Allocator) (hFresh : body.Fresh) {data : List UInt8}
    (hWord : data.length ≤ u64Max) (hInner : body.inner = some (.fixed data 0))
    (hData : data ≠ []) :
    ∃ whole chunked polled,
      body.readAllWithTrailers = some whole ∧ body.drainNextChunk = some chunked ∧
      body.drainPollNext = some polled ∧
      (Agree [drained (body.readAll alloc), drainedWithTrailers whole, drained chunked,
        drained polled] ↔ (data.length ≤ body.maxBytes → body.wireSlot.getD none = none)) := by
  have hStart : body.fixedAt data 0 .unread = body := atPoint_start hFresh hInner
  have hSize : body.size = data.length + 1 := by simp [size, hInner]
  have hPos : 0 < data.length := List.length_pos_of_ne_nil hData
  have hNext := body.nextChunk_fixedStep data hWord
  have hPoll := body.pollStep_fixedStep data hWord
  by_cases hLimit : data.length ≤ body.maxBytes
  · have hChunks := hNext.drainLoop_eq hLimit body.size 0 .unread (.inl rfl) hPos (by omega)
    have hPolls := hPoll.drainLoop_eq hLimit body.size 0 .unread (.inl rfl) hPos (by omega)
    rw [hStart] at hChunks hPolls
    obtain ⟨whole, chunked, polled, wholly, hWhole, hChunked, hPolled, hAll, hSettled⟩ :=
      consumers_return alloc hFresh hChunks hPolls
    refine ⟨whole, chunked, polled, hWhole, hChunked, hPolled, ?_⟩
    rw [hAll, hSettled (settled_endOutcome hFresh.noError _),
      readAll_fixed alloc hFresh hWord hInner hLimit]
    simpa [hLimit] using agree_plainOutcome_iff
  · have hOver : body.maxBytes < data.length := by omega
    obtain ⟨chunks, chunkTotal, hChunks, hChunksDrained⟩ :=
      hNext.drainLoop_over hOver body.size 0 .unread (.inl rfl) (by omega) (by omega)
    obtain ⟨polls, pollTotal, hPolls, hPollsDrained⟩ :=
      hPoll.drainLoop_over hOver body.size 0 .unread (.inl rfl) (by omega) (by omega)
    rw [hStart] at hChunks hPolls
    obtain ⟨whole, chunked, polled, wholly, hWhole, hChunked, hPolled, hAll, hSettled⟩ :=
      consumers_return alloc hFresh ⟨chunks, hChunks, hChunksDrained⟩ ⟨polls, hPolls, hPollsDrained⟩
    refine ⟨whole, chunked, polled, hWhole, hChunked, hPolled, ?_⟩
    rw [hAll, hSettled (settled_failOutcome body _),
      readAll_fixed_over alloc hFresh hWord hInner hOver]
    simp only [hLimit, false_imp_iff, iff_true]
    refine body.agree_failOutcome .limitExceeded fun outcome hMem => ?_
    simp only [List.mem_cons, List.not_mem_nil, or_false] at hMem
    rcases hMem with rfl | rfl | rfl | rfl <;> exact ⟨_, rfl, rfl⟩

theorem agree_incoming_iff (alloc : Allocator) (hFresh : body.Fresh) {stream : List StreamPoll}
    (hInner : body.inner = some (.incoming stream)) :
    ∃ whole chunked polled,
      body.readAllWithTrailers = some whole ∧ body.drainNextChunk = some chunked ∧
      body.drainPollNext = some polled ∧
      (Agree [drained (body.readAll alloc), drainedWithTrailers whole, drained chunked,
        drained polled] ↔
        body.streamSpec 0 stream ≠ .error .overflow ∧ (body.ReserveRefused alloc →
          ∃ e, body.streamSpec 0 stream = .error (.failed e) ∧ e.variant = .limitExceeded)) := by
  have hStart : body.openAt stream 0 .unread = body := atPoint_start hFresh hInner
  have hSize : body.size = stream.length + 1 := by simp [size, hInner]
  have hChunks := body.nextChunk_streamStep.drainLoop_eq stream 0 body.size .unread (.inl rfl)
    (by omega)
  have hPolls := body.pollStep_streamStep.drainLoop_eq stream 0 body.size .unread (.inl rfl)
    (by omega)
  rw [hStart] at hChunks hPolls
  obtain ⟨whole, chunked, polled, wholly, hWhole, hChunked, hPolled, hAll, hSettled⟩ :=
    consumers_return alloc hFresh hChunks hPolls
  refine ⟨whole, chunked, polled, hWhole, hChunked, hPolled, ?_⟩
  rw [hAll]
  cases hSpec : body.streamSpec 0 stream with
  | ok bytes =>
      rw [hSpec] at hSettled
      have hEnd := settled_endOutcome hFresh.noError bytes
      rw [hSettled hEnd]
      by_cases hRefused : body.ReserveRefused alloc
      · obtain ⟨e, hRead, hVariant⟩ := readAll_refused alloc hFresh hInner hRefused
        simp only [ne_eq, reduceCtorEq, not_false_eq_true, hRefused, forall_const, true_and,
          false_and, exists_false, iff_false, hRead]
        exact body.not_agree_fail_end bytes hVariant (by simp) (by simp [specOutcome])
      · rw [readAll_incoming alloc hFresh hInner hRefused (by rw [hSpec, specOutcome]) hEnd]
        simp only [ne_eq, reduceCtorEq, not_false_eq_true, hRefused, false_imp_iff, true_and,
          iff_true]
        exact body.agree_endOutcome bytes (by simp [specOutcome])
  | error stop =>
      cases stop with
      | overflow =>
          simp only [ne_eq, not_true, false_and, iff_false]
          exact body.not_agree_stopped (by simp [specOutcome])
      | failed e =>
          rw [hSpec] at hSettled
          have hFail := settled_failOutcome body e
          rw [hSettled hFail]
          by_cases hRefused : body.ReserveRefused alloc
          · obtain ⟨refusal, hRead, hVariant⟩ := readAll_refused alloc hFresh hInner hRefused
            rw [hRead]
            simp only [ne_eq, Except.error.injEq, reduceCtorEq, not_false_eq_true, hRefused,
              forall_const, true_and, Stop.failed.injEq, exists_eq_left']
            exact agree_fail_iff hVariant
          · rw [readAll_incoming alloc hFresh hInner hRefused (by rw [hSpec, specOutcome]) hFail]
            simp only [ne_eq, Except.error.injEq, reduceCtorEq, not_false_eq_true, hRefused,
              false_imp_iff, true_and, iff_true]
            refine body.agree_failOutcome e.variant fun outcome hMem => ⟨e, ?_, rfl⟩
            simpa [specOutcome] using hMem

/-- For every fresh body the consumers return, and they agree exactly when the
body is uniformly consumable. -/
theorem consumers_agree_iff (alloc : Allocator) (body : RequestBody) (hFresh : body.Fresh) :
    ∃ whole chunked polled,
      body.readAllWithTrailers = some whole ∧ body.drainNextChunk = some chunked ∧
      body.drainPollNext = some polled ∧
      (Agree [drained (body.readAll alloc), drainedWithTrailers whole, drained chunked,
        drained polled] ↔ body.UniformlyConsumable alloc) := by
  rcases hFresh.atStart with hInner | ⟨data, hWord, hInner⟩ | ⟨stream, hInner⟩
  · obtain ⟨whole, chunked, polled, hWhole, hChunked, hPolled, hAgree⟩ :=
      agree_empty alloc hFresh (readAll_empty alloc hFresh hInner)
        (drains_nothing hFresh hInner (.inl rfl))
    refine ⟨whole, chunked, polled, hWhole, hChunked, hPolled, ?_⟩
    simp only [UniformlyConsumable, hInner, iff_true]
    exact hAgree
  · by_cases hData : data = []
    · subst hData
      obtain ⟨whole, chunked, polled, hWhole, hChunked, hPolled, hAgree⟩ :=
        agree_empty alloc hFresh (readAll_fixed alloc hFresh hWord hInner (Nat.zero_le _))
          (drains_nothing hFresh hInner (.inr rfl))
      refine ⟨whole, chunked, polled, hWhole, hChunked, hPolled, ?_⟩
      simp only [UniformlyConsumable, hInner, ne_eq, not_true, false_imp_iff, iff_true]
      exact hAgree
    · simpa only [UniformlyConsumable, hInner, ne_eq, hData, not_false_eq_true, forall_const]
        using agree_fixed_iff alloc hFresh hWord hInner hData
  · have hWithin : body.Within 0 := ⟨Nat.zero_le _, fun _ _ => Nat.zero_le _⟩
    simpa only [UniformlyConsumable, hInner, ne_eq, streamSpec_overflow_iff stream 0 hWithin,
      streamSpec_limitExceeded_iff stream 0 hWithin] using agree_incoming_iff alloc hFresh hInner

/-- A body in memory without trailers on the wire. -/
theorem consumers_agree_iff_data :
    (fromBytes [100, 97, 116, 97] u64Max).Fresh ∧
    ∃ whole chunked polled,
      (fromBytes [100, 97, 116, 97] u64Max).readAllWithTrailers = some whole ∧
      (fromBytes [100, 97, 116, 97] u64Max).drainNextChunk = some chunked ∧
      (fromBytes [100, 97, 116, 97] u64Max).drainPollNext = some polled ∧
      Agree [drained ((fromBytes [100, 97, 116, 97] u64Max).readAll ⟨u64Max, fun _ => true⟩),
        drainedWithTrailers whole, drained chunked, drained polled] := by
  have hFresh : (fromBytes [100, 97, 116, 97] u64Max).Fresh :=
    fresh_fromBytesWithShared (by decide) u64Max {}
  obtain ⟨whole, chunked, polled, hWhole, hChunked, hPolled, hAgree⟩ :=
    consumers_agree_iff ⟨u64Max, fun _ => true⟩ (fromBytes [100, 97, 116, 97] u64Max) hFresh
  exact ⟨hFresh, whole, chunked, polled, hWhole, hChunked, hPolled, hAgree.mpr fun _ _ => rfl⟩

/-- The transport reports malformed trailers for a body in memory: polling the
body completes it without looking at the slot. -/
theorem polled_data_misses_trailer_failure :
    ¬∀ (alloc : Allocator) (body : RequestBody), body.Fresh →
      ∃ whole chunked polled,
        body.readAllWithTrailers = some whole ∧ body.drainNextChunk = some chunked ∧
        body.drainPollNext = some polled ∧
        Agree [drained (body.readAll alloc), drainedWithTrailers whole, drained chunked,
          drained polled] := by
  intro hAlways
  let body : RequestBody := { fromBytes [100, 97, 116, 97] u64Max with
    wireSlot := some (some (.error "malformed".toList)) }
  have hFresh : body.Fresh := (fresh_fromBytesWithShared (by decide) u64Max {}).fill _ none
  obtain ⟨whole, chunked, polled, hWhole, hChunked, hPolled, hAgree⟩ :=
    hAlways ⟨u64Max, fun _ => true⟩ body hFresh
  obtain ⟨whole', chunked', polled', hWhole', hChunked', hPolled', hIff⟩ :=
    agree_fixed_iff ⟨u64Max, fun _ => true⟩ hFresh (by decide) rfl (List.cons_ne_nil 100 [97, 116, 97])
  obtain rfl := Option.some.inj (hWhole.symm.trans hWhole')
  obtain rfl := Option.some.inj (hChunked.symm.trans hChunked')
  obtain rfl := Option.some.inj (hPolled.symm.trans hPolled')
  have hEmptySlot := hIff.mp hAgree (by decide)
  cases hEmptySlot

end Agreement

end RequestBody

end Eggserve.Primitives
