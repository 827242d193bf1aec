import Eggserve.Primitives.Interim
import Eggserve.Primitives.RequestHead
import Eggserve.Transition.Machine

/-! The sender of interim responses. All clones of a sender share one record of
what was sent, behind a lock. -/
namespace Eggserve.Primitives
open Rust Transition

structure InterimLimits where
  maxCount : Nat := 4
  maxBytes : Nat := 8 * 1024
  deriving DecidableEq, Repr

inductive InterimDisposition where
  | sent
  | suppressedHttp10
  deriving DecidableEq, Repr

structure InterimInner where
  limits : InterimLimits
  version : HttpVersion
  count : Nat
  bytes : Nat
  committed : Bool
  sentContinue : Bool
  recorded : List (Nat × HeaderBlock)

/-- `usize::saturating_add`. The width of the word is that of the target. -/
def usizeAdd (usizeMax a b : Nat) : Nat := min (a + b) usizeMax

namespace InterimInner

/-- `InterimSender::with_limits`. -/
def withLimits (version : HttpVersion) (limits : InterimLimits) : InterimInner where
  limits := limits
  version := version
  count := 0
  bytes := 0
  committed := false
  sentContinue := false
  recorded := []

def messageBytes (usizeMax : Nat) (headers : HeaderBlock) : Nat :=
  (headers.map fun field =>
    usizeAdd usizeMax (utf8 field.name.text).length field.value.bytes.length).foldl
      (usizeAdd usizeMax) 0

/-- The record with one more interim response. -/
def record (usizeMax : Nat) (inner : InterimInner) (code : Nat) (headers : HeaderBlock) :
    InterimInner :=
  { inner with
    count := inner.count + 1
    bytes := usizeAdd usizeMax inner.bytes (messageBytes usizeMax headers)
    sentContinue := if code = 100 then true else inner.sentContinue
    recorded := inner.recorded ++ [(code, headers)] }

/-- One call with the lock held. -/
def send (usizeMax : Nat) (inner : InterimInner) (status : StatusCode) (headers : HeaderBlock) :
    Except InterimError InterimDisposition × InterimInner :=
  let code := status.code
  if ¬(100 ≤ code ∧ code < 200) ∨ code = 101 then (.error (.notInterim code), inner)
  else if inner.committed then (.error .afterCommit, inner)
  else if code = 100 ∧ inner.sentContinue = true then (.error .duplicateContinue, inner)
  else
    match normalizeInterimHeaders headers with
    | .error e => (.error e, inner)
    | .ok headers =>
        let bytes := usizeAdd usizeMax inner.bytes (messageBytes usizeMax headers)
        if inner.count + 1 > inner.limits.maxCount then
          (.error (.tooMany (inner.count + 1) inner.limits.maxCount), inner)
        else if bytes > inner.limits.maxBytes then
          (.error (.tooLarge bytes inner.limits.maxBytes), inner)
        else
          (.ok (if inner.version = .http10 then .suppressedHttp10 else .sent),
            inner.record usizeMax code headers)

def markCommitted (inner : InterimInner) : InterimInner := { inner with committed := true }

/-! One call. -/

section Calls

variable {usizeMax : Nat} {inner after : InterimInner} {status : StatusCode}
variable {headers : HeaderBlock}

/-- What a call that is not refused has passed, and what it keeps. -/
structure Accepted (usizeMax : Nat) (inner : InterimInner) (code : Nat)
    (headers kept : HeaderBlock) : Prop where
  interim : 100 ≤ code ∧ code < 200
  not_switching : code ≠ 101
  open_ : inner.committed = false
  fresh : ¬(code = 100 ∧ inner.sentContinue = true)
  normalized : normalizeInterimHeaders headers = .ok kept
  count : inner.count + 1 ≤ inner.limits.maxCount
  bytes : usizeAdd usizeMax inner.bytes (messageBytes usizeMax kept) ≤ inner.limits.maxBytes

/-- All that a call can do: it is refused and leaves the record as it was, or it
adds to it. -/
theorem send_cases (usizeMax : Nat) (inner : InterimInner) (status : StatusCode)
    (headers : HeaderBlock) :
    (∃ e, inner.send usizeMax status headers = (.error e, inner)) ∨
      ∃ kept disposition, Accepted usizeMax inner status.code headers kept ∧
        inner.send usizeMax status headers =
          (.ok disposition, inner.record usizeMax status.code kept) := by
  simp only [send]
  by_cases hCode : ¬(100 ≤ status.code ∧ status.code < 200) ∨ status.code = 101
  · exact .inl ⟨_, if_pos hCode⟩
  rw [if_neg hCode]
  by_cases hCommitted : inner.committed = true
  · exact .inl ⟨_, if_pos hCommitted⟩
  rw [if_neg hCommitted]
  by_cases hContinue : status.code = 100 ∧ inner.sentContinue = true
  · exact .inl ⟨_, if_pos hContinue⟩
  rw [if_neg hContinue]
  cases hKept : normalizeInterimHeaders headers with
  | error e => exact .inl ⟨e, rfl⟩
  | ok kept =>
      simp only
      by_cases hCount : inner.count + 1 > inner.limits.maxCount
      · exact .inl ⟨_, if_pos hCount⟩
      rw [if_neg hCount]
      by_cases hBytes :
          usizeAdd usizeMax inner.bytes (messageBytes usizeMax kept) > inner.limits.maxBytes
      · exact .inl ⟨_, if_pos hBytes⟩
      rw [if_neg hBytes]
      rw [not_or, not_not] at hCode
      exact .inr ⟨kept, _, ⟨hCode.1, hCode.2, Bool.eq_false_iff.mpr hCommitted, hContinue, hKept,
        Nat.not_lt.mp hCount, Nat.not_lt.mp hBytes⟩, rfl⟩

theorem send_eq_error {e : InterimError}
    (h : inner.send usizeMax status headers = (.error e, after)) : after = inner := by
  rcases send_cases usizeMax inner status headers with ⟨e', hSend⟩ | ⟨kept, disposition, -, hSend⟩
  · exact (Prod.mk.inj (h.symm.trans hSend)).2
  · cases h.symm.trans hSend

end Calls

/-! Sizes. -/

/-- The length of all names and values, without a bound. -/
def headerSize (headers : HeaderBlock) : Nat :=
  (headers.map fun field => (utf8 field.name.text).length + field.value.bytes.length).sum

def recordedSize (inner : InterimInner) : Nat :=
  (inner.recorded.map fun interim => headerSize interim.2).sum

theorem foldl_usizeAdd (usizeMax : Nat) (sizes : List Nat) (start : Nat) :
    sizes.foldl (usizeAdd usizeMax) (min start usizeMax) = min (start + sizes.sum) usizeMax := by
  induction sizes generalizing start with
  | nil => simp
  | cons size rest ih =>
      have hNext : usizeAdd usizeMax (min start usizeMax) size = min (start + size) usizeMax := by
        unfold usizeAdd
        omega
      rw [List.foldl_cons, hNext, ih, List.sum_cons, Nat.add_assoc]

theorem sum_map_usizeAdd (usizeMax : Nat) (headers : HeaderBlock) :
    min (headers.map fun field =>
      usizeAdd usizeMax (utf8 field.name.text).length field.value.bytes.length).sum usizeMax =
      min (headerSize headers) usizeMax := by
  induction headers with
  | nil => rfl
  | cons field rest ih =>
      simp only [headerSize, List.map_cons, List.sum_cons] at ih ⊢
      unfold usizeAdd at ih ⊢
      omega

theorem messageBytes_eq (usizeMax : Nat) (headers : HeaderBlock) :
    messageBytes usizeMax headers = min (headerSize headers) usizeMax := by
  have hFold := foldl_usizeAdd usizeMax (headers.map fun field =>
    usizeAdd usizeMax (utf8 field.name.text).length field.value.bytes.length) 0
  rw [Nat.zero_min, Nat.zero_add, sum_map_usizeAdd] at hFold
  exact hFold

/-! Runs. -/

/-- The record is within its limits and accounts for what it holds. -/
structure Sound (usizeMax : Nat) (inner : InterimInner) : Prop where
  count : inner.count = inner.recorded.length
  count_le : inner.count ≤ inner.limits.maxCount
  bytes : inner.bytes = min inner.recordedSize usizeMax
  bytes_le : inner.bytes ≤ inner.limits.maxBytes
  continues : (inner.recorded.map Prod.fst).count 100 = if inner.sentContinue then 1 else 0
  status : ∀ interim ∈ inner.recorded, 100 ≤ interim.1 ∧ interim.1 ≤ 199 ∧ interim.1 ≠ 101
  fields : ∀ interim ∈ inner.recorded, ∀ field ∈ interim.2,
    isHopByHopHeader field.name.text = false ∧ field.name.is "content-length" = false ∧
      field.name.is "transfer-encoding" = false

theorem sound_withLimits (usizeMax : Nat) (version : HttpVersion) (limits : InterimLimits) :
    Sound usizeMax (withLimits version limits) where
  count := rfl
  count_le := Nat.zero_le _
  bytes := (Nat.zero_min usizeMax).symm
  bytes_le := Nat.zero_le _
  continues := rfl
  status _ h := absurd h List.not_mem_nil
  fields _ h := absurd h List.not_mem_nil

theorem Sound.markCommitted {usizeMax : Nat} {inner : InterimInner} (h : Sound usizeMax inner) :
    Sound usizeMax inner.markCommitted :=
  ⟨h.count, h.count_le, h.bytes, h.bytes_le, h.continues, h.status, h.fields⟩

theorem normalized_fields {headers kept : HeaderBlock}
    (h : normalizeInterimHeaders headers = .ok kept) :
    ∀ field ∈ kept, isHopByHopHeader field.name.text = false ∧
      field.name.is "content-length" = false ∧ field.name.is "transfer-encoding" = false := by
  obtain ⟨hLength, hCoding, rfl⟩ := normalizeInterimHeaders_eq_ok.mp h
  intro field hField
  obtain ⟨hMem, hName⟩ := List.mem_filter.mp hField
  refine ⟨by simpa using hName, ?_, ?_⟩
  · exact Bool.eq_false_iff.mpr (List.any_eq_false.mp hLength field hMem)
  · exact Bool.eq_false_iff.mpr (List.any_eq_false.mp hCoding field hMem)

theorem Sound.record {usizeMax code : Nat} {inner : InterimInner} {headers kept : HeaderBlock}
    (h : Sound usizeMax inner) (hAccepted : Accepted usizeMax inner code headers kept) :
    Sound usizeMax (inner.record usizeMax code kept) where
  count := by simp [InterimInner.record, h.count]
  count_le := hAccepted.count
  bytes := by
    have hSize : (inner.record usizeMax code kept).recordedSize =
        inner.recordedSize + headerSize kept := by
      simp [InterimInner.record, recordedSize]
    rw [hSize]
    simp only [InterimInner.record, messageBytes_eq, h.bytes, usizeAdd]
    omega
  bytes_le := hAccepted.bytes
  continues := by
    have hFresh := hAccepted.fresh
    have hContinues := h.continues
    simp only [InterimInner.record, List.map_append, List.map_cons, List.map_nil,
      List.count_append, List.count_singleton, hContinues]
    by_cases hCode : code = 100
    · have hSent : inner.sentContinue = false := by simpa [hCode] using hFresh
      simp [hCode, hSent]
    · simp [hCode]
  status := by
    rintro interim hInterim
    rcases List.mem_append.mp hInterim with hOld | hNew
    · exact h.status interim hOld
    · obtain rfl := List.mem_singleton.mp hNew
      exact ⟨hAccepted.interim.1, Nat.le_of_lt_succ hAccepted.interim.2, hAccepted.not_switching⟩
  fields := by
    rintro interim hInterim
    rcases List.mem_append.mp hInterim with hOld | hNew
    · exact h.fields interim hOld
    · obtain rfl := List.mem_singleton.mp hNew
      exact normalized_fields hAccepted.normalized

theorem Sound.send {usizeMax : Nat} {inner : InterimInner} (h : Sound usizeMax inner)
    (status : StatusCode) (headers : HeaderBlock) :
    Sound usizeMax (inner.send usizeMax status headers).2 := by
  rcases send_cases usizeMax inner status headers with
    ⟨e, hSend⟩ | ⟨kept, disposition, hAccepted, hSend⟩
  · rw [hSend]
    exact h
  · rw [hSend]
    exact h.record hAccepted

end InterimInner

/-- The clones of a sender, as many as there are. -/
structure InterimSender where
  inner : InterimInner
  clones : Nat

/-- A call through one of the clones. -/
inductive InterimCall where
  | clone (sender : Nat)
  | send (sender : Nat) (status : StatusCode) (headers : HeaderBlock)
  | markCommitted (sender : Nat)

namespace InterimSender

def sender : InterimCall → Nat
  | .clone sender | .send sender _ _ | .markCommitted sender => sender

def step (usizeMax : Nat) (s : InterimSender) : InterimCall → InterimSender
  | .clone _ => { s with clones := s.clones + 1 }
  | .send _ status headers => { s with inner := (s.inner.send usizeMax status headers).2 }
  | .markCommitted _ => { s with inner := s.inner.markCommitted }

/-- The lock orders the calls of all tasks. -/
def machine (usizeMax : Nat) : Transition.Machine InterimSender InterimCall where
  Initial s := ∃ version limits, s = ⟨.withLimits version limits, 1⟩
  step s call := if sender call < s.clones then some (s.step usizeMax call) else none

theorem sound_of_reachable {usizeMax : Nat} {s : InterimSender}
    (hReach : (machine usizeMax).Reachable s) : s.inner.Sound usizeMax := by
  refine @Machine.ReachableUnder.invariant _ _ (machine usizeMax) _
    (fun s => s.inner.Sound usizeMax) ?_ ?_ s hReach
  · rintro _ ⟨version, limits, rfl⟩
    exact InterimInner.sound_withLimits usizeMax version limits
  · intro s call s' h _ hStep
    obtain ⟨-, rfl⟩ := enabled_iff.mp hStep
    cases call with
    | clone sender => exact h
    | send sender status headers => exact h.send status headers
    | markCommitted sender => exact h.markCommitted

/-- Nothing is added after the final response. -/
theorem step_committed {usizeMax : Nat} {s s' : InterimSender} {call : InterimCall}
    (hStep : (machine usizeMax).step s call = some s') (hCommitted : s.inner.committed = true) :
    s'.inner.committed = true ∧ s'.inner.recorded = s.inner.recorded := by
  obtain ⟨-, rfl⟩ := enabled_iff.mp hStep
  cases call with
  | clone sender => exact ⟨hCommitted, rfl⟩
  | markCommitted sender => exact ⟨rfl, rfl⟩
  | send sender status headers =>
      rcases InterimInner.send_cases usizeMax s.inner status headers with
        ⟨e, hSend⟩ | ⟨kept, disposition, hAccepted, -⟩
      · simp only [step, hSend, and_true]
        exact hCommitted
      · rw [hAccepted.open_] at hCommitted
        cases hCommitted

/-- In every run the record is sound, its size is exact unless the limit is the
largest word, it is closed for good by the final response, and a call that is
refused changes nothing. -/
theorem runs_sound (usizeMax : Nat) :
    (∀ s, (machine usizeMax).Reachable s → s.inner.Sound usizeMax ∧
      (s.inner.limits.maxBytes < usizeMax → s.inner.bytes = s.inner.recordedSize)) ∧
    (∀ s call s', (machine usizeMax).step s call = some s' → s.inner.committed = true →
      s'.inner.committed = true ∧ s'.inner.recorded = s.inner.recorded) ∧
    ∀ (inner after : InterimInner) status headers e,
      inner.send usizeMax status headers = (.error e, after) → after = inner := by
  refine ⟨fun s hReach => ⟨sound_of_reachable hReach, fun hLimit => ?_⟩,
    fun _ _ _ hStep hCommitted => step_committed hStep hCommitted,
    fun _ _ _ _ _ h => InterimInner.send_eq_error h⟩
  have hSound := sound_of_reachable hReach
  have hBytes := hSound.bytes
  have hWithin := hSound.bytes_le
  omega

/-- A value of the given length. Its octets are shared by all its copies. -/
def wideValue (length : Nat) : HeaderValue where
  bytes := List.replicate length 97
  valid := by
    rw [List.all_replicate]
    split_ifs <;> rfl
  trimmed := trimOws_of_no_ows fun b hb => by
    rw [List.eq_of_mem_replicate hb]
    rfl

def wideBlock (length : Nat) : HeaderBlock :=
  List.replicate 5 ⟨⟨"x".toList, by decide⟩, wideValue length⟩

def earlyHints : StatusCode := ⟨103, by decide⟩

/-- The record after one interim response of five copies of a value. -/
def afterWideBlock (usizeMax length : Nat) : InterimInner :=
  ((InterimInner.withLimits .http11 ⟨1, usizeMax⟩).send usizeMax earlyHints (wideBlock length)).2

theorem afterWideBlock_saturates {usizeMax length : Nat} (hWide : usizeMax < 5 * (1 + length)) :
    (afterWideBlock usizeMax length).bytes < (afterWideBlock usizeMax length).recordedSize := by
  have hKept : normalizeInterimHeaders (wideBlock length) = .ok (wideBlock length) :=
    normalizeInterimHeaders_eq_ok.mpr ⟨rfl, rfl, rfl⟩
  have hSize : InterimInner.headerSize (wideBlock length) = 5 * (1 + length) := by
    have hField : (utf8 "x".toList).length + (wideValue length).bytes.length = 1 + length :=
      congrArg (1 + ·) List.length_replicate
    simp only [InterimInner.headerSize, wideBlock, List.replicate, List.map_cons, List.map_nil,
      hField, List.sum_cons, List.sum_nil]
    omega
  have hBytes : InterimInner.messageBytes usizeMax (wideBlock length) = usizeMax := by
    rw [InterimInner.messageBytes_eq, hSize]
    omega
  have hAdd : usizeAdd usizeMax 0 usizeMax = usizeMax := by simp [usizeAdd]
  have hSend : (InterimInner.withLimits .http11 ⟨1, usizeMax⟩).send usizeMax earlyHints
      (wideBlock length) = (.ok .sent, (InterimInner.withLimits .http11 ⟨1, usizeMax⟩).record
        usizeMax 103 (wideBlock length)) := by
    simp [InterimInner.send, InterimInner.withLimits, earlyHints, hKept, hBytes, hAdd]
  rw [afterWideBlock, hSend]
  simp only [InterimInner.record, InterimInner.withLimits, hBytes, hAdd,
    InterimInner.recordedSize, List.nil_append, List.map_cons, List.map_nil, List.sum_cons,
    List.sum_nil, hSize, Nat.add_zero]
  exact hWide

/-- On a target of 32 bits, five copies of one value of a gigabyte are more than
`bytes` can count, and the largest limit lets them through. -/
theorem bytes_below_size :
    (afterWideBlock (2 ^ 32 - 1) (2 ^ 30)).bytes ≠
      (afterWideBlock (2 ^ 32 - 1) (2 ^ 30)).recordedSize :=
  Nat.ne_of_lt (afterWideBlock_saturates (by omega))

end InterimSender

end Eggserve.Primitives
