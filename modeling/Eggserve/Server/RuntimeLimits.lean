import Mathlib.Data.List.Nodup
import Eggserve.Rust.Padded

/-! The limits of a server and the one kernel that checks them. A duration is its
nanoseconds. -/
namespace Eggserve.Server
open Rust

def seconds (n : Nat) : Nat := n * 10 ^ 9

def maxRequestBodyBytesCeiling : Nat := 1024 * 1024 * 1024
def minStreamChunkSize : Nat := 64
def maxStreamChunkSize : Nat := 1024 * 1024
def minMaxBufSize : Nat := 8192
def minMaxHeaderBytes : Nat := 1024
def maxMaxHeaderBytes : Nat := 1024 * 1024
def minMaxRequestTargetBytes : Nat := 128
def maxMaxRequestTargetBytes : Nat := 64 * 1024
def defaultMaxActiveTunnels : Nat := 64

structure SharedRuntimeValues where
  maxConnections : Nat := 64
  maxFileStreams : Nat := 32
  maxRequestBodyBytes : Nat := 0
  headerReadTimeout : Nat := seconds 10
  tlsHandshakeTimeout : Nat := seconds 10
  connectionTotalTimeout : Nat := seconds 60
  handlerTimeout : Nat := seconds 30
  bodyReadTimeout : Nat := seconds 30
  gracefulShutdownTimeout : Nat := seconds 10
  streamChunkSize : Nat := 128 * 1024
  maxBufSize : Nat := 64 * 1024
  maxHeaders : Nat := 100
  maxHeaderBytes : Nat := 32 * 1024
  maxRequestTargetBytes : Nat := 8192
  maxInFlightRequests : Nat := 64
  keepAliveIdleTimeout : Nat := seconds 60
  maxRequestsPerConnection : Option Nat := none
  responseWriteTimeout : Nat := seconds 30
  maxActiveTunnels : Nat := defaultMaxActiveTunnels
  deriving DecidableEq

/-- The fields of the record. -/
inductive RuntimeField where
  | maxConnections
  | maxFileStreams
  | maxRequestBodyBytes
  | headerReadTimeout
  | tlsHandshakeTimeout
  | connectionTotalTimeout
  | handlerTimeout
  | bodyReadTimeout
  | gracefulShutdownTimeout
  | streamChunkSize
  | maxBufSize
  | maxHeaders
  | maxHeaderBytes
  | maxRequestTargetBytes
  | maxInFlightRequests
  | keepAliveIdleTimeout
  | maxRequestsPerConnection
  | responseWriteTimeout
  | maxActiveTunnels
  deriving DecidableEq

namespace RuntimeField

def all : List RuntimeField :=
  [maxConnections, maxFileStreams, maxRequestBodyBytes, headerReadTimeout, tlsHandshakeTimeout,
    connectionTotalTimeout, handlerTimeout, bodyReadTimeout, gracefulShutdownTimeout,
    streamChunkSize, maxBufSize, maxHeaders, maxHeaderBytes, maxRequestTargetBytes,
    maxInFlightRequests, keepAliveIdleTimeout, maxRequestsPerConnection, responseWriteTimeout,
    maxActiveTunnels]

def name : RuntimeField → Str
  | maxConnections => "max_connections"
  | maxFileStreams => "max_file_streams"
  | maxRequestBodyBytes => "max_request_body_bytes"
  | headerReadTimeout => "header_read_timeout"
  | tlsHandshakeTimeout => "tls_handshake_timeout"
  | connectionTotalTimeout => "connection_total_timeout"
  | handlerTimeout => "handler_timeout"
  | bodyReadTimeout => "body_read_timeout"
  | gracefulShutdownTimeout => "graceful_shutdown_timeout"
  | streamChunkSize => "stream_chunk_size"
  | maxBufSize => "max_buf_size"
  | maxHeaders => "max_headers"
  | maxHeaderBytes => "max_header_bytes"
  | maxRequestTargetBytes => "max_request_target_bytes"
  | maxInFlightRequests => "max_in_flight_requests"
  | keepAliveIdleTimeout => "keep_alive_idle_timeout"
  | maxRequestsPerConnection => "max_requests_per_connection"
  | responseWriteTimeout => "response_write_timeout"
  | maxActiveTunnels => "max_active_tunnels"

end RuntimeField

structure Violation where
  field : Str
  value : Str
  constraint : Str
  deriving DecidableEq

def Violation.display (violation : Violation) : Str :=
  violation.field ++ " must be ".toList ++ violation.constraint ++ ": got ".toList ++
    violation.value

/-- The digits behind the point, without the zeros at the end. -/
def fractionText (width n : Nat) : Str :=
  if n = 0 then [] else '.' :: ((padded width n).reverse.dropWhile (· = '0')).reverse

/-- The format `{:?}` of a duration. -/
def debugDuration (d : Nat) : Str :=
  let nanos := d % 10 ^ 9
  if 0 < d / 10 ^ 9 then decimal (d / 10 ^ 9) ++ fractionText 9 nanos ++ "s".toList
  else if 10 ^ 6 ≤ nanos then
    decimal (nanos / 10 ^ 6) ++ fractionText 6 (nanos % 10 ^ 6) ++ "ms".toList
  else if 10 ^ 3 ≤ nanos then
    decimal (nanos / 10 ^ 3) ++ fractionText 3 (nanos % 10 ^ 3) ++ "µs".toList
  else decimal nanos ++ "ns".toList

def durationValue (d : Nat) : Str := if d = 0 then "0s" else debugDuration d

/-- The value of a violation and its constraint. -/
abbrev Broken := Option (Str × Str)

/-- A count that a semaphore takes. -/
def brokenCount (maxPermits n : Nat) : Broken :=
  if n = 0 then some ("0", "> 0")
  else if maxPermits < n then
    some (decimal n, "<= ".toList ++ decimal maxPermits ++ " (Semaphore::MAX_PERMITS)".toList)
  else none

def brokenTimeout (d : Nat) : Broken := if d = 0 then some ("0s", "> 0") else none

/-- A total of zero is no total. -/
def brokenWithin (total d : Nat) : Broken :=
  if total ≠ 0 ∧ total < d then some (durationValue d, "<= connection_total_timeout") else none

def brokenMax (max : Nat) (note : Str) (n : Nat) : Broken :=
  if max < n then some (decimal n, "<= ".toList ++ decimal max ++ note) else none

def brokenMin (min : Nat) (note : Str) (n : Nat) : Broken :=
  if n < min then some (decimal n, ">= ".toList ++ decimal min ++ note) else none

def brokenNone (n : Nat) : Broken := if n = 0 then some ("0", "> 0") else none

def brokenRequests (limit : Option Nat) : Broken :=
  if limit = some 0 then some ("0", ">= 1 or None (unlimited)") else none

def brokenRange (min max : Nat) (note : Str) (n : Nat) : Broken :=
  (brokenMin min [] n).or (brokenMax max note n)

/-- A field is checked by itself or against the total. -/
inductive Check where
  | alone (field : RuntimeField)
  | within (field : RuntimeField)
  deriving DecidableEq

def Check.field : Check → RuntimeField
  | alone field | within field => field

/-- The checks in the order in which they are made. -/
def checkOrder : List Check :=
  [.alone .maxConnections, .alone .maxFileStreams, .alone .headerReadTimeout,
    .alone .tlsHandshakeTimeout, .within .headerReadTimeout, .alone .handlerTimeout,
    .alone .bodyReadTimeout, .within .handlerTimeout, .within .bodyReadTimeout,
    .alone .gracefulShutdownTimeout, .alone .streamChunkSize, .alone .maxRequestBodyBytes,
    .alone .maxBufSize, .alone .maxHeaders, .alone .maxHeaderBytes, .alone .maxRequestTargetBytes,
    .alone .maxInFlightRequests, .alone .keepAliveIdleTimeout, .alone .maxRequestsPerConnection,
    .alone .responseWriteTimeout, .alone .maxActiveTunnels]

namespace SharedRuntimeValues

def broken (maxPermits : Nat) (values : SharedRuntimeValues) : Check → Broken
  | .alone .maxConnections => brokenCount maxPermits values.maxConnections
  | .alone .maxFileStreams => brokenCount maxPermits values.maxFileStreams
  | .alone .maxRequestBodyBytes =>
      brokenMax maxRequestBodyBytesCeiling " (1 GiB), or 0 to reject bodies"
        values.maxRequestBodyBytes
  | .alone .headerReadTimeout => brokenTimeout values.headerReadTimeout
  | .alone .tlsHandshakeTimeout => brokenTimeout values.tlsHandshakeTimeout
  | .alone .connectionTotalTimeout => none
  | .alone .handlerTimeout => brokenTimeout values.handlerTimeout
  | .alone .bodyReadTimeout => brokenTimeout values.bodyReadTimeout
  | .alone .gracefulShutdownTimeout => brokenTimeout values.gracefulShutdownTimeout
  | .alone .streamChunkSize =>
      brokenRange minStreamChunkSize maxStreamChunkSize " (1 MiB)" values.streamChunkSize
  | .alone .maxBufSize => brokenMin minMaxBufSize " (Hyper minimum)" values.maxBufSize
  | .alone .maxHeaders => brokenNone values.maxHeaders
  | .alone .maxHeaderBytes =>
      brokenRange minMaxHeaderBytes maxMaxHeaderBytes " (1 MiB)" values.maxHeaderBytes
  | .alone .maxRequestTargetBytes =>
      brokenRange minMaxRequestTargetBytes maxMaxRequestTargetBytes " (64 KiB)"
        values.maxRequestTargetBytes
  | .alone .maxInFlightRequests => brokenCount maxPermits values.maxInFlightRequests
  | .alone .keepAliveIdleTimeout => brokenTimeout values.keepAliveIdleTimeout
  | .alone .maxRequestsPerConnection => brokenRequests values.maxRequestsPerConnection
  | .alone .responseWriteTimeout => brokenTimeout values.responseWriteTimeout
  | .alone .maxActiveTunnels => brokenCount maxPermits values.maxActiveTunnels
  | .within .headerReadTimeout =>
      brokenWithin values.connectionTotalTimeout values.headerReadTimeout
  | .within .handlerTimeout => brokenWithin values.connectionTotalTimeout values.handlerTimeout
  | .within .bodyReadTimeout => brokenWithin values.connectionTotalTimeout values.bodyReadTimeout
  | .within _ => none

def violation (maxPermits : Nat) (values : SharedRuntimeValues) (check : Check) :
    Option Violation :=
  (values.broken maxPermits check).map fun broken => ⟨check.field.name, broken.1, broken.2⟩

def validate (maxPermits : Nat) (values : SharedRuntimeValues) : List Violation :=
  checkOrder.filterMap (values.violation maxPermits)

/-- What a field must satisfy, as its documentation says. -/
def Holds (maxPermits : Nat) (values : SharedRuntimeValues) : RuntimeField → Prop
  | .maxConnections => 0 < values.maxConnections ∧ values.maxConnections ≤ maxPermits
  | .maxFileStreams => 0 < values.maxFileStreams ∧ values.maxFileStreams ≤ maxPermits
  | .maxRequestBodyBytes => values.maxRequestBodyBytes ≤ maxRequestBodyBytesCeiling
  | .headerReadTimeout => 0 < values.headerReadTimeout ∧
      (0 < values.connectionTotalTimeout →
        values.headerReadTimeout ≤ values.connectionTotalTimeout)
  | .tlsHandshakeTimeout => 0 < values.tlsHandshakeTimeout
  | .connectionTotalTimeout => True
  | .handlerTimeout => 0 < values.handlerTimeout ∧
      (0 < values.connectionTotalTimeout → values.handlerTimeout ≤ values.connectionTotalTimeout)
  | .bodyReadTimeout => 0 < values.bodyReadTimeout ∧
      (0 < values.connectionTotalTimeout → values.bodyReadTimeout ≤ values.connectionTotalTimeout)
  | .gracefulShutdownTimeout => 0 < values.gracefulShutdownTimeout
  | .streamChunkSize =>
      minStreamChunkSize ≤ values.streamChunkSize ∧ values.streamChunkSize ≤ maxStreamChunkSize
  | .maxBufSize => minMaxBufSize ≤ values.maxBufSize
  | .maxHeaders => 0 < values.maxHeaders
  | .maxHeaderBytes =>
      minMaxHeaderBytes ≤ values.maxHeaderBytes ∧ values.maxHeaderBytes ≤ maxMaxHeaderBytes
  | .maxRequestTargetBytes => minMaxRequestTargetBytes ≤ values.maxRequestTargetBytes ∧
      values.maxRequestTargetBytes ≤ maxMaxRequestTargetBytes
  | .maxInFlightRequests =>
      0 < values.maxInFlightRequests ∧ values.maxInFlightRequests ≤ maxPermits
  | .keepAliveIdleTimeout => 0 < values.keepAliveIdleTimeout
  | .maxRequestsPerConnection => values.maxRequestsPerConnection ≠ some 0
  | .responseWriteTimeout => 0 < values.responseWriteTimeout
  | .maxActiveTunnels => 0 < values.maxActiveTunnels ∧ values.maxActiveTunnels ≤ maxPermits

/-- The text of a field in a diagnostic. -/
def shown (values : SharedRuntimeValues) : RuntimeField → Str
  | .maxConnections => decimal values.maxConnections
  | .maxFileStreams => decimal values.maxFileStreams
  | .maxRequestBodyBytes => decimal values.maxRequestBodyBytes
  | .headerReadTimeout => durationValue values.headerReadTimeout
  | .tlsHandshakeTimeout => durationValue values.tlsHandshakeTimeout
  | .connectionTotalTimeout => durationValue values.connectionTotalTimeout
  | .handlerTimeout => durationValue values.handlerTimeout
  | .bodyReadTimeout => durationValue values.bodyReadTimeout
  | .gracefulShutdownTimeout => durationValue values.gracefulShutdownTimeout
  | .streamChunkSize => decimal values.streamChunkSize
  | .maxBufSize => decimal values.maxBufSize
  | .maxHeaders => decimal values.maxHeaders
  | .maxHeaderBytes => decimal values.maxHeaderBytes
  | .maxRequestTargetBytes => decimal values.maxRequestTargetBytes
  | .maxInFlightRequests => decimal values.maxInFlightRequests
  | .keepAliveIdleTimeout => durationValue values.keepAliveIdleTimeout
  | .maxRequestsPerConnection => decimal (values.maxRequestsPerConnection.getD 0)
  | .responseWriteTimeout => durationValue values.responseWriteTimeout
  | .maxActiveTunnels => decimal values.maxActiveTunnels

end SharedRuntimeValues

/-! Each check speaks about its field only when the field is wrong, and shows its value. -/

section

variable {maxPermits n min max total d : Nat} {note : Str} {broken : Str × Str}

theorem brokenCount_eq_none : brokenCount maxPermits n = none ↔ 0 < n ∧ n ≤ maxPermits := by
  unfold brokenCount
  split_ifs with hZero hMax <;> simp <;> omega

theorem brokenTimeout_eq_none : brokenTimeout d = none ↔ 0 < d := by
  unfold brokenTimeout
  split_ifs with hZero <;> simp <;> omega

theorem brokenWithin_eq_none : brokenWithin total d = none ↔ (0 < total → d ≤ total) := by
  unfold brokenWithin
  split_ifs with hWide <;> simp <;> omega

theorem brokenMax_eq_none : brokenMax max note n = none ↔ n ≤ max := by
  unfold brokenMax
  split_ifs with hMax <;> simp <;> omega

theorem brokenMin_eq_none : brokenMin min note n = none ↔ min ≤ n := by
  unfold brokenMin
  split_ifs with hMin <;> simp <;> omega

theorem brokenNone_eq_none : brokenNone n = none ↔ 0 < n := by
  unfold brokenNone
  split_ifs with hZero <;> simp <;> omega

theorem brokenRequests_eq_none {limit : Option Nat} :
    brokenRequests limit = none ↔ limit ≠ some 0 := by
  unfold brokenRequests
  split_ifs with hZero <;> simp [hZero]

theorem brokenRange_eq_none : brokenRange min max note n = none ↔ min ≤ n ∧ n ≤ max := by
  rw [brokenRange, Option.or_eq_none_iff, brokenMin_eq_none, brokenMax_eq_none]

theorem shown_of_brokenCount (h : brokenCount maxPermits n = some broken) :
    broken.1 = decimal n := by
  unfold brokenCount at h
  split_ifs at h with hZero hMax
  · cases h
    rw [hZero]
    rfl
  · cases h
    rfl

theorem shown_of_brokenTimeout (h : brokenTimeout d = some broken) :
    broken.1 = durationValue d := by
  unfold brokenTimeout at h
  split_ifs at h with hZero
  cases h
  rw [hZero]
  rfl

theorem shown_of_brokenWithin (h : brokenWithin total d = some broken) :
    broken.1 = durationValue d := by
  unfold brokenWithin at h
  split_ifs at h
  cases h
  rfl

theorem shown_of_brokenMax (h : brokenMax max note n = some broken) : broken.1 = decimal n := by
  unfold brokenMax at h
  split_ifs at h
  cases h
  rfl

theorem shown_of_brokenMin (h : brokenMin min note n = some broken) : broken.1 = decimal n := by
  unfold brokenMin at h
  split_ifs at h
  cases h
  rfl

theorem shown_of_brokenNone (h : brokenNone n = some broken) : broken.1 = decimal n := by
  unfold brokenNone at h
  split_ifs at h with hZero
  cases h
  rw [hZero]
  rfl

theorem shown_of_brokenRequests {limit : Option Nat} (h : brokenRequests limit = some broken) :
    broken.1 = decimal (limit.getD 0) := by
  unfold brokenRequests at h
  split_ifs at h with hZero
  cases h
  rw [hZero]
  rfl

theorem shown_of_brokenRange (h : brokenRange min max note n = some broken) :
    broken.1 = decimal n := by
  rcases Option.or_eq_some_iff.mp h with hMin | ⟨-, hMax⟩
  · exact shown_of_brokenMin hMin
  · exact shown_of_brokenMax hMax

/-- A timeout is not too short and too long at once. -/
theorem broken_once (total d : Nat) : brokenTimeout d = none ∨ brokenWithin total d = none := by
  rw [brokenTimeout_eq_none, brokenWithin_eq_none]
  omega

end

namespace SharedRuntimeValues

variable {maxPermits : Nat} {values : SharedRuntimeValues}

theorem name_injective : Function.Injective RuntimeField.name := by
  intro first second h
  have hAll : ∀ first ∈ RuntimeField.all, ∀ second ∈ RuntimeField.all,
      first.name = second.name → first = second := by decide +kernel
  have hMem (field : RuntimeField) : field ∈ RuntimeField.all := by cases field <;> decide
  exact hAll first (hMem first) second (hMem second) h

/-- The checks of a field find nothing exactly when the field is as it must be. -/
theorem broken_eq_none_iff (field : RuntimeField) :
    values.broken maxPermits (.alone field) = none ∧
      values.broken maxPermits (.within field) = none ↔ values.Holds maxPermits field := by
  cases field with
  | maxConnections | maxFileStreams | maxInFlightRequests | maxActiveTunnels =>
      simp only [broken, Holds, brokenCount_eq_none, and_true]
  | headerReadTimeout | handlerTimeout | bodyReadTimeout =>
      simp only [broken, Holds, brokenTimeout_eq_none, brokenWithin_eq_none]
  | maxRequestBodyBytes => simp only [broken, Holds, brokenMax_eq_none, and_true]
  | maxBufSize => simp only [broken, Holds, brokenMin_eq_none, and_true]
  | maxHeaders => simp only [broken, Holds, brokenNone_eq_none, and_true]
  | maxRequestsPerConnection => simp only [broken, Holds, brokenRequests_eq_none, and_true]
  | streamChunkSize | maxHeaderBytes | maxRequestTargetBytes =>
      simp only [broken, Holds, brokenRange_eq_none, and_true]
  | connectionTotalTimeout => simp only [broken, Holds, and_true]
  | tlsHandshakeTimeout | gracefulShutdownTimeout | keepAliveIdleTimeout | responseWriteTimeout =>
      simp only [broken, Holds, brokenTimeout_eq_none, and_true]

theorem shown_of_broken {check : Check} {broken : Str × Str}
    (h : values.broken maxPermits check = some broken) :
    broken.1 = values.shown check.field := by
  cases check with
  | alone field =>
      cases field with
      | maxConnections | maxFileStreams | maxInFlightRequests | maxActiveTunnels =>
          exact shown_of_brokenCount h
      | maxRequestBodyBytes => exact shown_of_brokenMax h
      | maxBufSize => exact shown_of_brokenMin h
      | maxHeaders => exact shown_of_brokenNone h
      | maxRequestsPerConnection => exact shown_of_brokenRequests h
      | streamChunkSize | maxHeaderBytes | maxRequestTargetBytes => exact shown_of_brokenRange h
      | connectionTotalTimeout => cases h
      | headerReadTimeout | handlerTimeout | bodyReadTimeout | tlsHandshakeTimeout
      | gracefulShutdownTimeout | keepAliveIdleTimeout | responseWriteTimeout =>
          exact shown_of_brokenTimeout h
  | within field =>
      cases field with
      | headerReadTimeout | handlerTimeout | bodyReadTimeout => exact shown_of_brokenWithin h
      | _ => cases h

/-- No field is wrong by itself and against the total. -/
theorem broken_alone_or_within (maxPermits : Nat) (values : SharedRuntimeValues)
    (field : RuntimeField) :
    values.broken maxPermits (.alone field) = none ∨
      values.broken maxPermits (.within field) = none := by
  cases field with
  | headerReadTimeout | handlerTimeout | bodyReadTimeout => exact broken_once ..
  | _ => exact .inr rfl

theorem mem_checkOrder {check : Check} {broken : Str × Str}
    (h : values.broken maxPermits check = some broken) : check ∈ checkOrder := by
  cases check with
  | alone field =>
      cases field with
      | connectionTotalTimeout => cases h
      | _ => decide
  | within field =>
      cases field with
      | headerReadTimeout | handlerTimeout | bodyReadTimeout => decide
      | _ => cases h

theorem mem_validate {violation : Violation} :
    violation ∈ values.validate maxPermits ↔
      ∃ check broken, values.broken maxPermits check = some broken ∧
        ⟨check.field.name, broken.1, broken.2⟩ = violation := by
  rw [validate, List.mem_filterMap]
  constructor
  · rintro ⟨check, -, h⟩
    obtain ⟨broken, hBroken, hEq⟩ := Option.map_eq_some_iff.mp h
    exact ⟨check, broken, hBroken, hEq⟩
  · rintro ⟨check, broken, hBroken, hEq⟩
    exact ⟨check, mem_checkOrder hBroken, Option.map_eq_some_iff.mpr ⟨broken, hBroken, hEq⟩⟩

theorem nodup_validate : ((values.validate maxPermits).map Violation.field).Nodup := by
  have hOrder : checkOrder.Nodup := by decide
  rw [List.Nodup, List.pairwise_map, validate, List.pairwise_filterMap]
  refine hOrder.imp fun {first second} hNe one hOne two hTwo hSame => hNe ?_
  obtain ⟨one, hFirst, rfl⟩ := Option.map_eq_some_iff.mp hOne
  obtain ⟨two, hSecond, rfl⟩ := Option.map_eq_some_iff.mp hTwo
  have hField : first.field = second.field := name_injective hSame
  cases first with
  | alone field =>
      cases second with
      | alone other => exact congrArg Check.alone hField
      | within other =>
          obtain rfl : field = other := hField
          rcases broken_alone_or_within maxPermits values field with hNone | hNone
          · rw [hNone] at hFirst
            cases hFirst
          · rw [hNone] at hSecond
            cases hSecond
  | within field =>
      cases second with
      | within other => exact congrArg Check.within hField
      | alone other =>
          obtain rfl : field = other := hField
          rcases broken_alone_or_within maxPermits values field with hNone | hNone
          · rw [hNone] at hSecond
            cases hSecond
          · rw [hNone] at hFirst
            cases hFirst

theorem name_mem_validate (field : RuntimeField) :
    field.name ∈ (values.validate maxPermits).map Violation.field ↔
      ¬values.Holds maxPermits field := by
  rw [← broken_eq_none_iff, List.mem_map]
  constructor
  · rintro ⟨violation, hMem, hName⟩ ⟨hAlone, hWithin⟩
    obtain ⟨check, broken, hBroken, rfl⟩ := mem_validate.mp hMem
    have hField : check.field = field := name_injective hName
    cases check with
    | alone other =>
        obtain rfl : other = field := hField
        rw [hAlone] at hBroken
        cases hBroken
    | within other =>
        obtain rfl : other = field := hField
        rw [hWithin] at hBroken
        cases hBroken
  · intro hNot
    rcases not_and_or.mp hNot with hAlone | hWithin
    · obtain ⟨broken, hBroken⟩ := Option.ne_none_iff_exists'.mp hAlone
      exact ⟨_, mem_validate.mpr ⟨_, broken, hBroken, rfl⟩, rfl⟩
    · obtain ⟨broken, hBroken⟩ := Option.ne_none_iff_exists'.mp hWithin
      exact ⟨_, mem_validate.mpr ⟨_, broken, hBroken, rfl⟩, rfl⟩

/-- Every field that is not as its documentation says is reported exactly once, with its
value, and no other field is. -/
theorem validate_reports_exactly (maxPermits : Nat) (values : SharedRuntimeValues) :
    ((values.validate maxPermits).map Violation.field).Nodup ∧
      (∀ field, field.name ∈ (values.validate maxPermits).map Violation.field ↔
        ¬values.Holds maxPermits field) ∧
      ∀ violation ∈ values.validate maxPermits, ∃ field,
        violation.field = field.name ∧ violation.value = values.shown field := by
  refine ⟨nodup_validate, name_mem_validate, fun violation hMem => ?_⟩
  obtain ⟨check, broken, hBroken, rfl⟩ := mem_validate.mp hMem
  exact ⟨check.field, rfl, shown_of_broken hBroken⟩

end SharedRuntimeValues

end Eggserve.Server
