import Eggserve.Server.RuntimeLimits

/-! The limits of a static server: those of the runtime and the budgets of a listing. -/
namespace Eggserve.Core
open Rust Eggserve.Server

def maxListingResponseBytesCeiling : Nat := 10 * 1024 * 1024
def maxListingEntriesCeiling : Nat := 10 * 1024 * 1024

structure Limits where
  maxConnections : Nat := 64
  maxFileStreams : Nat := 32
  maxRequestBodyBytes : Nat := 0
  headerReadTimeout : Nat := seconds 10
  tlsHandshakeTimeout : Nat := seconds 10
  connectionTotalTimeout : Nat := seconds 60
  handlerTimeout : Nat := seconds 30
  bodyReadTimeout : Nat := seconds 30
  gracefulShutdownTimeout : Nat := seconds 10
  maxListingEntries : Nat := 4096
  maxListingResponseBytes : Nat := 1024 * 1024
  streamChunkSize : Nat := 128 * 1024
  maxBufSize : Nat := 64 * 1024
  maxHeaders : Nat := 100
  maxHeaderBytes : Nat := 32 * 1024
  maxRequestTargetBytes : Nat := 8192
  maxInFlightRequests : Nat := 64
  keepAliveIdleTimeout : Nat := seconds 60
  maxRequestsPerConnection : Option Nat := none
  responseWriteTimeout : Nat := seconds 30
  deriving DecidableEq

namespace Limits

/-- The projection into the shared values. A static server has the default of tunnels. -/
def toShared (limits : Limits) : SharedRuntimeValues where
  maxConnections := limits.maxConnections
  maxFileStreams := limits.maxFileStreams
  maxRequestBodyBytes := limits.maxRequestBodyBytes
  headerReadTimeout := limits.headerReadTimeout
  tlsHandshakeTimeout := limits.tlsHandshakeTimeout
  connectionTotalTimeout := limits.connectionTotalTimeout
  handlerTimeout := limits.handlerTimeout
  bodyReadTimeout := limits.bodyReadTimeout
  gracefulShutdownTimeout := limits.gracefulShutdownTimeout
  streamChunkSize := limits.streamChunkSize
  maxBufSize := limits.maxBufSize
  maxHeaders := limits.maxHeaders
  maxHeaderBytes := limits.maxHeaderBytes
  maxRequestTargetBytes := limits.maxRequestTargetBytes
  maxInFlightRequests := limits.maxInFlightRequests
  keepAliveIdleTimeout := limits.keepAliveIdleTimeout
  maxRequestsPerConnection := limits.maxRequestsPerConnection
  responseWriteTimeout := limits.responseWriteTimeout
  maxActiveTunnels := defaultMaxActiveTunnels

/-- A budget of a listing, which may not be zero. -/
def brokenBudget (max : Nat) (note : Str) (n : Nat) : Broken :=
  (brokenNone n).or (brokenMax max note n)

def listingViolations (limits : Limits) : List Violation :=
  [("max_listing_response_bytes".toList,
      brokenBudget maxListingResponseBytesCeiling " (10 MiB)" limits.maxListingResponseBytes),
    ("max_listing_entries".toList,
      brokenBudget maxListingEntriesCeiling " (entries)" limits.maxListingEntries)].filterMap
    fun check => check.2.map fun broken => ⟨check.1, broken.1, broken.2⟩

def violations (maxPermits : Nat) (limits : Limits) : List Violation :=
  limits.toShared.validate maxPermits ++ limits.listingViolations

def validate (maxPermits : Nat) (limits : Limits) : Except (List Violation) Unit :=
  let errors := limits.violations maxPermits
  if errors.isEmpty then .ok () else .error errors

end Limits

end Eggserve.Core
