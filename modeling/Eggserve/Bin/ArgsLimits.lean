import Eggserve.Bin.Accepted
import Eggserve.Core.Limits

/-! The limits of a command line, and what is said about those that cannot be used. -/
namespace Eggserve.Bin
open Rust Eggserve.Server Eggserve.Core

/-- What the line asks for. What it does not mention has the default. -/
def Args.requested (args : Args) : Limits :=
  let limits : Limits := {}
  { limits with
    maxConnections := (args.limits .maxConnections).getD limits.maxConnections
    maxFileStreams := (args.limits .maxFileStreams).getD limits.maxFileStreams
    maxInFlightRequests := (args.limits .maxInFlightRequests).getD limits.maxInFlightRequests
    headerReadTimeout :=
      ((args.limits .headerTimeout).map seconds).getD limits.headerReadTimeout
    connectionTotalTimeout :=
      ((args.limits .connectionTotalTimeout).map seconds).getD limits.connectionTotalTimeout
    handlerTimeout := ((args.limits .handlerTimeout).map seconds).getD limits.handlerTimeout
    bodyReadTimeout := ((args.limits .bodyReadTimeout).map seconds).getD limits.bodyReadTimeout
    keepAliveIdleTimeout :=
      ((args.limits .keepAliveIdleTimeout).map seconds).getD limits.keepAliveIdleTimeout
    maxRequestsPerConnection :=
      args.maxRequestsPerConnection.getD limits.maxRequestsPerConnection
    responseWriteTimeout :=
      ((args.limits .responseWriteTimeout).map seconds).getD limits.responseWriteTimeout
    maxBufSize := (args.limits .maxBufSize).getD limits.maxBufSize
    maxHeaders := (args.limits .maxHeaders).getD limits.maxHeaders
    maxHeaderBytes := (args.limits .maxHeaderBytes).getD limits.maxHeaderBytes
    maxRequestTargetBytes :=
      (args.limits .maxRequestTargetBytes).getD limits.maxRequestTargetBytes }

/-- `Args::limits`. -/
def Args.toLimits (maxPermits : Nat) (args : Args) : Except Str Limits := do
  (args.requested.validate maxPermits).mapError fun errors =>
    ("; ".toList).intercalate (errors.map Violation.display)
  pure args.requested

/-- The option that sets a field. -/
def LimitFlag.field : LimitFlag → RuntimeField
  | maxConnections => .maxConnections
  | maxFileStreams => .maxFileStreams
  | maxInFlightRequests => .maxInFlightRequests
  | headerTimeout => .headerReadTimeout
  | connectionTotalTimeout => .connectionTotalTimeout
  | handlerTimeout => .handlerTimeout
  | bodyReadTimeout => .bodyReadTimeout
  | keepAliveIdleTimeout => .keepAliveIdleTimeout
  | responseWriteTimeout => .responseWriteTimeout
  | maxBufSize => .maxBufSize
  | maxHeaders => .maxHeaders
  | maxHeaderBytes => .maxHeaderBytes
  | maxRequestTargetBytes => .maxRequestTargetBytes

/-- The fields that may not exceed the total. -/
def withinTotal : List RuntimeField := [.headerReadTimeout, .handlerTimeout, .bodyReadTimeout]

/-- The field may be wrong because of what the line says. -/
def Args.Mentions (args : Args) (field : RuntimeField) : Prop :=
  (∃ flag : LimitFlag, flag.field = field ∧ (args.limits flag).isSome = true) ∨
    field ∈ withinTotal ∧ (args.limits .connectionTotalTimeout).isSome = true

/-- What the line does not touch is as it must be. -/
theorem holds_of_not_mentions {args : Args} {maxPermits : Nat} (hPermits : 64 ≤ maxPermits)
    (hRequests : args.maxRequestsPerConnection ≠ some (some 0)) {field : RuntimeField}
    (h : ¬args.Mentions field) : args.requested.toShared.Holds maxPermits field := by
  obtain ⟨hFlags, hTotal⟩ := not_or.mp h
  have hNone (flag : LimitFlag) (hField : flag.field = field) : args.limits flag = none :=
    Option.not_isSome_iff_eq_none.mp fun hSome => hFlags ⟨flag, hField, hSome⟩
  have hNoTotal (hWithin : field ∈ withinTotal) : args.limits .connectionTotalTimeout = none :=
    Option.not_isSome_iff_eq_none.mp fun hSome => hTotal ⟨hWithin, hSome⟩
  cases field with
  | maxConnections =>
      simp only [SharedRuntimeValues.Holds, Limits.toShared, Args.requested,
        hNone .maxConnections rfl, Option.getD_none]
      omega
  | maxFileStreams =>
      simp only [SharedRuntimeValues.Holds, Limits.toShared, Args.requested,
        hNone .maxFileStreams rfl, Option.getD_none]
      omega
  | maxInFlightRequests =>
      simp only [SharedRuntimeValues.Holds, Limits.toShared, Args.requested,
        hNone .maxInFlightRequests rfl, Option.getD_none]
      omega
  | maxActiveTunnels => exact ⟨(by decide : 0 < defaultMaxActiveTunnels), hPermits⟩
  | headerReadTimeout =>
      simp only [SharedRuntimeValues.Holds, Limits.toShared, Args.requested,
        hNone .headerTimeout rfl, hNoTotal (by decide), Option.map_none, Option.getD_none]
      decide
  | handlerTimeout =>
      simp only [SharedRuntimeValues.Holds, Limits.toShared, Args.requested,
        hNone .handlerTimeout rfl, hNoTotal (by decide), Option.map_none, Option.getD_none]
      decide
  | bodyReadTimeout =>
      simp only [SharedRuntimeValues.Holds, Limits.toShared, Args.requested,
        hNone .bodyReadTimeout rfl, hNoTotal (by decide), Option.map_none, Option.getD_none]
      decide
  | keepAliveIdleTimeout =>
      simp only [SharedRuntimeValues.Holds, Limits.toShared, Args.requested,
        hNone .keepAliveIdleTimeout rfl, Option.map_none, Option.getD_none]
      decide
  | responseWriteTimeout =>
      simp only [SharedRuntimeValues.Holds, Limits.toShared, Args.requested,
        hNone .responseWriteTimeout rfl, Option.map_none, Option.getD_none]
      decide
  | maxBufSize =>
      simp only [SharedRuntimeValues.Holds, Limits.toShared, Args.requested,
        hNone .maxBufSize rfl, Option.getD_none]
      decide
  | maxHeaders =>
      simp only [SharedRuntimeValues.Holds, Limits.toShared, Args.requested,
        hNone .maxHeaders rfl, Option.getD_none]
      decide
  | maxHeaderBytes =>
      simp only [SharedRuntimeValues.Holds, Limits.toShared, Args.requested,
        hNone .maxHeaderBytes rfl, Option.getD_none]
      decide
  | maxRequestTargetBytes =>
      simp only [SharedRuntimeValues.Holds, Limits.toShared, Args.requested,
        hNone .maxRequestTargetBytes rfl, Option.getD_none]
      decide
  | maxRequestsPerConnection =>
      intro hZero
      cases hGiven : args.maxRequestsPerConnection with
      | none =>
          simp only [Limits.toShared, Args.requested, hGiven, Option.getD_none] at hZero
          cases hZero
      | some limit =>
          simp only [Limits.toShared, Args.requested, hGiven, Option.getD_some] at hZero
          exact hRequests (hGiven.trans (congrArg some hZero))
  | connectionTotalTimeout => trivial
  | maxRequestBodyBytes | tlsHandshakeTimeout | gracefulShutdownTimeout | streamChunkSize =>
      simp only [SharedRuntimeValues.Holds, Limits.toShared, Args.requested]
      decide

/-- A command line has limits unless a field is wrong. Then every wrong field is named once,
and the line itself set it, or the total that it may not exceed. -/
theorem limits_diagnostic (env : Environment) (args : List Str) (parsed : Args)
    (maxPermits : Nat) (hPermits : 64 ≤ maxPermits) (h : parseFrom env args = .ok parsed) :
    ((∃ limits, parsed.toLimits maxPermits = .ok limits) ↔
        ∀ field, parsed.requested.toShared.Holds maxPermits field) ∧
      ∀ text, parsed.toLimits maxPermits = .error text →
        ∃ violations : List Violation,
          text = ("; ".toList).intercalate (violations.map Violation.display) ∧
          (violations.map Violation.field).Nodup ∧
          (∀ field : RuntimeField, field.name ∈ violations.map Violation.field ↔
            ¬parsed.requested.toShared.Holds maxPermits field) ∧
          ∀ violation ∈ violations, ∃ field : RuntimeField,
            violation.field = field.name ∧ parsed.Mentions field := by
  have hViolations : parsed.requested.violations maxPermits =
      parsed.requested.toShared.validate maxPermits := by
    have hListing : parsed.requested.listingViolations = [] := rfl
    rw [Limits.violations, hListing, List.append_nil]
  have hNodup : ((parsed.requested.violations maxPermits).map Violation.field).Nodup :=
    hViolations ▸ SharedRuntimeValues.nodup_validate
  have hReported (field : RuntimeField) :
      field.name ∈ (parsed.requested.violations maxPermits).map Violation.field ↔
        ¬parsed.requested.toShared.Holds maxPermits field :=
    hViolations ▸ SharedRuntimeValues.name_mem_validate field
  constructor
  · constructor
    · rintro ⟨limits, hLimits⟩ field
      obtain ⟨hValid, -⟩ := check_bind_eq_ok.mp hLimits
      rw [mapError_eq_ok, Limits.validate] at hValid
      split_ifs at hValid with hEmpty
      by_contra hNot
      have hMem := (hReported field).mpr hNot
      rw [List.isEmpty_iff.mp hEmpty] at hMem
      cases hMem
    · intro hHolds
      have hEmpty : parsed.requested.violations maxPermits = [] := by
        apply List.eq_nil_iff_forall_not_mem.mpr
        intro violation hMem
        rw [hViolations] at hMem
        obtain ⟨check, broken, hBroken, rfl⟩ := SharedRuntimeValues.mem_validate.mp hMem
        refine (hReported check.field).mp ?_ (hHolds check.field)
        rw [hViolations]
        exact List.mem_map.mpr ⟨_, hMem, rfl⟩
      refine ⟨parsed.requested, ?_⟩
      rw [Args.toLimits, Limits.validate, hEmpty]
      rfl
  · intro text hText
    have hError : (parsed.requested.validate maxPermits).mapError (fun errors =>
        ("; ".toList).intercalate (errors.map Violation.display)) = .error text := by
      rcases check_bind_eq_error.mp hText with hError | ⟨-, hPure⟩
      · exact hError
      · cases hPure
    obtain ⟨errors, hErrors, rfl⟩ := mapError_eq_error.mp hError
    rw [Limits.validate] at hErrors
    split_ifs at hErrors with hEmpty
    cases hErrors
    refine ⟨_, rfl, hNodup, hReported, fun violation hMem => ?_⟩
    have hNamed := hMem
    rw [hViolations] at hNamed
    obtain ⟨check, broken, hBroken, rfl⟩ := SharedRuntimeValues.mem_validate.mp hNamed
    refine ⟨check.field, rfl, ?_⟩
    by_contra hNot
    exact (hReported check.field).mp (List.mem_map.mpr ⟨_, hMem, rfl⟩)
      (holds_of_not_mentions hPermits (accepted_requests h) hNot)

/-- A total of five seconds is below the default of the header. -/
theorem limits_diagnostic_total :
    ∃ parsed, parseFrom offline ["--connection-total-timeout=5"] = .ok parsed ∧
      ¬∃ limits, parsed.toLimits (2 ^ 61 - 1) = .ok limits := by
  have hSome : ((parseFrom offline ["--connection-total-timeout=5"]).toOption.any
      fun parsed => parsed.limits .connectionTotalTimeout = some 5 ∧
        parsed.limits .headerTimeout = none) = true := by
    decide +kernel
  cases hParsed : parseFrom offline ["--connection-total-timeout=5"] with
  | error e =>
      rw [hParsed] at hSome
      cases hSome
  | ok parsed =>
      rw [hParsed] at hSome
      obtain ⟨hTotal, hHeader⟩ := of_decide_eq_true hSome
      refine ⟨parsed, rfl, ?_⟩
      rw [(limits_diagnostic _ _ _ _ (by decide) hParsed).1]
      intro hHolds
      have hWithin := (hHolds .headerReadTimeout).2
      simp only [Limits.toShared, Args.requested, hTotal, hHeader] at hWithin
      exact absurd (hWithin (by decide)) (by decide)

end Eggserve.Bin
