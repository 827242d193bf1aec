import Eggserve.Primitives.Tunnel
import Eggserve.Transition.Machine
import Mathlib.Logic.Function.Basic

/-! Acceptance of a tunnel. `accept` runs on a task of its own, and each of its
operations on the shared state may fall between two operations of the pipeline. -/
namespace Eggserve.Server
open Rust Eggserve.Primitives Transition

/-- A field of the runtime, with the errors that its construction maps to. -/
def runtimeField (name : Str) (value : List UInt8) : Except TunnelError HeaderField := do
  let name ← (HeaderName.new name).mapError fun _ => .invalidHeader .invalidName
  let value ← (HeaderValue.fromBytes value).mapError fun _ => .invalidHeader .invalidValue
  return ⟨name, value⟩

def handshakeStatus : TunnelKind → StatusCode
  | .http1Upgrade => ⟨101, by decide⟩
  | .connect => .ok
  | .extendedConnect => .ok

/-- The runtime alone writes `Upgrade` and `Connection`. -/
def upgradeFields (request : TunnelRequest) (headers : HeaderBlock) :
    Except TunnelError HeaderBlock := do
  if request.kind = .http1Upgrade then
    match request.protocol with
    | none => .error (.invalidHeader .invalidValue)
    | some protocol =>
        let headers := headers.filter fun field =>
          !field.name.is "upgrade" && !field.name.is "connection"
        let upgrade ← runtimeField "upgrade" protocol.asBytes
        let connection ← runtimeField "connection" (utf8 "upgrade")
        return headers ++ [upgrade] ++ [connection]
  else return headers

def buildHandshakeResponse (request : TunnelRequest) (headers : HeaderBlock) :
    Except TunnelError Response := do
  let headers ← validateHandshakeHeaders headers
  let headers ← upgradeFields request headers
  return {
    status := handshakeStatus request.kind
    headers
    body := some .empty
    normalized := false }

/-- What `accept` stages for the pipeline; the handler is the caller's. -/
structure TunnelAcceptance (ι : Type) where
  handler : ι
  kind : TunnelKind
  deriving DecidableEq

/-- Where a call of `accept` stands. -/
inductive AcceptPc where
  | idle
  | load (headers : HeaderBlock)
  | build (headers : HeaderBlock)
  | claim (response : Response)
  | store (response : Response)
  | returned (result : Except TunnelError Response)

/-- What the service call comes to: a response, an error or panic, or the timeout. -/
inductive ServiceResult where
  | ok (response : Response)
  | error
  | elapsed

inductive InvocationOutcome (ι : Type) where
  | admissionRejected
  | failed
  | ordinary (response : Response)
  | tunnelRejected
  | handoff (acceptance : TunnelAcceptance ι) (response : Response)

/-- Where `invoke_service` stands. -/
inductive InvocationPc (ι : Type) where
  | start
  | rejected
  | serving
  | commit (result : ServiceResult)
  | take (response : Response)
  | tunnel (acceptance : TunnelAcceptance ι) (response : Response)
  | done (outcome : InvocationOutcome ι)

inductive TunnelEvent (ι : Type) where
  | stored (caller : ι)
  | took (taken : Option (TunnelAcceptance ι))
  deriving DecidableEq

/-- One request with a tunnel: the shared flags, the sidecar, the callers of
`accept`, the pipeline, and the stores and takes so far, the latest first. -/
structure TunnelExchange (ι : Type) where
  request : TunnelRequest
  committed : Bool
  accepted : Bool
  sidecar : Option (TunnelAcceptance ι)
  accept : ι → AcceptPc
  invocation : InvocationPc ι
  log : List (TunnelEvent ι)

inductive TunnelAction (ι : Type) where
  | serviceAdmission (admitted : Bool)
  | serviceReturns (result : ServiceResult)
  | markCommitted
  | takeSidecar
  | tunnelAdmission (admitted : Bool)
  | call (caller : ι) (headers : HeaderBlock)
  | accept (caller : ι)

namespace TunnelExchange

variable {ι : Type} [DecidableEq ι]

def setAccept (s : TunnelExchange ι) (caller : ι) (pc : AcceptPc) : TunnelExchange ι :=
  { s with accept := Function.update s.accept caller pc }

/-- The next operation of a call of `accept`. -/
def stepAccept (s : TunnelExchange ι) (caller : ι) : Option (TunnelExchange ι) :=
  match s.accept caller with
  | .idle => none
  | .load headers =>
      if s.committed then some (s.setAccept caller (.returned (.error .afterCommit)))
      else some (s.setAccept caller (.build headers))
  | .build headers =>
      match buildHandshakeResponse s.request headers with
      | .error error => some (s.setAccept caller (.returned (.error error)))
      | .ok response => some (s.setAccept caller (.claim response))
  | .claim response =>
      if s.accepted then some (s.setAccept caller (.returned (.error .alreadyAccepted)))
      else some { s.setAccept caller (.store response) with accepted := true }
  | .store response =>
      some { s.setAccept caller (.returned (.ok response)) with
        sidecar := some ⟨caller, s.request.kind⟩
        log := .stored caller :: s.log }
  | .returned _ => none

/-- The service has the capability once it was called. -/
def served (s : TunnelExchange ι) : Bool :=
  match s.invocation with
  | .start | .rejected | .done .admissionRejected => false
  | _ => true

def step (s : TunnelExchange ι) : TunnelAction ι → Option (TunnelExchange ι)
  | .serviceAdmission admitted =>
      match s.invocation with
      | .start => some { s with invocation := if admitted then .serving else .rejected }
      | _ => none
  | .serviceReturns result =>
      match s.invocation with
      | .serving => some { s with invocation := .commit result }
      | _ => none
  | .markCommitted =>
      match s.invocation with
      | .rejected => some { s with committed := true, invocation := .done .admissionRejected }
      | .commit (.ok response) => some { s with committed := true, invocation := .take response }
      | .commit _ => some { s with committed := true, invocation := .done .failed }
      | _ => none
  | .takeSidecar =>
      match s.invocation with
      | .take response =>
          some { s with
            sidecar := none
            invocation := match s.sidecar with
              | some acceptance => .tunnel acceptance response
              | none => .done (.ordinary response)
            log := .took s.sidecar :: s.log }
      | _ => none
  | .tunnelAdmission admitted =>
      match s.invocation with
      | .tunnel acceptance response =>
          some { s with
            invocation :=
              .done (if admitted then .handoff acceptance response else .tunnelRejected) }
      | _ => none
  | .call caller headers =>
      match s.accept caller with
      | .idle => if s.served then some (s.setAccept caller (.load headers)) else none
      | _ => none
  | .accept caller => s.stepAccept caller

def Initial (s : TunnelExchange ι) : Prop :=
  s.committed = false ∧ s.accepted = false ∧ s.sidecar = none ∧
    (∀ caller, s.accept caller = .idle) ∧ s.invocation = .start ∧ s.log = []

def machine : Transition.Machine (TunnelExchange ι) (TunnelAction ι) where
  Initial := Initial
  step := step

/-! What the take must not overtake. -/

/-- Whether a call of `accept` that stands here can still store its acceptance:
it has passed the check of the commitment, and no other call has claimed. -/
def CanStillStore (request : TunnelRequest) (accepted : Bool) : AcceptPc → Prop
  | .build headers =>
      accepted = false ∧ ∃ response, buildHandshakeResponse request headers = .ok response
  | .claim _ => accepted = false
  | .store _ => True
  | _ => False

def Pending (s : TunnelExchange ι) (caller : ι) : Prop :=
  CanStillStore s.request s.accepted (s.accept caller)

/-- The pipeline takes the sidecar while a call of `accept` can still store. -/
def TakesEarly (s : TunnelExchange ι) : TunnelAction ι → Prop
  | .takeSidecar => ∃ caller, s.Pending caller
  | _ => False

/-- The take of an acceptance, as opposed to a take that finds nothing. -/
def takesAcceptance : TunnelEvent ι → Bool
  | .took (some _) => true
  | _ => false

/-- Whoever was told `Ok` stored before the take, the pipeline does not answer
such a request as an ordinary one, and it takes at most one acceptance. -/
structure NoLateAcceptance (s : TunnelExchange ι) : Prop where
  precedes : ∀ caller response, s.accept caller = .returned (.ok response) →
    ∀ later taken earlier, s.log = later ++ .took taken :: earlier → .stored caller ∈ earlier
  ordinary : ∀ caller response, s.accept caller = .returned (.ok response) →
    ∀ sent, s.invocation ≠ .done (.ordinary sent)
  once : (s.log.filter takesAcceptance).length ≤ 1

/-! What a step can do. -/

/-- The call has claimed the acceptance. -/
def Won : AcceptPc → Prop
  | .store _ => True
  | .returned (.ok _) => True
  | _ => False

/-- The three kinds of steps of a caller. -/
inductive AcceptEffect (s s' : TunnelExchange ι) (caller : ι) : Prop where
  | moves (pc : AcceptPc) (hBefore : ¬Won (s.accept caller)) (hAfter : ¬Won pc)
      (hPending : CanStillStore s.request s.accepted pc → s.Pending caller ∨ s.committed = false)
      (hBuilt : ∀ response, pc = .claim response →
        ∃ headers, buildHandshakeResponse s.request headers = .ok response)
      (hState : s' = s.setAccept caller pc)
  | claims (response : Response) (hPc : s.accept caller = .claim response)
      (hAccepted : s.accepted = false)
      (hState : s' = { s.setAccept caller (.store response) with accepted := true })
  | stores (response : Response) (hPc : s.accept caller = .store response)
      (hState : s' = { s.setAccept caller (.returned (.ok response)) with
        sidecar := some ⟨caller, s.request.kind⟩
        log := .stored caller :: s.log })

theorem acceptEffect_stepAccept {s s' : TunnelExchange ι} {caller : ι}
    (hStep : s.stepAccept caller = some s') : AcceptEffect s s' caller := by
  unfold stepAccept at hStep
  split at hStep
  · cases hStep
  · rename_i headers hPc
    split at hStep <;> obtain rfl := Option.some.inj hStep
    · exact .moves _ (by simp [hPc, Won]) id False.elim (by simp) rfl
    · rename_i hCommitted
      exact .moves _ (by simp [hPc, Won]) id (fun _ => .inr (by simpa using hCommitted))
        (by simp) rfl
  · rename_i headers hPc
    split at hStep <;> obtain rfl := Option.some.inj hStep
    · exact .moves _ (by simp [hPc, Won]) id False.elim (by simp) rfl
    · rename_i response hBuilt
      refine .moves _ (by simp [hPc, Won]) id (fun hFree => .inl ?_) ?_ rfl
      · simp only [Pending, hPc]
        exact ⟨hFree, response, hBuilt⟩
      · rintro _ ⟨⟩
        exact ⟨headers, hBuilt⟩
  · rename_i response hPc
    split at hStep <;> rename_i hAccepted <;> obtain rfl := Option.some.inj hStep
    · exact .moves _ (by simp [hPc, Won]) id False.elim (by simp) rfl
    · exact .claims response hPc (by simpa using hAccepted) rfl
  · rename_i response hPc
    obtain rfl := Option.some.inj hStep
    exact .stores response hPc rfl
  · cases hStep

/-- What the pipeline has taken, where it stands behind the take. -/
def HasTaken (taken : Option (TunnelAcceptance ι)) : InvocationPc ι → Prop
  | .tunnel acceptance _ => taken = some acceptance
  | .done (.ordinary _) => taken = none
  | .done .tunnelRejected => taken ≠ none
  | .done (.handoff acceptance _) => taken = some acceptance
  | _ => False

/-- The acceptance that the pipeline holds. -/
def heldAcceptance : InvocationPc ι → Option (TunnelAcceptance ι)
  | .tunnel acceptance _ => some acceptance
  | .done (.handoff acceptance _) => some acceptance
  | _ => none

/-- A step of a caller, the take, or a step of the pipeline on its own side of it. -/
inductive TunnelEffect (s s' : TunnelExchange ι) (action : TunnelAction ι) : Prop where
  | caller (caller : ι) (hEffect : AcceptEffect s s' caller)
  | takes (response : Response) (hAction : action = .takeSidecar)
      (hPc : s.invocation = .take response)
      (hState : s' = { s with
        sidecar := none
        invocation := match s.sidecar with
          | some acceptance => .tunnel acceptance response
          | none => .done (.ordinary response)
        log := .took s.sidecar :: s.log })
  | advances (committed : Bool) (invocation : InvocationPc ι)
      (hCommitted : s.committed = true → committed = true)
      (hTake : (∃ response, invocation = .take response) → committed = true)
      (hBehind : ∀ taken, HasTaken taken s.invocation → HasTaken taken invocation)
      (hBefore : (∀ taken, ¬HasTaken taken s.invocation) → ∀ taken, ¬HasTaken taken invocation)
      (hHeld : ∀ acceptance, heldAcceptance invocation = some acceptance →
        heldAcceptance s.invocation = some acceptance)
      (hState : s' = { s with committed, invocation })

omit [DecidableEq ι] in
theorem not_take_of_not {invocation : InvocationPc ι} {committed : Bool}
    (h : ∀ response, invocation ≠ .take response) :
    (∃ response, invocation = .take response) → committed = true :=
  fun ⟨response, hPc⟩ => absurd hPc (h response)

theorem tunnelEffect_step {s s' : TunnelExchange ι} {action : TunnelAction ι}
    (hStep : s.step action = some s') : TunnelEffect s s' action := by
  cases action with
  | serviceAdmission admitted =>
      simp only [step] at hStep
      split at hStep <;> cases hStep
      rename_i hPc
      refine .advances _ _ id (not_take_of_not ?_) ?_ ?_ ?_ rfl
      all_goals cases admitted <;> simp [hPc, HasTaken, heldAcceptance]
  | serviceReturns result =>
      simp only [step] at hStep
      split at hStep <;> cases hStep
      rename_i hPc
      refine .advances _ _ id (not_take_of_not ?_) ?_ ?_ ?_ rfl
      all_goals simp [hPc, HasTaken, heldAcceptance]
  | markCommitted =>
      simp only [step] at hStep
      split at hStep <;> cases hStep <;> rename_i hPc
      all_goals
        refine .advances true _ (fun _ => rfl) (fun _ => rfl) ?_ ?_ ?_ rfl
        all_goals simp [hPc, HasTaken, heldAcceptance]
  | takeSidecar =>
      simp only [step] at hStep
      split at hStep <;> cases hStep
      rename_i response hPc
      exact .takes response rfl hPc rfl
  | tunnelAdmission admitted =>
      simp only [step] at hStep
      split at hStep <;> cases hStep
      rename_i acceptance response hPc
      refine .advances _ _ id (not_take_of_not ?_) ?_ ?_ ?_ rfl
      all_goals cases admitted <;> simp +contextual [hPc, HasTaken, heldAcceptance]
  | call caller headers =>
      simp only [step] at hStep
      split at hStep
      · rename_i hPc
        obtain ⟨-, rfl⟩ := enabled_iff.mp hStep
        exact .caller caller (.moves _ (by simp [hPc, Won]) id False.elim (by simp) rfl)
      · cases hStep
  | accept caller => exact .caller caller (acceptEffect_stepAccept hStep)

/-! The invariant of a run. -/

/-- Before the take the sidecar holds what was stored; behind it nobody can
store any more. -/
inductive TakePhase (s : TunnelExchange ι) : Prop where
  | before (hPipeline : ∀ taken, ¬HasTaken taken s.invocation)
      (hCommitted : (∃ response, s.invocation = .take response) → s.committed = true)
      (hTook : ∀ taken, .took taken ∉ s.log)
      (hStaged : ∀ caller, .stored caller ∈ s.log ↔
        ∃ acceptance, s.sidecar = some acceptance ∧ acceptance.handler = caller)
  | behind (taken : Option (TunnelAcceptance ι)) (earlier : List (TunnelEvent ι))
      (hPipeline : HasTaken taken s.invocation) (hCommitted : s.committed = true)
      (hPending : ∀ caller, ¬s.Pending caller)
      (hLog : s.log = .took taken :: earlier) (hTook : ∀ other, .took other ∉ earlier)
      (hNone : taken = none → ∀ caller, .stored caller ∉ earlier)

structure TakeTracked (s : TunnelExchange ι) : Prop where
  owner : ∀ caller, Won (s.accept caller) → s.accepted = true
  single : ∀ caller other, Won (s.accept caller) → Won (s.accept other) → caller = other
  stored : ∀ caller, .stored caller ∈ s.log ↔
    ∃ response, s.accept caller = .returned (.ok response)
  phase : TakePhase s

omit [DecidableEq ι] in
theorem takeTracked_initial {s : TunnelExchange ι} (hInitial : s.Initial) : s.TakeTracked := by
  obtain ⟨-, -, hSidecar, hIdle, hStart, hLog⟩ := hInitial
  refine ⟨?_, ?_, ?_, .before ?_ ?_ ?_ ?_⟩
  · intro caller hWon
    rw [hIdle caller] at hWon
    exact hWon.elim
  · intro caller other hWon
    rw [hIdle caller] at hWon
    exact hWon.elim
  · simp [hLog, hIdle]
  · simp [hStart, HasTaken]
  · simp [hStart]
  · simp [hLog]
  · simp [hLog, hSidecar]

theorem not_won_of_returned {pc : AcceptPc} (h : ¬Won pc) (response : Response) :
    pc ≠ .returned (.ok response) := by
  rintro rfl
  exact h trivial

omit [DecidableEq ι] in
/-- Nobody is left who could claim or store behind the take. -/
theorem before_of_pending {s : TunnelExchange ι} (h : s.TakePhase) {caller : ι}
    (hPending : s.Pending caller) :
    (∀ taken, ¬HasTaken taken s.invocation) ∧
      ((∃ response, s.invocation = .take response) → s.committed = true) ∧
      (∀ taken, .took taken ∉ s.log) ∧
      ∀ caller, .stored caller ∈ s.log ↔
        ∃ acceptance, s.sidecar = some acceptance ∧ acceptance.handler = caller := by
  cases h with
  | before hPipeline hCommitted hTook hStaged => exact ⟨hPipeline, hCommitted, hTook, hStaged⟩
  | behind taken earlier hPipeline hCommitted hNobody => exact absurd hPending (hNobody caller)

/-- A caller that neither was nor is back with `Ok` leaves no trace in the log. -/
theorem TakeTracked.stored_update {s : TunnelExchange ι} {caller : ι} {pc : AcceptPc}
    (h : s.TakeTracked) (hBefore : ∀ response, s.accept caller ≠ .returned (.ok response))
    (hAfter : ∀ response, pc ≠ .returned (.ok response)) (other : ι) :
    .stored other ∈ s.log ↔
      ∃ response, Function.update s.accept caller pc other = .returned (.ok response) := by
  revert other
  refine (Function.forall_update_iff s.accept fun other pc =>
    .stored other ∈ s.log ↔ ∃ response, pc = .returned (.ok response)).mpr
    ⟨?_, fun other _ => h.stored other⟩
  refine (h.stored caller).trans (iff_of_false ?_ ?_)
  · rintro ⟨response, hReturned⟩
    exact hBefore response hReturned
  · rintro ⟨response, hReturned⟩
    exact hAfter response hReturned

theorem takeTracked_moves {s : TunnelExchange ι} {caller : ι} {pc : AcceptPc} (h : s.TakeTracked)
    (hBefore : ¬Won (s.accept caller)) (hAfter : ¬Won pc)
    (hPending : CanStillStore s.request s.accepted pc → s.Pending caller ∨ s.committed = false) :
    (s.setAccept caller pc).TakeTracked := by
  have hWon : ∀ other, Won (Function.update s.accept caller pc other) → Won (s.accept other) :=
    (Function.forall_update_iff s.accept fun other pc => Won pc → Won (s.accept other)).mpr
      ⟨fun hWon => absurd hWon hAfter, fun _ _ => id⟩
  refine ⟨?_, ?_, ?_, ?_⟩
  · exact fun other hOther => h.owner other (hWon other hOther)
  · exact fun one other hOne hOther => h.single one other (hWon one hOne) (hWon other hOther)
  · exact h.stored_update (not_won_of_returned hBefore) (not_won_of_returned hAfter)
  · cases h.phase with
    | before hPipeline hCommitted hTook hStaged =>
        exact .before hPipeline hCommitted hTook hStaged
    | behind taken earlier hPipeline hCommitted hNobody hLog hTook hNone =>
        refine .behind taken earlier hPipeline hCommitted ?_ hLog hTook hNone
        refine (Function.forall_update_iff s.accept fun _ pc =>
          ¬CanStillStore s.request s.accepted pc).mpr ⟨fun hCan => ?_, fun other _ => hNobody other⟩
        rcases hPending hCan with hOld | hOpen
        · exact hNobody caller hOld
        · cases hOpen.symm.trans hCommitted

theorem takeTracked_claims {s : TunnelExchange ι} {caller : ι} {response : Response}
    (h : s.TakeTracked) (hPc : s.accept caller = .claim response) (hAccepted : s.accepted = false) :
    TakeTracked { s.setAccept caller (.store response) with accepted := true } := by
  have hPending : s.Pending caller := by
    simpa only [Pending, hPc, CanStillStore] using hAccepted
  obtain ⟨hPipeline, hCommitted, hTook, hStaged⟩ := before_of_pending h.phase hPending
  have hFree : ∀ other, ¬Won (s.accept other) := by
    intro other hWon
    cases hAccepted.symm.trans (h.owner other hWon)
  have hOnly : ∀ other, Won (Function.update s.accept caller (.store response) other) →
      other = caller :=
    (Function.forall_update_iff s.accept fun other pc => Won pc → other = caller).mpr
      ⟨fun _ => rfl, fun other _ hWon => absurd hWon (hFree other)⟩
  refine ⟨fun _ _ => rfl, ?_, ?_, .before hPipeline hCommitted hTook hStaged⟩
  · exact fun one other hOne hOther => (hOnly one hOne).trans (hOnly other hOther).symm
  · refine h.stored_update (fun _ hReturned => ?_) fun _ hReturned => ?_
    · cases hPc.symm.trans hReturned
    · cases hReturned

theorem takeTracked_stores {s : TunnelExchange ι} {caller : ι} {response : Response}
    (h : s.TakeTracked) (hPc : s.accept caller = .store response) :
    TakeTracked { s.setAccept caller (.returned (.ok response)) with
      sidecar := some ⟨caller, s.request.kind⟩
      log := .stored caller :: s.log } := by
  have hPending : s.Pending caller := by
    simp only [Pending, hPc, CanStillStore]
  have hMine : Won (s.accept caller) := by
    simp only [hPc, Won]
  obtain ⟨hPipeline, hCommitted, hTook, -⟩ := before_of_pending h.phase hPending
  have hWon : ∀ other, Won (Function.update s.accept caller (.returned (.ok response)) other) →
      Won (s.accept other) :=
    (Function.forall_update_iff s.accept fun other pc => Won pc → Won (s.accept other)).mpr
      ⟨fun _ => hMine, fun _ _ => id⟩
  have hNobody : ∀ other, .stored other ∈ s.log → other = caller := by
    intro other hStored
    obtain ⟨_, hReturned⟩ := (h.stored other).mp hStored
    exact h.single other caller (by simp only [hReturned, Won]) hMine
  refine ⟨?_, ?_, ?_, .before hPipeline hCommitted ?_ ?_⟩
  · exact fun other hOther => h.owner other (hWon other hOther)
  · exact fun one other hOne hOther => h.single one other (hWon one hOne) (hWon other hOther)
  · refine (Function.forall_update_iff s.accept fun other pc =>
      .stored other ∈ TunnelEvent.stored caller :: s.log ↔
        ∃ response, pc = .returned (.ok response)).mpr ⟨?_, fun other hOther => ?_⟩
    · exact iff_of_true List.mem_cons_self ⟨response, rfl⟩
    · simp only [List.mem_cons, TunnelEvent.stored.injEq, hOther, false_or]
      exact h.stored other
  · simpa using hTook
  · intro other
    constructor
    · intro hStored
      refine ⟨_, rfl, ?_⟩
      rcases List.mem_cons.mp hStored with hSame | hOld
      · exact (TunnelEvent.stored.inj hSame).symm
      · exact (hNobody other hOld).symm
    · rintro ⟨_, hSidecar, rfl⟩
      cases hSidecar
      exact List.mem_cons_self

omit [DecidableEq ι] in
theorem takeTracked_takes {s : TunnelExchange ι} {response : Response} (h : s.TakeTracked)
    (hPc : s.invocation = .take response) (hNobody : ∀ caller, ¬s.Pending caller) :
    TakeTracked { s with
      sidecar := none
      invocation := match s.sidecar with
        | some acceptance => .tunnel acceptance response
        | none => .done (.ordinary response)
      log := .took s.sidecar :: s.log } := by
  refine ⟨h.owner, h.single, fun caller => by simpa using h.stored caller, ?_⟩
  cases h.phase with
  | behind taken earlier hPipeline =>
      rw [hPc] at hPipeline
      exact hPipeline.elim
  | before _ hCommitted hTook hStaged =>
      refine .behind s.sidecar s.log ?_ (hCommitted ⟨response, hPc⟩) hNobody rfl hTook ?_
      · cases s.sidecar <;> rfl
      · intro hNone caller hStored
        obtain ⟨acceptance, hSome, -⟩ := (hStaged caller).mp hStored
        cases hNone.symm.trans hSome

theorem takeTracked_step {s s' : TunnelExchange ι} {action : TunnelAction ι} (h : s.TakeTracked)
    (hGuard : ¬s.TakesEarly action) (hStep : s.step action = some s') : s'.TakeTracked := by
  cases tunnelEffect_step hStep with
  | caller caller hEffect =>
      cases hEffect with
      | moves pc hBefore hAfter hPending _ hState =>
          exact hState ▸ takeTracked_moves h hBefore hAfter hPending
      | claims response hPc hAccepted hState => exact hState ▸ takeTracked_claims h hPc hAccepted
      | stores response hPc hState => exact hState ▸ takeTracked_stores h hPc
  | takes response hAction hPc hState =>
      subst hAction
      exact hState ▸ takeTracked_takes h hPc fun caller hPending => hGuard ⟨caller, hPending⟩
  | advances committed invocation hCommitted hTake hBehind hBefore _ hState =>
      subst hState
      refine ⟨h.owner, h.single, h.stored, ?_⟩
      cases h.phase with
      | before hPipeline _ hTook hStaged => exact .before (hBefore hPipeline) hTake hTook hStaged
      | behind taken earlier hPipeline hOld hNobody hLog hTook hNone =>
          exact .behind taken earlier (hBehind taken hPipeline) (hCommitted hOld) hNobody hLog
            hTook hNone

theorem takeTracked_of_reachable {s : TunnelExchange ι}
    (hReach : machine.ReachableUnder (fun s action => ¬s.TakesEarly action) s) :
    s.TakeTracked := by
  refine Machine.ReachableUnder.invariant ?_ ?_ hReach
  · exact fun _ hInitial => takeTracked_initial hInitial
  · exact fun _ _ _ h hGuard hStep => takeTracked_step h hGuard hStep

omit [DecidableEq ι] in
theorem filter_takesAcceptance_eq_nil {log : List (TunnelEvent ι)}
    (hTook : ∀ taken, .took taken ∉ log) : log.filter takesAcceptance = [] := by
  refine List.filter_eq_nil_iff.mpr fun event hEvent => ?_
  cases event with
  | stored caller => simp [takesAcceptance]
  | took taken => exact absurd hEvent (hTook taken)

omit [DecidableEq ι] in
theorem TakeTracked.noLateAcceptance {s : TunnelExchange ι} (h : s.TakeTracked) :
    s.NoLateAcceptance := by
  cases h.phase with
  | before hPipeline _ hTook _ =>
      refine ⟨?_, ?_, ?_⟩
      · intro caller response _ later taken earlier hLog
        exact absurd (hLog ▸ List.mem_append_right later List.mem_cons_self) (hTook taken)
      · intro caller response _ sent hOrdinary
        exact hPipeline none (by simp [hOrdinary, HasTaken])
      · simp [filter_takesAcceptance_eq_nil hTook]
  | behind taken earlier hPipeline _ _ hLog hTook hNone =>
      have hEarlier : ∀ caller response, s.accept caller = .returned (.ok response) →
          .stored caller ∈ earlier := by
        intro caller response hReturned
        have hStored := (h.stored caller).mpr ⟨response, hReturned⟩
        simpa [hLog] using hStored
      refine ⟨?_, ?_, ?_⟩
      · intro caller response hReturned later other before hSplit
        rw [hLog] at hSplit
        -- the take is the latest event, so nothing comes after it
        cases later with
        | nil =>
            obtain ⟨-, rfl⟩ := List.cons.inj hSplit
            exact hEarlier caller response hReturned
        | cons event later =>
            obtain ⟨-, hRest⟩ := List.cons.inj hSplit
            exact absurd (hRest ▸ List.mem_append_right later List.mem_cons_self) (hTook other)
      · intro caller response hReturned sent hOrdinary
        rw [hOrdinary] at hPipeline
        exact hNone hPipeline caller (hEarlier caller response hReturned)
      · rw [hLog, List.filter_cons, filter_takesAcceptance_eq_nil hTook]
        split <;> simp

/-- A call that can still store does, if the others let it. -/
theorem exists_run_stored {s : TunnelExchange ι} {caller : ι} (hPending : s.Pending caller) :
    ∃ actions s', machine.run (fun _ _ => True) s actions = some s' ∧
      s'.log = .stored caller :: s.log ∧
      ∃ response, s'.accept caller = .returned (.ok response) := by
  have hStore : ∀ (t : TunnelExchange ι) response, t.accept caller = .store response →
      ∃ s', machine.run (fun _ _ => True) t [.accept caller] = some s' ∧
        s'.log = .stored caller :: t.log ∧
        ∃ response, s'.accept caller = .returned (.ok response) := by
    intro t response hPc
    refine ⟨{ t.setAccept caller (.returned (.ok response)) with
      sidecar := some ⟨caller, t.request.kind⟩
      log := .stored caller :: t.log }, ?_, rfl, response, ?_⟩
    · simp [Machine.run, machine, step, stepAccept, hPc]
    · simp [setAccept]
  have hClaim : ∀ (t : TunnelExchange ι) response, t.accept caller = .claim response →
      t.accepted = false →
      ∃ s', machine.run (fun _ _ => True) t [.accept caller, .accept caller] = some s' ∧
        s'.log = .stored caller :: t.log ∧
        ∃ response, s'.accept caller = .returned (.ok response) := by
    intro t response hPc hFree
    obtain ⟨s', hRun, hDone⟩ := hStore
      { t.setAccept caller (.store response) with accepted := true } response (by simp [setAccept])
    refine ⟨s', ?_, hDone⟩
    rw [Machine.run, if_pos trivial]
    simpa [machine, step, stepAccept, hPc, hFree] using hRun
  unfold Pending CanStillStore at hPending
  split at hPending
  · rename_i headers hPc
    obtain ⟨hFree, response, hBuilt⟩ := hPending
    obtain ⟨s', hRun, hDone⟩ := hClaim (s.setAccept caller (.claim response)) response
      (by simp [setAccept]) hFree
    refine ⟨[.accept caller, .accept caller, .accept caller], s', ?_, hDone⟩
    rw [Machine.run, if_pos trivial]
    simpa [machine, step, stepAccept, hPc, hBuilt] using hRun
  · rename_i response hPc
    exact ⟨_, hClaim s response hPc hPending⟩
  · rename_i response hPc
    exact ⟨_, hStore s response hPc⟩
  · exact hPending.elim

omit [DecidableEq ι] in
theorem not_stored_of_pending {s : TunnelExchange ι} (h : s.TakeTracked) {caller : ι}
    (hPending : s.Pending caller) : .stored caller ∉ s.log := by
  intro hStored
  obtain ⟨response, hReturned⟩ := (h.stored caller).mp hStored
  simp [Pending, hReturned, CanStillStore] at hPending

end TunnelExchange

/-- In every run in which the pipeline never takes while a call of `accept` can
still store, acceptances are not late. Where it does take then, the call can
complete behind it. -/
theorem no_acceptance_after_take {ι : Type} [DecidableEq ι] (s : TunnelExchange ι)
    (hReach : TunnelExchange.machine.ReachableUnder
      (fun s action => ¬s.TakesEarly action) s) :
    s.NoLateAcceptance ∧
      ∀ s', s.TakesEarly .takeSidecar → s.step .takeSidecar = some s' →
        ∃ actions late, TunnelExchange.machine.run (fun _ _ => True) s' actions = some late ∧
          ¬late.NoLateAcceptance := by
  have h := TunnelExchange.takeTracked_of_reachable hReach
  refine ⟨h.noLateAcceptance, fun s' hEarly hStep => ?_⟩
  obtain ⟨caller, hPending⟩ := hEarly
  have hNew : .stored caller ∉ s.log := TunnelExchange.not_stored_of_pending h hPending
  simp only [TunnelExchange.step] at hStep
  split at hStep <;> cases hStep
  obtain ⟨actions, late, hRun, hLog, response, hReturned⟩ :=
    TunnelExchange.exists_run_stored (s := { s with
      sidecar := none
      invocation := _
      log := .took s.sidecar :: s.log }) hPending
  refine ⟨actions, late, hRun, fun hNoLate => hNew ?_⟩
  exact hNoLate.precedes caller response hReturned [.stored caller] s.sidecar s.log hLog

/-- A request to connect, before the service is admitted. -/
def connectExchange : TunnelExchange Unit where
  request := ⟨.connect, none⟩
  committed := false
  accepted := false
  sidecar := none
  accept := fun _ => .idle
  invocation := .start
  log := []

theorem connectExchange_initial : connectExchange.Initial :=
  ⟨rfl, rfl, rfl, fun _ => rfl, rfl, rfl⟩

def emptyOk : Response := ⟨.ok, [], some .empty, false⟩

/-- The service accepts and returns the handshake. -/
theorem no_acceptance_after_take_accepted :
    ∃ s : TunnelExchange Unit, TunnelExchange.machine.ReachableUnder
        (fun s action => ¬s.TakesEarly action) s ∧
      s.invocation = .done (.handoff ⟨(), .connect⟩ emptyOk) ∧ s.NoLateAcceptance := by
  have hStart : TunnelExchange.machine.ReachableUnder
      (fun (s : TunnelExchange Unit) action => ¬s.TakesEarly action) connectExchange :=
    .start connectExchange_initial
  have hServing := hStart.step (a := .serviceAdmission true) id rfl
  have hCalled := hServing.step (a := .call () []) id rfl
  have hLoaded := hCalled.step (a := .accept ()) id rfl
  have hBuilt := hLoaded.step (a := .accept ()) id rfl
  have hClaimed := hBuilt.step (a := .accept ()) id rfl
  have hStored := hClaimed.step (a := .accept ()) id rfl
  have hReturned := hStored.step (a := .serviceReturns (.ok emptyOk)) id rfl
  have hCommitted := hReturned.step (a := .markCommitted) id rfl
  have hTook := hCommitted.step (a := .takeSidecar) (by rintro ⟨caller, hPending⟩; exact hPending)
    rfl
  have hHanded := hTook.step (a := .tunnelAdmission true) id rfl
  exact ⟨_, hHanded, rfl, (no_acceptance_after_take _ hHanded).1⟩

/-- A task that outlives the service call checks the commitment just before it
is made and stores after the take. -/
theorem accepted_behind_ordinary_response :
    ∃ s : TunnelExchange Unit, TunnelExchange.machine.Reachable s ∧
      s.accept () = .returned (.ok emptyOk) ∧ s.invocation = .done (.ordinary emptyOk) ∧
      s.log = [.stored (), .took none] ∧ ¬s.NoLateAcceptance := by
  have hStart : TunnelExchange.machine.Reachable connectExchange := .start connectExchange_initial
  have hServing := hStart.step (a := .serviceAdmission true) trivial rfl
  have hCalled := hServing.step (a := .call () []) trivial rfl
  have hLoaded := hCalled.step (a := .accept ()) trivial rfl
  have hReturned := hLoaded.step (a := .serviceReturns (.ok emptyOk)) trivial rfl
  have hCommitted := hReturned.step (a := .markCommitted) trivial rfl
  have hTook := hCommitted.step (a := .takeSidecar) trivial rfl
  have hBuilt := hTook.step (a := .accept ()) trivial rfl
  have hClaimed := hBuilt.step (a := .accept ()) trivial rfl
  have hStored := hClaimed.step (a := .accept ()) trivial rfl
  refine ⟨_, hStored, rfl, rfl, rfl, fun hNoLate => ?_⟩
  exact hNoLate.ordinary () emptyOk rfl emptyOk rfl

end Eggserve.Server
