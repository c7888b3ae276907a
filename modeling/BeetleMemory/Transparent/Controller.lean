import BeetleMemory.Lib.Threads
import BeetleMemory.Transparent.Types

/-! The controller of the transparent mode: its operations as programs over the state behind
its mutex, which call the port observer, the runner installer and the process manager.
Every answer of these may be a success or a failure.
-/

namespace BeetleMemory.Transparent

open Threads

/-- What the controller asks of the outside. -/
inductive Call where
  | inspectPort (bind : SocketAddr)
  | inspectRunner (config : OllamaTransparentConfig)
  | inspectExecutableIdentity (path : PathBuf)
  | inspectManagedProcessOwnership (config : OllamaTransparentConfig)
  | isAttachedAuthoritySupported
  | acquireOsTransitionLease (path : PathBuf)
  | ensureInstalled (config : OllamaTransparentConfig)
  | stopOfficialOllama (plan : OfficialOllamaStopPlan)
  | startManagedUpstream (config : OllamaTransparentConfig) (runner : ManagedRunnerReport)
  | probeManagedUpstream (config : OllamaTransparentConfig)
  | startTransparentFront (config : OllamaTransparentConfig)
      (gatewayExecutable : ExecutableFileIdentity)
  | probePublicFront (config : OllamaTransparentConfig)
  | stopTransparentFront (config : OllamaTransparentConfig)
  | stopManagedUpstream (config : OllamaTransparentConfig)
  | openOfficialApp (config : OllamaTransparentConfig)

/-- The answers. What a stop, a start or a probe reports of its success is not read. -/
abbrev Call.Response : Call → Type
  | .inspectPort _ => Result PortBindingReport
  | .inspectRunner _ | .ensureInstalled _ => Result ManagedRunnerReport
  | .inspectExecutableIdentity _ => Result ExecutableFileIdentity
  | .inspectManagedProcessOwnership _ => Result ManagedProcessOwnershipReport
  | .isAttachedAuthoritySupported => Bool
  | .acquireOsTransitionLease _ => Result Unit
  | .openOfficialApp _ => Result ProcessActionReport
  | .stopOfficialOllama _ | .startManagedUpstream _ _ | .probeManagedUpstream _
  | .startTransparentFront _ _ | .probePublicFront _ | .stopTransparentFront _
  | .stopManagedUpstream _ => Result Unit

inductive TransitionKind where
  | enable
  | disable
  | openApp
deriving DecidableEq, Repr

def TransitionKind.debug : TransitionKind → String
  | .enable => "Enable"
  | .disable => "Disable"
  | .openApp => "OpenApp"

structure TransitionLeaseRecord where
  id : Nat
  kind : TransitionKind
deriving DecidableEq, Repr

structure ControllerState where
  state : OllamaTransparentState
  lastTransition : Option OllamaTransparentTransitionReport
  nextLeaseId : Nat
  activeTransition : Option TransitionLeaseRecord

def ControllerState.new : ControllerState where
  state := .disabled
  lastTransition := none
  nextLeaseId := 1
  activeTransition := none

structure TransitionLease where
  record : TransitionLeaseRecord
  fromState : OllamaTransparentState

/-- Programs of the controller. -/
abbrev Prog := Program ControllerState Call Call.Response

def inspectPort (bind : SocketAddr) : Prog (Result PortBindingReport) :=
  .request (Call.inspectPort bind)

def inspectRunner (config : OllamaTransparentConfig) : Prog (Result ManagedRunnerReport) :=
  .request (Call.inspectRunner config)

def inspectExecutableIdentity (path : PathBuf) : Prog (Result ExecutableFileIdentity) :=
  .request (Call.inspectExecutableIdentity path)

def inspectManagedProcessOwnership (config : OllamaTransparentConfig)
    : Prog (Result ManagedProcessOwnershipReport) :=
  .request (Call.inspectManagedProcessOwnership config)

def isAttachedAuthoritySupported : Prog Bool :=
  .request Call.isAttachedAuthoritySupported

def ensureInstalled (config : OllamaTransparentConfig) : Prog (Result ManagedRunnerReport) :=
  .request (Call.ensureInstalled config)

def stopOfficialOllama (plan : OfficialOllamaStopPlan) : Prog (Result Unit) :=
  .request (Call.stopOfficialOllama plan)

def startManagedUpstream (config : OllamaTransparentConfig) (runner : ManagedRunnerReport)
    : Prog (Result Unit) :=
  .request (Call.startManagedUpstream config runner)

def probeManagedUpstream (config : OllamaTransparentConfig) : Prog (Result Unit) :=
  .request (Call.probeManagedUpstream config)

def startTransparentFront (config : OllamaTransparentConfig)
    (gatewayExecutable : ExecutableFileIdentity)
    : Prog (Result Unit) :=
  .request (Call.startTransparentFront config gatewayExecutable)

def probePublicFront (config : OllamaTransparentConfig) : Prog (Result Unit) :=
  .request (Call.probePublicFront config)

def stopTransparentFront (config : OllamaTransparentConfig) : Prog (Result Unit) :=
  .request (Call.stopTransparentFront config)

def stopManagedUpstream (config : OllamaTransparentConfig) : Prog (Result Unit) :=
  .request (Call.stopManagedUpstream config)

def openOfficialApp (config : OllamaTransparentConfig) : Prog (Result ProcessActionReport) :=
  .request (Call.openOfficialApp config)

/-! ## The transition lease -/

/-- The section of begin_transition. The lease of the operating system is asked for under the
mutex, and identifiers end with the 64-bit ones.
-/
def tryBeginTransition (kind : TransitionKind) (osLease : Result Unit)
    (state : ControllerState)
    : Result TransitionLease × ControllerState :=
  match state.activeTransition with
  | some active =>
      (.error (preflightRejected ("transparent transition " ++ active.kind.debug ++ " lease "
        ++ toString active.id ++ " is already active")), state)
  | none =>
      if 2 ^ 64 ≤ state.nextLeaseId + 1 then
        (.error (preflightRejected "transition lease id exhausted"), state)
      else
        match osLease with
        | .error error => (.error error, state)
        | .ok () =>
            let record : TransitionLeaseRecord := ⟨state.nextLeaseId, kind⟩
            (.ok ⟨record, state.state⟩,
              { state with
                nextLeaseId := state.nextLeaseId + 1
                activeTransition := some record
                state := match kind with
                  | .enable => .enabling
                  | .disable => .disabling
                  | .openApp => state.state })

def beginTransition (config : OllamaTransparentConfig) (kind : TransitionKind)
    : Prog (Result TransitionLease) :=
  .locked fun answers =>
    tryBeginTransition kind (answers (.acquireOsTransitionLease config.transitionLeasePath))

/-- A section of the lease: it is refused once another transition is recorded. -/
def TransitionLease.owning (lease : TransitionLease) (lost : String)
    (update : ControllerState → ControllerState) (state : ControllerState)
    : Result Unit × ControllerState :=
  if state.activeTransition ≠ some lease.record then
    (.error (preflightRejected ("transition lease " ++ toString lease.record.id ++ lost)), state)
  else (.ok (), update state)

def TransitionLease.setState (lease : TransitionLease) (next : OllamaTransparentState)
    : Prog (Result Unit) :=
  .locked fun _ => lease.owning " lost ownership" fun state => { state with state := next }

/-- An uncommitted lease goes out of scope. -/
def TransitionLease.drop (lease : TransitionLease) : Prog Unit :=
  .locked fun _ state =>
    ((), if state.activeTransition = some lease.record then
        { state with state := lease.fromState, activeTransition := none }
      else state)

def TransitionLease.commitReport (lease : TransitionLease)
    (report : OllamaTransparentTransitionReport)
    : Prog (Result OllamaTransparentTransitionReport) := do
  let committed ← .locked fun _ =>
    lease.owning " lost ownership before completion" fun state =>
      { state with
        state := report.toState
        lastTransition := some report
        activeTransition := none }
  match committed with
  | .ok () => return .ok report
  | .error error =>
      lease.drop
      return .error error

def TransitionLease.commitExclusive (lease : TransitionLease) : Prog (Result Unit) := do
  let committed ← .locked fun _ =>
    lease.owning " lost ownership before operation completion" fun state =>
      { state with activeTransition := none }
  match committed with
  | .ok () => return .ok ()
  | .error error =>
      lease.drop
      return .error error

/-! ## Preflight -/

def reportFromParts (publicPort upstreamPort : PortBindingReport)
    (managedRunner : ManagedRunnerReport) (gatewayExecutable : Option ExecutableFileIdentity)
    (stopPlan : Option OfficialOllamaStopPlan) (blockers : List PreflightBlocker)
    : OllamaTransparentPreflightReport where
  accepted := blockers.isEmpty
  resultingState :=
    if !blockers.isEmpty then .preflightFailed
    else if publicPort.owner = .beetleMemoryTransparentFront
        ∧ upstreamPort.owner = .managedOllamaRunner then .active
    else .disabled
  publicPort := publicPort
  upstreamPort := upstreamPort
  managedRunner := managedRunner
  gatewayExecutable := gatewayExecutable
  stopPlan := stopPlan
  blockers := blockers

/-- What the owner of the public port means: the report is made at once with a blocker, or
the other checks go on.
-/
inductive PublicOwnerCheck where
  | halt (blocker : PreflightBlocker)
  | proceed (stopPlan : Option OfficialOllamaStopPlan) (blockers : List PreflightBlocker)

/-- The blocker for an owner of the public port that cannot be trusted. -/
def unknownOwner (message : String) : PreflightBlocker :=
  ⟨.publicPortOwnedByUnknownProcess, message⟩

/-- The checks before the official server may be stopped. -/
def checkStoppable (config : OllamaTransparentConfig) (bind : SocketAddr)
    (process : ObservedProcess)
    : Prog PublicOwnerCheck := do
  if !process.hasCompleteIdentity then
    return .halt (unknownOwner
      "official Ollama owner lacks a complete pid/start/command/executable identity")
  match ← inspectExecutableIdentity config.officialOllamaBinary with
  | .error error =>
      return .halt (unknownOwner
        ("official Ollama executable identity is unavailable: " ++ error.display))
  | .ok officialIdentity =>
      if process.executableIdentity ≠ some officialIdentity then
        return .halt (unknownOwner ("classifier matched Ollama, but exact executable "
          ++ "identity does not match the governed official binary"))
      if !(← isAttachedAuthoritySupported) then
        return .halt (unknownOwner ("platform cannot retain a stable authority for "
          ++ "externally launched Ollama; close the official app before enabling "
          ++ "transparent mode"))
      return .proceed
        (some
          { allowed := true
            targets := [⟨bind, process⟩]
            reason := "official Ollama owns the public transparent port and user allowed "
              ++ "stopping it" })
        []

def checkPublicOwner (config : OllamaTransparentConfig) (publicPort : PortBindingReport)
    : Prog PublicOwnerCheck :=
  match publicPort.owner with
  | .noListener | .beetleMemoryTransparentFront => return .proceed none []
  | .officialOllama =>
      match publicPort.process with
      | none =>
          return .halt (unknownOwner
            "official Ollama owner was reported without process detail")
      | some process =>
          if config.allowStopOfficialOllama then
            checkStoppable config publicPort.bind process
          else
            return .proceed none
              [⟨.officialOllamaStopNotAllowed,
                "official Ollama owns 11434 but allow_stop_official_ollama is false"⟩]
  | .managedOllamaRunner =>
      return .proceed none
        [⟨.publicPortOwnedByManagedRunner,
          "managed upstream runner must not own the public Ollama App port"⟩]
  | .unknown =>
      return .proceed none
        [unknownOwner "public transparent port is owned by an unknown process"]

def checkUpstreamOwner (upstreamPort : PortBindingReport) : List PreflightBlocker :=
  match upstreamPort.owner with
  | .noListener | .managedOllamaRunner => []
  | .officialOllama | .beetleMemoryTransparentFront | .unknown =>
      [⟨.upstreamPortUnavailable, "managed upstream port is owned by a non-managed process"⟩]

def checkRunner (managedRunner : ManagedRunnerReport) : List PreflightBlocker :=
  if managedRunner.sourceExists then []
  else
    [⟨.managedRunnerUnavailable,
      "official Ollama binary is missing; managed runner cannot be installed"⟩]

def buildPreflightReport (config : OllamaTransparentConfig)
    : Prog (Result OllamaTransparentPreflightReport) := do
  match config.validate with
  | .error error => return .error error
  | .ok () =>
  match ← inspectPort config.publicBind with
  | .error error => return .error error
  | .ok publicPort =>
  match ← inspectPort config.upstreamBind with
  | .error error => return .error error
  | .ok upstreamPort =>
  match ← inspectRunner config with
  | .error error => return .error error
  | .ok managedRunner =>
  let gateway ← inspectExecutableIdentity config.gatewayBinaryPath
  let (gatewayExecutable, gatewayBlockers) :=
    match gateway with
    | .ok identity => (some identity, [])
    | .error error => (none, [⟨.gatewayFrontUnavailable, error.display⟩])
  match ← checkPublicOwner config publicPort with
  | .halt blocker =>
      return .ok (reportFromParts publicPort upstreamPort managedRunner gatewayExecutable none
        (gatewayBlockers ++ [blocker]))
  | .proceed stopPlan publicBlockers =>
      return .ok (reportFromParts publicPort upstreamPort managedRunner gatewayExecutable
        stopPlan
        (gatewayBlockers ++ publicBlockers ++ checkUpstreamOwner upstreamPort
          ++ checkRunner managedRunner))

def preflight (config : OllamaTransparentConfig)
    : Prog (Result OllamaTransparentPreflightReport) := do
  match ← buildPreflightReport config with
  | .error error => return .error error
  | .ok report =>
      if !report.accepted then
        .locked fun _ state =>
          ((), if state.activeTransition.isNone then { state with state := .preflightFailed }
            else state)
      return .ok report

/-! ## Enable -/

structure EnableProgress where
  officialStopped : Bool
  upstreamStarted : Bool
  publicFrontStarted : Bool

/-- The report of one step of a rollback or of a disable. -/
def stepReport {α : Type} (step : TransitionStep) : Result α → TransitionStepReport
  | .ok _ => .succeeded step
  | .error error => .failed step error.display

/-- A step that is taken, and reported, only if it is asked for. -/
def stepWhen {α : Type} (asked : Bool) (step : TransitionStep) (action : Prog (Result α))
    : Prog (List TransitionStepReport) :=
  if asked then do
    let result ← action
    return [stepReport step result]
  else return []

def rollbackEnableFailure (config : OllamaTransparentConfig) (progress : EnableProgress)
    : Prog RollbackReport := do
  let front ← stepWhen progress.publicFrontStarted .stopTransparentFront
    (stopTransparentFront config)
  let upstream ← stepWhen progress.upstreamStarted .stopManagedUpstream
    (stopManagedUpstream config)
  let official ←
    stepWhen (progress.officialStopped && config.restoreOfficialAfterDisable)
      .restoreOfficialApp (openOfficialApp config)
  let steps := front ++ upstream ++ official
  return { attempted := !steps.isEmpty, completed := steps.all (·.ok), steps }

def finishFailedEnable (config : OllamaTransparentConfig) (lease : TransitionLease)
    (steps : List TransitionStepReport) (failingStep : TransitionStep)
    (error : OllamaTransparentError) (progress : EnableProgress)
    : Prog (Result OllamaTransparentTransitionReport) := do
  let failed := TransitionStepReport.failed failingStep error.display
  match ← lease.setState .rollingBack with
  | .error error =>
      lease.drop
      return .error error
  | .ok () =>
      let rollback ← rollbackEnableFailure config progress
      lease.commitReport
        { fromState := lease.fromState
          toState := if rollback.completed then .disabled else .degraded
          outcome := if rollback.completed then .rolledBack else .failed
          steps := steps ++ [failed]
          failingStep := some failed
          rollback := some rollback }

/-- A transition that preflight, or the check of its ownership, turns down. -/
def rejection (fromState toState : OllamaTransparentState) (message : String)
    : OllamaTransparentTransitionReport :=
  let failed := TransitionStepReport.failed .preflight message
  { fromState, toState, outcome := .rejected, steps := [failed]
    failingStep := some failed, rollback := none }

/-- The steps after the upstream answers: the front is started and probed, and the app is
opened if asked for.
-/
def startFront (config effectiveConfig : OllamaTransparentConfig)
    (request : EnableOllamaTransparentRequest) (lease : TransitionLease)
    (gatewayExecutable : ExecutableFileIdentity) (steps : List TransitionStepReport)
    (progress : EnableProgress)
    : Prog (Result OllamaTransparentTransitionReport) := do
  match ← startTransparentFront effectiveConfig gatewayExecutable with
  | .error error =>
      finishFailedEnable config lease steps .startTransparentFront error progress
  | .ok () =>
  let progress := { progress with publicFrontStarted := true }
  let steps := steps ++ [.succeeded .startTransparentFront]
  match ← probePublicFront effectiveConfig with
  | .error error => finishFailedEnable config lease steps .probePublicFront error progress
  | .ok () =>
  let steps := steps ++ [.succeeded .probePublicFront]
  if request.openApp.getD effectiveConfig.openAppAfterEnable then
    match ← openOfficialApp effectiveConfig with
    | .error error => finishFailedEnable config lease steps .openOfficialApp error progress
    | .ok _ =>
        lease.commitReport
          (.completed lease.fromState .active (steps ++ [.succeeded .openOfficialApp]))
  else lease.commitReport (.completed lease.fromState .active steps)

/-- The steps after the official server is out of the way: the runner is installed, the
upstream is started and probed.
-/
def startUpstream (config effectiveConfig : OllamaTransparentConfig)
    (request : EnableOllamaTransparentRequest) (lease : TransitionLease)
    (preflight : OllamaTransparentPreflightReport) (steps : List TransitionStepReport)
    (progress : EnableProgress)
    : Prog (Result OllamaTransparentTransitionReport) := do
  match ← ensureInstalled effectiveConfig with
  | .error error => finishFailedEnable config lease steps .installManagedRunner error progress
  | .ok installedRunner =>
  let steps := steps ++ [.succeeded .installManagedRunner]
  match ← startManagedUpstream effectiveConfig installedRunner with
  | .error error => finishFailedEnable config lease steps .startManagedUpstream error progress
  | .ok () =>
  let progress := { progress with upstreamStarted := true }
  let steps := steps ++ [.succeeded .startManagedUpstream]
  match ← probeManagedUpstream effectiveConfig with
  | .error error => finishFailedEnable config lease steps .probeManagedUpstream error progress
  | .ok () =>
  let steps := steps ++ [.succeeded .probeManagedUpstream]
  match preflight.gatewayExecutable with
  | none =>
      lease.drop
      return .error (preflightRejected
        "accepted preflight omitted gateway executable identity")
  | some gatewayExecutable =>
      startFront config effectiveConfig request lease gatewayExecutable steps progress

/-- The branch of an accepted preflight that finds both listeners in place. -/
def confirmActive (effectiveConfig : OllamaTransparentConfig) (lease : TransitionLease)
    : Prog (Result OllamaTransparentTransitionReport) := do
  match ← inspectManagedProcessOwnership effectiveConfig with
  | .error error =>
      lease.drop
      return .error error
  | .ok ownership =>
      if !ownership.fullyAuthorized then
        lease.commitReport (rejection lease.fromState .degraded
          "managed-looking listeners lack exact persisted launch receipts")
      else
        lease.commitReport (.completed lease.fromState .active [.succeeded .preflight])

def enable (config : OllamaTransparentConfig) (request : EnableOllamaTransparentRequest)
    : Prog (Result OllamaTransparentTransitionReport) := do
  match ← beginTransition config .enable with
  | .error error => return .error error
  | .ok lease =>
  let effectiveConfig :=
    if request.allowStopOfficialOllama then { config with allowStopOfficialOllama := true }
    else config
  match ← buildPreflightReport effectiveConfig with
  | .error error =>
      lease.commitReport (rejection lease.fromState .preflightFailed error.display)
  | .ok preflight =>
  if !preflight.accepted then
    lease.commitReport (rejection lease.fromState .preflightFailed
      ("; ".intercalate (preflight.blockers.map (·.message))))
  else if preflight.resultingState = .active then
    confirmActive effectiveConfig lease
  else
    let steps := [TransitionStepReport.succeeded .preflight]
    match preflight.stopPlan with
    | none =>
        startUpstream config effectiveConfig request lease preflight steps ⟨false, false, false⟩
    | some stopPlan =>
        match ← stopOfficialOllama stopPlan with
        | .error error =>
            finishFailedEnable config lease steps .stopOfficialOllama error
              ⟨false, false, false⟩
        | .ok () =>
            startUpstream config effectiveConfig request lease preflight
              (steps ++ [.succeeded .stopOfficialOllama]) ⟨true, false, false⟩

/-! ## The other operations -/

def disable (config : OllamaTransparentConfig) (request : DisableOllamaTransparentRequest)
    : Prog (Result OllamaTransparentTransitionReport) := do
  match ← beginTransition config .disable with
  | .error error => return .error error
  | .ok lease =>
  let front ← stepWhen true .stopTransparentFront (stopTransparentFront config)
  let upstream ← stepWhen true .stopManagedUpstream (stopManagedUpstream config)
  let official ←
    stepWhen (request.restoreOfficialApp.getD config.restoreOfficialAfterDisable)
      .restoreOfficialApp (openOfficialApp config)
  let steps := front ++ upstream ++ official
  -- the first step that failed
  let failingStep := steps.find? fun step => !step.ok
  lease.commitReport
    { fromState := lease.fromState
      toState := if failingStep.isSome then .degraded else .disabled
      outcome := if failingStep.isSome then .failed else .completed
      steps, failingStep, rollback := none }

def isTransitional : OllamaTransparentState → Bool
  | .enabling | .disabling | .rollingBack => true
  | .disabled | .preflightFailed | .active | .degraded => false

def reconcileObservedState (current : OllamaTransparentState)
    (publicPort upstreamPort : PortBindingReport) (ownership : ManagedProcessOwnershipReport)
    : OllamaTransparentState :=
  match decide (publicPort.owner = .beetleMemoryTransparentFront),
    decide (upstreamPort.owner = .managedOllamaRunner) with
  | true, true => if ownership.fullyAuthorized then .active else .degraded
  | true, false | false, true => if isTransitional current then current else .degraded
  | false, false =>
      if isTransitional current || current = .preflightFailed then current else .disabled

def status (config : OllamaTransparentConfig) : Prog (Result OllamaTransparentStatus) := do
  match ← inspectPort config.publicBind with
  | .error error => return .error error
  | .ok publicPort =>
  match ← inspectPort config.upstreamBind with
  | .error error => return .error error
  | .ok upstreamPort =>
  match ← inspectRunner config with
  | .error error => return .error error
  | .ok managedRunner =>
  match ← inspectManagedProcessOwnership config with
  | .error error => return .error error
  | .ok ownership =>
  let state ← .locked fun _ (state : ControllerState) =>
    let reconciled :=
      if state.activeTransition.isNone then
        { state with
          state := reconcileObservedState state.state publicPort upstreamPort ownership }
      else state
    (reconciled, reconciled)
  return .ok
    { state := state.state
      publicPort, upstreamPort
      app := .fromConfig config
      managedRunner
      gatewayFront := .fromPublicPort publicPort
      lastTransition := state.lastTransition }

def openApp (config : OllamaTransparentConfig) : Prog (Result ProcessActionReport) := do
  match ← beginTransition config .openApp with
  | .error error => return .error error
  | .ok lease =>
  match ← openOfficialApp config with
  | .error error =>
      lease.drop
      return .error error
  | .ok result =>
  match ← lease.commitExclusive with
  | .error error => return .error error
  | .ok () => return .ok result

/-- What a thread may call on the controller. -/
inductive Operation where
  | preflight
  | enable (request : EnableOllamaTransparentRequest)
  | disable (request : DisableOllamaTransparentRequest)
  | status
  | openApp

inductive Returned where
  | preflight (result : Result OllamaTransparentPreflightReport)
  | transition (result : Result OllamaTransparentTransitionReport)
  | status (result : Result OllamaTransparentStatus)
  | opened (result : Result ProcessActionReport)

def main (config : OllamaTransparentConfig) : Operation → Prog Returned
  | .preflight => return .preflight (← preflight config)
  | .enable request => return .transition (← enable config request)
  | .disable request => return .transition (← disable config request)
  | .status => return .status (← status config)
  | .openApp => return .opened (← openApp config)

/-- The controller and the threads that use it. -/
abbrev ControllerPool := Pool ControllerState Call Call.Response Operation Returned

/-- The pool after the first n actions of a schedule. -/
def poolAt (config : OllamaTransparentConfig)
    (actions : List (Action Call Call.Response Operation)) (n : Nat)
    : ControllerPool :=
  Runs.stateAt (Pool.step (main config)) ⟨ControllerState.new, []⟩ actions n

end BeetleMemory.Transparent
