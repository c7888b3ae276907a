import BeetleMemory.Store.Basic

/-! The data of the transparent mode for a local model server: its configuration with the
validation, what is observed about ports, processes and executables, and the reports.
-/

namespace BeetleMemory.Transparent

open Store (trimIsEmpty)

inductive OllamaTransparentErrorKey where
  | invalidConfig
  | portInspectionFailed
  | runnerInstallFailed
  | processActionFailed
  | preflightRejected
  | transitionLeaseFailed
  | unsupported
deriving DecidableEq, Repr

def OllamaTransparentErrorKey.asStr : OllamaTransparentErrorKey → String
  | .invalidConfig => "invalid_config"
  | .portInspectionFailed => "port_inspection_failed"
  | .runnerInstallFailed => "runner_install_failed"
  | .processActionFailed => "process_action_failed"
  | .preflightRejected => "preflight_rejected"
  | .transitionLeaseFailed => "transition_lease_failed"
  | .unsupported => "unsupported"

structure OllamaTransparentError where
  key : OllamaTransparentErrorKey
  message : String
deriving DecidableEq, Repr

/-- The error as it is displayed. -/
def OllamaTransparentError.display (error : OllamaTransparentError) : String :=
  error.key.asStr ++ ": " ++ error.message

/-- The results of this component. -/
abbrev Result := Except OllamaTransparentError

def invalidConfig {α : Type} (message : String) : Result α :=
  .error ⟨.invalidConfig, message⟩

def preflightRejected (message : String) : OllamaTransparentError :=
  ⟨.preflightRejected, message⟩

/-! ## Paths and addresses -/

abbrev PathBuf := String

def isAbsolute (path : PathBuf) : Bool :=
  path.toList.head? = some '/'

/-- The components of a path: the root, a leading current directory, and the names. Paths are
compared by their components.
-/
def components (path : PathBuf) : List (List Char) :=
  let parts := path.toList.splitOn '/'
  let names := parts.filter fun part => part ≠ [] && part ≠ ['.']
  if isAbsolute path then ['/'] :: names
  else if parts.head? = some ['.'] then ['.'] :: names
  else names

def pathIsUnder (path parent : PathBuf) : Bool :=
  (components parent).length ≤ (components path).length
    && ((components path).zip (components parent)).all fun pair => pair.1 = pair.2

inductive SocketAddr where
  | v4 (ip : BitVec 32) (port : UInt16)
  | v6 (ip : BitVec 128) (port : UInt16) (flowinfo scopeId : UInt32)
deriving DecidableEq, Repr

def SocketAddr.isLoopback : SocketAddr → Bool
  | .v4 ip _ => ip.extractLsb' 24 8 = 127#8
  | .v6 ip _ _ _ => ip = 1#128

/-! ## Configuration -/

structure OllamaTransparentMemoryAuthority where
  ownerId : String
  agentId : String
  channel : String
  storePath : PathBuf
deriving DecidableEq, Repr

structure OllamaTransparentConfig where
  appBundlePath : PathBuf
  officialOllamaBinary : PathBuf
  managedRunnerPath : PathBuf
  gatewayBinaryPath : PathBuf
  transitionLeasePath : PathBuf
  managedProcessReceiptPath : PathBuf
  managedLogDir : PathBuf
  memoryAuthority : OllamaTransparentMemoryAuthority
  publicBind : SocketAddr
  upstreamBind : SocketAddr
  allowStopOfficialOllama : Bool
  openAppAfterEnable : Bool
  restoreOfficialAfterDisable : Bool
deriving DecidableEq, Repr

def requireAbsolute (name : String) (path : PathBuf) : Result Unit :=
  if path = "" || !isAbsolute path then
    invalidConfig (name ++ " must be an explicit absolute path")
  else .ok ()

def OllamaTransparentMemoryAuthority.validate (authority : OllamaTransparentMemoryAuthority)
    : Result Unit := do
  for (name, value) in [("owner_id", authority.ownerId), ("agent_id", authority.agentId),
      ("channel", authority.channel)] do
    if trimIsEmpty value then
      invalidConfig ("memory authority " ++ name ++ " must not be empty")
  requireAbsolute "memory authority store_path" authority.storePath

def OllamaTransparentConfig.validate (config : OllamaTransparentConfig) : Result Unit := do
  if !config.publicBind.isLoopback then
    invalidConfig
      "public_bind must be loopback because Ollama App transparent mode is local only"
  if !config.upstreamBind.isLoopback then
    invalidConfig
      "upstream_bind must be loopback because managed Ollama upstream is local only"
  if config.publicBind = config.upstreamBind then
    invalidConfig "public_bind and upstream_bind must be different"
  for (name, path) in [("app_bundle_path", config.appBundlePath),
      ("official_ollama_binary", config.officialOllamaBinary),
      ("managed_runner_path", config.managedRunnerPath),
      ("gateway_binary_path", config.gatewayBinaryPath),
      ("transition_lease_path", config.transitionLeasePath),
      ("managed_process_receipt_path", config.managedProcessReceiptPath),
      ("managed_log_dir", config.managedLogDir)] do
    requireAbsolute name path
  config.memoryAuthority.validate
  if components config.managedRunnerPath = components config.officialOllamaBinary then
    invalidConfig "managed_runner_path must not equal official_ollama_binary"
  if pathIsUnder config.managedRunnerPath config.appBundlePath then
    invalidConfig "managed_runner_path must not live inside the Ollama.app bundle"

/-! ## Observations -/

structure ExecutableFileIdentity where
  sha256 : String
  byteLen : UInt64
  device : UInt64
  inode : UInt64
  unixMode : UInt32
deriving DecidableEq, Repr

structure ObservedProcess where
  pid : UInt32
  command : String
  executable : PathBuf
  startIdentity : Option String
  executableIdentity : Option ExecutableFileIdentity
deriving DecidableEq, Repr

def ObservedProcess.hasCompleteIdentity (process : ObservedProcess) : Bool :=
  !trimIsEmpty process.command && process.executable ≠ ""
    && process.startIdentity.any (fun identity => !trimIsEmpty identity)
    && process.executableIdentity.isSome

inductive PortOwnerKind where
  | noListener
  | officialOllama
  | beetleMemoryTransparentFront
  | managedOllamaRunner
  | unknown
deriving DecidableEq, Repr

structure PortBindingReport where
  bind : SocketAddr
  owner : PortOwnerKind
  process : Option ObservedProcess
  detail : Option String
deriving DecidableEq, Repr

structure ManagedRunnerReport where
  sourcePath : PathBuf
  managedPath : PathBuf
  sourceExists : Bool
  managedExists : Bool
  installed : Bool
  sourceDigest : Option String
  managedDigest : Option String
  copyDigest : Option String
  executionIdentity : Option ExecutableFileIdentity
  message : Option String
deriving DecidableEq, Repr

structure ManagedProcessOwnershipReport where
  managedUpstreamAuthorized : Bool
  transparentFrontAuthorized : Bool
deriving DecidableEq, Repr

def ManagedProcessOwnershipReport.fullyAuthorized (report : ManagedProcessOwnershipReport)
    : Bool :=
  report.managedUpstreamAuthorized && report.transparentFrontAuthorized

structure ProcessActionReport where
  action : String
  ok : Bool
  pid : Option UInt32
  message : Option String
deriving DecidableEq, Repr

/-! ## Preflight -/

inductive OllamaTransparentState where
  | disabled
  | preflightFailed
  | enabling
  | active
  | degraded
  | disabling
  | rollingBack
deriving DecidableEq, Repr

inductive PreflightBlockerCode where
  | publicPortOwnedByUnknownProcess
  | publicPortOwnedByManagedRunner
  | officialOllamaStopNotAllowed
  | upstreamPortUnavailable
  | managedRunnerUnavailable
  | gatewayFrontUnavailable
deriving DecidableEq, Repr

structure PreflightBlocker where
  code : PreflightBlockerCode
  message : String
deriving DecidableEq, Repr

structure OfficialOllamaStopTarget where
  bind : SocketAddr
  process : ObservedProcess
deriving DecidableEq, Repr

structure OfficialOllamaStopPlan where
  allowed : Bool
  targets : List OfficialOllamaStopTarget
  reason : String
deriving DecidableEq, Repr

structure OllamaTransparentPreflightReport where
  accepted : Bool
  resultingState : OllamaTransparentState
  publicPort : PortBindingReport
  upstreamPort : PortBindingReport
  managedRunner : ManagedRunnerReport
  gatewayExecutable : Option ExecutableFileIdentity
  stopPlan : Option OfficialOllamaStopPlan
  blockers : List PreflightBlocker
deriving DecidableEq, Repr

/-! ## Transitions -/

inductive TransitionStep where
  | preflight
  | stopOfficialOllama
  | installManagedRunner
  | startManagedUpstream
  | probeManagedUpstream
  | startTransparentFront
  | probePublicFront
  | openOfficialApp
  | stopTransparentFront
  | stopManagedUpstream
  | restoreOfficialApp
deriving DecidableEq, Repr

inductive TransitionOutcome where
  | completed
  | rejected
  | failed
  | rolledBack
deriving DecidableEq, Repr

structure TransitionStepReport where
  step : TransitionStep
  ok : Bool
  message : Option String
deriving DecidableEq, Repr

def TransitionStepReport.succeeded (step : TransitionStep) : TransitionStepReport :=
  ⟨step, true, none⟩

def TransitionStepReport.failed (step : TransitionStep) (message : String)
    : TransitionStepReport :=
  ⟨step, false, some message⟩

structure RollbackReport where
  attempted : Bool
  completed : Bool
  steps : List TransitionStepReport
deriving DecidableEq, Repr

structure OllamaTransparentTransitionReport where
  fromState : OllamaTransparentState
  toState : OllamaTransparentState
  outcome : TransitionOutcome
  steps : List TransitionStepReport
  failingStep : Option TransitionStepReport
  rollback : Option RollbackReport
deriving DecidableEq, Repr

/-- A transition that went through all its steps. -/
def OllamaTransparentTransitionReport.completed (fromState toState : OllamaTransparentState)
    (steps : List TransitionStepReport)
    : OllamaTransparentTransitionReport :=
  ⟨fromState, toState, .completed, steps, none, none⟩

structure EnableOllamaTransparentRequest where
  openApp : Option Bool
  allowStopOfficialOllama : Bool
deriving DecidableEq, Repr

structure DisableOllamaTransparentRequest where
  restoreOfficialApp : Option Bool
deriving DecidableEq, Repr

structure OllamaAppReport where
  bundlePath : PathBuf
  allowStopOfficialOllama : Bool
  openAppAfterEnable : Bool
  restoreOfficialAfterDisable : Bool
  lastAction : Option ProcessActionReport
deriving DecidableEq, Repr

def OllamaAppReport.fromConfig (config : OllamaTransparentConfig) : OllamaAppReport where
  bundlePath := config.appBundlePath
  allowStopOfficialOllama := config.allowStopOfficialOllama
  openAppAfterEnable := config.openAppAfterEnable
  restoreOfficialAfterDisable := config.restoreOfficialAfterDisable
  lastAction := none

structure GatewayFrontReport where
  expectedOwner : PortOwnerKind
  bind : SocketAddr
  active : Bool
  message : Option String
deriving DecidableEq, Repr

def GatewayFrontReport.fromPublicPort (publicPort : PortBindingReport)
    : GatewayFrontReport where
  expectedOwner := .beetleMemoryTransparentFront
  bind := publicPort.bind
  active := publicPort.owner = .beetleMemoryTransparentFront
  message := none

structure OllamaTransparentStatus where
  state : OllamaTransparentState
  publicPort : PortBindingReport
  upstreamPort : PortBindingReport
  app : OllamaAppReport
  managedRunner : ManagedRunnerReport
  gatewayFront : GatewayFrontReport
  lastTransition : Option OllamaTransparentTransitionReport
deriving DecidableEq, Repr

end BeetleMemory.Transparent
