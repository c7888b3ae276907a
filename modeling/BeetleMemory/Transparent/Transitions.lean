import BeetleMemory.Transparent.LeaseRules

/-! Transitions of the transparent mode, under every interleaving of their threads and every
answer from outside: they exclude each other, leave a settled state, and undo what they
started or say that they could not.
-/

namespace BeetleMemory.Transparent

open Threads

/-! ## What a transition promises -/

/-- Every started component was stopped again, the front before the upstream, and the rollback
names the stops.
-/
structure Undone (done : List (ActionKind × Bool)) (rollback : RollbackReport) : Prop where
  upstream : (.startUpstream, true) ∈ done →
    [(ActionKind.startUpstream, true), (.stopUpstream, true)].Sublist done
      ∧ .succeeded .stopManagedUpstream ∈ rollback.steps
  front : (.startFront, true) ∈ done →
    [(ActionKind.startFront, true), (.stopFront, true)].Sublist done
      ∧ .succeeded .stopTransparentFront ∈ rollback.steps
  order : (.startUpstream, true) ∈ done → (.startFront, true) ∈ done →
    [(ActionKind.stopFront, true), (.stopUpstream, true)].Sublist done
      ∧ [TransitionStepReport.succeeded .stopTransparentFront,
          .succeeded .stopManagedUpstream].Sublist rollback.steps

/-- The start sequence, with the official server stopped first and the app opened last where
that applies: each step succeeded, in order, and is reported.
-/
structure Started (done : List (ActionKind × Bool))
    (steps : List TransitionStepReport) (stopped opened : Bool) : Prop where
  done : done = (if stopped then [(ActionKind.stopOfficial, true)] else [])
    ++ [(ActionKind.install, true), (.startUpstream, true), (.probeUpstream, true),
      (.startFront, true), (.probeFront, true)]
    ++ if opened then [(ActionKind.openApp, true)] else []
  steps : steps = [TransitionStepReport.succeeded .preflight]
    ++ (if stopped then [TransitionStepReport.succeeded .stopOfficialOllama] else [])
    ++ [TransitionStepReport.succeeded .installManagedRunner, .succeeded .startManagedUpstream,
      .succeeded .probeManagedUpstream, .succeeded .startTransparentFront,
      .succeeded .probePublicFront]
    ++ if opened then [TransitionStepReport.succeeded .openOfficialApp] else []

/-- The port was inspected, with this report. -/
def SeenPort (bind : SocketAddr) (report : PortBindingReport) (log : CallLog) : Prop :=
  (⟨.inspectPort bind, Except.ok report⟩ : Event Call Call.Response) ∈ log

/-- Both listeners were seen in managed hands with full authority, and nothing was done. -/
def AlreadyManaged (config : OllamaTransparentConfig) (log : CallLog) : Prop :=
  performed log = []
    ∧ ∃ (publicPort upstreamPort : PortBindingReport)
        (ownership : ManagedProcessOwnershipReport) (effective : OllamaTransparentConfig),
        SeenPort config.publicBind publicPort log
        ∧ publicPort.owner = .beetleMemoryTransparentFront
        ∧ SeenPort config.upstreamBind upstreamPort log
        ∧ upstreamPort.owner = .managedOllamaRunner
        ∧ (⟨.inspectManagedProcessOwnership effective, Except.ok ownership⟩
            : Event Call Call.Response) ∈ log
        ∧ ownership.fullyAuthorized

/-- A failed transition that ends disabled has undone what it started. -/
def FailureUndone (log : CallLog) (report : OllamaTransparentTransitionReport) : Prop :=
  report.toState = .disabled → report.failingStep ≠ none →
    ∃ rollback, report.rollback = some rollback ∧ Undone (performed log) rollback

/-- What a finished operation has to show for itself. -/
def Concluded (config : OllamaTransparentConfig) (log : CallLog)
    : Operation → Returned → Prop
  | .enable request, .transition (.ok report) =>
      FailureUndone log report
        ∧ (report.toState = .active →
            (∃ stopped, Started (performed log) report.steps stopped
              (request.openApp.getD config.openAppAfterEnable))
            ∨ AlreadyManaged config log)
  | .disable _, .transition (.ok report) => FailureUndone log report
  | .enable _, .transition (.error _) | .disable _, .transition (.error _) =>
      performed log = []
  | .preflight, .preflight _ | .status, .status _ | .openApp, .opened _ => True
  | _, _ => False

/-! ## Preflight -/

/-- What an accepted preflight report rests on. -/
structure Vetted (config : OllamaTransparentConfig) (log : CallLog)
    (report : OllamaTransparentPreflightReport) : Prop where
  gateway : report.accepted → report.gatewayExecutable ≠ none
  active : report.resultingState = .active →
    report.publicPort.owner = .beetleMemoryTransparentFront
      ∧ report.upstreamPort.owner = .managedOllamaRunner
  publicSeen : SeenPort config.publicBind report.publicPort log
  upstreamSeen : SeenPort config.upstreamBind report.upstreamPort log

/-- A program that only inspects keeps the token and performs nothing. -/
def Inspected {α : Type} (held : Option TransitionLeaseRecord) (log : CallLog)
    (held' : Option TransitionLeaseRecord) (log' : CallLog) (_ : α) : Prop :=
  held' = held ∧ log <+: log' ∧ performed log' = performed log

section Preflight

variable {held : Option TransitionLeaseRecord} {log : CallLog}

theorem inspected_snoc {α : Type} {start : CallLog} {c : Call} {answer : c.Response}
    {result : α} (before : start <+: log) (same : performed log = performed start)
    (inspects : c.actionKind = none)
    : Inspected held start held (log ++ [⟨c, answer⟩]) result := by
  refine ⟨rfl, before.trans (List.prefix_append log _), ?_⟩
  rw [performed_inspect inspects, same]

theorem safe_checkStoppable (config : OllamaTransparentConfig) (bind : SocketAddr)
    (process : ObservedProcess)
    : Safe discipline (Inspected held log) held log (checkStoppable config bind process) := by
  unfold checkStoppable
  split_ifs
  · exact ⟨rfl, List.prefix_rfl, rfl⟩
  · refine safe_inspect (.inspectExecutableIdentity config.officialOllamaBinary) rfl ?_
    intro answer
    cases answer with
    | error error => exact inspected_snoc List.prefix_rfl rfl rfl
    | ok identity =>
        dsimp only
        split_ifs
        · exact inspected_snoc List.prefix_rfl rfl rfl
        · refine safe_inspect .isAttachedAuthoritySupported rfl fun supported => ?_
          have both : Inspected held log held
              (log ++ [⟨.inspectExecutableIdentity config.officialOllamaBinary, .ok identity⟩]
                ++ [⟨.isAttachedAuthoritySupported, supported⟩]) () :=
            inspected_snoc (List.prefix_append log _) (performed_inspect rfl) rfl
          cases supported with
          | true => exact both
          | false => exact both

theorem safe_checkPublicOwner (config : OllamaTransparentConfig)
    (publicPort : PortBindingReport)
    : Safe discipline (Inspected held log) held log (checkPublicOwner config publicPort) := by
  have at_once : ∀ check : PublicOwnerCheck,
      Safe discipline (Inspected held log) held log (pure check : Prog PublicOwnerCheck) :=
    fun _ => ⟨rfl, List.prefix_rfl, rfl⟩
  unfold checkPublicOwner
  split
  · exact at_once _
  · exact at_once _
  · split
    · exact at_once _
    · split_ifs
      · exact safe_checkStoppable config publicPort.bind _
      · exact at_once _
  · exact at_once _
  · exact at_once _

theorem reportFromParts_active {publicPort upstreamPort : PortBindingReport}
    {managedRunner : ManagedRunnerReport} {gateway : Option ExecutableFileIdentity}
    {stopPlan : Option OfficialOllamaStopPlan} {blockers : List PreflightBlocker}
    (active : (reportFromParts publicPort upstreamPort managedRunner gateway stopPlan
      blockers).resultingState = .active)
    : publicPort.owner = .beetleMemoryTransparentFront
      ∧ upstreamPort.owner = .managedOllamaRunner := by
  unfold reportFromParts at active
  dsimp only at active
  split_ifs at active with _ owned
  exact owned

/-- A report made with blockers is not accepted, so an accepted one has the gateway. -/
theorem reportFromParts_vetted {config : OllamaTransparentConfig} {log' : CallLog}
    {publicPort upstreamPort : PortBindingReport} {managedRunner : ManagedRunnerReport}
    {gateway : Option ExecutableFileIdentity} {stopPlan : Option OfficialOllamaStopPlan}
    {blockers : List PreflightBlocker} (named : gateway = none → blockers ≠ [])
    (publicSeen : SeenPort config.publicBind publicPort log')
    (upstreamSeen : SeenPort config.upstreamBind upstreamPort log')
    : Vetted config log'
        (reportFromParts publicPort upstreamPort managedRunner gateway stopPlan blockers) where
  gateway accepted missing := named missing (List.isEmpty_iff.mp accepted)
  active := reportFromParts_active
  publicSeen := publicSeen
  upstreamSeen := upstreamSeen

/-- A failed preflight makes no report. -/
theorem vetted_of_error {config : OllamaTransparentConfig} {error : OllamaTransparentError}
    (report : OllamaTransparentPreflightReport)
    (made : (Except.error error : Result OllamaTransparentPreflightReport) = .ok report)
    : Vetted config log report := by
  cases made

/-- Preflight inspects only, and vets the report it makes. -/
theorem safe_buildPreflightReport (config : OllamaTransparentConfig)
    : Safe discipline
        (fun held' log' result => Inspected held log held' log' result
          ∧ ∀ report, result = .ok report → Vetted config log' report)
        held log (buildPreflightReport config) := by
  unfold buildPreflightReport
  cases config.validate with
  | error => exact ⟨⟨rfl, List.prefix_rfl, rfl⟩, vetted_of_error⟩
  | ok =>
  refine safe_inspect (.inspectPort config.publicBind) rfl fun publicAnswer => ?_
  cases publicAnswer with
  | error => exact ⟨inspected_snoc List.prefix_rfl rfl rfl, vetted_of_error⟩
  | ok publicPort =>
  refine safe_inspect (.inspectPort config.upstreamBind) rfl fun upstreamAnswer => ?_
  have first : Inspected held log held
      (log ++ [⟨.inspectPort config.publicBind, .ok publicPort⟩]) () :=
    inspected_snoc List.prefix_rfl rfl rfl
  have second : Inspected held log held
      (log ++ [⟨.inspectPort config.publicBind, .ok publicPort⟩]
        ++ [⟨.inspectPort config.upstreamBind, upstreamAnswer⟩]) () :=
    inspected_snoc first.2.1 first.2.2 rfl
  cases upstreamAnswer with
  | error => exact ⟨second, vetted_of_error⟩
  | ok upstreamPort =>
  refine safe_inspect (.inspectRunner config) rfl fun runnerAnswer => ?_
  have third : Inspected held log held
      (log ++ [⟨.inspectPort config.publicBind, .ok publicPort⟩]
        ++ [⟨.inspectPort config.upstreamBind, .ok upstreamPort⟩]
        ++ [⟨.inspectRunner config, runnerAnswer⟩]) () :=
    inspected_snoc second.2.1 second.2.2 rfl
  cases runnerAnswer with
  | error => exact ⟨third, vetted_of_error⟩
  | ok managedRunner =>
  refine safe_inspect (.inspectExecutableIdentity config.gatewayBinaryPath) rfl
    fun gateway => ?_
  have fourth : Inspected held log held
      (log ++ [⟨.inspectPort config.publicBind, .ok publicPort⟩]
        ++ [⟨.inspectPort config.upstreamBind, .ok upstreamPort⟩]
        ++ [⟨.inspectRunner config, .ok managedRunner⟩]
        ++ [⟨.inspectExecutableIdentity config.gatewayBinaryPath, gateway⟩]) () :=
    inspected_snoc third.2.1 third.2.2 rfl
  refine (safe_checkPublicOwner config publicPort).bind fun held' log' check checked => ?_
  obtain ⟨same, grown, quiet⟩ := checked
  have inspected : Inspected held log held' log' () :=
    ⟨same, fourth.2.1.trans grown, quiet.trans fourth.2.2⟩
  have publicSeen : SeenPort config.publicBind publicPort log' :=
    grown.subset (by simp)
  have upstreamSeen : SeenPort config.upstreamBind upstreamPort log' :=
    grown.subset (by simp)
  cases check with
  | halt blocker =>
      refine ⟨inspected, fun report made => ?_⟩
      cases made
      exact reportFromParts_vetted (by simp) publicSeen upstreamSeen
  | proceed stopPlan publicBlockers =>
      refine ⟨inspected, fun report made => ?_⟩
      cases made
      refine reportFromParts_vetted (fun missing => ?_) publicSeen upstreamSeen
      cases gateway with
      | ok => cases missing
      | error => simp

end Preflight

/-! ## Rollback -/

/-- (Taken asked step kind before steps after) says what a step that is taken only if asked
for adds to the report and to the actions.
-/
def Taken (asked : Bool) (step : TransitionStep) (kind : ActionKind)
    (before : List (ActionKind × Bool)) (steps : List TransitionStepReport)
    (after : List (ActionKind × Bool)) : Prop :=
  if asked then
    ∃ report : TransitionStepReport, steps = [report]
      ∧ after = before ++ [(kind, report.ok)]
      ∧ (report.ok → report = .succeeded step)
  else steps = [] ∧ after = before

/-- Where every such step succeeded, it is known what was reported and done. -/
theorem Taken.of_all {asked : Bool} {step : TransitionStep} {kind : ActionKind}
    {before after : List (ActionKind × Bool)} {steps : List TransitionStepReport}
    (h : Taken asked step kind before steps after) (succeeded : steps.all (·.ok))
    : steps = (if asked then [.succeeded step] else [])
      ∧ after = before ++ if asked then [(kind, true)] else [] := by
  cases asked with
  | false =>
      obtain ⟨none, same⟩ := h
      exact ⟨none, by simp [same]⟩
  | true =>
      obtain ⟨report, one, grown, named⟩ := h
      subst one
      have ok : report.ok = true := by simpa using succeeded
      exact ⟨by rw [named ok]; rfl, by rw [grown, ok]; rfl⟩

section Transitions

variable {log : CallLog} {record : TransitionLeaseRecord} {lease : TransitionLease}

/-- The report of a step says whether its action succeeded. -/
theorem stepReport_ok {α : Type} (step : TransitionStep) (result : Result α)
    : (stepReport step result).ok = succeeds result
      ∧ ((stepReport step result).ok → stepReport step result = .succeeded step) := by
  cases result with
  | ok => exact ⟨rfl, fun _ => rfl⟩
  | error => exact ⟨rfl, nofun⟩

/-- The postcondition of a step that is taken if asked for. -/
abbrev TookStep (record : TransitionLeaseRecord) (log : CallLog) (asked : Bool)
    (step : TransitionStep) (kind : ActionKind) (held : Option TransitionLeaseRecord)
    (log' : CallLog) (steps : List TransitionStepReport) : Prop :=
  held = some record ∧ Taken asked step kind (performed log) steps (performed log')

theorem safe_stopFrontWhen (config : OllamaTransparentConfig) (asked : Bool)
    : Safe discipline (TookStep record log asked .stopTransparentFront .stopFront)
        (some record) log
        (stepWhen asked .stopTransparentFront (stopTransparentFront config)) := by
  cases asked with
  | false => exact ⟨rfl, rfl, rfl⟩
  | true =>
      refine safe_action (.stopTransparentFront config) rfl fun answer log' did => ?_
      have said := stepReport_ok .stopTransparentFront answer
      exact ⟨rfl, _, rfl, by rw [did, said.1]; rfl, said.2⟩

theorem safe_stopUpstreamWhen (config : OllamaTransparentConfig) (asked : Bool)
    : Safe discipline (TookStep record log asked .stopManagedUpstream .stopUpstream)
        (some record) log
        (stepWhen asked .stopManagedUpstream (stopManagedUpstream config)) := by
  cases asked with
  | false => exact ⟨rfl, rfl, rfl⟩
  | true =>
      refine safe_action (.stopManagedUpstream config) rfl fun answer log' did => ?_
      have said := stepReport_ok .stopManagedUpstream answer
      exact ⟨rfl, _, rfl, by rw [did, said.1]; rfl, said.2⟩

theorem safe_restoreWhen (config : OllamaTransparentConfig) (asked : Bool)
    : Safe discipline (TookStep record log asked .restoreOfficialApp .openApp)
        (some record) log
        (stepWhen asked .restoreOfficialApp (openOfficialApp config)) := by
  cases asked with
  | false => exact ⟨rfl, rfl, rfl⟩
  | true =>
      refine safe_action (.openOfficialApp config) rfl fun answer log' did => ?_
      have said := stepReport_ok .restoreOfficialApp answer
      exact ⟨rfl, _, rfl, by rw [did, said.1]; rfl, said.2⟩

/-- A completed rollback stopped what the progress names, the front first. -/
structure RolledBack (progress : EnableProgress) (restored : Bool)
    (before after : List (ActionKind × Bool)) (rollback : RollbackReport) : Prop where
  steps : rollback.steps
    = (if progress.publicFrontStarted then
          [TransitionStepReport.succeeded .stopTransparentFront] else [])
      ++ (if progress.upstreamStarted then
          [TransitionStepReport.succeeded .stopManagedUpstream] else [])
      ++ if restored then [TransitionStepReport.succeeded .restoreOfficialApp] else []
  done : after = before
    ++ ((if progress.publicFrontStarted then [(ActionKind.stopFront, true)] else [])
      ++ (if progress.upstreamStarted then [(ActionKind.stopUpstream, true)] else [])
      ++ if restored then [(ActionKind.openApp, true)] else [])

theorem safe_rollbackEnableFailure (config : OllamaTransparentConfig)
    (progress : EnableProgress)
    : Safe discipline
        (fun held log' rollback => held = some record
          ∧ (rollback.completed → ∃ restored,
              RolledBack progress restored (performed log) (performed log') rollback))
        (some record) log (rollbackEnableFailure config progress) := by
  unfold rollbackEnableFailure
  refine (safe_stopFrontWhen config progress.publicFrontStarted).bind ?_
  intro held log₁ front stopped
  obtain ⟨rfl, front_taken⟩ := stopped
  refine (safe_stopUpstreamWhen config progress.upstreamStarted).bind ?_
  intro held log₂ upstream stopped
  obtain ⟨rfl, upstream_taken⟩ := stopped
  refine (safe_restoreWhen config _).bind ?_
  intro held log₃ official restored
  obtain ⟨rfl, official_taken⟩ := restored
  refine ⟨rfl, fun completed =>
    ⟨progress.officialStopped && config.restoreOfficialAfterDisable, ?_⟩⟩
  have each : (front.all (·.ok) ∧ upstream.all (·.ok)) ∧ official.all (·.ok) := by
    simpa only [List.all_append, Bool.and_eq_true] using completed
  obtain ⟨⟨front_ok, upstream_ok⟩, official_ok⟩ := each
  obtain ⟨front_steps, front_done⟩ := front_taken.of_all front_ok
  obtain ⟨upstream_steps, upstream_done⟩ := upstream_taken.of_all upstream_ok
  obtain ⟨official_steps, official_done⟩ := official_taken.of_all official_ok
  exact ⟨by rw [front_steps, upstream_steps, official_steps],
    by rw [official_done, upstream_done, front_done]; simp only [List.append_assoc]⟩

/-- The progress of an enable names exactly what it has started. -/
structure Tracks (progress : EnableProgress) (done : List (ActionKind × Bool)) : Prop where
  upstream : (.startUpstream, true) ∈ done ↔ progress.upstreamStarted = true
  front : (.startFront, true) ∈ done ↔ progress.publicFrontStarted = true

/-- A completed rollback undoes an enable whose progress was tracked. -/
theorem RolledBack.undone {progress : EnableProgress} {restored : Bool}
    {before after : List (ActionKind × Bool)} {rollback : RollbackReport}
    (h : RolledBack progress restored before after rollback) (tracks : Tracks progress before)
    : Undone after rollback := by
  -- the stops add no start
  have started_before : ∀ kind, kind = .startUpstream ∨ kind = .startFront →
      (kind, true) ∈ after → (kind, true) ∈ before := by
    intro kind start member
    rw [h.done, List.mem_append] at member
    refine member.resolve_right fun added => ?_
    rcases start with rfl | rfl <;>
      cases progress.publicFrontStarted <;> cases progress.upstreamStarted <;>
        cases restored <;> simp at added
  have upstream_flag : (.startUpstream, true) ∈ after → progress.upstreamStarted = true :=
    fun member => tracks.upstream.mp (started_before _ (.inl rfl) member)
  have front_flag : (.startFront, true) ∈ after → progress.publicFrontStarted = true :=
    fun member => tracks.front.mp (started_before _ (.inr rfl) member)
  refine ⟨?_, ?_, ?_⟩
  · intro started
    have flag := upstream_flag started
    have earlier := List.singleton_sublist.mpr (tracks.upstream.mpr flag)
    rw [h.done, h.steps]
    exact ⟨earlier.append (List.singleton_sublist.mpr (by simp [flag])), by simp [flag]⟩
  · intro started
    have flag := front_flag started
    have earlier := List.singleton_sublist.mpr (tracks.front.mpr flag)
    rw [h.done, h.steps]
    exact ⟨earlier.append (List.singleton_sublist.mpr (by simp [flag])), by simp [flag]⟩
  · intro upstream front
    rw [h.done, h.steps, upstream_flag upstream, front_flag front]
    exact ⟨(List.sublist_append_left _ _).trans (List.sublist_append_right before _),
      List.sublist_append_left _ _⟩

/-! ## Enable -/

variable {config : OllamaTransparentConfig}

/-- A finished enable has given the token back and shows what it did. -/
abbrev Enabled (config : OllamaTransparentConfig) (request : EnableOllamaTransparentRequest)
    (held : Option TransitionLeaseRecord) (log : CallLog)
    (result : Result OllamaTransparentTransitionReport) : Prop :=
  held = none ∧ Concluded config log (.enable request) (.transition result)

variable {request : EnableOllamaTransparentRequest}

theorem safe_finishFailedEnable {progress : EnableProgress}
    (kind : lease.record.kind = .enable) (tracks : Tracks progress (performed log))
    (steps : List TransitionStepReport) (failingStep : TransitionStep)
    (error : OllamaTransparentError)
    : Safe discipline (Enabled config request) (some lease.record) log
        (finishFailedEnable config lease steps failingStep error progress) := by
  unfold finishFailedEnable
  refine safe_setState .rollingBack (by rw [kind]; exact nofun) ?_
  refine (safe_rollbackEnableFailure config progress).bind ?_
  intro held log' rollback rolled
  obtain ⟨rfl, undone⟩ := rolled
  cases completed : rollback.completed with
  | false =>
      refine safe_commitReport (by simp [isTransitional]) ⟨rfl, ?_, ?_⟩
      · intro disabled
        simp at disabled
      · intro active
        simp at active
  | true =>
      refine safe_commitReport (by simp [isTransitional]) ⟨rfl, ?_, ?_⟩
      · intro _ _
        obtain ⟨restored, back⟩ := undone completed
        exact ⟨rollback, rfl, back.undone tracks⟩
      · intro active
        simp at active

/-- A transition that was turned down ends in the given state with nothing to undo. -/
theorem safe_rejection {toState : OllamaTransparentState} (message : String)
    (settled : isTransitional toState = false) (rejected : toState ≠ .disabled)
    (inactive : toState ≠ .active)
    : Safe discipline (Enabled config request) (some lease.record) log
        (lease.commitReport (rejection lease.fromState toState message)) :=
  safe_commitReport settled
    ⟨rfl, fun disabled => absurd disabled rejected, fun active => absurd active inactive⟩

/-- The actions up to a point of the start sequence. -/
abbrev startedSoFar (stopped : Bool) (done : List (ActionKind × Bool))
    : List (ActionKind × Bool) :=
  (if stopped then [(ActionKind.stopOfficial, true)] else []) ++ done

abbrev stepsSoFar (stopped : Bool) (steps : List TransitionStepReport)
    : List TransitionStepReport :=
  [TransitionStepReport.succeeded .preflight]
    ++ (if stopped then [TransitionStepReport.succeeded .stopOfficialOllama] else []) ++ steps

theorem tracks_startedSoFar {stopped : Bool} {done : List (ActionKind × Bool)}
    {progress : EnableProgress} (tracks : Tracks progress done)
    : Tracks progress (startedSoFar stopped done) := by
  obtain ⟨upstream, front⟩ := tracks
  cases stopped with
  | false => exact ⟨upstream, front⟩
  | true => exact ⟨by simpa using upstream, by simpa using front⟩

theorem safe_startFront {effectiveConfig : OllamaTransparentConfig} {stopped : Bool}
    (kind : lease.record.kind = .enable)
    (opens : effectiveConfig.openAppAfterEnable = config.openAppAfterEnable)
    (gatewayExecutable : ExecutableFileIdentity)
    (done : performed log = startedSoFar stopped
      [(.install, true), (.startUpstream, true), (.probeUpstream, true)])
    : Safe discipline (Enabled config request) (some lease.record) log
        (startFront config effectiveConfig request lease gatewayExecutable
          (stepsSoFar stopped [.succeeded .installManagedRunner,
            .succeeded .startManagedUpstream, .succeeded .probeManagedUpstream])
          ⟨stopped, true, false⟩) := by
  unfold startFront
  refine safe_action (.startTransparentFront effectiveConfig gatewayExecutable) rfl ?_
  intro answer log₁ did₁
  rw [done] at did₁
  cases answer with
  | error =>
      refine safe_finishFailedEnable kind ?_ _ _ _
      rw [did₁, startedSoFar, List.append_assoc]
      exact tracks_startedSoFar ⟨by simp [Call.succeeded, succeeds], by
        simp [Call.succeeded, succeeds]⟩
  | ok =>
  refine safe_action (.probePublicFront effectiveConfig) rfl ?_
  intro answer log₂ did₂
  rw [did₁] at did₂
  cases answer with
  | error =>
      refine safe_finishFailedEnable kind ?_ _ _ _
      rw [did₂, startedSoFar, List.append_assoc, List.append_assoc]
      exact tracks_startedSoFar ⟨by simp [Call.succeeded, succeeds], by
        simp [Call.succeeded, succeeds]⟩
  | ok =>
  dsimp only
  split_ifs with opened
  · refine safe_action (.openOfficialApp effectiveConfig) rfl ?_
    intro answer log₃ did₃
    rw [did₂] at did₃
    cases answer with
    | error =>
        refine safe_finishFailedEnable kind ?_ _ _ _
        rw [did₃, startedSoFar, List.append_assoc, List.append_assoc, List.append_assoc]
        exact tracks_startedSoFar ⟨by simp [Call.succeeded, succeeds], by
          simp [Call.succeeded, succeeds]⟩
    | ok =>
        refine safe_commitReport rfl ⟨rfl, nofun, fun _ => .inl ⟨stopped, ?_, ?_⟩⟩
        · rw [did₃, ← opens, opened]
          simp [Call.succeeded, succeeds]
        · rw [← opens, opened]
          simp [OllamaTransparentTransitionReport.completed]
  · refine safe_commitReport rfl ⟨rfl, nofun, fun _ => .inl ⟨stopped, ?_, ?_⟩⟩
    · rw [did₂, ← opens]
      simp [Call.succeeded, succeeds, opened]
    · rw [← opens]
      simp [OllamaTransparentTransitionReport.completed, opened]

theorem safe_startUpstream {effectiveConfig : OllamaTransparentConfig} {stopped : Bool}
    (kind : lease.record.kind = .enable)
    (opens : effectiveConfig.openAppAfterEnable = config.openAppAfterEnable)
    {preflight : OllamaTransparentPreflightReport}
    (gateway : preflight.gatewayExecutable ≠ none)
    (done : performed log = startedSoFar stopped [])
    : Safe discipline (Enabled config request) (some lease.record) log
        (startUpstream config effectiveConfig request lease preflight
          (stepsSoFar stopped []) ⟨stopped, false, false⟩) := by
  unfold startUpstream
  refine safe_action (.ensureInstalled effectiveConfig) rfl ?_
  intro answer log₁ did₁
  rw [done] at did₁
  cases answer with
  | error =>
      refine safe_finishFailedEnable kind ?_ _ _ _
      rw [did₁, startedSoFar, List.append_assoc]
      exact tracks_startedSoFar ⟨by simp, by simp⟩
  | ok installedRunner =>
  refine safe_action (.startManagedUpstream effectiveConfig installedRunner) rfl ?_
  intro answer log₂ did₂
  rw [did₁] at did₂
  cases answer with
  | error =>
      refine safe_finishFailedEnable kind ?_ _ _ _
      rw [did₂, startedSoFar, List.append_assoc, List.append_assoc]
      exact tracks_startedSoFar ⟨by simp [Call.succeeded, succeeds], by simp⟩
  | ok =>
  refine safe_action (.probeManagedUpstream effectiveConfig) rfl ?_
  intro answer log₃ did₃
  rw [did₂] at did₃
  cases answer with
  | error =>
      refine safe_finishFailedEnable kind ?_ _ _ _
      rw [did₃, startedSoFar, List.append_assoc, List.append_assoc, List.append_assoc]
      exact tracks_startedSoFar ⟨by simp [Call.succeeded, succeeds], by simp⟩
  | ok =>
  -- the branch without a gateway is dead: the preflight was accepted
  cases found : preflight.gatewayExecutable with
  | none => exact absurd found gateway
  | some gatewayExecutable =>
      have steps : stepsSoFar stopped [] ++ [.succeeded .installManagedRunner]
            ++ [.succeeded .startManagedUpstream] ++ [.succeeded .probeManagedUpstream]
          = stepsSoFar stopped [.succeeded .installManagedRunner,
            .succeeded .startManagedUpstream, .succeeded .probeManagedUpstream] := by
        simp
      dsimp only
      rw [steps]
      refine safe_startFront kind opens gatewayExecutable ?_
      rw [did₃]
      simp [Call.succeeded, succeeds]

/-- Both listeners are in place: active is reported only with full authority. -/
theorem safe_confirmActive {effectiveConfig : OllamaTransparentConfig}
    (settled : isTransitional lease.fromState = false)
    {preflight : OllamaTransparentPreflightReport} (vetted : Vetted config log preflight)
    (active : preflight.resultingState = .active) (done : performed log = [])
    : Safe discipline (Enabled config request) (some lease.record) log
        (confirmActive effectiveConfig lease) := by
  unfold confirmActive
  refine safe_inspect (.inspectManagedProcessOwnership effectiveConfig) rfl fun answer => ?_
  have quiet : performed (log ++ [⟨.inspectManagedProcessOwnership effectiveConfig, answer⟩])
      = [] := by
    rw [performed_inspect rfl, done]
  cases answer with
  | error => exact safe_drop settled (safe_return ⟨rfl, quiet⟩)
  | ok ownership =>
      dsimp only
      split_ifs with unauthorized
      · exact safe_rejection _ rfl nofun nofun
      · refine safe_commitReport rfl ⟨rfl, nofun, fun _ => .inr ⟨quiet, ?_⟩⟩
        obtain ⟨publicOwner, upstreamOwner⟩ := vetted.active active
        refine ⟨preflight.publicPort, preflight.upstreamPort, ownership, effectiveConfig,
          List.mem_append_left _ vetted.publicSeen, publicOwner,
          List.mem_append_left _ vetted.upstreamSeen, upstreamOwner, by simp, ?_⟩
        simpa using unauthorized

theorem safe_enable (config : OllamaTransparentConfig)
    (request : EnableOllamaTransparentRequest)
    : Safe discipline (Enabled config request) none [] (enable config request) := by
  unfold enable
  refine safe_beginTransition config .enable (fun error => safe_return ⟨rfl, rfl⟩) ?_
  intro lease kind settled
  dsimp only
  generalize chosen : (if request.allowStopOfficialOllama then
    { config with allowStopOfficialOllama := true } else config) = effectiveConfig
  have same : effectiveConfig.publicBind = config.publicBind
      ∧ effectiveConfig.upstreamBind = config.upstreamBind
      ∧ effectiveConfig.openAppAfterEnable = config.openAppAfterEnable := by
    rw [← chosen]
    split_ifs <;> exact ⟨rfl, rfl, rfl⟩
  refine (safe_buildPreflightReport effectiveConfig).bind ?_
  intro held log result inspected
  obtain ⟨⟨rfl, -, quiet⟩, vetted⟩ := inspected
  cases result with
  | error => exact safe_rejection _ rfl nofun nofun
  | ok preflight =>
  have report := vetted preflight rfl
  dsimp only
  split_ifs with refused active
  · exact safe_rejection _ rfl nofun nofun
  · refine safe_confirmActive settled ⟨report.gateway, report.active, ?_, ?_⟩ active quiet
    · exact same.1 ▸ report.publicSeen
    · exact same.2.1 ▸ report.upstreamSeen
  · have gateway := report.gateway (by simpa using refused)
    cases preflight.stopPlan with
    | none => exact safe_startUpstream kind same.2.2 gateway quiet
    | some stopPlan =>
        refine safe_action (.stopOfficialOllama stopPlan) rfl fun answer log' did => ?_
        rw [quiet] at did
        cases answer with
        | error =>
            refine safe_finishFailedEnable kind ?_ _ _ _
            rw [did]
            exact ⟨by simp [performed], by simp [performed]⟩
        | ok => exact safe_startUpstream kind same.2.2 gateway did

/-! ## The other operations -/

theorem safe_disable (config : OllamaTransparentConfig)
    (request : DisableOllamaTransparentRequest)
    : Safe discipline
        (fun held log result => held = none
          ∧ Concluded config log (.disable request) (.transition result))
        none [] (disable config request) := by
  unfold disable
  refine safe_beginTransition config .disable (fun error => safe_return ⟨rfl, rfl⟩) ?_
  intro lease _ _
  refine (safe_stopFrontWhen config true).bind ?_
  intro held log₁ front stopped
  obtain ⟨rfl, -⟩ := stopped
  refine (safe_stopUpstreamWhen config true).bind ?_
  intro held log₂ upstream stopped
  obtain ⟨rfl, -⟩ := stopped
  refine (safe_restoreWhen config _).bind ?_
  intro held log₃ official restored
  obtain ⟨rfl, -⟩ := restored
  dsimp only
  generalize (front ++ upstream ++ official).find? (fun step => !step.ok) = failingStep
  cases failingStep with
  | none => exact safe_commitReport rfl ⟨rfl, fun _ failed => absurd rfl failed⟩
  | some => exact safe_commitReport rfl ⟨rfl, nofun⟩

/-- Observers write a settled state, and only while no transition is active. -/
theorem safe_observe {β α : Type}
    {post : Option TransitionLeaseRecord → CallLog → β → Prop}
    {observe : ControllerState → ControllerState}
    {value : ControllerState → α} {next : α → Prog β}
    (kept : ∀ state, (observe state).activeTransition = state.activeTransition)
    (settled : ∀ state, discipline.holds state → discipline.holds (observe state))
    (later : ∀ result, Safe discipline post none log (next result))
    : Safe discipline post none log
        (Program.locked (fun _ state => (value state, observe state)) >>= next) :=
  safe_locked fun _ state holds _ =>
    ⟨settled state holds, none, .inl ⟨kept state, rfl⟩, later _⟩

theorem isTransitional_reconcile {current : OllamaTransparentState}
    (settled : isTransitional current = false) (publicPort upstreamPort : PortBindingReport)
    (ownership : ManagedProcessOwnershipReport)
    : isTransitional (reconcileObservedState current publicPort upstreamPort ownership)
      = false := by
  unfold reconcileObservedState
  split <;> split_ifs <;> first | rfl | exact settled

theorem safe_preflight (config : OllamaTransparentConfig)
    : Safe discipline (fun held _ _ => held = none) none [] (preflight config) := by
  unfold preflight
  refine (safe_buildPreflightReport config).bind ?_
  intro held log result inspected
  obtain ⟨⟨rfl, -, -⟩, -⟩ := inspected
  cases result with
  | error => exact safe_return rfl
  | ok report =>
      dsimp only
      split_ifs
      · refine safe_observe (fun state => ?_) (fun state holds => ?_) fun _ => safe_return rfl
        · split_ifs <;> rfl
        · split_ifs
          · exact fun _ => rfl
          · exact holds
      · exact safe_return rfl

theorem safe_status (config : OllamaTransparentConfig)
    : Safe discipline (fun held _ _ => held = none) none [] (status config) := by
  unfold status
  refine safe_inspect (.inspectPort config.publicBind) rfl fun publicAnswer => ?_
  cases publicAnswer with
  | error => exact safe_return rfl
  | ok publicPort =>
  refine safe_inspect (.inspectPort config.upstreamBind) rfl fun upstreamAnswer => ?_
  cases upstreamAnswer with
  | error => exact safe_return rfl
  | ok upstreamPort =>
  refine safe_inspect (.inspectRunner config) rfl fun runnerAnswer => ?_
  cases runnerAnswer with
  | error => exact safe_return rfl
  | ok managedRunner =>
  refine safe_inspect (.inspectManagedProcessOwnership config) rfl fun ownershipAnswer => ?_
  cases ownershipAnswer with
  | error => exact safe_return rfl
  | ok ownership =>
      refine safe_observe (fun state => ?_) (fun state holds => ?_) fun _ => safe_return rfl
      · split_ifs <;> rfl
      · split_ifs with free
        · have settled := holds_of_free holds (Option.isNone_iff_eq_none.mp free)
          exact fun _ => isTransitional_reconcile settled publicPort upstreamPort ownership
        · exact holds

theorem safe_openApp (config : OllamaTransparentConfig)
    : Safe discipline (fun held _ _ => held = none) none [] (openApp config) := by
  unfold openApp
  refine safe_beginTransition config .openApp (fun error => safe_return rfl) ?_
  intro lease kind settled
  refine safe_action (.openOfficialApp config) rfl fun answer log' _ => ?_
  cases answer with
  | error => exact safe_drop settled (safe_return rfl)
  | ok result =>
      have commits : Safe discipline
          (fun held _ (result : Result Unit) => held = none ∧ result = .ok ())
          (some lease.record) log' lease.commitExclusive :=
        safe_commitExclusive kind ⟨rfl, rfl⟩
      refine commits.bind ?_
      intro held log'' committed outcome
      obtain ⟨rfl, rfl⟩ := outcome
      exact safe_return rfl

/-- Every operation keeps the discipline and concludes as promised. -/
theorem safe_main (config : OllamaTransparentConfig) (operation : Operation)
    : Safe discipline
        (fun held log returned => held = none ∧ Concluded config log operation returned)
        none [] (main config operation) := by
  cases operation with
  | preflight =>
      exact (safe_preflight config).bind fun _ _ _ free => safe_return ⟨free, trivial⟩
  | enable request => exact (safe_enable config request).bind fun _ _ _ h => safe_return h
  | disable request => exact (safe_disable config request).bind fun _ _ _ h => safe_return h
  | status => exact (safe_status config).bind fun _ _ _ free => safe_return ⟨free, trivial⟩
  | openApp => exact (safe_openApp config).bind fun _ _ _ free => safe_return ⟨free, trivial⟩

end Transitions

/-! ## Every interleaving -/

/-- A thread that uses the controller. -/
abbrev ControllerThread := Thread ControllerState Call Call.Response Operation Returned

/-- What holds of the controller and its threads at any time. -/
structure Governed (config : OllamaTransparentConfig) (pool : ControllerPool) : Prop where
  exclusive : ∀ (i j : Nat) (one two : ControllerThread),
    pool.threads[i]? = some one → pool.threads[j]? = some two →
      one.Calls discipline → two.Calls discipline → i = j
  settled : pool.shared.activeTransition = none → isTransitional pool.shared.state = false
  concluded : ∀ (i : Nat) (thread : ControllerThread) (returned : Returned),
    pool.threads[i]? = some thread → thread.program = .done returned →
      Concluded config thread.log thread.operation returned
  nothingLeft : (∀ thread ∈ pool.threads, ∃ returned, thread.program = .done returned) →
    pool.shared.activeTransition = none

/-- Transitions under every schedule and every answer. Witness: each operation is safe on its
own, and safe programs stay orderly together.
-/
theorem transitions_governed (config : OllamaTransparentConfig)
    (actions : List (Action Call Call.Response Operation)) (n : Nat)
    : Governed config (poolAt config actions n) := by
  obtain ⟨held, orderly⟩ := orderly_run discipline
    (fun operation held log returned =>
      held = none ∧ Concluded config log operation returned)
    (main config) ControllerState.new (fun _ => rfl) rfl (safe_main config) actions n
  refine ⟨?_, ?_, ?_, ?_⟩
  · intro i j one two here there first second
    exact orderly.exclusive here there first second
  · intro free
    exact holds_of_free orderly.holds free
  · intro i thread returned here done
    exact (orderly.finished here done).2
  · intro finished
    by_contra owned
    obtain ⟨i, thread, here, holds⟩ := orderly.owner_thread owned
    obtain ⟨returned, done⟩ := finished thread (List.mem_of_getElem? here)
    exact holds (orderly.finished here done).1

end BeetleMemory.Transparent
