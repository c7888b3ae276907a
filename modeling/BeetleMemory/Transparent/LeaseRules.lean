import BeetleMemory.Transparent.Controller

/-! Rules for the controller's building blocks: what its calls leave in the log, and how the
transition lease passes through its sections.
-/

namespace BeetleMemory.Transparent

open Threads

/-- The actions that change processes or install the runner, and the probes. -/
inductive ActionKind where
  | stopOfficial
  | install
  | startUpstream
  | probeUpstream
  | startFront
  | probeFront
  | stopFront
  | stopUpstream
  | openApp
deriving DecidableEq, Repr

/-- Calls that only inspect are no actions. -/
def Call.actionKind : Call → Option ActionKind
  | .inspectPort _ | .inspectRunner _ | .inspectExecutableIdentity _ => none
  | .inspectManagedProcessOwnership _ | .isAttachedAuthoritySupported => none
  | .acquireOsTransitionLease _ => none
  | .ensureInstalled _ => some .install
  | .stopOfficialOllama _ => some .stopOfficial
  | .startManagedUpstream _ _ => some .startUpstream
  | .probeManagedUpstream _ => some .probeUpstream
  | .startTransparentFront _ _ => some .startFront
  | .probePublicFront _ => some .probeFront
  | .stopTransparentFront _ => some .stopFront
  | .stopManagedUpstream _ => some .stopUpstream
  | .openOfficialApp _ => some .openApp

def succeeds {α : Type} : Result α → Bool
  | .ok _ => true
  | .error _ => false

/-- The call was answered with a success. -/
def Call.succeeded : (c : Call) → c.Response → Bool
  | .inspectPort _, answer => succeeds answer
  | .inspectRunner _, answer | .ensureInstalled _, answer => succeeds answer
  | .inspectExecutableIdentity _, answer => succeeds answer
  | .inspectManagedProcessOwnership _, answer => succeeds answer
  | .isAttachedAuthoritySupported, answer => answer
  | .acquireOsTransitionLease _, answer => succeeds answer
  | .openOfficialApp _, answer => succeeds answer
  | .stopOfficialOllama _, answer | .startManagedUpstream _ _, answer
  | .probeManagedUpstream _, answer | .startTransparentFront _ _, answer
  | .probePublicFront _, answer | .stopTransparentFront _, answer
  | .stopManagedUpstream _, answer => succeeds answer

/-- The calls a thread has made. -/
abbrev CallLog := List (Event Call Call.Response)

/-- The actions among the calls, with their outcomes. -/
def performed (log : CallLog) : List (ActionKind × Bool) :=
  log.filterMap fun event =>
    event.request.actionKind.map (·, event.request.succeeded event.answer)

/-- Without an active transition, or while the app is opened, the recorded state is a settled
one, and only the owner of the active transition acts.
-/
def discipline : Discipline ControllerState Call TransitionLeaseRecord where
  holds state :=
    (∀ record, state.activeTransition = some record → record.kind = .openApp) →
      isTransitional state.state = false
  owner state := state.activeTransition
  guarded c := c.actionKind ≠ none

section Rules

variable {α β : Type}
variable {post : Option TransitionLeaseRecord → CallLog → β → Prop}
variable {held : Option TransitionLeaseRecord} {log : CallLog}

theorem safe_return {result : β} (h : post held log result)
    : Safe discipline post held log (pure result : Prog β) :=
  h

theorem safe_inspect (c : Call) {next : c.Response → Prog β} (inspects : c.actionKind = none)
    (later : ∀ answer, Safe discipline post held (log ++ [⟨c, answer⟩]) (next answer))
    : Safe discipline post held log (Program.request c >>= next) :=
  ⟨fun guarded => absurd inspects guarded, later⟩

theorem performed_inspect {c : Call} {answer : c.Response} (inspects : c.actionKind = none)
    : performed (log ++ [⟨c, answer⟩]) = performed log := by
  simp [performed, List.filterMap_append, inspects]

theorem safe_action (c : Call) {kind : ActionKind} {record : TransitionLeaseRecord}
    {next : c.Response → Prog β} (acts : c.actionKind = some kind)
    (later : ∀ answer log', performed log' = performed log ++ [(kind, c.succeeded answer)] →
      Safe discipline post (some record) log' (next answer))
    : Safe discipline post (some record) log (Program.request c >>= next) := by
  refine ⟨fun _ => Option.some_ne_none record, fun answer => later answer _ ?_⟩
  simp [performed, List.filterMap_append, acts]

/-- A section that keeps the discipline. -/
theorem safe_locked {body : ((c : Call) → c.Response) → ControllerState → α × ControllerState}
    {next : α → Prog β}
    (later : ∀ answers state, discipline.holds state →
      (held = none ∨ state.activeTransition = held) →
        discipline.holds (body answers state).2
          ∧ ∃ held', Passes state.activeTransition held
              (body answers state).2.activeTransition held'
            ∧ Safe discipline post held' log (next (body answers state).1))
    : Safe discipline post held log (Program.locked body >>= next) :=
  later

theorem holds_of_free {state : ControllerState} (holds : discipline.holds state)
    (free : state.activeTransition = none)
    : isTransitional state.state = false :=
  holds fun record active => by
    rw [free] at active
    cases active

/-- A transition begins, or is refused without the token. -/
theorem safe_beginTransition (config : OllamaTransparentConfig) (kind : TransitionKind)
    {next : Result TransitionLease → Prog β}
    (refused : ∀ error, Safe discipline post none log (next (.error error)))
    (begun : ∀ lease : TransitionLease, lease.record.kind = kind →
      isTransitional lease.fromState = false →
        Safe discipline post (some lease.record) log (next (.ok lease)))
    : Safe discipline post none log (beginTransition config kind >>= next) := by
  refine safe_locked fun answers state holds _ => ?_
  generalize answers (.acquireOsTransitionLease config.transitionLeasePath) = osLease
  unfold tryBeginTransition
  split
  next => exact ⟨holds, none, .inl ⟨rfl, rfl⟩, refused _⟩
  next free =>
    split_ifs
    · exact ⟨holds, none, .inl ⟨rfl, rfl⟩, refused _⟩
    · cases osLease with
      | error error => exact ⟨holds, none, .inl ⟨rfl, rfl⟩, refused error⟩
      | ok =>
          have settled := holds_of_free holds free
          refine ⟨fun opening => ?_, some ⟨state.nextLeaseId, kind⟩,
            .inr (.inl ⟨rfl, free, rfl⟩), ?_⟩
          · have same : kind = .openApp := opening _ rfl
            subst same
            exact settled
          · exact begun ⟨⟨state.nextLeaseId, kind⟩, state.state⟩ rfl settled

variable {lease : TransitionLease}

/-- A section of the owner is not refused. -/
theorem safe_owning {lost : String} {update : ControllerState → ControllerState}
    {next : Result Unit → Prog β} {held' : Option TransitionLeaseRecord}
    (kept : ∀ state, discipline.holds state → state.activeTransition = some lease.record →
      discipline.holds (update state)
        ∧ Passes (some lease.record) (some lease.record) (update state).activeTransition held')
    (later : Safe discipline post held' log (next (.ok ())))
    : Safe discipline post (some lease.record) log
        (Program.locked (fun _ => lease.owning lost update) >>= next) := by
  refine safe_locked fun _ state holds owned => ?_
  have own : state.activeTransition = some lease.record :=
    owned.resolve_left (Option.some_ne_none _)
  have granted : lease.owning lost update state = (.ok (), update state) := by
    rw [TransitionLease.owning, if_neg (not_not.mpr own)]
  rw [granted, own]
  exact ⟨(kept state holds own).1, held', (kept state holds own).2, later⟩

theorem safe_setState {next : Result Unit → Prog β} (state : OllamaTransparentState)
    (kind : lease.record.kind ≠ .openApp)
    (later : Safe discipline post (some lease.record) log (next (.ok ())))
    : Safe discipline post (some lease.record) log (lease.setState state >>= next) := by
  refine safe_owning (fun state _ own => ⟨fun opening => ?_, .inl ⟨own, rfl⟩⟩) later
  exact absurd (opening lease.record own) kind

/-- An uncommitted lease gives the token back with the state it began in. -/
theorem safe_drop {next : Unit → Prog β} (settled : isTransitional lease.fromState = false)
    (later : Safe discipline post none log (next ()))
    : Safe discipline post (some lease.record) log (lease.drop >>= next) := by
  refine safe_locked fun _ state _ owned => ?_
  have own : state.activeTransition = some lease.record :=
    owned.resolve_left (Option.some_ne_none _)
  rw [if_pos own]
  exact ⟨fun _ => settled, none, .inr (.inr ⟨own, rfl, rfl⟩), later⟩

/-- A report is committed and returned. -/
theorem safe_commitReport
    {post : Option TransitionLeaseRecord → CallLog →
      Result OllamaTransparentTransitionReport → Prop}
    {report : OllamaTransparentTransitionReport}
    (settled : isTransitional report.toState = false) (h : post none log (.ok report))
    : Safe discipline post (some lease.record) log (lease.commitReport report) := by
  refine safe_owning (fun state _ _ => ⟨fun _ => settled, ?_⟩) (safe_return h)
  exact .inr (.inr ⟨rfl, rfl, rfl⟩)

/-- An exclusive operation leaves the recorded state as it began. -/
theorem safe_commitExclusive {post : Option TransitionLeaseRecord → CallLog → Result Unit → Prop}
    (kind : lease.record.kind = .openApp) (h : post none log (.ok ()))
    : Safe discipline post (some lease.record) log lease.commitExclusive := by
  refine safe_owning (fun state holds own => ⟨fun _ => ?_, ?_⟩) (safe_return h)
  · refine holds fun record active => ?_
    rw [own, Option.some.injEq] at active
    exact active ▸ kind
  · exact .inr (.inr ⟨rfl, rfl, rfl⟩)

end Rules

end BeetleMemory.Transparent
