import RsLxst.Telephony.Proof.Runtime
import RsLxst.Telephony.Run

/-!
# Driving the link events

A call of `try_drive_ready` is a sequence of turns of `try_drive_once`. `driveTurns` is the loop
that records them, and `driveLoop_eq` says that the code's loop returns what its turns determine:
the first error, or else the steps that the turns completed. Steps completed before an error are
therefore lost (`tryDriveReady_delivers_iff`).
-/

set_option autoImplicit false

namespace Lxst.Telephony.TelephonyRnsEndpoint

variable {rns : Rns}

/-! ## Turns -/

/-- The step that a turn from this state completes: its event was applied and all its commands were
executed. -/
def completedStep (line : Line rns) : Option TelephonyDriveStep :=
  (tryDriveOnce line).1.toOption.join

/-- The error that a turn from this state ends with. -/
def turnError (line : Line rns) : Option Error :=
  match (tryDriveOnce line).1 with
  | .error error => some error
  | .ok _ => none

/-- The steps completed by the turns that start in these states. -/
def completed (turns : List (Line rns)) : List TelephonyDriveStep := turns.filterMap completedStep

def firstError (turns : List (Line rns)) : Option Error := turns.findSome? turnError

/-- What a call with these turns returns. -/
def outcome (turns : List (Line rns)) : Except Error (List TelephonyDriveStep) :=
  match firstError turns with
  | some error => .error error
  | none => .ok (completed turns)

/-- `driveAll`, with its turns. -/
def driveAllTurns : (fuel : Nat) → Line rns → Option (List (Line rns) × Line rns)
  | 0, _ => none
  | fuel + 1, line =>
    match tryDriveOnce line with
    | (.ok (some _), next) =>
      (driveAllTurns fuel next).map fun (turns, last) => (line :: turns, last)
    | (_, next) => some ([line], next)

/-- `driveLoop`, with its turns. -/
def driveTurns : (fuel : Nat) → Line rns → Option (List (Line rns) × Line rns)
  | 0, _ => none
  | fuel + 1, line => do
    let (progressed, line) ← pumpAll fuel line false
    let (turns, line) ← driveAllTurns fuel line
    if (firstError turns).isNone ∧ (progressed ∨ completed turns ≠ []) then
      (driveTurns fuel line).map fun (more, last) => (turns ++ more, last)
    else some (turns, line)

theorem firstError_eq_none_iff {turns : List (Line rns)} :
    firstError turns = none ↔ ∀ line ∈ turns, turnError line = none := List.findSome?_eq_none_iff

theorem completed_eq_nil_iff {turns : List (Line rns)} :
    completed turns = [] ↔ ∀ line ∈ turns, completedStep line = none := List.filterMap_eq_nil_iff

/-- A turn that ends with an error completes nothing. -/
theorem turn_of_error {line next : Line rns} {error : Error}
    (h : tryDriveOnce line = (.error error, next)) :
    turnError line = some error ∧ completedStep line = none := by
  simp [turnError, completedStep, h, Except.toOption]

theorem turn_of_idle {line next : Line rns} (h : tryDriveOnce line = (.ok none, next)) :
    turnError line = none ∧ completedStep line = none := by
  simp [turnError, completedStep, h, Except.toOption]

theorem turn_of_step {line next : Line rns} {step : TelephonyDriveStep}
    (h : tryDriveOnce line = (.ok (some step), next)) :
    turnError line = none ∧ completedStep line = some step := by
  simp [turnError, completedStep, h, Except.toOption]

theorem outcome_singleton (line : Line rns) :
    outcome [line] = match turnError line with
      | some error => .error error
      | none => .ok (completed [line]) := by
  cases h : turnError line <;> simp [outcome, firstError, h]

/-- Turns without an error are completed before the ones that follow. -/
theorem outcome_append {turns : List (Line rns)} (h : firstError turns = none)
    (more : List (Line rns)) :
    outcome (turns ++ more) = (outcome more).map (completed turns ++ ·) := by
  have hmore : firstError (turns ++ more) = firstError more := by
    rw [firstError, List.findSome?_append, ← firstError, h]
    rfl
  rw [outcome, outcome, hmore]
  cases firstError more with
  | some error => rfl
  | none => simp [completed, Except.map]

/-- A turn applies one event to the core, or leaves the core alone. -/
theorem tryDriveOnce_core (line : Line rns) :
    (tryDriveOnce line).2.core = line.core ∧ completedStep line = none ∧
        (∀ event, (tryRecvLinkEvent line.endpoint).1 ≠ .ok (some event)) ∨
      ∃ event, (tryRecvLinkEvent line.endpoint).1 = .ok (some event) ∧
        TelephonyRuntimeCore.CallStep line.core event ((completedStep line).map (·.step.commands))
          (tryDriveOnce line).2.core ∧
        (turnError line = none → completedStep line ≠ none) := by
  unfold completedStep turnError tryDriveOnce tryStep
  rcases tryRecvLinkEvent line.endpoint with ⟨error | _ | event, endpoint⟩
  · exact .inl ⟨rfl, rfl, nofun⟩
  · exact .inl ⟨rfl, rfl, nofun⟩
  refine .inr ⟨event, rfl, ?_⟩
  have hstep := line.core.acceptLinkEvent_step rns.readValue event
  dsimp only
  generalize line.core.acceptLinkEvent rns.readValue event = accepted at hstep ⊢
  rcases accepted with ⟨error | step, core⟩
  · exact ⟨hstep, nofun⟩
  dsimp only [Except.map]
  rcases executeCommands step.commands endpoint with ⟨error | effects, endpoint⟩
  · exact ⟨hstep.of_failed, nofun⟩
  · exact ⟨hstep, fun _ => nofun⟩

/-! ## Induction over the turns -/

theorem pumpAll_core {fuel : Nat} {line line' : Line rns} {progressed progressed' : Bool}
    (h : pumpAll fuel line progressed = some (progressed', line')) : line'.core = line.core := by
  induction fuel generalizing line progressed with
  | zero => cases h
  | succ fuel ih =>
    rw [pumpAll] at h
    dsimp only at h
    split at h
    · exact (ih h).trans rfl
    · cases h
      rfl

section
variable {P : TelephonyRuntimeCore → List (Line rns) → TelephonyRuntimeCore → Prop}
  (hnil : ∀ core, P core [] core)
  (hturn : ∀ (line : Line rns) (turns : List (Line rns)) (core : TelephonyRuntimeCore),
    P (tryDriveOnce line).2.core turns core → P line.core (line :: turns) core)

include hturn

theorem driveAllTurns_induction {fuel : Nat} {line last : Line rns} {turns more : List (Line rns)}
    {core : TelephonyRuntimeCore} (h : driveAllTurns fuel line = some (turns, last))
    (hmore : P last.core more core) : P line.core (turns ++ more) core := by
  induction fuel generalizing line turns with
  | zero => cases h
  | succ fuel ih =>
    unfold driveAllTurns at h
    split at h
    · rename_i hstep
      obtain ⟨⟨rest, last'⟩, hrest, hcons⟩ := Option.map_eq_some_iff.mp h
      cases hcons
      exact hturn line _ core (by rw [hstep]; exact ih hrest)
    · rename_i hend
      cases h
      exact hturn line _ core (by rw [hend]; exact hmore)

include hnil

/-- What each turn does to the core, a call does. -/
theorem driveTurns_induction {fuel : Nat} {line last : Line rns} {turns : List (Line rns)}
    (h : driveTurns fuel line = some (turns, last)) : P line.core turns last.core := by
  induction fuel generalizing line turns with
  | zero => cases h
  | succ fuel ih =>
    unfold driveTurns at h
    obtain ⟨⟨progressed, line₁⟩, hpump, h⟩ := Option.bind_eq_some_iff.mp h
    obtain ⟨⟨turns₁, line₂⟩, hturns, h⟩ := Option.bind_eq_some_iff.mp h
    rw [← pumpAll_core hpump]
    dsimp only at h
    split at h
    · obtain ⟨⟨more, last'⟩, hmore, hcons⟩ := Option.map_eq_some_iff.mp h
      cases hcons
      exact driveAllTurns_induction hturn hturns (ih hmore)
    · cases h
      have hall := driveAllTurns_induction hturn hturns (hnil last.core)
      rwa [List.append_nil] at hall

end

/-! ## The loop returns what its turns determine -/

theorem driveAll_eq (fuel : Nat) (line : Line rns) (driven : List TelephonyDriveStep)
    (progressed : Bool) :
    driveAll fuel line driven progressed =
      (driveAllTurns fuel line).map fun (turns, last) =>
        ((outcome turns).map fun steps => (driven ++ steps, progressed || !steps.isEmpty),
          last) := by
  induction fuel generalizing line driven progressed with
  | zero => rfl
  | succ fuel ih =>
    unfold driveAll driveAllTurns
    rcases h : tryDriveOnce line with ⟨error | _ | step, next⟩
    · simp [outcome_singleton, (turn_of_error h).1, Except.map]
    · simp [outcome_singleton, (turn_of_idle h).1, completed, (turn_of_idle h).2, Except.map]
    · obtain ⟨hok, hstep⟩ := turn_of_step h
      have hcons (turns : List (Line rns)) :
          outcome (line :: turns) = (outcome turns).map (step :: ·) := by
        rw [← List.singleton_append, outcome_append (by simp [firstError, hok])]
        simp [completed, hstep]
      dsimp only
      rw [ih, Option.map_map]
      congr 1
      funext ⟨turns, last⟩
      simp only [Function.comp_apply, hcons]
      cases outcome turns <;> simp [Except.map]

theorem driveLoop_eq (fuel : Nat) (line : Line rns) (driven : List TelephonyDriveStep) :
    driveLoop fuel line driven =
      (driveTurns fuel line).map fun (turns, last) => ((outcome turns).map (driven ++ ·), last) := by
  induction fuel generalizing line driven with
  | zero => rfl
  | succ fuel ih =>
    unfold driveLoop driveTurns
    rcases pumpAll fuel line false with _ | ⟨pumped, line⟩
    · rfl
    simp only [Option.bind_eq_bind, Option.bind_some, driveAll_eq]
    rcases driveAllTurns fuel line with _ | ⟨turns, line⟩
    · rfl
    simp only [Option.map_some, Option.bind_some]
    cases herror : firstError turns with
    | some error => simp [outcome, herror, Except.map]
    | none =>
      have hok : outcome turns = .ok (completed turns) := by simp [outcome, herror]
      simp only [hok, Except.map, Option.isNone_none, true_and]
      by_cases hprogress : pumped = true ∨ completed turns ≠ []
      · rw [if_pos (by simpa using hprogress), if_pos hprogress, ih, Option.map_map]
        congr 1
        funext ⟨more, last⟩
        simp only [Function.comp_apply, outcome_append herror]
        cases outcome more <;> simp [Except.map]
      · rw [if_neg (by simpa using hprogress), if_neg hprogress]
        simp [hok]

/-- A call returns what its turns determine. -/
theorem tryDriveReady_eq (fuel : Nat) (line : Line rns) :
    tryDriveReady fuel line =
      (driveTurns fuel line).map fun (turns, last) => (outcome turns, last) := by
  rw [tryDriveReady, driveLoop_eq]
  congr 1
  funext ⟨turns, last⟩
  cases h : outcome turns <;> simp [Except.map, h]

/-! ## Delivery -/

/-- The steps that the caller gets. -/
def returned : Except Error (List TelephonyDriveStep) → List TelephonyDriveStep
  | .ok steps => steps
  | .error _ => []

/-- The service events for the commands of a step. -/
def stepEvents (audio : Audio) (step : TelephonyDriveStep) : List (TelephonyServiceEvent audio) :=
  serviceEventsFromCommands step.step.commands

/-- Every step that a turn completed is returned, with the service events of its commands. -/
structure Delivered (audio : Audio) (turns : List (Line rns))
    (result : Except Error (List TelephonyDriveStep)) : Prop where
  steps : (completed turns).Sublist (returned result)
  events : ((completed turns).flatMap (stepEvents audio)).Sublist
    ((returned result).flatMap (stepEvents audio))

/-- No turn fails after one that completed a step. -/
def Unbroken (turns : List (Line rns)) : Prop :=
  (∀ line ∈ turns, turnError line = none) ∨ ∀ line ∈ turns, completedStep line = none

theorem delivered_iff (audio : Audio) (turns : List (Line rns)) :
    Delivered audio turns (outcome turns) ↔ Unbroken turns := by
  rw [Unbroken, ← firstError_eq_none_iff, ← completed_eq_nil_iff, outcome]
  cases herror : firstError turns with
  | none => exact ⟨fun _ => .inl rfl, fun _ => ⟨.refl _, .refl _⟩⟩
  | some error =>
    constructor
    · intro h
      exact .inr (List.sublist_nil.mp h.steps)
    · intro h
      have hnil := h.resolve_left (by simp)
      exact ⟨by rw [hnil]; exact .refl _, by rw [hnil]; exact .refl _⟩

/-- **A call returns every step that it completed** exactly if no turn of it fails after one that
completed a step. -/
theorem tryDriveReady_delivers_iff (audio : Audio) (fuel : Nat) (line last : Line rns)
    (result : Except Error (List TelephonyDriveStep))
    (h : tryDriveReady fuel line = some (result, last)) :
    ∃ turns, driveTurns fuel line = some (turns, last) ∧
      (Delivered audio turns result ↔ Unbroken turns) := by
  rw [tryDriveReady_eq, Option.map_eq_some_iff] at h
  obtain ⟨⟨turns, last'⟩, hturns, hresult⟩ := h
  cases hresult
  exact ⟨turns, hturns, delivered_iff audio turns⟩

/-- A caller that is let in, and then a packet for a link that the line does not know. -/
def ringThenUnknown : Line Rns.plain :=
  (TelephonyService.calledBy 8 [([], .replicate 16 2)]).line

theorem tryDriveReady_delivers_iff_ring :
    ∃ result last turns, tryDriveReady 6 ringThenUnknown = some (result, last) ∧
      driveTurns 6 ringThenUnknown = some (turns, last) ∧
        (Delivered .plain turns result ↔ Unbroken turns) := by
  have hreturns : (tryDriveReady 6 ringThenUnknown).isSome = true := by decide
  obtain ⟨⟨result, last⟩, h⟩ := Option.isSome_iff_exists.mp hreturns
  obtain ⟨turns, hturns, hiff⟩ := tryDriveReady_delivers_iff .plain 6 ringThenUnknown last result h
  exact ⟨result, last, turns, h, hturns, hiff⟩

/-- The packet's error takes the ring of the caller with it. -/
theorem tryDriveReady_loses_ring :
    ¬ ∀ (rns : Rns) (audio : Audio) (fuel : Nat) (line last : Line rns) (turns : List (Line rns))
      (result : Except Error (List TelephonyDriveStep)),
      tryDriveReady fuel line = some (result, last) →
        driveTurns fuel line = some (turns, last) → Delivered audio turns result := fun hall => by
  have hsteps : (driveTurns 6 ringThenUnknown).map (fun turns => (completed turns.1).length) =
      some 2 := by decide
  have herror : (driveTurns 6 ringThenUnknown).map (fun turns => firstError turns.1) =
      some (some .unknownLink) := by decide
  rw [Option.map_eq_some_iff] at hsteps
  obtain ⟨⟨turns, last⟩, hturns, hlength⟩ := hsteps
  rw [hturns, Option.map_some, Option.some_inj] at herror
  have hresult : tryDriveReady 6 ringThenUnknown = some (outcome turns, last) := by
    rw [tryDriveReady_eq, hturns]
    rfl
  have hlost := (hall _ .plain _ _ _ _ _ hresult hturns).steps
  rw [outcome, herror, returned, List.sublist_nil] at hlost
  rw [hlost] at hlength
  cases hlength

end Lxst.Telephony.TelephonyRnsEndpoint

namespace Lxst.Telephony.TelephonyService

open TelephonyRnsEndpoint (driveTurns outcome)

variable {rns : Rns} {audio : Audio} {s s' : TelephonyService rns audio}

/-- `drive_ready` publishes the outcome of its turns. -/
theorem driveReady_turns {fuel : Nat} {now : Instant} {continues : Bool}
    (h : driveReady fuel now s = some (continues, s')) :
    ∃ turns last, driveTurns fuel s.line = some (turns, last) ∧
      publishDriven (outcome turns) now { s with endpoint := last.endpoint, core := last.core } =
        (continues, s') := by
  obtain ⟨⟨result, last⟩, hdriven, hpublished⟩ := Option.map_eq_some_iff.mp h
  rw [TelephonyRnsEndpoint.tryDriveReady_eq] at hdriven
  obtain ⟨⟨turns, last'⟩, hturns, houtcome⟩ := Option.map_eq_some_iff.mp hdriven
  cases houtcome
  exact ⟨turns, last, hturns, hpublished⟩

end Lxst.Telephony.TelephonyService
