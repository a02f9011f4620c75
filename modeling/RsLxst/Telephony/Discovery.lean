import RsLxst.Telephony.Run

/-!
# The discovery tasks of the telephony service

An accepted `Call` spawns a task that looks for the peer and reports with the identity and the
profile of the call. Nothing stops a task once it is spawned. `DiscoveringService` is the service
with the tasks that have not been handled; their reports are handled in any order, between the
other activities of the loop.
-/

set_option autoImplicit false

namespace Lxst.Telephony

/-- What `start_outgoing_discovery` has spawned. The service does not see the number. -/
structure DiscoveryTask where
  id : Nat
  discovery : OutgoingDiscoveryState
  deriving DecidableEq

structure DiscoveringService (rns : Rns) (audio : Audio) where
  service : TelephonyService rns audio
  /-- The tasks whose report has not been handled. -/
  tasks : List DiscoveryTask
  /-- The number of tasks spawned so far. -/
  spawned : Nat
  /-- The loop has not ended. -/
  running : Bool

inductive DiscoveryActivity (rns : Rns) (audio : Audio)
  /-- An activity of the loop, other than a report. -/
  | activity (activity : Activity rns audio)
  | completed (task : DiscoveryTask) (result : Except Error RemoteTelephonyPeer) (now : Instant)
    (entropy : Nat)

def Activity.isInternal {rns : Rns} {audio : Audio} : Activity rns audio → Bool
  | .internal .. => true
  | _ => false

namespace DiscoveringService

variable {rns : Rns} {audio : Audio}

/-- The task that the activity spawns, if it does not end the loop. -/
def spawns (self : DiscoveringService rns audio) : Activity rns audio → Option DiscoveryTask
  | .control (.call remoteIdentity profile) _ _ =>
    if self.service.core.lineBusy ∨ self.service.outgoingDiscovery.isSome then none
    else some { id := self.spawned, discovery := { remoteIdentity, profile } }
  | _ => none

/-- The report of a task, as the service receives it. -/
def report (task : DiscoveryTask) (result : Except Error RemoteTelephonyPeer) (now : Instant)
    (entropy : Nat) : Activity rns audio :=
  .internal (.outgoingDiscoveryCompleted task.discovery.remoteIdentity task.discovery.profile
    result) now entropy

/-- The service after an activity; no value if the activity has not finished or cannot happen. -/
def advance (self : DiscoveringService rns audio) :
    DiscoveryActivity rns audio → Option (DiscoveringService rns audio)
  | .activity activity =>
    if self.running ∧ ¬ activity.isInternal then
      (self.service.perform activity).map fun (running, service) =>
        match self.spawns activity with
        | some task =>
          if running then
            { service, running, tasks := self.tasks ++ [task], spawned := self.spawned + 1 }
          else { self with service, running }
        | none => { self with service, running }
    else none
  | .completed task result now entropy =>
    if self.running ∧ task ∈ self.tasks then
      (self.service.perform (report task result now entropy)).map fun (running, service) =>
        { self with service, running, tasks := self.tasks.erase task }
    else none

/-- The activity finishes with this state. -/
def Advances (s : DiscoveringService rns audio) (activity : DiscoveryActivity rns audio)
    (s' : DiscoveringService rns audio) : Prop := s.advance activity = some s'

/-- A service that has spawned nothing. -/
def idle (service : TelephonyService rns audio) : DiscoveringService rns audio :=
  { service, tasks := [], spawned := 0, running := true }

end DiscoveringService

end Lxst.Telephony
