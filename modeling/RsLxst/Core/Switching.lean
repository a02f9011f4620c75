import RsLxst.Core.Handshake

/-!
# Profile switches of two peers

The two calls of `Handshake` over reliable FIFO channels, from the start of the call: the callee
answers and retries, signals are delivered in order, and either side calls `switch_profile` once
it is established. `Handshake.Enabled` is that last condition; `Handshake.Uncrossed` also asks
that no different profile is on its way to the side that switches.
-/

set_option autoImplicit false

namespace Lxst.Handshake

inductive Act
  | answer
  | retryAnswer
  | deliverToCaller
  | deliverToCallee
  | callerSwitches (profile : Profile)
  | calleeSwitches (profile : Profile)
  deriving DecidableEq, Repr

def callerSwitches (h : Handshake) (p : Profile) : Handshake :=
  { h with
    caller := (h.caller.switchProfile p).1
    toCallee := h.toCallee ++ signalsOf (h.caller.switchProfile p).2 }

def calleeSwitches (h : Handshake) (p : Profile) : Handshake :=
  { h with
    callee := (h.callee.switchProfile p).1
    toCaller := h.toCaller ++ signalsOf (h.callee.switchProfile p).2 }

/-- One action; a delivery from an empty channel does nothing. -/
def act (h : Handshake) : Act → Handshake
  | .answer => h.answer
  | .retryAnswer => h.retryAnswer
  | .deliverToCaller =>
    match h.toCaller with
    | [] => h
    | m :: rest => h.callerReceives m rest
  | .deliverToCallee =>
    match h.toCallee with
    | [] => h
    | m :: rest => h.calleeReceives m rest
  | .callerSwitches p => h.callerSwitches p
  | .calleeSwitches p => h.calleeSwitches p

/-- A side switches only once it is established. -/
def Enabled (h : Handshake) : Act → Prop
  | .callerSwitches _ => h.caller.status = .established
  | .calleeSwitches _ => h.callee.status = .established
  | _ => True

instance (h : Handshake) : DecidablePred h.Enabled
  | .callerSwitches _ => inferInstanceAs (Decidable (h.caller.status = .established))
  | .calleeSwitches _ => inferInstanceAs (Decidable (h.callee.status = .established))
  | .answer | .retryAnswer | .deliverToCaller | .deliverToCallee => isTrue trivial

/-- A switch to `p` with `inbox` in flight to the side that switches: it changes nothing, or no
profile is in flight, or the last one in flight is `p`. -/
def SwitchUncrossed (c : CallState) (inbox : List Signal) (p : Profile) : Prop :=
  c.profile = some p ∨ profilesOf inbox = [] ∨ (profilesOf inbox).getLast? = some p

instance (c : CallState) (inbox : List Signal) (p : Profile) :
    Decidable (SwitchUncrossed c inbox p) := inferInstanceAs (Decidable (_ ∨ _ ∨ _))

/-- A side switches only once it is established, and crosses no different profile. -/
def Uncrossed (h : Handshake) : Act → Prop
  | .callerSwitches p => h.caller.status = .established ∧ SwitchUncrossed h.caller h.toCaller p
  | .calleeSwitches p => h.callee.status = .established ∧ SwitchUncrossed h.callee h.toCallee p
  | _ => True

instance (h : Handshake) : DecidablePred h.Uncrossed
  | .callerSwitches _ => inferInstanceAs (Decidable (_ ∧ _))
  | .calleeSwitches _ => inferInstanceAs (Decidable (_ ∧ _))
  | .answer | .retryAnswer | .deliverToCaller | .deliverToCallee => isTrue trivial

end Lxst.Handshake
