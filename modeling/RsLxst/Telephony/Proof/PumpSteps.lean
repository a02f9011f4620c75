import RsLxst.Telephony.Proof.CaptureGate
import RsLxst.Telephony.PumpSteps

/-!
# The pump's steps

How a call of the application moves a gate (`AudioTransmitGate.Moves`), and what the pump comes to
when nothing happens between its steps: the drain of `drain_opus_stream_frames`
(`drain_undisturbed`), and then the frames that the gate lets pass (`send_undisturbed`).
-/

set_option autoImplicit false

namespace Lxst.Telephony

open Machine

/-! ## Moves of a gate -/

namespace AudioTransmitGate

/-- The update presses anew. -/
def newPress (gate : AudioTransmitGate) (serial : UInt64) (pressed : Bool) : Bool :=
  pressed && (decide (gate.serial < serial) && !gate.blocked)

/-- How a call moves the serial and the press; the index tells whether it presses anew. -/
inductive Moves (gate gate' : AudioTransmitGate) : Bool → Prop
  | stayed : gate'.serial = gate.serial → (gate.began = none → gate'.began = none) →
      Moves gate gate' false
  | lifted : gate.serial < gate'.serial → gate'.began = none → Moves gate gate' false
  | pressed (now : Instant) : gate.serial < gate'.serial → gate'.blocked = false →
      gate'.began = some now → gate'.until_ = some (now + fromMillis 750) → Moves gate gate' true

theorem update_moves (gate : AudioTransmitGate) (serial : UInt64) (pressed : Bool)
    (now : Instant) :
    Moves gate (gate.update serial pressed now).2 (gate.newPress serial pressed) := by
  have h := update_updated gate serial pressed now
  generalize gate.update serial pressed now = result at h
  have hnot (hle : serial ≤ gate.serial) : gate.newPress serial pressed = false := by
    simp [newPress, UInt64.not_lt.mpr hle]
  cases h with
  | stale pressed hstale =>
    rw [hnot (hstale.elim (fun h => h ▸ UInt64.zero_le) UInt64.le_of_lt)]
    exact .stayed rfl id
  | released hz hle =>
    rcases UInt64.le_iff_lt_or_eq.mp hle with hlt | heq
    · exact .lifted hlt rfl
    · exact .stayed heq.symm fun _ => rfl
  | blocked hz hlt hblocked =>
    have hpress : gate.newPress serial true = false := by simp [newPress, hblocked]
    rw [hpress]
    exact .lifted hlt rfl
  | pressed hlt hopen =>
    have hpress : gate.newPress serial true = true := by simp [newPress, hlt, hopen]
    rw [hpress]
    exact .pressed now hlt rfl rfl rfl
  | idle hz hs =>
    rw [hnot (UInt64.le_of_eq hs)]
    exact .stayed rfl id
  | expired hz hs =>
    rw [hnot (UInt64.le_of_eq hs)]
    exact .stayed rfl id
  | renewed begin hz hs =>
    rw [hnot (UInt64.le_of_eq hs)]
    exact .stayed rfl id

theorem close_moves (gate : AudioTransmitGate) : Moves gate gate.close false := by
  have hle := (close_closed gate).last gate.serial
  rcases UInt64.le_iff_lt_or_eq.mp hle with hlt | heq
  · exact .lifted hlt rfl
  · exact .stayed heq.symm fun _ => rfl

/-- A look at the gate leaves the serial and the press; what passes has a press. -/
theorem allows_keeps (gate : AudioTransmitGate) (now : Instant) :
    (gate.allows now).2.serial = gate.serial ∧ (gate.allows now).2.began = gate.began ∧
      ((gate.allows now).1 = true → gate.began ≠ none) := by
  have h := allows_allowed gate now
  generalize gate.allows now = result at h
  cases h with
  | allowed begin end_ hopen hbegan =>
    refine ⟨rfl, rfl, fun _ hnone => ?_⟩
    cases hbegan.symm.trans hnone
  | refused begin hbegan => exact ⟨rfl, rfl, fun h => by cases h⟩
  | idle hnone => exact ⟨rfl, rfl, fun h => by cases h⟩

/-- A new gate has no press until an update has set its serial. -/
theorem run_unpressed (calls : List GateCall) :
    (run step new calls).serial = 0 → (run step new calls).began = none := by
  refine run_invariant (I := fun gate => gate.serial = 0 → gate.began = none) step
    (fun _ => rfl) (fun gate call hgate => ?_) calls
  have hmoves {gate' : AudioTransmitGate} {press : Bool} (h : Moves gate gate' press)
      (hzero : gate'.serial = 0) : gate'.began = none := by
    cases h with
    | stayed hserial hbegan => exact hbegan (hgate (hserial ▸ hzero))
    | lifted _ hbegan => exact hbegan
    | pressed _ hlt =>
      rw [hzero] at hlt
      exact absurd hlt UInt64.not_lt_zero
  cases call with
  | update serial pressed now => exact hmoves (update_moves gate serial pressed now)
  | allows now =>
    obtain ⟨hserial, hbegan, -⟩ := allows_keeps gate now
    exact hmoves (.stayed hserial fun hnone => hbegan.trans hnone)
  | close => exact hmoves (close_moves gate)

end AudioTransmitGate

namespace Pump

variable {audio : Audio} {s : Pump audio}

/-! ## The pump undisturbed -/

/-- The pump alone takes these steps. -/
def pumped (s : Pump audio) (now : Instant) (steps : Nat) : Pump audio :=
  (List.replicate steps (.service now false false)).foldl step s

theorem pumped_add (now : Instant) (steps more : Nat) :
    s.pumped now (steps + more) = (s.pumped now steps).pumped now more := by
  unfold pumped
  rw [List.replicate_add, List.foldl_append]

/-- The channel without the stamps. -/
def channel (s : Pump audio) : Mailbox audio.Pcm :=
  { queue := s.framesRx.queue.map (·.frame), connected := s.framesRx.connected }

/-- The drain is `drainFrames`. -/
theorem draining_undisturbed {left : Nat} {taken : List (StampedFrame audio)} (now : Instant)
    (hphase : s.phase = .draining left taken) :
    ∃ steps frames sourceClosed,
      (s.pumped now steps).phase = .drained (taken ++ frames) sourceClosed ∧
        (s.pumped now steps).gateSerial = s.gateSerial ∧
          TelephonyService.drainFrames now left (some s.gate) s.channel =
            (frames.map (·.frame), some (s.pumped now steps).gate, (s.pumped now steps).channel,
              sourceClosed) := by
  induction left generalizing s taken with
  | zero =>
    refine ⟨1, [], false, ?_⟩
    simp [pumped, step, act, Pump.service, hphase, TelephonyService.drainFrames, channel]
  | succ left ih =>
    cases hqueue : s.framesRx.queue with
    | nil =>
      refine ⟨1, [], !s.framesRx.connected, ?_⟩
      simp [pumped, step, act, Pump.service, hphase, hqueue, TelephonyService.drainFrames, channel]
    | cons first queue =>
      have htaken : s.pumped now 2 = { s with
          time := s.time + 2
          gate := (s.gate.allows now).2
          framesRx.queue := queue
          phase := .draining left
            (if (s.gate.allows now).1 then taken ++ [first] else taken) } := by
        simp [pumped, List.replicate, step, act, Pump.service, hphase, hqueue, Pump.allows]
      obtain ⟨steps, frames, sourceClosed, hdrained, hserial, hframes⟩ :=
        ih (s := s.pumped now 2) (by rw [htaken])
      refine ⟨2 + steps, (if (s.gate.allows now).1 then first :: frames else frames),
        sourceClosed, ?_⟩
      rw [pumped_add]
      rw [htaken] at hdrained hserial hframes ⊢
      dsimp only at hdrained hserial hframes ⊢
      refine ⟨?_, hserial, ?_⟩
      · rw [hdrained]
        cases (s.gate.allows now).1 <;> simp
      · unfold channel at hframes ⊢
        rw [hqueue, List.map_cons, TelephonyService.drainFrames]
        dsimp only
        rw [hframes]
        cases (s.gate.allows now).1 <;> rfl

theorem flushing_undisturbed {serial : UInt64} (now : Instant)
    (hphase : s.phase = .flushing serial) :
    ∃ steps, s.pumped now steps = { s with
      time := s.time + steps
      gateSerial := serial
      framesRx.queue := []
      phase := .draining (max s.mediaFramesPerTick 1) [] } := by
  generalize hqueue : s.framesRx.queue = queue
  induction queue generalizing s with
  | nil =>
    refine ⟨1, ?_⟩
    have hempty : ({ s.framesRx with queue := [] } : Mailbox _) = s.framesRx := by rw [← hqueue]
    simp [pumped, step, act, Pump.service, hphase, hqueue, hempty]
  | cons frame queue ih =>
    have hflushed : s.pumped now 1 = { s with time := s.time + 1, framesRx.queue := queue } := by
      simp [pumped, step, act, Pump.service, hphase, hqueue]
    obtain ⟨steps, hrest⟩ := ih (s := s.pumped now 1) (by rw [hflushed]; exact hphase)
      (by rw [hflushed])
    refine ⟨1 + steps, ?_⟩
    rw [pumped_add, hrest, hflushed, Nat.add_assoc]

/-- The stream that the service holds. -/
def stream (s : Pump audio) (linkId : LinkId) (profile : Profile) :
    ActiveOpusTransmitStream audio :=
  { linkId, profile, framesRx := s.channel, gate := some s.gate, gateSerial := s.gateSerial }

/-- Undisturbed, it drains the stream as `drain_opus_stream_frames` does. -/
theorem drain_undisturbed (now : Instant) (linkId : LinkId) (profile : Profile)
    (hphase : s.phase = .idle) :
    ∃ steps frames sourceClosed,
      (s.pumped now steps).phase = .drained frames sourceClosed ∧
        (s.pumped now steps).gateSerial =
          (TelephonyService.flushOnEdge (s.stream linkId profile)).gateSerial ∧
        TelephonyService.drainFrames now (max s.mediaFramesPerTick 1)
            (TelephonyService.flushOnEdge (s.stream linkId profile)).gate
            (TelephonyService.flushOnEdge (s.stream linkId profile)).framesRx =
          (frames.map (·.frame), some (s.pumped now steps).gate, (s.pumped now steps).channel,
            sourceClosed) := by
  by_cases hedge : s.gate.serial = s.gateSerial
  · have hread : s.pumped now 2 = { s with
        time := s.time + 2
        phase := .draining (max s.mediaFramesPerTick 1) [] } := by
      simp [pumped, List.replicate, step, act, Pump.service, hphase, hedge]
    obtain ⟨steps, frames, sourceClosed, hdrained, hserial, hframes⟩ :=
      draining_undisturbed (s := s.pumped now 2) now (by rw [hread])
    have hflush : TelephonyService.flushOnEdge (s.stream linkId profile) =
        s.stream linkId profile := by
      simp [TelephonyService.flushOnEdge, stream, hedge]
    refine ⟨2 + steps, frames, sourceClosed, ?_⟩
    rw [pumped_add, hflush]
    rw [hread] at hdrained hserial hframes ⊢
    exact ⟨hdrained, hserial, hframes⟩
  · have hread : s.pumped now 2 = { s with
        time := s.time + 2
        phase := .flushing s.gate.serial } := by
      simp [pumped, List.replicate, step, act, Pump.service, hphase, hedge]
    obtain ⟨flushes, hflushed⟩ := flushing_undisturbed (s := s.pumped now 2) now (by rw [hread])
    rw [hread] at hflushed
    obtain ⟨steps, frames, sourceClosed, hdrained, hserial, hframes⟩ :=
      draining_undisturbed (s := (s.pumped now 2).pumped now flushes) now
        (by rw [hread, hflushed])
    have hflush : TelephonyService.flushOnEdge (s.stream linkId profile) =
        { s.stream linkId profile with framesRx.queue := [], gateSerial := s.gate.serial } := by
      simp [TelephonyService.flushOnEdge, stream, hedge]
    refine ⟨2 + flushes + steps, frames, sourceClosed, ?_⟩
    rw [pumped_add, pumped_add, hflush]
    rw [hread, hflushed] at hdrained hserial hframes ⊢
    exact ⟨hdrained, hserial, hframes⟩

theorem queueing_undisturbed {frames : List (StampedFrame audio)} {sourceClosed : Bool}
    (now : Instant) (hphase : s.phase = .queueing frames sourceClosed) :
    ∃ steps, (s.pumped now steps).phase = (if sourceClosed then .removed else .idle) ∧
      (s.pumped now steps).queued = s.queued ++ frames.map (·, s.serialSetAt) := by
  induction frames generalizing s with
  | nil =>
    refine ⟨1, ?_⟩
    simp [pumped, step, act, Pump.service, hphase, finish]
  | cons frame frames ih =>
    have hqueued : s.pumped now 1 = { s with
        time := s.time + 1
        queued := s.queued ++ [(frame, s.serialSetAt)]
        phase := .queueing frames sourceClosed } := by
      simp [pumped, step, act, Pump.service, hphase]
    obtain ⟨steps, hend, hrest⟩ := ih (s := s.pumped now 1) (by rw [hqueued])
    refine ⟨1 + steps, ?_⟩
    rw [pumped_add]
    refine ⟨hend, hrest.trans ?_⟩
    rw [hqueued, List.append_assoc]
    rfl

/-- Undisturbed, it queues the frames that the gate lets pass, as `send_opus_frames` does. -/
theorem send_undisturbed {frames : List (StampedFrame audio)} {sourceClosed : Bool} (now : Instant)
    (hphase : s.phase = .drained frames sourceClosed) :
    ∃ steps, (s.pumped now steps).phase = (if sourceClosed then .removed else .idle) ∧
      (s.pumped now steps).queued = s.queued ++
        if (s.gate.allows now).1 then frames.map (·, s.serialSetAt) else [] := by
  obtain ⟨hserial, -⟩ := s.gate.allows_keeps now
  cases frames with
  | nil =>
    refine ⟨1, ?_⟩
    simp [pumped, step, act, Pump.service, hphase, finish]
  | cons frame frames =>
    cases hallowed : (s.gate.allows now).1 with
    | false =>
      refine ⟨3, ?_⟩
      simp [pumped, List.replicate, step, act, Pump.service, hphase, Pump.allows, hallowed, finish]
    | true =>
      have hchecked : s.pumped now 4 = { s with
          time := s.time + 4
          gate := (s.gate.allows now).2
          phase := .queueing (frame :: frames) sourceClosed } := by
        simp [pumped, List.replicate, step, act, Pump.service, hphase, Pump.allows, hallowed,
          hserial]
      obtain ⟨steps, hend, hqueued⟩ := queueing_undisturbed (s := s.pumped now 4) now
        (by rw [hchecked])
      refine ⟨4 + steps, ?_⟩
      rw [pumped_add]
      refine ⟨hend, hqueued.trans ?_⟩
      rw [hchecked]
      rfl

end Pump

end Lxst.Telephony
