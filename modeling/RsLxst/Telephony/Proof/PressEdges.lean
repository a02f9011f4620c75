import RsLxst.Telephony.Proof.PumpSteps

/-!
# Audio and the edges of the push-to-talk gate

A frame crosses an edge if it is queued although the current serial was set after it was enqueued.
The fence has two gaps. A press between the drain's read of the serial and the send's lets the
frames of the drain through, since the send compares with the serial that it reads itself; and
nothing is checked between the last check and the queueing. A run that is `Clean`, that is, without
a press in the first gap and without an edge in the second while there are frames, keeps `Inv` and
crosses no edge; from every other step the pump alone goes on to cross one.
-/

set_option autoImplicit false

namespace Lxst.Telephony.Pump

open Machine

variable {audio : Audio} {s : Pump audio}

/-! ## The gaps of the fence -/

/-- The frames that the drain has, or may still take from the channel as it is. -/
def inHand (s : Pump audio) : List (StampedFrame audio) :=
  match s.phase with
  | .serialRead serial =>
    if serial = s.gateSerial then s.framesRx.queue.take (max s.mediaFramesPerTick 1) else []
  | .draining left frames => frames ++ s.framesRx.queue.take left
  | .received left frames frame => frames ++ frame :: s.framesRx.queue.take left
  | .drained frames _ => frames
  | _ => []

/-- The frames that have passed the last check. -/
def checked (s : Pump audio) : List (StampedFrame audio) :=
  match s.phase with
  | .queueing frames _ => frames
  | _ => []

def setsSerial (s : Pump audio) (action : PumpAction audio) : Bool :=
  (s.act action).gate.serial ≠ s.gate.serial

def newPress (s : Pump audio) : PumpAction audio → Bool
  | .update serial pressed _ => s.gate.newPress serial pressed
  | _ => false

/-- No new press while the drain has frames, and no new serial while frames are being queued. -/
def Clean (s : Pump audio) (action : PumpAction audio) : Prop :=
  (s.newPress action = true → s.inHand.isEmpty = true) ∧
    (s.setsSerial action = true → s.checked.isEmpty = true)

instance (s : Pump audio) (action : PumpAction audio) : Decidable (s.Clean action) :=
  inferInstanceAs (Decidable (_ ∧ _))

/-- A stream that has been started with a gate that the application may have used before, and with
frames that may be in the channel already. -/
structure Started (s : Pump audio) : Prop where
  phase : s.phase = .idle
  gateSerial : s.gateSerial = 0
  queued : s.queued = []
  gate : ∃ calls, s.gate = run AudioTransmitGate.step .new calls
  setBefore : s.serialSetAt < s.time
  enqueuedBefore : ∀ frame ∈ s.framesRx.queue, frame.enqueuedAt < s.time

/-- Every frame was enqueued after the serial was set that was current when it was queued. -/
def Uncrossed (s : Pump audio) : Prop := ∀ sent ∈ s.queued, sent.2 < sent.1.enqueuedAt

/-! ## The invariant -/

/-- Enqueued since the current serial was set. -/
def Fresh (s : Pump audio) (frames : List (StampedFrame audio)) : Prop :=
  ∀ frame ∈ frames, s.serialSetAt < frame.enqueuedAt

theorem Fresh.mono {frames more : List (StampedFrame audio)} (h : s.Fresh more)
    (hsub : ∀ frame ∈ frames, frame ∈ more) : s.Fresh frames :=
  fun frame hframe => h frame (hsub frame hframe)

/-- These are fresh, or the gate lets nothing pass until a new press. -/
def Fenced (s : Pump audio) (frames : List (StampedFrame audio)) : Prop :=
  s.Fresh frames ∨ s.gate.began = none

/-- What the serials that the phase has read say of the gate. -/
def Serials (s : Pump audio) : PumpPhase audio → Prop
  | .serialRead serial | .flushing serial => s.gateSerial ≤ serial ∧ serial ≤ s.gate.serial
  | .serialCaptured serial frames _ | .encoded serial frames _ =>
    serial ≤ s.gate.serial ∧ (serial = s.gate.serial → s.Fenced frames)
  | .allowed serial frames _ =>
    serial ≤ s.gate.serial ∧ (serial = s.gate.serial → s.Fresh frames)
  | _ => True

/-- Frames that nothing stops any more are fresh, and the others are fenced as long as the serial is
the one that they will be checked against. -/
structure Inv (s : Pump audio) : Prop where
  uncrossed : s.Uncrossed
  le : s.gateSerial ≤ s.gate.serial
  channel : s.gateSerial = s.gate.serial → s.Fenced s.framesRx.queue
  hand : s.Fenced s.inHand
  serials : s.Serials s.phase
  checked : s.Fresh s.checked

theorem Fenced.mono {frames more : List (StampedFrame audio)} (h : s.Fenced more)
    (hsub : ∀ frame ∈ frames, frame ∈ more) : s.Fenced frames :=
  h.imp_left fun hfresh => hfresh.mono hsub

theorem Fenced.tail {frame : StampedFrame audio} {frames : List (StampedFrame audio)}
    (h : s.Fenced (frame :: frames)) : s.Fenced frames :=
  h.mono fun _ => List.mem_cons_of_mem frame

theorem fresh_nil : s.Fresh [] := fun _ h => by cases h

theorem fenced_nil : s.Fenced [] := .inl fresh_nil

theorem Started.inv (h : Started s) : Inv s := by
  obtain ⟨calls, hgate⟩ := h.gate
  have hhand : s.inHand = [] := by rw [inHand, h.phase]
  have hchecked : s.checked = [] := by rw [Pump.checked, h.phase]
  refine ⟨?_, ?_, fun hserial => .inr ?_, ?_, ?_, ?_⟩
  · unfold Uncrossed
    rw [h.queued]
    intro sent hsent
    cases hsent
  · rw [h.gateSerial]
    exact UInt64.zero_le
  · rw [h.gateSerial, hgate] at hserial
    rw [hgate]
    exact AudioTransmitGate.run_unpressed calls hserial.symm
  · rw [hhand]
    exact fenced_nil
  · rw [h.phase]
    trivial
  · rw [hchecked]
    exact fresh_nil

/-! ## The application and the source -/

/-- What the phase has read stays true while the serial only grows, and while it does not grow the
frames stay fenced. -/
theorem Serials.mono {s' : Pump audio} {phase : PumpPhase audio} (h : s.Serials phase)
    (hgateSerial : s'.gateSerial = s.gateSerial) (hle : s.gate.serial ≤ s'.gate.serial)
    (hfresh : s'.gate.serial = s.gate.serial → ∀ frames, s.Fresh frames → s'.Fresh frames)
    (hfenced : s'.gate.serial = s.gate.serial → ∀ frames, s.Fenced frames → s'.Fenced frames) :
    s'.Serials phase := by
  have hstayed {serial : UInt64} (hread : serial ≤ s.gate.serial)
      (hcurrent : serial = s'.gate.serial) : s'.gate.serial = s.gate.serial :=
    UInt64.le_antisymm (hcurrent ▸ hread) hle
  cases phase with
  | serialRead serial => exact ⟨hgateSerial ▸ h.1, UInt64.le_trans h.2 hle⟩
  | flushing serial => exact ⟨hgateSerial ▸ h.1, UInt64.le_trans h.2 hle⟩
  | serialCaptured serial frames sourceClosed =>
    refine ⟨UInt64.le_trans h.1 hle, fun hcurrent => ?_⟩
    have heq := hstayed h.1 hcurrent
    exact hfenced heq frames (h.2 (hcurrent.trans heq))
  | encoded serial frames sourceClosed =>
    refine ⟨UInt64.le_trans h.1 hle, fun hcurrent => ?_⟩
    have heq := hstayed h.1 hcurrent
    exact hfenced heq frames (h.2 (hcurrent.trans heq))
  | allowed serial frames sourceClosed =>
    refine ⟨UInt64.le_trans h.1 hle, fun hcurrent => ?_⟩
    have heq := hstayed h.1 hcurrent
    exact hfresh heq frames (h.2 (hcurrent.trans heq))
  | _ => trivial

/-- The serial stays. -/
theorem Inv.setGate_stayed {gate : AudioTransmitGate} (h : Inv s)
    (hserial : gate.serial = s.gate.serial) (hbegan : s.gate.began = none → gate.began = none) :
    Inv (s.setGate gate) := by
  have hgate : (s.setGate gate).gate.serial = s.gate.serial := hserial
  have hset : (s.setGate gate).serialSetAt = s.serialSetAt := if_pos hserial
  have hfresh (frames : List (StampedFrame audio)) (hold : s.Fresh frames) :
      (s.setGate gate).Fresh frames := by
    intro frame hframe
    rw [hset]
    exact hold frame hframe
  have hfenced (frames : List (StampedFrame audio)) (hold : s.Fenced frames) :
      (s.setGate gate).Fenced frames := hold.imp (hfresh frames) hbegan
  refine ⟨h.uncrossed, ?_, ?_, hfenced _ h.hand, ?_, hfresh _ h.checked⟩
  · rw [hgate]
    exact h.le
  · rw [hgate]
    intro hcurrent
    exact hfenced _ (h.channel hcurrent)
  · exact h.serials.mono rfl (UInt64.le_of_eq hgate.symm) (fun _ => hfresh) fun _ => hfenced

/-- A new serial. -/
theorem Inv.setGate_lt {gate : AudioTransmitGate} (h : Inv s) (hlt : s.gate.serial < gate.serial)
    (hhand : (s.setGate gate).Fenced s.inHand) (hchecked : s.checked = []) :
    Inv (s.setGate gate) := by
  have hne {serial : UInt64} (hle : serial ≤ s.gate.serial) : gate.serial ≠ serial := by
    intro heq
    rw [← heq] at hle
    exact UInt64.not_le.mpr hlt hle
  have hgate : gate.serial ≠ s.gate.serial := hne (UInt64.le_refl _)
  refine ⟨h.uncrossed, UInt64.le_trans h.le (UInt64.le_of_lt hlt), ?_, hhand, ?_, ?_⟩
  · intro hcurrent
    exact absurd hcurrent.symm (hne h.le)
  · exact h.serials.mono rfl (UInt64.le_of_lt hlt) (fun heq => absurd heq hgate) fun heq =>
      absurd heq hgate
  · show (s.setGate gate).Fresh s.checked
    rw [hchecked]
    exact fresh_nil

theorem Inv.setGate {gate : AudioTransmitGate} {press : Bool} (h : Inv s)
    (hmoves : s.gate.Moves gate press) (hpress : press = true → s.inHand = [])
    (hserial : gate.serial ≠ s.gate.serial → s.checked = []) : Inv (s.setGate gate) := by
  have hne (hlt : s.gate.serial < gate.serial) : gate.serial ≠ s.gate.serial := by
    intro heq
    rw [heq] at hlt
    exact UInt64.lt_irrefl _ hlt
  cases hmoves with
  | stayed hstayed hbegan => exact h.setGate_stayed hstayed hbegan
  | lifted hlt hbegan => exact h.setGate_lt hlt (.inr hbegan) (hserial (hne hlt))
  | pressed now hlt =>
    refine h.setGate_lt hlt ?_ (hserial (hne hlt))
    rw [hpress rfl]
    exact fenced_nil

/-- The source enqueues. -/
def push (s : Pump audio) (frame : StampedFrame audio) : Pump audio :=
  { s with framesRx.queue := s.framesRx.queue ++ [frame] }

theorem mem_push_inHand {frame new : StampedFrame audio} (h : frame ∈ (s.push new).inHand) :
    frame ∈ s.inHand ∨ frame = new := by
  have htake (n : Nat) (hframe : frame ∈ (s.framesRx.queue ++ [new]).take n) :
      frame ∈ s.framesRx.queue.take n ∨ frame = new := by
    rw [List.take_append, List.mem_append] at hframe
    exact hframe.imp_right fun hnew => List.mem_singleton.mp (List.mem_of_mem_take hnew)
  unfold inHand push at *
  cases hphase : s.phase with
  | serialRead serial =>
    rw [hphase] at h
    dsimp only at h ⊢
    by_cases hsame : serial = s.gateSerial
    · rw [if_pos hsame] at h ⊢
      exact htake _ h
    · rw [if_neg hsame] at h
      cases h
  | draining left frames =>
    rw [hphase] at h
    simp only [List.mem_append, or_assoc] at h ⊢
    exact h.imp_right fun hrest => htake _ hrest
  | received left frames first =>
    rw [hphase] at h
    simp only [List.mem_append, List.mem_cons, or_assoc] at h ⊢
    exact h.imp_right fun hrest => hrest.imp_right fun hrest => htake _ hrest
  | drained frames sourceClosed =>
    rw [hphase] at h
    exact .inl h
  | _ =>
    rw [hphase] at h
    cases h

/-- A frame that is enqueued now is fresh. -/
theorem Inv.push (h : Inv s) {frame : StampedFrame audio}
    (hnew : s.serialSetAt < frame.enqueuedAt) : Inv (s.push frame) := by
  refine ⟨h.uncrossed, h.le, fun hcurrent => ?_, ?_, h.serials, h.checked⟩
  · refine (h.channel hcurrent).imp_left fun hfresh old hold => ?_
    rcases List.mem_append.mp hold with hold | hold
    · exact hfresh old hold
    · rw [List.mem_singleton.mp hold]
      exact hnew
  · refine h.hand.imp_left fun hfresh old hold => ?_
    rcases mem_push_inHand hold with hold | rfl
    · exact hfresh old hold
    · exact hnew

/-! ## The pump -/

/-- A look at the gate in the middle of a step. -/
theorem allows_keeps (s : Pump audio) (now : Instant) (contended : Bool) :
    (s.allows now contended).2.serial = s.gate.serial ∧
      (s.allows now contended).2.began = s.gate.began ∧
        ((s.allows now contended).1 = true → s.gate.began ≠ none) := by
  unfold allows
  cases contended with
  | true => exact ⟨rfl, rfl, fun h => by cases h⟩
  | false => exact AudioTransmitGate.allows_keeps s.gate now

theorem Inv.finish (h : Inv s) (sourceClosed : Bool) : Inv (s.finish sourceClosed) := by
  cases sourceClosed <;> exact ⟨h.uncrossed, h.le, h.channel, fenced_nil, trivial, fresh_nil⟩

theorem Inv.removed (h : Inv s) : Inv { s with phase := .removed } :=
  ⟨h.uncrossed, h.le, h.channel, fenced_nil, trivial, fresh_nil⟩

/-- A look at the gate; the frames that it lets pass are fresh if they were fenced. -/
theorem Inv.allows (h : Inv s) (now : Instant) (contended : Bool) :
    Inv { s with gate := (s.allows now contended).2 } ∧
      ∀ frames, (s.allows now contended).1 = true → s.Fenced frames → s.Fresh frames := by
  obtain ⟨hserial, hbegan, hpress⟩ := s.allows_keeps now contended
  refine ⟨?_, fun frames hallowed hfenced => hfenced.resolve_right (hpress hallowed)⟩
  have hset : s.setGate (s.allows now contended).2 =
      { s with gate := (s.allows now contended).2 } := by
    unfold Pump.setGate
    rw [if_pos hserial]
  rw [← hset]
  exact h.setGate_stayed hserial fun hnone => hbegan.trans hnone

/-- The step to a phase that lets nothing more through. -/
theorem Inv.setPhase (h : Inv s) {phase : PumpPhase audio}
    (hhand : s.Fenced ({ s with phase } : Pump audio).inHand) (hserials : s.Serials phase)
    (hchecked : s.Fresh ({ s with phase } : Pump audio).checked) : Inv { s with phase } :=
  ⟨h.uncrossed, h.le, h.channel, hhand, hserials, hchecked⟩

/-- The gate is asked about the received frame. -/
theorem Inv.judged (h : Inv s) {left : Nat} {frames : List (StampedFrame audio)}
    {frame : StampedFrame audio} (hphase : s.phase = .received left frames frame) (now : Instant)
    (contended : Bool) : Inv { s with
      gate := (s.allows now contended).2
      phase := .draining left
        (if (s.allows now contended).1 then frames ++ [frame] else frames) } := by
  obtain ⟨hinv, -⟩ := h.allows now contended
  have hhand := hinv.hand
  unfold inHand at hhand
  rw [hphase] at hhand
  refine hinv.setPhase (hhand.mono fun other hother => ?_) trivial fresh_nil
  rcases List.mem_append.mp hother with hother | hother
  · split at hother
    · rcases List.mem_append.mp hother with hother | hother
      · exact List.mem_append_left _ hother
      · rw [List.mem_singleton.mp hother]
        exact List.mem_append_right _ List.mem_cons_self
    · exact List.mem_append_left _ hother
  · exact List.mem_append_right _ (List.mem_cons_of_mem _ hother)

/-- A frame that has been checked is queued. -/
theorem Inv.queueFrame (h : Inv s) {frame : StampedFrame audio} {frames : List (StampedFrame audio)}
    {sourceClosed : Bool} (hphase : s.phase = .queueing (frame :: frames) sourceClosed) :
    Inv { s with
      queued := s.queued ++ [(frame, s.serialSetAt)], phase := .queueing frames sourceClosed } := by
  have hchecked := h.checked
  unfold Pump.checked at hchecked
  rw [hphase] at hchecked
  refine ⟨?_, h.le, h.channel, fenced_nil, trivial, ?_⟩
  · intro sent hsent
    rcases List.mem_append.mp hsent with hsent | hsent
    · exact h.uncrossed sent hsent
    · rw [List.mem_singleton.mp hsent]
      exact hchecked frame List.mem_cons_self
  · intro other hother
    exact hchecked other (List.mem_cons_of_mem _ hother)

/-- A step of the pump. -/
theorem Inv.service (h : Inv s) (now : Instant) (contended fails : Bool) :
    Inv (s.service now contended fails) := by
  unfold Pump.service
  have hhand := h.hand
  have hserials := h.serials
  unfold inHand at hhand
  cases hphase : s.phase with
  | idle =>
    refine h.setPhase ?_ ⟨h.le, UInt64.le_refl _⟩ fresh_nil
    unfold inHand
    dsimp only
    split
    · rename_i hcurrent
      exact (h.channel hcurrent.symm).mono fun _ => List.mem_of_mem_take
    · exact fenced_nil
  | serialRead serial =>
    rw [hphase] at hhand hserials
    dsimp only at hhand ⊢
    split
    · exact h.setPhase fenced_nil hserials fresh_nil
    · rename_i hsame
      rw [if_pos (not_not.mp hsame)] at hhand
      exact h.setPhase hhand trivial fresh_nil
  | flushing serial =>
    rw [hphase] at hserials
    dsimp only
    split
    · rename_i queue hqueue
      refine ⟨h.uncrossed, h.le, fun hcurrent => ?_, fenced_nil, hserials, fresh_nil⟩
      have hchannel := h.channel hcurrent
      rw [hqueue] at hchannel
      exact hchannel.tail
    · rename_i hqueue
      have hempty : s.Fenced s.framesRx.queue := by
        rw [hqueue]
        exact fenced_nil
      refine ⟨h.uncrossed, hserials.2, fun _ => hempty, ?_, trivial, fresh_nil⟩
      exact hempty.mono fun _ => List.mem_of_mem_take
  | draining left frames =>
    rw [hphase] at hhand
    dsimp only at hhand
    cases left with
    | zero =>
      rw [List.take_zero, List.append_nil] at hhand
      exact h.setPhase hhand trivial fresh_nil
    | succ left =>
      dsimp only
      split
      · rename_i hqueue
        rw [hqueue, List.take_nil, List.append_nil] at hhand
        exact h.setPhase hhand trivial fresh_nil
      · rename_i frame queue hqueue
        rw [hqueue, List.take_succ_cons] at hhand
        refine ⟨h.uncrossed, h.le, fun hcurrent => ?_, hhand, trivial, fresh_nil⟩
        have hchannel := h.channel hcurrent
        rw [hqueue] at hchannel
        exact hchannel.tail
  | received left frames frame => exact h.judged hphase now contended
  | drained frames sourceClosed =>
    rw [hphase] at hhand
    dsimp only at hhand ⊢
    split
    · exact h.finish sourceClosed
    · split
      · exact h.removed
      · exact h.setPhase fenced_nil ⟨UInt64.le_refl _, fun _ => hhand⟩ fresh_nil
  | serialCaptured serial frames sourceClosed =>
    rw [hphase] at hserials
    dsimp only
    split
    · exact h.removed
    · exact h.setPhase fenced_nil hserials fresh_nil
  | encoded serial frames sourceClosed =>
    rw [hphase] at hserials
    dsimp only
    obtain ⟨hinv, hpass⟩ := h.allows now contended
    obtain ⟨hserial, -, -⟩ := s.allows_keeps now contended
    split
    · rename_i hallowed
      refine hinv.setPhase fenced_nil ⟨hserial.symm ▸ hserials.1, fun hcurrent => ?_⟩ fresh_nil
      exact hpass frames hallowed (hserials.2 (hcurrent.trans hserial))
    · exact hinv.finish sourceClosed
  | allowed serial frames sourceClosed =>
    rw [hphase] at hserials
    dsimp only
    split
    · exact h.finish sourceClosed
    · rename_i hsame
      exact h.setPhase fenced_nil trivial (hserials.2 (not_not.mp hsame).symm)
  | queueing frames sourceClosed =>
    cases frames with
    | nil =>
      dsimp only
      split
      · exact h.removed
      · exact h.finish sourceClosed
    | cons frame frames =>
      dsimp only
      split
      · exact h.removed
      · exact h.queueFrame hphase
  | removed => exact h

/-! ## Runs -/

theorem Inv.step (h : Inv s) (hbefore : s.serialSetAt < s.time) {action : PumpAction audio}
    (hclean : s.Clean action) : Inv (s.step action) := by
  have hact : Inv (s.act action) := by
    obtain ⟨hpress, hserial⟩ := hclean
    simp only [List.isEmpty_iff] at hpress hserial
    cases action with
    | update serial pressed now =>
      refine h.setGate (s.gate.update_moves serial pressed now) hpress fun hne => hserial ?_
      exact decide_eq_true hne
    | close =>
      refine h.setGate s.gate.close_moves (fun hpressed => by cases hpressed) fun hne => hserial ?_
      exact decide_eq_true hne
    | enqueue frame =>
      unfold act
      dsimp only
      split
      · have hnew : s.serialSetAt <
            ({ frame, enqueuedAt := s.time } : StampedFrame audio).enqueuedAt := hbefore
        exact h.push hnew
      · exact h
    | disconnect => exact ⟨h.uncrossed, h.le, h.channel, h.hand, h.serials, h.checked⟩
    | service now contended fails => exact h.service now contended fails
  exact ⟨hact.uncrossed, hact.le, hact.channel, hact.hand, hact.serials, hact.checked⟩

/-- The frames that the phase holds. -/
def held (s : Pump audio) : List (StampedFrame audio) :=
  match s.phase with
  | .draining _ frames | .drained frames _ | .serialCaptured _ frames _ | .encoded _ frames _
  | .allowed _ frames _ | .queueing frames _ => frames
  | .received _ frames frame => frames ++ [frame]
  | _ => []

/-- Everything lies in the past. -/
structure Stamped (s : Pump audio) : Prop where
  setBefore : s.serialSetAt < s.time
  channel : ∀ frame ∈ s.framesRx.queue, frame.enqueuedAt < s.time
  held : ∀ frame ∈ s.held, frame.enqueuedAt < s.time

theorem Started.stamped (h : Started s) : Stamped s := by
  refine ⟨h.setBefore, h.enqueuedBefore, fun frame hframe => ?_⟩
  rw [Pump.held, h.phase] at hframe
  cases hframe

/-- What the second holds, the first has held or had in the channel. -/
structure Within (s s' : Pump audio) : Prop where
  serial : s'.gate.serial = s.gate.serial
  serialSetAt : s'.serialSetAt = s.serialSetAt
  channel : ∀ frame ∈ s'.framesRx.queue, frame ∈ s.framesRx.queue
  held : ∀ frame ∈ s'.held, frame ∈ s.held ∨ frame ∈ s.framesRx.queue

theorem within_phase {phase : PumpPhase audio} {gate : AudioTransmitGate}
    (hserial : gate.serial = s.gate.serial)
    (hheld : ∀ frame ∈ ({ s with gate, phase } : Pump audio).held, frame ∈ s.held) :
    Within s { s with gate, phase } :=
  ⟨hserial, rfl, fun _ h => h, fun frame hframe => .inl (hheld frame hframe)⟩

theorem within_finish {gate : AudioTransmitGate} (hserial : gate.serial = s.gate.serial)
    (sourceClosed : Bool) : Within s (Pump.finish { s with gate } sourceClosed) := by
  cases sourceClosed <;> exact within_phase hserial fun _ h => by cases h

/-- The pump makes up no frame. -/
theorem service_within (now : Instant) (contended fails : Bool) :
    Within s (s.service now contended fails) := by
  unfold Pump.service
  have hnil : ∀ frame ∈ ([] : List (StampedFrame audio)), frame ∈ s.held := fun _ h => by cases h
  cases hphase : s.phase with
  | idle => exact within_phase rfl hnil
  | serialRead serial =>
    dsimp only
    split <;> exact within_phase rfl hnil
  | flushing serial =>
    dsimp only
    split
    · rename_i queue hcons
      refine ⟨rfl, rfl, fun frame hframe => ?_, fun _ h => by cases h⟩
      rw [hcons]
      exact List.mem_cons_of_mem _ hframe
    · exact ⟨rfl, rfl, fun _ h => h, fun _ h => by cases h⟩
  | draining left frames =>
    have hheld : s.held = frames := by rw [held, hphase]
    have hsame : ∀ frame ∈ frames, frame ∈ s.held := fun _ h => hheld ▸ h
    cases left with
    | zero => exact within_phase rfl hsame
    | succ left =>
      dsimp only
      split
      · exact within_phase rfl hsame
      · rename_i first queue hcons
        refine ⟨rfl, rfl, fun frame hframe => ?_, fun frame hframe => ?_⟩
        · rw [hcons]
          exact List.mem_cons_of_mem _ hframe
        · rw [hcons, hheld]
          rcases List.mem_append.mp hframe with h | h
          · exact .inl h
          · exact .inr (List.mem_singleton.mp h ▸ List.mem_cons_self)
  | received left frames frame =>
    have hheld : s.held = frames ++ [frame] := by rw [held, hphase]
    refine within_phase (s.allows_keeps now contended).1 fun other hother => ?_
    rw [hheld]
    dsimp only [held] at hother
    split at hother
    · exact hother
    · exact List.mem_append_left _ hother
  | drained frames sourceClosed =>
    have hheld : s.held = frames := by rw [held, hphase]
    dsimp only
    split
    · exact within_finish rfl sourceClosed
    · split
      · exact within_phase rfl hnil
      · exact within_phase rfl fun _ h => hheld ▸ h
  | serialCaptured serial frames sourceClosed =>
    have hheld : s.held = frames := by rw [held, hphase]
    cases fails with
    | true => exact within_phase rfl hnil
    | false => exact within_phase rfl fun _ h => hheld ▸ h
  | encoded serial frames sourceClosed =>
    have hheld : s.held = frames := by rw [held, hphase]
    dsimp only
    split
    · exact within_phase (s.allows_keeps now contended).1 fun _ h => hheld ▸ h
    · exact within_finish (s.allows_keeps now contended).1 sourceClosed
  | allowed serial frames sourceClosed =>
    have hheld : s.held = frames := by rw [held, hphase]
    dsimp only
    split
    · exact within_finish rfl sourceClosed
    · exact within_phase rfl fun _ h => hheld ▸ h
  | queueing frames sourceClosed =>
    have hheld : s.held = frames := by rw [held, hphase]
    cases frames with
    | nil =>
      dsimp only
      split
      · exact within_phase rfl hnil
      · exact within_finish rfl sourceClosed
    | cons frame frames =>
      dsimp only
      split
      · exact within_phase rfl hnil
      · exact ⟨rfl, rfl, fun _ h => h, fun _ h => .inl (hheld ▸ List.mem_cons_of_mem _ h)⟩
  | removed => exact ⟨rfl, rfl, fun _ h => h, fun _ => .inl⟩

theorem Stamped.step (h : Stamped s) (action : PumpAction audio) : Stamped (s.step action) := by
  have hset (gate : AudioTransmitGate) : (s.setGate gate).serialSetAt < s.time + 1 := by
    unfold setGate
    dsimp only
    split
    · exact Nat.lt_succ_of_lt h.setBefore
    · exact Nat.lt_succ_self _
  have hchannel : ∀ frame ∈ s.framesRx.queue, frame.enqueuedAt < s.time + 1 :=
    fun frame hframe => Nat.lt_succ_of_lt (h.channel frame hframe)
  have hheld : ∀ frame ∈ s.held, frame.enqueuedAt < s.time + 1 :=
    fun frame hframe => Nat.lt_succ_of_lt (h.held frame hframe)
  cases action with
  | update serial pressed now => exact ⟨hset _, hchannel, hheld⟩
  | close => exact ⟨hset _, hchannel, hheld⟩
  | enqueue frame =>
    have hbefore := Nat.lt_succ_of_lt h.setBefore
    unfold Pump.step act
    dsimp only
    split
    · refine ⟨hbefore, fun other hother => ?_, hheld⟩
      rcases List.mem_append.mp hother with hother | hother
      · exact hchannel other hother
      · rw [List.mem_singleton.mp hother]
        exact Nat.lt_succ_self _
    · exact ⟨hbefore, hchannel, hheld⟩
  | disconnect => exact ⟨Nat.lt_succ_of_lt h.setBefore, hchannel, hheld⟩
  | service now contended fails =>
    have hwithin := s.service_within now contended fails
    refine ⟨?_, fun frame hframe => ?_, fun frame hframe => ?_⟩
    · show (s.service now contended fails).serialSetAt < s.time + 1
      rw [hwithin.serialSetAt]
      exact Nat.lt_succ_of_lt h.setBefore
    · exact hchannel frame (hwithin.channel frame hframe)
    · rcases hwithin.held frame hframe with hold | hold
      · exact hheld frame hold
      · exact hchannel frame hold

theorem Stamped.foldl (h : Stamped s) (actions : List (PumpAction audio)) :
    Stamped (actions.foldl Pump.step s) := by
  induction actions generalizing s with
  | nil => exact h
  | cons action actions ih => exact ih (h.step action)

/-! ## What the gaps let through -/

/-- It goes on to cross an edge. -/
def GoesOnToCross (s : Pump audio) (now : Instant) : Prop :=
  ∃ steps, ¬ (s.pumped now steps).Uncrossed

/-- An open gate. -/
def Open (s : Pump audio) (now : Instant) : Prop := s.gate.allows now = (true, s.gate)

variable {frame : StampedFrame audio} {frames : List (StampedFrame audio)} {now : Instant}

theorem GoesOnToCross.of_pumped (steps : Nat) (h : (s.pumped now steps).GoesOnToCross now) :
    s.GoesOnToCross now := by
  obtain ⟨more, hcrossed⟩ := h
  refine ⟨steps + more, ?_⟩
  rw [pumped_add]
  exact hcrossed

theorem crosses_of_queueing {sourceClosed : Bool}
    (hphase : s.phase = .queueing (frame :: frames) sourceClosed)
    (hstale : frame.enqueuedAt ≤ s.serialSetAt) : s.GoesOnToCross now := by
  refine ⟨1, fun huncrossed => ?_⟩
  have hqueued : (s.pumped now 1).queued = s.queued ++ [(frame, s.serialSetAt)] := by
    simp [pumped, step, act, Pump.service, hphase]
  have hsent : (frame, s.serialSetAt) ∈ (s.pumped now 1).queued := by
    rw [hqueued]
    exact List.mem_append_right _ (List.mem_singleton_self _)
  exact absurd (huncrossed _ hsent) (Nat.not_lt.mpr hstale)

theorem crosses_of_drained {sourceClosed : Bool}
    (hphase : s.phase = .drained (frame :: frames) sourceClosed) (hopen : s.Open now)
    (hstale : frame.enqueuedAt ≤ s.serialSetAt) : s.GoesOnToCross now := by
  have hallows : s.gate.allows now = (true, s.gate) := hopen
  -- it reads the serial, encodes, asks the gate and compares the serial
  have hqueueing : s.pumped now 4 =
      { s with time := s.time + 4, phase := .queueing (frame :: frames) sourceClosed } := by
    simp [pumped, List.replicate, step, act, Pump.service, hphase, Pump.allows, hallows]
  refine .of_pumped 4 ?_
  rw [hqueueing]
  exact crosses_of_queueing rfl hstale

/-- The drain takes what is in hand while the gate is open. -/
theorem crosses_of_draining {left : Nat} {taken : List (StampedFrame audio)}
    (hphase : s.phase = .draining left taken) (hopen : s.Open now)
    (hhand : taken ++ s.framesRx.queue.take left = frame :: frames)
    (hstale : frame.enqueuedAt ≤ s.serialSetAt) : s.GoesOnToCross now := by
  have hallows : s.gate.allows now = (true, s.gate) := hopen
  induction left generalizing s taken with
  | zero =>
    rw [List.take_zero, List.append_nil] at hhand
    subst hhand
    have hdrained : s.pumped now 1 =
        { s with time := s.time + 1, phase := .drained (frame :: frames) false } := by
      simp [pumped, step, act, Pump.service, hphase]
    refine .of_pumped 1 ?_
    rw [hdrained]
    exact crosses_of_drained rfl hopen hstale
  | succ left ih =>
    cases hqueue : s.framesRx.queue with
    | nil =>
      rw [hqueue, List.take_nil, List.append_nil] at hhand
      subst hhand
      have hdrained : s.pumped now 1 = { s with
          time := s.time + 1
          phase := .drained (frame :: frames) !s.framesRx.connected } := by
        simp [pumped, step, act, Pump.service, hphase, hqueue]
      refine .of_pumped 1 ?_
      rw [hdrained]
      exact crosses_of_drained rfl hopen hstale
    | cons first queue =>
      have htaken : s.pumped now 2 = { s with
          time := s.time + 2
          framesRx.queue := queue
          phase := .draining left (taken ++ [first]) } := by
        simp [pumped, List.replicate, step, act, Pump.service, hphase, hqueue, Pump.allows, hallows]
      refine .of_pumped 2 ?_
      rw [htaken]
      rw [hqueue, List.take_succ_cons] at hhand
      refine ih rfl hopen ?_ hstale hallows
      rw [List.append_assoc]
      exact hhand

theorem crosses_of_inHand (hopen : s.Open now) (hhand : s.inHand = frame :: frames)
    (hstale : frame.enqueuedAt ≤ s.serialSetAt) : s.GoesOnToCross now := by
  have hallows : s.gate.allows now = (true, s.gate) := hopen
  unfold inHand at hhand
  cases hphase : s.phase with
  | serialRead serial =>
    rw [hphase] at hhand
    dsimp only at hhand
    by_cases hsame : serial = s.gateSerial
    · rw [if_pos hsame] at hhand
      have hdraining : s.pumped now 1 = { s with
          time := s.time + 1
          phase := .draining (max s.mediaFramesPerTick 1) [] } := by
        simp [pumped, step, act, Pump.service, hphase, hsame]
      refine .of_pumped 1 ?_
      rw [hdraining]
      exact crosses_of_draining rfl hopen hhand hstale
    · rw [if_neg hsame] at hhand
      cases hhand
  | draining left taken =>
    rw [hphase] at hhand
    exact crosses_of_draining hphase hopen hhand hstale
  | received left taken last =>
    rw [hphase] at hhand
    have hdraining : s.pumped now 1 = { s with
        time := s.time + 1
        phase := .draining left (taken ++ [last]) } := by
      simp [pumped, step, act, Pump.service, hphase, Pump.allows, hallows]
    have htaken : (taken ++ [last]) ++ s.framesRx.queue.take left = frame :: frames := by
      rw [List.append_assoc]
      exact hhand
    refine .of_pumped 1 ?_
    rw [hdraining]
    exact crosses_of_draining rfl hopen htaken hstale
  | drained taken sourceClosed =>
    rw [hphase] at hhand
    dsimp only at hhand
    subst hhand
    exact crosses_of_drained hphase hopen hstale
  | _ =>
    rw [hphase] at hhand
    cases hhand

theorem mem_of_inHand (h : frame ∈ s.inHand) : frame ∈ s.held ∨ frame ∈ s.framesRx.queue := by
  unfold inHand at h
  unfold held
  cases hphase : s.phase with
  | serialRead serial =>
    rw [hphase] at h
    dsimp only at h
    split at h
    · exact .inr (List.mem_of_mem_take h)
    · cases h
  | draining left taken =>
    rw [hphase] at h
    exact (List.mem_append.mp h).imp_right List.mem_of_mem_take
  | received left taken last =>
    rw [hphase] at h
    rcases List.mem_append.mp h with h | h
    · exact .inl (List.mem_append_left _ h)
    · rcases List.mem_cons.mp h with rfl | h
      · exact .inl (List.mem_append_right _ (List.mem_singleton_self _))
      · exact .inr (List.mem_of_mem_take h)
  | drained taken sourceClosed =>
    rw [hphase] at h
    exact .inl h
  | _ =>
    rw [hphase] at h
    cases h

theorem open_of_press {gate : AudioTransmitGate} (hblocked : gate.blocked = false)
    (hbegan : gate.began = some now) (huntil : gate.until_ = some (now + fromMillis 750)) :
    gate.allows now = (true, gate) := by
  have hpositive : 0 < fromMillis 750 ∧ 0 < fromSecs 10 := by decide
  have hlease : now < now + fromMillis 750 := Nat.lt_add_of_pos_right hpositive.1
  have hburst : now - now < fromSecs 10 := by
    rw [Nat.sub_self]
    exact hpositive.2
  unfold AudioTransmitGate.allows
  rw [hblocked, hbegan, huntil, Option.any_some, Option.any_some, decide_eq_true hlease,
    decide_eq_true hburst]
  rfl

/-- What takes a new serial, takes it from the application. -/
theorem setGate_of_setsSerial {action : PumpAction audio} (h : s.setsSerial action = true) :
    ∃ gate, gate.serial ≠ s.gate.serial ∧
      s.step action = { s.setGate gate with time := s.time + 1 } := by
  have hne : (s.act action).gate.serial ≠ s.gate.serial := of_decide_eq_true h
  cases action with
  | update serial pressed now => exact ⟨_, hne, rfl⟩
  | close => exact ⟨_, hne, rfl⟩
  | enqueue frame =>
    unfold act at hne
    dsimp only at hne
    split at hne <;> exact absurd rfl hne
  | disconnect => exact absurd rfl hne
  | service now contended fails =>
    exact absurd (s.service_within now contended fails).serial hne

theorem setGate_set {gate : AudioTransmitGate} (hne : gate.serial ≠ s.gate.serial) :
    (s.setGate gate).serialSetAt = s.time := if_neg hne

/-- A press while the drain has a frame. -/
theorem crosses_of_newPress (h : Stamped s) {serial : UInt64} {pressed : Bool} {pressedAt : Instant}
    (hpress : s.gate.newPress serial pressed = true) (hhand : s.inHand = frame :: frames) :
    ∃ now, (s.step (.update serial pressed pressedAt)).GoesOnToCross now := by
  have hmoves := s.gate.update_moves serial pressed pressedAt
  rw [hpress] at hmoves
  cases hmoves with
  | pressed now hlt hblocked hbegan huntil =>
    have hopen : (s.step (.update serial pressed pressedAt)).Open now :=
      open_of_press hblocked hbegan huntil
    have hne : (s.gate.update serial pressed pressedAt).2.serial ≠ s.gate.serial := by
      intro heq
      rw [heq] at hlt
      exact UInt64.lt_irrefl _ hlt
    have hmem : frame ∈ s.inHand := hhand ▸ List.mem_cons_self
    have hpast : frame.enqueuedAt < s.time := (mem_of_inHand hmem).elim (h.held frame)
      (h.channel frame)
    have hstale : frame.enqueuedAt ≤ (s.step (.update serial pressed pressedAt)).serialSetAt := by
      show frame.enqueuedAt ≤ (s.setGate _).serialSetAt
      rw [setGate_set hne]
      exact Nat.le_of_lt hpast
    exact ⟨now, crosses_of_inHand hopen hhand hstale⟩

/-- A new serial while a frame is being queued. -/
theorem crosses_of_setsSerial (h : Stamped s) {action : PumpAction audio}
    (hserial : s.setsSerial action = true) (hchecked : s.checked = frame :: frames) :
    (s.step action).GoesOnToCross now := by
  obtain ⟨gate, hne, hstep⟩ := setGate_of_setsSerial hserial
  rw [hstep]
  unfold checked at hchecked
  cases hphase : s.phase with
  | queueing taken sourceClosed =>
    rw [hphase] at hchecked
    dsimp only at hchecked
    subst hchecked
    have hpast : frame.enqueuedAt < s.time := by
      apply h.held frame
      rw [held, hphase]
      exact List.mem_cons_self
    refine crosses_of_queueing hphase ?_
    show frame.enqueuedAt ≤ (s.setGate gate).serialSetAt
    rw [setGate_set hne]
    exact Nat.le_of_lt hpast
  | _ =>
    rw [hphase] at hchecked
    cases hchecked

/-- A step that is not clean lets a frame through. -/
theorem crosses_of_unclean {action : PumpAction audio} (h : Stamped s) (hclean : ¬ s.Clean action) :
    ∃ now, (s.step action).GoesOnToCross now := by
  have hcons {held : List (StampedFrame audio)} (hsome : ¬ held.isEmpty = true) :
      ∃ frame frames, held = frame :: frames := by
    rw [List.isEmpty_iff] at hsome
    exact List.ne_nil_iff_exists_cons.mp hsome
  rw [Clean, not_and_or, Classical.not_imp, Classical.not_imp] at hclean
  rcases hclean with ⟨hpress, hhand⟩ | ⟨hserial, hchecked⟩
  · obtain ⟨frame, frames, hhand⟩ := hcons hhand
    cases action with
    | update serial pressed now => exact crosses_of_newPress h hpress hhand
    | _ => cases hpress
  · obtain ⟨frame, frames, hchecked⟩ := hcons hchecked
    exact ⟨0, crosses_of_setsSerial h hserial hchecked⟩

/-- **No audio crosses an edge of the push-to-talk gate** in a clean run; after any other step the
pump alone goes on to cross one. -/
theorem no_audio_crosses_edge (hstarted : Started s) (actions : List (PumpAction audio)) :
    (Admits Clean step s actions → (actions.foldl step s).Uncrossed) ∧
      ∀ action, ¬ (actions.foldl step s).Clean action →
        ∃ now steps, ¬ ((actions ++ action :: List.replicate steps
          (.service now false false)).foldl step s).Uncrossed := by
  constructor
  · intro hclean
    have hinv := hclean.invariant (I := fun s => Inv s ∧ Stamped s)
      (fun s action h hclean => ⟨h.1.step h.2.setBefore hclean, h.2.step action⟩)
      ⟨hstarted.inv, hstarted.stamped⟩
    exact hinv.1.uncrossed
  · intro action hunclean
    obtain ⟨now, steps, hcrossed⟩ :=
      crosses_of_unclean (hstarted.stamped.foldl actions) hunclean
    refine ⟨now, steps, ?_⟩
    rw [List.foldl_append, List.foldl_cons]
    exact hcrossed

/-- A stream that has been started with a new gate. -/
def startedPump : Pump Audio.plain :=
  { time := 1
    gate := .new
    serialSetAt := 0
    framesRx := { queue := [], connected := true }
    gateSerial := 0
    mediaFramesPerTick := 4
    phase := .idle
    queued := [] }

theorem startedPump_started : Started startedPump :=
  ⟨rfl, rfl, rfl, ⟨[], rfl⟩, by decide, fun _ h => by cases h⟩

/-- Steps of the pump, undisturbed. -/
def services (steps : Nat) (now : Instant) : List (PumpAction Audio.plain) :=
  List.replicate steps (.service now false false)

/-- A press, and then a frame. -/
def pressAndSpeak : List (PumpAction Audio.plain) :=
  .update 1 true 0 :: services 5 1 ++ [.enqueue ()]

/-- The frame is queued. -/
theorem no_audio_crosses_edge_press :
    ((pressAndSpeak ++ services 10 2).foldl step startedPump).queued.length = 1 ∧
      ((pressAndSpeak ++ services 10 2).foldl step startedPump).Uncrossed :=
  ⟨by decide +kernel, (no_audio_crosses_edge startedPump_started _).1 (by decide +kernel)⟩

/-- The application releases and presses again once the frame has been received. -/
def pressAgain : List (PumpAction Audio.plain) :=
  pressAndSpeak ++ services 3 2 ++ [.update 2 false 3, .update 3 true 4] ++ services 7 5

/-- The frame is queued under the second press. -/
theorem press_takes_earlier_frame :
    ¬ ∀ (audio : Audio) (s : Pump audio), Started s → ∀ actions : List (PumpAction audio),
      (actions.foldl step s).Uncrossed := fun hall => by
  have huncrossed := hall _ startedPump startedPump_started pressAgain
  have hrun : (pressAgain.foldl step startedPump).queued.any
      (fun sent => sent.1.enqueuedAt ≤ sent.2) = true := by decide +kernel
  obtain ⟨sent, hsent, hcrossed⟩ := List.any_eq_true.mp hrun
  exact absurd (huncrossed sent hsent) (Nat.not_lt.mpr (of_decide_eq_true hcrossed))

end Lxst.Telephony.Pump
