import RsLxst.Codec2.Proof.Analysis
import RsLxst.Codec2.Proof.Encoder1600
import RsLxst.Codec2.Proof.Encoder3200
import RsLxst.Codec2.Proof.FftTables
import RsLxst.Codec2.Proof.Frame700c
import RsLxst.Codec2.Proof.LspToLpc
import RsLxst.Core.Proof.Code3
import RsLxst.Core.Proof.Codec2
import RsLxst.Core.Proof.Handshake
import RsLxst.Core.Proof.JitterBuffer
import RsLxst.Core.Proof.Opus
import RsLxst.Core.Proof.Pipelines
import RsLxst.Core.Proof.RawPayload
import RsLxst.Core.Proof.Switching
import RsLxst.Embedded.Proof.Admission
import RsLxst.Embedded.Proof.AudioFence
import RsLxst.Embedded.Proof.Ending
import RsLxst.Embedded.Proof.HostCaller
import RsLxst.Embedded.Proof.HostRoundTrip
import RsLxst.Embedded.Proof.Microphone
import RsLxst.Embedded.Proof.Postponement
import RsLxst.Embedded.Proof.Queue
import RsLxst.Embedded.Proof.RoundTrip
import RsLxst.Embedded.Proof.Wire
import RsLxst.Lib.Attempts
import RsLxst.Lib.Ring
import RsLxst.Lib.TwoStep
import RsLxst.Telephony.Proof.Answer
import RsLxst.Telephony.Proof.Batches
import RsLxst.Telephony.Proof.CallOrigin
import RsLxst.Telephony.Proof.CaptureGate
import RsLxst.Telephony.Proof.Cleanup
import RsLxst.Telephony.Proof.Deadline
import RsLxst.Telephony.Proof.Discovery
import RsLxst.Telephony.Proof.FailedResults
import RsLxst.Telephony.Proof.LinkTable
import RsLxst.Telephony.Proof.MediaDrops
import RsLxst.Telephony.Proof.Packet
import RsLxst.Telephony.Proof.Packetizing
import RsLxst.Telephony.Proof.Pinning
import RsLxst.Telephony.Proof.PressEdges
import RsLxst.Telephony.Proof.ProfileSwitch
import RsLxst.Telephony.Proof.ProofRace
import RsLxst.Telephony.Proof.Signalling
import RsLxst.Telephony.Proof.Snapshot
import RsLxst.Telephony.Proof.Streams
import RsLxst.Telephony.Proof.Teardowns
import RsLxst.Telephony.Proof.Termination
import RsLxst.Telephony.Proof.Timers
import RsLxst.Telephony.Proof.TwoCores
