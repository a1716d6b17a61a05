import HalfDuplex.Fault
import HalfDuplex.Config
import HalfDuplex.Random.Words
import HalfDuplex.Random.ShiftRegister
import HalfDuplex.Checksum
import HalfDuplex.Frame
import HalfDuplex.Source.Basic
import HalfDuplex.Source.Queue
import HalfDuplex.Source.Script
import HalfDuplex.Status
import HalfDuplex.Line
import HalfDuplex.Reception
import HalfDuplex.Event
import HalfDuplex.Traced
import HalfDuplex.Deferral
import HalfDuplex.CollisionWindow
import HalfDuplex.Sequencer
import HalfDuplex.Engine
import HalfDuplex.Receiver
import HalfDuplex.Bench
import HalfDuplex.Proofs.Marks
import HalfDuplex.Proofs.Transitions.Sequencer
import HalfDuplex.Proofs.Transitions.CollisionWindow
import HalfDuplex.Proofs.Transitions.Deferral
import HalfDuplex.Proofs.Transitions.Engine
import HalfDuplex.Proofs.Run
import HalfDuplex.Proofs.Collisions
import HalfDuplex.Proofs.FrameStore
import HalfDuplex.Proofs.History
import HalfDuplex.Proofs.Outcomes
import HalfDuplex.Proofs.Scenario
import HalfDuplex.Proofs.Transmission
import HalfDuplex.Proofs.CarrierSense
import HalfDuplex.Proofs.Residual
import HalfDuplex.Proofs.Wire
import HalfDuplex.Proofs.Encoding
import HalfDuplex.Proofs.Delivery
import HalfDuplex.Proofs.Observation
import HalfDuplex.Proofs.Replay
import HalfDuplex.Proofs.Validation
import HalfDuplex.Proofs.Pace
import HalfDuplex.Proofs.Backoff
import HalfDuplex.Proofs.Progress
import HalfDuplex.Proofs.FaultFreedom
import HalfDuplex.Proofs.RegisterPeriod
import HalfDuplex.Proofs.Burst
import HalfDuplex.Proofs.Transcript
import HalfDuplex.Proofs.Acceptance
import HalfDuplex.Proofs.Session
import HalfDuplex.Proofs.AtMostOnce
import HalfDuplex.Proofs.Coherence
import HalfDuplex.Proofs.ErrorMarker
import HalfDuplex.Proofs.Masking
import HalfDuplex.Proofs.Bookkeeping
import HalfDuplex.Proofs.Simulation
import HalfDuplex.Proofs.Mirroring
import HalfDuplex.Proofs.TimeShift
import HalfDuplex.Proofs.LineRate
import HalfDuplex.Proofs.DeferralCount
import HalfDuplex.Proofs.Draws
import HalfDuplex.Proofs.Equidistribution
import HalfDuplex.Proofs.FirstReady
import HalfDuplex.Proofs.Realization
import HalfDuplex.Proofs.Trial
import HalfDuplex.Proofs.Course
import HalfDuplex.Proofs.WireImage
import HalfDuplex.Proofs.CutShort
import HalfDuplex.Proofs.CutReception
import HalfDuplex.Proofs.FrameCheck
import HalfDuplex.Proofs.BurstGrammar
import HalfDuplex.Proofs.Renewal
import HalfDuplex.Proofs.Signalling
import HalfDuplex.Proofs.Soundness
import HalfDuplex.Proofs.Attempt
import HalfDuplex.Proofs.Starvation
import HalfDuplex.Proofs.Latch
import HalfDuplex.Proofs.Waiting
import HalfDuplex.Proofs.Endurance
