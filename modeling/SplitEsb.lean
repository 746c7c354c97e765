import SplitEsb.Shared.BitTable
import SplitEsb.Shared.Bytes
import SplitEsb.Shared.Stuffing
import SplitEsb.Keepalive.Codec
import SplitEsb.Keepalive.RoundTrip
import SplitEsb.Event.Codec
import SplitEsb.Event.RoundTrip
import SplitEsb.Frame.Cobs
import SplitEsb.Shared.AccessTrace
import SplitEsb.Frame.InPlace
import SplitEsb.Frame.Parser
import SplitEsb.Shared.FrameMux
import SplitEsb.Shared.SlotTable
import SplitEsb.Motion.Total
import SplitEsb.Central.Input
import SplitEsb.Central.State
import SplitEsb.Central.Motion
import SplitEsb.Shared.Replica
import SplitEsb.Shared.Transition
import SplitEsb.Central.Queue
import SplitEsb.Central.KeyStream
import SplitEsb.Peripheral.State
import SplitEsb.Peripheral.Packets
import SplitEsb.Peripheral.Batch
import SplitEsb.Peripheral.Motion
import SplitEsb.Central.InputKeys
import SplitEsb.Link.InputKeys
import SplitEsb.Link.Keys
import SplitEsb.Link.Motion
import SplitEsb.Shared.Gaps
import SplitEsb.Central.Rotation
import SplitEsb.Link.Sensors
import SplitEsb.Shared.CyclicProbe
import SplitEsb.Hop.Policy
import SplitEsb.Shared.GreedyTrim
import SplitEsb.Hop.Survey
import SplitEsb.Hop.EpochMapping
import SplitEsb.Hop.Control
import SplitEsb.Hop.Central
import SplitEsb.Hop.Tuning
import SplitEsb.Hop.Peripheral
import SplitEsb.Hop.Lockstep
import SplitEsb.Hop.Masks
import SplitEsb.Shared.RetestLadder
import SplitEsb.Hop.Exile
import SplitEsb.Shared.TornWrite
import SplitEsb.Hop.Retained
import SplitEsb.Shared.WrappedWalk
import SplitEsb.Hop.Walk
import SplitEsb.Latch.Spsc
import SplitEsb.Hop.StagedMask
import SplitEsb.Latch.Cell
import SplitEsb.Relay.Pointer
import SplitEsb.Reply.Link
import SplitEsb.Shared.LatestValue
import SplitEsb.Reply.Packing
import SplitEsb.Reply.Turn
import SplitEsb.Reply.Freshness
import SplitEsb.Relay.Deliver
import SplitEsb.Relay.Forward
import SplitEsb.Relay.Motion
import SplitEsb.Reply.Queue
import SplitEsb.Reply.AckQueues
import SplitEsb.Reply.Delivery
import SplitEsb.Relay.Stamping
import SplitEsb.Relay.Path
import SplitEsb.Relay.Turn
import SplitEsb.Relay.LastReport
import SplitEsb.Relay.PointerStep
import SplitEsb.Relay.Buttons
import SplitEsb.Relay.ButtonOrder
import SplitEsb.Relay.Clicks
import SplitEsb.Relay.Pause
import SplitEsb.Relay.Release
import SplitEsb.Reply.Latches
import SplitEsb.Wire.Transmit
import SplitEsb.Wire.Canonical
import SplitEsb.Wire.Peripheral
import SplitEsb.Link.KeyMessages
import SplitEsb.Link.WireKeys
import SplitEsb.Link.MotionTracks
import SplitEsb.Hop.Vote
import SplitEsb.Shared.TableLoop
import SplitEsb.Hop.Blame
import SplitEsb.Hop.MaskSave
import SplitEsb.Hop.TickSteps
import SplitEsb.Hop.AckProof
import SplitEsb.Shared.DwellSweep
import SplitEsb.Hop.Sweep
import SplitEsb.Hop.LastAcked
import SplitEsb.Hop.Degrade
import SplitEsb.Hop.WindowGrade
import SplitEsb.Shared.Smoothing
import SplitEsb.Hop.RetransmitBudget
import SplitEsb.Peripheral.Submit
import SplitEsb.Peripheral.Stall
import SplitEsb.Shared.Mutex
import SplitEsb.Peripheral.ClockGate
import SplitEsb.Peripheral.Crystal
import SplitEsb.Peripheral.RadioSettings
import SplitEsb.Central.Silence
import SplitEsb.Central.Revival
import SplitEsb.Shared.WokenQueue
import SplitEsb.Link.Receive
import SplitEsb.Wire.Receive
import SplitEsb.Shared.Burst
import SplitEsb.Hop.Announce
import SplitEsb.Hop.HidState
import SplitEsb.Hop.HidSync
import SplitEsb.Reply.Stats
import SplitEsb.Peripheral.Commands
import SplitEsb.Shared.Gathered
import SplitEsb.Hop.WindowSignals
import SplitEsb.Peripheral.FailedTx
import SplitEsb.Shared.CellScan
import SplitEsb.Peripheral.HeldKeys
import SplitEsb.Shared.PeakCell
import SplitEsb.Link.Counters
import SplitEsb.Shared.DelayedWork
import SplitEsb.Hop.KeepalivePace
import SplitEsb.Hop.EnergySurvey
import SplitEsb.Shared.Thinned
import SplitEsb.Reply.CommandTurn
import SplitEsb.Link.CommandPath
