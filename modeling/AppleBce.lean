import AppleBce.Basis.BinaryFormat
import AppleBce.Basis.BoundedFifo
import AppleBce.Basis.Machine
import AppleBce.Basis.Ring
import AppleBce.Queue.Delivery
import AppleBce.Queue.ExactlyOnce
import AppleBce.Queue.Flow
import AppleBce.Queue.Irq
import AppleBce.Queue.IrqPass
import AppleBce.Queue.Sq
import AppleBce.Queue.Submission
import AppleBce.Vhci.CommandQueue
import AppleBce.Vhci.CommandReplies
import AppleBce.Vhci.FirmwareEvents
import AppleBce.Vhci.FirmwareSlots
import AppleBce.Vhci.Message
import AppleBce.Vhci.TransferQueue
import AppleBce.Vhci.Urb
import AppleBce.Vhci.TransferOps
import AppleBce.Vhci.TransferRun
import AppleBce.Vhci.Giveback
import AppleBce.Vhci.Slots
import AppleBce.Vhci.Submissions
import AppleBce.Vhci.Loads
import AppleBce.Vhci.Resume
import AppleBce.Vhci.Linked
import AppleBce.Vhci.Reissue
import AppleBce.Vhci.UrbRelations
import AppleBce.Vhci.Stops
import AppleBce.Vhci.PauseSources
import AppleBce.Vhci.InactiveReason
import AppleBce.Vhci.OutputRun
import AppleBce.Vhci.PendingOutput
import AppleBce.Queue.Cmdq
import AppleBce.Queue.CmdqResults
import AppleBce.Queue.CmdTimeout
import AppleBce.Basis.Loop
import AppleBce.Vhci.Tables
import AppleBce.Vhci.HubControl
import AppleBce.Vhci.MapConsistency
import AppleBce.Vhci.MapRuns
import AppleBce.Vhci.BusSuspend
import AppleBce.Vhci.BusResume
import AppleBce.Vhci.TableBounds
import AppleBce.Vhci.Suppression
import AppleBce.Vhci.InactiveStarts
import AppleBce.Mailbox.Handover
import AppleBce.Mailbox.SaveLedger
import AppleBce.Mailbox.SaveReplies
import AppleBce.Mailbox.TimestampSessions
import AppleBce.Basis.Interpolate
import AppleBce.Audio.PcmWraps
import AppleBce.Audio.ReplyBuffer
import AppleBce.Audio.InQueue
import AppleBce.Audio.Replies
import AppleBce.Audio.Outstanding
import AppleBce.Vhci.GhostFlush
import AppleBce.Basis.Strides
import AppleBce.Vhci.IsoLengths
import AppleBce.Vhci.EventDraining
import AppleBce.Vhci.EventOccupancy
import AppleBce.Vhci.UrbRules
import AppleBce.Vhci.FinishedUrbs
import AppleBce.Vhci.OutChunks
import AppleBce.Vhci.DeferredRequests
import AppleBce.Vhci.UrbCalls
import AppleBce.Vhci.RequestOrder
import AppleBce.Vhci.StartOrder
import AppleBce.Vhci.ControlOutcome
import AppleBce.Vhci.SubmissionLine
import AppleBce.Vhci.HeadOwner
import AppleBce.Vhci.Attribution
import AppleBce.Vhci.InFlight
import AppleBce.Audio.Milli
import AppleBce.Audio.Volume
import AppleBce.Basis.ByteReader
import AppleBce.Audio.Readers
import AppleBce.Audio.ControlList
import AppleBce.Audio.ReadBounds
import AppleBce.Basis.ByteWriter
import AppleBce.Audio.Writers
import AppleBce.Audio.HwInfo
import AppleBce.Basis.SlotTable
import AppleBce.Audio.BufferStruct
import AppleBce.Audio.BufferSlots
import AppleBce.Basis.BitFields
import AppleBce.Mailbox.SaveMessage
import AppleBce.Basis.Allotment
import AppleBce.Queue.Registry
import AppleBce.Queue.RegistryRuns
import AppleBce.Vhci.DeviceAccounts
import AppleBce.Basis.LinkedNodes
import AppleBce.Basis.GracePeriod
import AppleBce.Queue.TeardownOrder
import AppleBce.Queue.TeardownEffects
import AppleBce.Queue.TeardownSafety
import AppleBce.Queue.CqWalk
import AppleBce.Vhci.MessageQueue
import AppleBce.Vhci.RecoveryLimits
import AppleBce.Vhci.BufferBounds
import AppleBce.Vhci.Addresses
import AppleBce.Audio.PeriodTimer
import AppleBce.Audio.TimestampWork
import AppleBce.Vhci.EventMessages
import AppleBce.Basis.Logged
import AppleBce.Audio.DeviceInit
import AppleBce.Audio.DeviceInitBounds
import AppleBce.Basis.Ledger
import AppleBce.Driver.Probe
import AppleBce.Driver.QueueParts
import AppleBce.Driver.VhciQueues
import AppleBce.Driver.FailLabels
import AppleBce.Driver.CommandQueueLedger
import AppleBce.Driver.VhciLedger
import AppleBce.Driver.ProbeLedger
