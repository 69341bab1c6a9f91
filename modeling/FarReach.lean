import FarReach.ServerRecover
import FarReach.SnapshotCrash
import FarReach.CrashRecovery
import FarReach.SnapshotRestart
import FarReach.SnapshotSenddata
import FarReach.SwitchosRecover
import FarReach.LoadData
import FarReach.Case1Report
import FarReach.SlotCoherence
import FarReach.SnapshotPointInTime
import FarReach.RangeScanPrefix
import FarReach.NewestWrite
import FarReach.SeqOrder
import FarReach.SnapshotFlag
import FarReach.CacheMetadata
import FarReach.EvictDelivery
import FarReach.PeriodCut
import FarReach.SnapshotRedo
import FarReach.SnapshotSignals
import FarReach.BackupNotification
import FarReach.LiveDeleted
import FarReach.MaxseqMark
import FarReach.Binary64
import FarReach.CrcShift
import FarReach.KeyHash
import FarReach.HashPartition
import FarReach.UpstreamBackups
import FarReach.PacketFormat
import FarReach.LargevaluePackets
import FarReach.ScanResponse
import FarReach.PktRingBuffer
import FarReach.Reassembly
import FarReach.SocketHelper
import FarReach.Fragments
import FarReach.FragmentDelivery
import FarReach.FragmentStreams
import FarReach.MultisrcReceiver
import FarReach.TombstoneIndexes
import FarReach.SpecialcaseMerge
import FarReach.EvictionVictim
import FarReach.SnapshotGetdata
import FarReach.UpstreamNotification
import FarReach.SnapshotLoading
import FarReach.NetcacheKeysets
import FarReach.NetcacheCoherence
import FarReach.CloneChain
import FarReach.Layouts
import FarReach.PacketClasses
import FarReach.PacketRoundTrip
import FarReach.ReceiverTracking
import FarReach.ServerExactlyOnce
import FarReach.ControllerFiles
import FarReach.HotKeysDump
import FarReach.RecoverPkt
import FarReach.ScanClamp
import FarReach.ByteFiles
import FarReach.ClientBackups
import FarReach.CountMin
import FarReach.KeyRoles
import FarReach.NetcacheSwitchos
import FarReach.RecordReads
import FarReach.SnapshotBytes
import FarReach.ByteOrder
import FarReach.Checksums
import FarReach.DynamicArrayRuns
import FarReach.GetresLargevalue
import FarReach.KeyStorage
import FarReach.RingBufferFifo
import FarReach.ScanResponseCodec
import FarReach.ValCodec
import FarReach.SnapshotDistribution
