import GuestKernel.MmapPlacement
import GuestKernel.TlbRuns
import GuestKernel.FdErrors
import GuestKernel.FdLifetimeRuns
import GuestKernel.SignalMasks
import GuestKernel.SignalReturn
import GuestKernel.CloneErrors
import GuestKernel.WaitSignals
import GuestKernel.Mounts
import GuestKernel.PollReports
import GuestKernel.FakeRebuild
import GuestKernel.InodeLifetimes
import GuestKernel.EventFd
import GuestKernel.AbstractNameRuns
import GuestKernel.ScmRights
import GuestKernel.TimerRuns
import GuestKernel.ExecStart
import GuestKernel.VforkRuns
import GuestKernel.TimerLockRuns
import GuestKernel.RPCConnect
import GuestKernel.WorkspaceAnswers
import GuestKernel.ReadWriteLock
import GuestKernel.SockRestart
import GuestKernel.EpollCtl
import GuestKernel.VecAliasing
import GuestKernel.CallRangeBounds
import GuestKernel.HeapRuns
import GuestKernel.UserStrings
import GuestKernel.WorkspaceTurnRuns
import GuestKernel.ComposerTextRuns
import GuestKernel.FcntlLocks
import GuestKernel.Setattr
import GuestKernel.LoadEntry
import GuestKernel.OpenErrors
import GuestKernel.CallLockBalance
import GuestKernel.ReceivedMasks
import GuestKernel.WaitCalls
import GuestKernel.ReceivedData
import GuestKernel.PathRenames
import GuestKernel.PollEntries
import GuestKernel.SelectSets
import GuestKernel.Credentials
import GuestKernel.PtraceRegs
import GuestKernel.TimerfdCounts
import GuestKernel.PosixTimers
import GuestKernel.FutexRequeues
import GuestKernel.TimerCalls
import GuestKernel.TtyWrites
import GuestKernel.Float80Integers
import GuestKernel.TmpfsByteArrays
import GuestKernel.TmpfsPaths
import GuestKernel.Fifo
import GuestKernel.VecShifts
import GuestKernel.FpuFlags
import GuestKernel.Getdents
import GuestKernel.BlockCache
