import Os161.Syscall.DemandImage
import Os161.Threads.Preemption
import Os161.Threads.Isolation
import Os161.Process.ExitRace
import Os161.Syscall.Fork
import Os161.Process.Lifetime
import Os161.Threads.Semaphore
import Os161.Threads.CondVar
import Os161.File.DescriptorCount
import Os161.File.Sharing
import Os161.Threads.Migration
import Os161.File.BigLock
import Os161.File.VnodeCounts
import Os161.File.LockBalance
import Os161.Sfs.FailedCreate
import Os161.Sfs.Remount
import Os161.Sfs.Session
import Os161.User.HeapRuns
import Os161.Threads.Ipi
import Os161.Vm.EarlyPages
import Os161.Vm.Statistics
import Os161.Synchprobs.CatMouseRounds
import Os161.Process.Executables
import Os161.Vm.FirstFit
import Os161.Vm.Replacement
import Os161.Vm.RegionRuns
import Os161.Syscall.Arguments
import Os161.Vm.InsertionPaths
import Os161.Sfs.BlockOffset
import Os161.File.DevicePath
import Os161.Threads.Masking
import Os161.Sfs.LhdRequest
import Os161.Klib.PtrArray
import Os161.Sfs.CheckerMap
import Os161.Libc.Memmove
import Os161.Dev.Console
import Os161.Klib.Queue
import Os161.Klib.Bitmap
import Os161.Klib.Uio
import Os161.Sfs.CheckerBitmap
