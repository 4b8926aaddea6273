import M12.Library.ByteMemory
import M12.Library.Bitmap
import M12.Library.IndexPool
import M12.MemoryMap
import M12.Allocator
import M12.FreePages
import M12.Usable
import M12.BootTables
import M12.Paging
import M12.PageEntries
import M12.TableTree
import M12.OwnedTables
import M12.InitPaging
import M12.RegionMap
import M12.DetectMemory
import M12.IdentityMap
import M12.Process
import M12.ProcessTable
import M12.Library.CyclicSearch
import M12.Roster
import M12.ProcessCount
import M12.ExitedProcess
import M12.ProcessStacks
import M12.Library.WordStack
import M12.Library.X64
import M12.ContextSwitch
import M12.FirstDispatch
import M12.SyscallEntry
import M12.InterruptStubs
import M12.ProcessIds
import M12.SavedPointers
import M12.TableOwnership
import M12.AddressSpace
import M12.AddressShortcut
import M12.Console
import M12.ConsoleLines
import M12.ConsoleBounds
import M12.ConsoleEditing
import M12.FormatReads
import M12.CleanFailure
import M12.RoundRobin
import M12.CreateContract
import M12.ForkCopy
import M12.PagePermissions
import M12.PageGranularity
import M12.StaleTables
import M12.DiskLoad
import M12.DigitBuffers
import M12.OutputCalls
import M12.Rendering
import M12.LineErase
import M12.CellColors
import M12.FirstFit
import M12.SyscallWrite
import M12.BootMemory
import M12.LargestBlock
import M12.MarkedRange
import M12.TestSuite
import M12.InterruptTable
import M12.KernelPages
import M12.DeviceInterrupts
import M12.SystemCalls
import M12.KernelTests
import M12.FormatPieces
import M12.Reports
import M12.Library.SystemMode
import M12.NotedEntries
import M12.ModeSwitch
import M12.Selectors
