import Dexter.Machine
import Dexter.Lib.Runs
import Dexter.Mem.HeapRuns
import Dexter.Mem.HeapContract
import Dexter.Mem.DirectoryContract
import Dexter.Proc.TaskRuns
import Dexter.Fs.PathContract
import Dexter.Fs.FileRuns
import Dexter.Fs.DirectoryWalk
import Dexter.Fs.HeaderSafety
import Dexter.Fs.StreamRuns
import Dexter.Fs.OpenClose
import Dexter.Fs.ReadContract
import Dexter.Fs.ChainWalk
import Dexter.Fs.ItemNames
import Dexter.Fs.DirectoryLoad
import Dexter.Fs.EndOfFile
import Dexter.Fs.OpenFailures
import Dexter.Proc.TaskFailures
import Dexter.Sys.PrintBuf
import Dexter.X86.TaskReturn
import Dexter.Proc.Rotation
import Dexter.Proc.ProcessSlots
import Dexter.Proc.FromDisk
import Dexter.Proc.Contexts
import Dexter.Proc.PageTables
import Dexter.Sys.PrintedText
import Dexter.Fs.FileSystems
import Dexter.Sys.Startup
import Dexter.Fs.PathFree
import Dexter.Dev.KeyboardRuns
import Dexter.Libc.Stdio
import Dexter.Libc.Stdlib
import Dexter.Libc.Strings
import Dexter.Sys.Gdt
import Dexter.Sys.InterruptTable
import Dexter.Dev.KeyboardList
import Dexter.Libc.ScreenText
import Dexter.X86.Interrupts
import Dexter.Sys.SystemCalls
import Dexter.Fs.SectorReads
import Dexter.X86.BootLoader
