import Ece391.Lib.Transition
import Ece391.Lib.Interrupt
import Ece391.Lib.X86
import Ece391.Kernel.CString
import Ece391.Lib.StringOps
import Ece391.Kernel.BlockMemory
import Ece391.Lib.Numerals
import Ece391.Kernel.Itoa
import Ece391.Kernel.Filesystem
import Ece391.Kernel.State
import Ece391.Kernel.Console
import Ece391.Kernel.Syscall
import Ece391.Kernel.Scheduler
import Ece391.Process.Events
import Ece391.Process.Forest
import Ece391.Process.Table
import Ece391.Process.Resume
import Ece391.Process.Nesting
import Ece391.Process.Calls
import Ece391.Files.Stream
import Ece391.Files.FileData
import Ece391.Files.Directory
import Ece391.Files.Lifecycle
import Ece391.Process.HaltAtomic
import Ece391.Interrupt.Link
import Ece391.Lib.Branches
import Ece391.Interrupt.Dispatch
import Ece391.Terminals.Mapping
import Ece391.Terminals.Screens
import Ece391.Kernel.Keyboard
import Ece391.Terminals.Lines
import Ece391.Terminals.LineBuffer
import Ece391.Terminals.LineEditing
import Ece391.Terminals.Isolation
import Ece391.Terminals.Layout
import Ece391.Terminals.Echo
import Ece391.Terminals.Scrolling
import Ece391.Terminals.Accesses
import Ece391.Terminals.KeyBounds
import Ece391.Terminals.CellBounds
import Ece391.Terminals.Reading
import Ece391.Files.Lookup
import Ece391.Files.Failure
import Ece391.Files.OpenNames
import Ece391.Process.FailedExecute
import Ece391.Process.KernelStacks
import Ece391.Process.Arguments
import Ece391.Process.Admission
import Ece391.Process.Loader
import Ece391.Lib.Trace
import Ece391.Kernel.Printf
import Ece391.Process.Parsing
import Ece391.Files.Buffers
import Ece391.Lib.LinkedList
import Ece391.Adventure.World
import Ece391.Adventure.Commands
import Ece391.Adventure.Contents
import Ece391.Lib.Memory
import Ece391.Adventure.Modex
import Ece391.Adventure.Render
import Ece391.Adventure.Window
import Ece391.Adventure.Scroll
import Ece391.Adventure.Fence
import Ece391.Adventure.Panning
import Ece391.Adventure.Text
import Ece391.Adventure.Input
import Ece391.Adventure.Getting
import Ece391.Adventure.Plot
import Ece391.Adventure.Story
import Ece391.Lib.Ring
import Ece391.Lib.Framing
import Ece391.MissileCommand.Crosshairs
import Ece391.Tux.Ldisc
import Ece391.Tux.Receive
import Ece391.Tux.Transmit
import Ece391.Adventure.PhotoFile
import Ece391.Fish.Blink
import Ece391.Fish.BlinkList
import Ece391.Fish.Phase
import Ece391.Process.Boot
import Ece391.Process.AddressSpace
import Ece391.Terminals.FirstOutput
import Ece391.Interrupt.Wrapper
import Ece391.User.Calls
import Ece391.User.Grep
import Ece391.User.Programs
import Ece391.Adventure.Repaint
import Ece391.Adventure.Typed
import Ece391.Adventure.Loop
import Ece391.Lib.Pic8259
import Ece391.Interrupt.Controller
import Ece391.Interrupt.Service
import Ece391.MissileCommand.Explosions
