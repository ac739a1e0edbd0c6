import AiOS.Lib.LittleEndian
import AiOS.Lib.Program
import AiOS.Lib.Chain
import AiOS.Lib.Slots
import AiOS.Disk.Basic
import AiOS.Fat32.Basic
import AiOS.Stdlib.String
import AiOS.Lib.Moves
import AiOS.Stdlib.Memory
import AiOS.Fat32.Impl.Init
import AiOS.Fat32.Impl.Read
import AiOS.Fat32.Impl.Write
import AiOS.Fat32.Impl.Delete
import AiOS.Lib.Catalog
import AiOS.Fat32.Lemmas.Cluster
import AiOS.Fat32.Volume
import AiOS.Fat32.Lemmas.Create
import AiOS.Fat32.Lemmas.Search
import AiOS.Fat32.Lemmas.Write
import AiOS.Fat32.Decision
import AiOS.Fat32.Monitor
import AiOS.Fat32.Lemmas.Commit
import AiOS.Fat32.Frame
import AiOS.Fat32.Lemmas.Delete
import AiOS.Fat32.Lemmas.Remove
import AiOS.Fat32.Crash
import AiOS.Fat32.Lemmas.Read
import AiOS.Lib.System
import AiOS.Fat32.Run
import AiOS.Fat32.RoundTrip
import AiOS.Fat32.Remount
import AiOS.Fat32.Parent
import AiOS.Fat32.Names
import AiOS.Fat32.Notes
import AiOS.Fat32.Lookup
import AiOS.Fat32.Overrun
import AiOS.Fat32.Steady
import AiOS.Fat32.Linked
import AiOS.Fat32.Stale
import AiOS.Fat32.Undo
import AiOS.Fat32.Removal
import AiOS.Fat32.Instances
import AiOS.Fat32.Lemmas.SharedDelete
import AiOS.Lib.Store
import AiOS.Fat32.Content
import AiOS.Fat32.Atomic
import AiOS.Fat32.Power
import AiOS.Fat32.Retained
import AiOS.Fat32.Format
import AiOS.Memory.Impl
import AiOS.Process.Impl.Scheduler
import AiOS.Memory.Lemmas
import AiOS.Memory.Mapping
import AiOS.Memory.Translation
import AiOS.Memory.Allocator
import AiOS.Process.Lemmas.Create
import AiOS.Process.Lemmas.Destroy
import AiOS.Process.Lemmas.Scheduler
import AiOS.Process.Session
import AiOS.Process.Boot
import AiOS.Process.Creation
import AiOS.Process.Conservation
import AiOS.Process.Admission
import AiOS.Process.Frames
import AiOS.Process.Loading
import AiOS.Process.Table
import AiOS.Process.Schedule
import AiOS.Process.Destruction
import AiOS.Lib.Turns
import AiOS.Process.Rotation
import AiOS.Process.Isolation
import AiOS.Process.Fairness
import AiOS.Process.Separation
import AiOS.Process.Naming
import AiOS.Lib.Stack
import AiOS.Cpu.Basic
import AiOS.Cpu.Impl
import AiOS.Cpu.Preemption
import AiOS.Cpu.Return
import AiOS.Lib.Fields
import AiOS.Cpu.Descriptor
import AiOS.Cpu.Entry
import AiOS.Driver.Pic
import AiOS.Cpu.Board
import AiOS.Cpu.Interrupts
import AiOS.Cpu.Delivery
import AiOS.Lib.Page
import AiOS.Text.Framebuffer
import AiOS.Text.Console
import AiOS.Lib.Logged
import AiOS.Text.Cursor
import AiOS.Lib.Strip
import AiOS.Text.Strip
import AiOS.Lib.Mailbox
import AiOS.Driver.Cmos
import AiOS.Lib.Span
import AiOS.Disk.Ata
import AiOS.Disk.Image
import AiOS.Disk.Refinement
import AiOS.Driver.Keyboard
import AiOS.Lib.Fallible
import AiOS.Lib.Walk
import AiOS.Lib.Traversal
import AiOS.Shell.Basic
import AiOS.Shell.Impl.UserShell
import AiOS.Shell.Impl.Files
import AiOS.Shell.Impl.Cp
import AiOS.Shell.Impl.Main
import AiOS.Shell.Lemmas.Cd
import AiOS.Shell.Lemmas.Path
import AiOS.Lib.Words
import AiOS.Shell.Line
import AiOS.Shell.Echo
import AiOS.Shell.Pieces
import AiOS.Shell.Stay
import AiOS.Shell.Resolve
import AiOS.Shell.Search
import AiOS.Shell.Prompt
import AiOS.Shell.Growth
import AiOS.Shell.Depth
import AiOS.Shell.Move
import AiOS.Shell.Append
import AiOS.Shell.Calls
import AiOS.Shell.Zone
import AiOS.Shell.Descent
import AiOS.Shell.Copy
import AiOS.Shell.Listing
import AiOS.Shell.Contents
import AiOS.Lib.Decimal
import AiOS.Shell.Number
import AiOS.Shell.Processes
import AiOS.Lib.Writes
import AiOS.Text.Clock
import AiOS.Shell.Kill
import AiOS.Fat32.Residue
import AiOS.Shell.Residue
import AiOS.External.Inserter
import AiOS.External.Install
