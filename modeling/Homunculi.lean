import Homunculi.Paging.Page
import Homunculi.Paging.PageIter
import Homunculi.Paging.Table
import Homunculi.Memory.Frame
import Homunculi.Context.Grants
import Homunculi.Debugger.Tally
import Homunculi.Debugger.CheckConsistency
import Homunculi.Debugger.Audit
import Homunculi.Debugger.Kernel
import Homunculi.Arch.X86.Syscall
import Homunculi.Arch.Aarch64.Start
import Homunculi.Debugger.StackDump
import Homunculi.Debugger.Dump
import Homunculi.Arch.X86.SyscallInit
import Homunculi.Arch.X86.Ipi
