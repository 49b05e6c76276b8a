import TraceSlice.Arch.Basic

/-!
# The 32-bit architecture

Register groups, system calls and register roles of 32-bit x86, put together in `x86Description` (specification, §E6).
-/

namespace TraceSlice.Arch

/-- The register groups of 32-bit x86. -/
def x86Registers : List RegisterGroup :=
  [⟨"eax", ["ax", "ah", "al"]⟩, ⟨"ebx", ["bx", "bh", "bl"]⟩, ⟨"ecx", ["cx", "ch", "cl"]⟩,
   ⟨"edx", ["dx", "dh", "dl"]⟩, ⟨"esi", ["si"]⟩, ⟨"edi", ["di"]⟩, ⟨"ebp", ["bp"]⟩, ⟨"esp", ["sp"]⟩,
   ⟨"eip", ["ip"]⟩, ⟨"eflags", []⟩, ⟨"cs", []⟩, ⟨"ds", []⟩, ⟨"es", []⟩, ⟨"fs", []⟩, ⟨"gs", []⟩,
   ⟨"ss", []⟩, ⟨"ymm0", ["xmm0"]⟩, ⟨"ymm1", ["xmm1"]⟩, ⟨"ymm2", ["xmm2"]⟩, ⟨"ymm3", ["xmm3"]⟩,
   ⟨"ymm4", ["xmm4"]⟩, ⟨"ymm5", ["xmm5"]⟩, ⟨"ymm6", ["xmm6"]⟩, ⟨"ymm7", ["xmm7"]⟩, ⟨"mm0", []⟩,
   ⟨"mm1", []⟩, ⟨"mm2", []⟩, ⟨"mm3", []⟩, ⟨"mm4", []⟩, ⟨"mm5", []⟩, ⟨"mm6", []⟩, ⟨"mm7", []⟩,
   ⟨"st", []⟩]

/-- The system calls of 32-bit x86. -/
def x86Syscalls : List Syscall :=
  [⟨1, "exit", 1⟩, ⟨2, "fork", 0⟩, ⟨3, "read", 3⟩, ⟨4, "write", 3⟩, ⟨5, "open", 3⟩,
   ⟨6, "close", 1⟩, ⟨7, "waitpid", 3⟩, ⟨8, "creat", 2⟩, ⟨9, "link", 2⟩, ⟨10, "unlink", 1⟩,
   ⟨11, "execve", 3⟩, ⟨12, "chdir", 1⟩, ⟨13, "time", 1⟩, ⟨19, "lseek", 3⟩, ⟨20, "getpid", 0⟩,
   ⟨33, "access", 2⟩, ⟨37, "kill", 2⟩, ⟨38, "rename", 2⟩, ⟨39, "mkdir", 2⟩, ⟨40, "rmdir", 1⟩,
   ⟨41, "dup", 1⟩, ⟨42, "pipe", 1⟩, ⟨45, "brk", 1⟩, ⟨54, "ioctl", 3⟩, ⟨55, "fcntl", 3⟩,
   ⟨63, "dup2", 2⟩, ⟨64, "getppid", 0⟩, ⟨78, "gettimeofday", 2⟩, ⟨85, "readlink", 3⟩,
   ⟨90, "mmap", 1⟩, ⟨91, "munmap", 2⟩, ⟨102, "socketcall", 2⟩, ⟨106, "stat", 2⟩, ⟨108, "fstat", 2⟩,
   ⟨114, "wait4", 4⟩, ⟨120, "clone", 5⟩, ⟨122, "uname", 1⟩, ⟨125, "mprotect", 3⟩,
   ⟨140, "_llseek", 5⟩, ⟨145, "readv", 3⟩, ⟨146, "writev", 3⟩, ⟨162, "nanosleep", 2⟩,
   ⟨174, "rt_sigaction", 4⟩, ⟨175, "rt_sigprocmask", 4⟩, ⟨180, "pread64", 4⟩, ⟨181, "pwrite64", 4⟩,
   ⟨183, "getcwd", 2⟩, ⟨192, "mmap2", 6⟩, ⟨195, "stat64", 2⟩, ⟨197, "fstat64", 2⟩,
   ⟨199, "getuid32", 0⟩, ⟨224, "gettid", 0⟩, ⟨240, "futex", 6⟩, ⟨243, "set_thread_area", 1⟩,
   ⟨252, "exit_group", 1⟩, ⟨258, "set_tid_address", 1⟩, ⟨265, "clock_gettime", 2⟩,
   ⟨295, "openat", 4⟩, ⟨355, "getrandom", 3⟩]

/-- The description of 32-bit x86. -/
def x86Description : Description where
  name := "i386"
  pointerWidth := 4
  registers := x86Registers
  zeroRegisters := ["eiz"]
  stackPointer := "esp"
  framePointer := "ebp"
  instructionPointer := "eip"
  sourceIndex := "esi"
  destinationIndex := "edi"
  counter := "ecx"
  accumulator := "eax"
  data := "edx"
  returnRegister := "eax"
  syscallNumber := "eax"
  syscallArguments := ["ebx", "ecx", "edx", "esi", "edi", "ebp"]
  syscalls := x86Syscalls
  readSyscall := 3
  readBuffer := "ecx"
  legacySyscallGate := true

end TraceSlice.Arch
