import TraceSlice.Arch.Basic

/-!
# The 64-bit architecture

Register groups, system calls and register roles of 64-bit x86, put together in `x64Description` (specification, §E6).
-/

namespace TraceSlice.Arch

/-- The register groups of 64-bit x86. -/
def x64Registers : List RegisterGroup :=
  [⟨"rax", ["eax", "ax", "ah", "al"]⟩, ⟨"rbx", ["ebx", "bx", "bh", "bl"]⟩,
   ⟨"rcx", ["ecx", "cx", "ch", "cl"]⟩, ⟨"rdx", ["edx", "dx", "dh", "dl"]⟩,
   ⟨"rsi", ["esi", "si", "sil"]⟩, ⟨"rdi", ["edi", "di", "dil"]⟩, ⟨"rbp", ["ebp", "bp", "bpl"]⟩,
   ⟨"rsp", ["esp", "sp", "spl"]⟩, ⟨"rip", ["eip", "ip"]⟩, ⟨"r8", ["r8d", "r8w", "r8b", "r8l"]⟩,
   ⟨"r9", ["r9d", "r9w", "r9b", "r9l"]⟩, ⟨"r10", ["r10d", "r10w", "r10b", "r10l"]⟩,
   ⟨"r11", ["r11d", "r11w", "r11b", "r11l"]⟩, ⟨"r12", ["r12d", "r12w", "r12b", "r12l"]⟩,
   ⟨"r13", ["r13d", "r13w", "r13b", "r13l"]⟩, ⟨"r14", ["r14d", "r14w", "r14b", "r14l"]⟩,
   ⟨"r15", ["r15d", "r15w", "r15b", "r15l"]⟩, ⟨"rflags", ["eflags"]⟩, ⟨"cs", []⟩, ⟨"ds", []⟩,
   ⟨"es", []⟩, ⟨"fs", []⟩, ⟨"gs", []⟩, ⟨"ss", []⟩, ⟨"ymm0", ["xmm0"]⟩, ⟨"ymm1", ["xmm1"]⟩,
   ⟨"ymm2", ["xmm2"]⟩, ⟨"ymm3", ["xmm3"]⟩, ⟨"ymm4", ["xmm4"]⟩, ⟨"ymm5", ["xmm5"]⟩,
   ⟨"ymm6", ["xmm6"]⟩, ⟨"ymm7", ["xmm7"]⟩, ⟨"ymm8", ["xmm8"]⟩, ⟨"ymm9", ["xmm9"]⟩,
   ⟨"ymm10", ["xmm10"]⟩, ⟨"ymm11", ["xmm11"]⟩, ⟨"ymm12", ["xmm12"]⟩, ⟨"ymm13", ["xmm13"]⟩,
   ⟨"ymm14", ["xmm14"]⟩, ⟨"ymm15", ["xmm15"]⟩, ⟨"mm0", []⟩, ⟨"mm1", []⟩, ⟨"mm2", []⟩, ⟨"mm3", []⟩,
   ⟨"mm4", []⟩, ⟨"mm5", []⟩, ⟨"mm6", []⟩, ⟨"mm7", []⟩, ⟨"st", []⟩]

/-- The system calls of 64-bit x86. -/
def x64Syscalls : List Syscall :=
  [⟨0, "read", 3⟩, ⟨1, "write", 3⟩, ⟨2, "open", 3⟩, ⟨3, "close", 1⟩, ⟨4, "stat", 2⟩,
   ⟨5, "fstat", 2⟩, ⟨6, "lstat", 2⟩, ⟨7, "poll", 3⟩, ⟨8, "lseek", 3⟩, ⟨9, "mmap", 6⟩,
   ⟨10, "mprotect", 3⟩, ⟨11, "munmap", 2⟩, ⟨12, "brk", 1⟩, ⟨13, "rt_sigaction", 4⟩,
   ⟨14, "rt_sigprocmask", 4⟩, ⟨15, "rt_sigreturn", 0⟩, ⟨16, "ioctl", 3⟩, ⟨17, "pread64", 4⟩,
   ⟨18, "pwrite64", 4⟩, ⟨19, "readv", 3⟩, ⟨20, "writev", 3⟩, ⟨21, "access", 2⟩, ⟨22, "pipe", 1⟩,
   ⟨23, "select", 5⟩, ⟨24, "sched_yield", 0⟩, ⟨25, "mremap", 5⟩, ⟨26, "msync", 3⟩,
   ⟨27, "mincore", 3⟩, ⟨28, "madvise", 3⟩, ⟨32, "dup", 1⟩, ⟨33, "dup2", 2⟩, ⟨35, "nanosleep", 2⟩,
   ⟨39, "getpid", 0⟩, ⟨41, "socket", 3⟩, ⟨42, "connect", 3⟩, ⟨43, "accept", 3⟩, ⟨44, "sendto", 6⟩,
   ⟨45, "recvfrom", 6⟩, ⟨46, "sendmsg", 3⟩, ⟨47, "recvmsg", 3⟩, ⟨48, "shutdown", 2⟩,
   ⟨49, "bind", 3⟩, ⟨50, "listen", 2⟩, ⟨51, "getsockname", 3⟩, ⟨52, "getpeername", 3⟩,
   ⟨54, "setsockopt", 5⟩, ⟨55, "getsockopt", 5⟩, ⟨56, "clone", 5⟩, ⟨57, "fork", 0⟩,
   ⟨58, "vfork", 0⟩, ⟨59, "execve", 3⟩, ⟨60, "exit", 1⟩, ⟨61, "wait4", 4⟩, ⟨62, "kill", 2⟩,
   ⟨63, "uname", 1⟩, ⟨72, "fcntl", 3⟩, ⟨78, "getdents", 3⟩, ⟨79, "getcwd", 2⟩, ⟨80, "chdir", 1⟩,
   ⟨82, "rename", 2⟩, ⟨83, "mkdir", 2⟩, ⟨84, "rmdir", 1⟩, ⟨87, "unlink", 1⟩, ⟨89, "readlink", 3⟩,
   ⟨96, "gettimeofday", 2⟩, ⟨97, "getrlimit", 2⟩, ⟨102, "getuid", 0⟩, ⟨104, "getgid", 0⟩,
   ⟨107, "geteuid", 0⟩, ⟨108, "getegid", 0⟩, ⟨110, "getppid", 0⟩, ⟨137, "statfs", 2⟩,
   ⟨158, "arch_prctl", 2⟩, ⟨186, "gettid", 0⟩, ⟨201, "time", 1⟩, ⟨202, "futex", 6⟩,
   ⟨217, "getdents64", 3⟩, ⟨218, "set_tid_address", 1⟩, ⟨228, "clock_gettime", 2⟩,
   ⟨231, "exit_group", 1⟩, ⟨257, "openat", 4⟩, ⟨262, "newfstatat", 4⟩, ⟨273, "set_robust_list", 2⟩,
   ⟨302, "prlimit64", 4⟩, ⟨318, "getrandom", 3⟩]

/-- The description of 64-bit x86. It has no legacy gate: `int 0x80` calls the system in `x86Description` only. -/
def x64Description : Description where
  name := "i386:x86-64"
  pointerWidth := 8
  registers := x64Registers
  zeroRegisters := ["riz", "eiz"]
  stackPointer := "rsp"
  framePointer := "rbp"
  instructionPointer := "rip"
  sourceIndex := "rsi"
  destinationIndex := "rdi"
  counter := "rcx"
  accumulator := "rax"
  data := "rdx"
  returnRegister := "rax"
  syscallNumber := "rax"
  syscallArguments := ["rdi", "rsi", "rdx", "r10", "r8", "r9"]
  syscalls := x64Syscalls
  readSyscall := 0
  readBuffer := "rsi"
  legacySyscallGate := false

end TraceSlice.Arch
