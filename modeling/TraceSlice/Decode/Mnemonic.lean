import TraceSlice.Decode.Effect

/-!
# Mnemonics

The known mnemonics, family by family: all mnemonics of a family have the same `Effect`. One table serves both
architectures, as the specification asks (§4.1 and §9). A mnemonic that `effect?` does not find has no operands.
-/

namespace TraceSlice.Decode

/-- The families of mnemonics, each with its effect. No mnemonic is in two families. -/
def families : List (Effect × List String) :=
  [(.shape [],
     ["aaa", "aam", "aas", "arpl", "bound", "clc", "cld", "cli", "clts", "cmc", "daa", "das",
      "endbr32", "endbr64", "fwait", "hlt", "in", "insb", "insd", "insw", "int1", "int3", "into",
      "lar", "lsl", "nop", "out", "outsb", "outsd", "outsw", "pause", "stc", "std", "sti", "ud2",
      "verr", "verw"]),
   (.adjustDivision, ["aad"]),
   (.shape [.both, .source],
     ["adc", "add", "addpd", "addps", "addsd", "addss", "addsubpd", "addsubps", "and", "andnpd",
      "andnps", "andpd", "andps", "btc", "btr", "bts", "divpd", "divps", "divsd", "divss", "haddpd",
      "haddps", "hsubpd", "hsubps", "maxpd", "maxps", "maxsd", "maxss", "minpd", "minps", "minsd",
      "minss", "movhlps", "movhpd", "movhps", "movlhps", "movlpd", "movlps", "mulpd", "mulps",
      "mulsd", "mulss", "or", "orpd", "orps", "packssdw", "packsswb", "packusdw", "packuswb",
      "paddb", "paddd", "paddq", "paddsb", "paddsw", "paddusb", "paddusw", "paddw", "pand", "pandn",
      "pavgb", "pavgw", "pcmpeqb", "pcmpeqd", "pcmpeqq", "pcmpeqw", "pcmpgtb", "pcmpgtd", "pcmpgtq",
      "pcmpgtw", "phaddd", "phaddsw", "phaddw", "phsubd", "phsubsw", "phsubw", "pmaddubsw",
      "pmaddwd", "pmaxsb", "pmaxsd", "pmaxsw", "pmaxub", "pmaxud", "pmaxuw", "pminsb", "pminsd",
      "pminsw", "pminub", "pminud", "pminuw", "pmuldq", "pmulhrsw", "pmulhuw", "pmulhw", "pmulld",
      "pmullw", "pmuludq", "por", "psadbw", "pshufb", "psignb", "psignd", "psignw", "pslld",
      "pslldq", "psllq", "psllw", "psrad", "psraw", "psrld", "psrldq", "psrlq", "psrlw", "psubb",
      "psubd", "psubq", "psubsb", "psubsw", "psubusb", "psubusw", "psubw", "punpckhbw", "punpckhdq",
      "punpckhqdq", "punpckhwd", "punpcklbw", "punpckldq", "punpcklqdq", "punpcklwd", "rcl", "rcr",
      "rol", "ror", "sal", "sar", "sbb", "shl", "shr", "subpd", "subps", "subsd", "subss",
      "unpckhpd", "unpckhps", "unpcklpd", "unpcklps"]),
   (.shape [.destination, .source, .source],
     ["andn", "extractps", "pextrb", "pextrd", "pextrq", "pextrw", "pshufd", "pshufhw", "pshuflw",
      "pshufw", "roundpd", "roundps", "roundsd", "roundss", "vpcmpeqb", "vpminub", "vpor",
      "vpunpcklbw", "vpunpckldq", "vpunpcklqdq", "vpunpcklwd"]),
   (.blend false, ["blendpd", "blendps", "pblendw"]),
   (.blend true, ["blendvpd", "blendvps", "pblendvb"]),
   (.shape [.destination, .source],
     ["bsf", "bsr", "cmova", "cmovae", "cmovb", "cmovbe", "cmove", "cmovg", "cmovge", "cmovl",
      "cmovle", "cmovne", "cmovno", "cmovnp", "cmovns", "cmovo", "cmovp", "cmovs", "cvtdq2pd",
      "cvtdq2ps", "cvtpd2dq", "cvtpd2pi", "cvtpd2ps", "cvtpi2pd", "cvtpi2ps", "cvtps2dq",
      "cvtps2pd", "cvtps2pi", "cvtsd2si", "cvtsd2ss", "cvtsi2sd", "cvtsi2ss", "cvtss2sd",
      "cvtss2si", "cvttpd2dq", "cvttpd2pi", "cvttps2dq", "cvttps2pi", "cvttsd2si", "cvttss2si",
      "lddqu", "lds", "les", "lgs", "lss", "lzcnt", "mov", "movabs", "movapd", "movaps", "movbe",
      "movd", "movddup", "movdq2q", "movdqa", "movdqu", "movmskpd", "movmskps", "movntdq",
      "movntdqa", "movnti", "movntpd", "movntps", "movntq", "movntsd", "movntss", "movq", "movq2dq",
      "movshdup", "movsldup", "movss", "movsx", "movsxd", "movupd", "movups", "movzx", "pabsb",
      "pabsd", "pabsw", "phminposuw", "pmovmskb", "pmovsxbd", "pmovsxbq", "pmovsxbw", "pmovsxdq",
      "pmovsxwd", "pmovsxwq", "pmovzxbd", "pmovzxbq", "pmovzxbw", "pmovzxdq", "pmovzxwd",
      "pmovzxwq", "popcnt", "sqrtpd", "sqrtps", "sqrtsd", "sqrtss", "tzcnt", "vmovapd", "vmovaps",
      "vmovd", "vmovdqa", "vmovdqu", "vmovq", "vmovupd", "vmovups", "vpmovmskb"]),
   (.shape [.both], ["bswap", "dec", "inc", "neg", "not"]),
   (.shape [.source, .source],
     ["bt", "cmp", "comisd", "comiss", "maskmovdqu", "maskmovq", "pcmpestri", "pcmpestrm",
      "pcmpistri", "pcmpistrm", "ptest", "test", "ucomisd", "ucomiss"]),
   (.call, ["call", "callf", "calln"]),
   (.convertExtend, ["cbw", "cdqe", "cwde"]),
   (.convertSplit, ["cdq", "cqo", "cwd"]),
   (.shape [.both, .source, .source],
     ["cmppd", "cmpps", "cmpss", "dppd", "dpps", "insertps", "mpsadbw", "palignr", "pinsrb",
      "pinsrd", "pinsrq", "pinsrw", "shld", "shrd", "shufpd", "shufps"]),
   (.string .compare none, ["cmps"]),
   (.string .compare (some 1), ["cmpsb"]),
   (.string .compare (some 4), ["cmpsd"]),
   (.string .compare (some 8), ["cmpsq"]),
   (.string .compare (some 2), ["cmpsw"]),
   (.compareExchange, ["cmpxchg"]),
   (.divide, ["div", "idiv"]),
   (.enter, ["enter"]),
   (.shape [.source],
     ["fimul", "ja", "jae", "jb", "jbe", "jc", "jcxz", "je", "jecxz", "jeq", "jg", "jge", "jl",
      "jle", "jmp", "jmpf", "jmpn", "jnc", "jne", "jno", "jnp", "jns", "jnz", "jo", "jp", "jpe",
      "jpo", "jrcxz", "js", "jz", "lldt", "ltr"]),
   (.multiply, ["imul", "mul"]),
   (.interrupt, ["int"]),
   (.interruptReturn, ["iret", "iretd", "iretq"]),
   (.loadFlags, ["lahf"]),
   (.loadAddress, ["lea"]),
   (.leave, ["leave"]),
   (.string .load none, ["lods"]),
   (.string .load (some 1), ["lodsb"]),
   (.string .load (some 4), ["lodsd"]),
   (.string .load (some 8), ["lodsq"]),
   (.string .load (some 2), ["lodsw"]),
   (.loop, ["loop", "loope", "loopne"]),
   (.string .move none, ["movs"]),
   (.string .move (some 1), ["movsb"]),
   (.string .move (some 4), ["movsd"]),
   (.string .move (some 8), ["movsq"]),
   (.string .move (some 2), ["movsw"]),
   (.pop, ["pop"]),
   (.popAll 2, ["popa"]),
   (.popAll 4, ["popad"]),
   (.popFlags, ["popf", "popfd", "popfq"]),
   (.push, ["push"]),
   (.pushAll 2, ["pusha"]),
   (.pushAll 4, ["pushad"]),
   (.pushFlags, ["pushf", "pushfd", "pushfq"]),
   (.selfClearing, ["pxor", "sub", "vpxor", "vxorps", "xor", "xorpd", "xorps"]),
   (.nearReturn, ["ret", "retn"]),
   (.farReturn, ["retf"]),
   (.storeFlags, ["sahf"]),
   (.string .scan none, ["scas"]),
   (.string .scan (some 1), ["scasb"]),
   (.string .scan (some 4), ["scasd"]),
   (.string .scan (some 8), ["scasq"]),
   (.string .scan (some 2), ["scasw"]),
   (.shape [.destination],
     ["seta", "setae", "setb", "setbe", "sete", "setg", "setge", "setl", "setle", "setne", "setno",
      "setnp", "setns", "seto", "setp", "setpe", "setpo", "sets", "sldt", "str"]),
   (.string .store none, ["stos"]),
   (.string .store (some 1), ["stosb"]),
   (.string .store (some 4), ["stosd"]),
   (.string .store (some 8), ["stosq"]),
   (.string .store (some 2), ["stosw"]),
   (.syscall, ["syscall", "sysenter"]),
   (.shape [.both, .both], ["xadd", "xchg"])]

/-- The effect of the instructions with a mnemonic: that of the first of `families` it stands in. -/
def effect? (mnemonic : String) : Option Effect :=
  (families.find? fun family => family.2.contains mnemonic).map (·.1)

end TraceSlice.Decode
