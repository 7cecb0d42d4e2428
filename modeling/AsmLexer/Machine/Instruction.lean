import AsmLexer.Machine.InstructionTable

/-!
# The instruction set

The mnemonics of the machine with their opcodes.
-/

namespace AsmLexer.InstructionTable

def standard : InstructionTable where
  entries :=
    [("nop", 0), ("halt", 1), ("ld", 2), ("ldi", 3), ("st", 4), ("mov", 5), ("push", 6), ("pop", 7),
     ("dup", 8), ("swap", 9), ("add", 16), ("sub", 17), ("mul", 18), ("div", 19), ("mod", 20),
     ("neg", 21), ("inc", 22), ("dec", 23), ("and", 32), ("or", 33), ("xor", 34), ("not", 35),
     ("shl", 36), ("shr", 37), ("sar", 38), ("cmp", 48), ("eq", 49), ("ne", 50), ("lt", 51),
     ("le", 52), ("gt", 53), ("ge", 54), ("jmp", 64), ("jz", 65), ("jnz", 66), ("call", 67),
     ("ret", 68), ("malloc", 80), ("free", 81), ("memcpy", 82), ("memset", 83), ("in", 96),
     ("out", 97), ("syscall", 112), ("brk", 255)]

end AsmLexer.InstructionTable
