import AuroraOS.Lib.Stack

/-!
# The x86-64 instructions of the entry and switch code

The registers, flags and GS bases that `arch/x86_64/syscall.S` and
`arch/x86_64/context.S` use, and straight-line execution of their instructions.  A
program is a list; only its last instruction transfers control.
-/

namespace AuroraOS.Arch

open Lib

abbrev Word := BitVec 64

inductive Reg where
  | rax | rbx | rcx | rdx | rsi | rdi | rbp | rsp
  | r8 | r9 | r10 | r11 | r12 | r13 | r14 | r15
deriving DecidableEq

/-- General registers and memory, with the other registers the code touches. -/
structure Cpu extends StackState Reg where
  rip : Word
  rflags : Word
  gsBase : Word
  kernelGsBase : Word

inductive Instr where
  | push (r : Reg)
  | pop (r : Reg)
  | pushfq
  | popfq
  /-- `mov %src, %dst`. -/
  | mov (src dst : Reg)
  /-- `mov %src, (%base)`. -/
  | store (src base : Reg)
  /-- `mov %src, %gs:off`. -/
  | storeGs (src : Reg) (off : Nat)
  /-- `mov %gs:off, %dst`. -/
  | loadGs (off : Nat) (dst : Reg)
  | swapgs
  | ret
  | sysretq
deriving DecidableEq

namespace Cpu

variable (c : Cpu)

def set (r : Reg) (w : Word) : Cpu := { c with regs := Function.update c.regs r w }

def gs (off : Nat) : Nat := (c.gsBase.toNat + off) % 2 ^ 64

end Cpu

def sysretFlags (w : Word) : Word := (w &&& 0x3C7FD7) ||| 2

def exec (i : Instr) (c : Cpu) : Cpu :=
  match i with
  | .push r => { c with toStackState := c.pushReg .rsp r }
  | .pop r => { c with toStackState := c.popReg .rsp r }
  | .pushfq => { c with toStackState := c.toStackState.push .rsp c.rflags }
  | .popfq => { c with toStackState := c.toStackState.drop .rsp, rflags := c.top .rsp }
  | .mov src dst => c.set dst (c.regs src)
  | .store src base => { c with mem := setWord c.mem (c.regs base).toNat (c.regs src) }
  | .storeGs src off => { c with mem := setWord c.mem (c.gs off) (c.regs src) }
  | .loadGs off dst => c.set dst (word c.mem (c.gs off))
  | .swapgs => { c with gsBase := c.kernelGsBase, kernelGsBase := c.gsBase }
  | .ret => { c with toStackState := c.toStackState.drop .rsp, rip := c.top .rsp }
  | .sysretq => { c with rip := c.regs .rcx, rflags := sysretFlags (c.regs .r11) }

def run (p : List Instr) (c : Cpu) : Cpu := p.foldl (fun c i => exec i c) c

@[simp] lemma run_nil (c : Cpu) : run [] c = c := rfl

@[simp] lemma run_cons (i : Instr) (p : List Instr) (c : Cpu) :
    run (i :: p) c = run p (exec i c) := rfl

lemma run_append (p q : List Instr) (c : Cpu) : run (p ++ q) c = run q (run p c) :=
  List.foldl_append

lemma run_push (rs : List Reg) (c : Cpu) :
    run (rs.map .push) c = { c with toStackState := c.pushAll .rsp rs } := by
  induction rs generalizing c with
  | nil => rfl
  | cons r rs ih => exact ih (exec (.push r) c)

lemma run_pop (rs : List Reg) (c : Cpu) :
    run (rs.map .pop) c = { c with toStackState := c.popAll .rsp rs } := by
  induction rs generalizing c with
  | nil => rfl
  | cons r rs ih => exact ih (exec (.pop r) c)

end AuroraOS.Arch
