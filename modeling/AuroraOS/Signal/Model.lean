import AuroraOS.Arch.Machine

/-!
# Signals

Model of `check_signals`, `do_signal_default` and `do_sys_sigreturn` of `kernel/signal.c`, and
of `syscall_trap` of `kernel/syscall.c` around them.  The C code reads and writes the members of
`struct trapframe`; which registers of the task they are is another matter, since `syscall.S` lays
the frame out in the opposite order (`Context.regs`).

The memory of the task and which of its pages are mapped are arguments of a trap, as the task
runs between two of them.  So is what a system call other than `sigreturn` does.
-/

namespace AuroraOS.Signal

open Lib

abbrev Word := BitVec 64

def nsig : Nat := 32
def sigchld : Nat := 17
def sysSigreturn : Nat := 15
def sigDfl : Word := 0
def sigIgn : Word := 1

/-- `struct trapframe`, as the C code names its members. -/
structure Trapframe where
  r15 : Word
  r14 : Word
  r13 : Word
  r12 : Word
  r11 : Word
  r10 : Word
  r9 : Word
  r8 : Word
  rsi : Word
  rdi : Word
  rdx : Word
  rcx : Word
  rax : Word
  rip : Word
  rsp : Word
deriving DecidableEq

/-- `struct sigframe`, without the word for a return address in front, which is never used. -/
structure Sigframe where
  signo : Word
  r15 : Word
  r14 : Word
  r13 : Word
  r12 : Word
  r11 : Word
  r10 : Word
  r9 : Word
  r8 : Word
  rsi : Word
  rdi : Word
  rdx : Word
  rcx : Word
  rax : Word
  rip : Word
  rflags : Word
  rsp : Word
deriving DecidableEq

def sizeofSigframe : Nat := 144

def Sigframe.words (f : Sigframe) : List Word :=
  [f.signo, f.r15, f.r14, f.r13, f.r12, f.r11, f.r10, f.r9, f.r8, f.rsi, f.rdi, f.rdx, f.rcx,
    f.rax, f.rip, f.rflags, f.rsp]

def Sigframe.ofFields (field : Nat → Word) : Sigframe :=
  { signo := field 0, r15 := field 1, r14 := field 2, r13 := field 3, r12 := field 4,
    r11 := field 5, r10 := field 6, r9 := field 7, r8 := field 8, rsi := field 9, rdi := field 10,
    rdx := field 11, rcx := field 12, rax := field 13, rip := field 14, rflags := field 15,
    rsp := field 16 }

def Sigframe.read (m : Store) (a : Nat) : Sigframe :=
  .ofFields fun i => word m (a + 8 + 8 * i)

structure SignalState where
  actions : Nat → Word
  pending : BitVec 32
  blocked : BitVec 32
  savedRsp : Word
  savedRip : Word

/-! ## The memory of the task -/

def userAddrMax : Nat := 0x00007FFFFFFFFFFF

def userAddrRangeOk (start size : Nat) : Bool :=
  let last := (start + size) % 2 ^ 64
  !(last < start) && !(last > userAddrMax)

/-- `present` says of a page address whether the page is mapped. -/
def userPagesMapped (present : Nat → Bool) (addr size : Nat) : Bool :=
  let page := addr / 0x1000 * 0x1000
  (List.range ((addr + size - page + 0xFFF) / 0x1000)).all fun k => present (page + k * 0x1000)

/-- The checks of `copy_from_user`. -/
def userReadable (present : Nat → Bool) (src size : Nat) : Bool :=
  src != 0 && userAddrRangeOk src size && userPagesMapped present src size

/-! ## Returning from a handler -/

/-- The assignments of `do_sys_sigreturn` from a valid frame. -/
def restoreFrame (tf : Trapframe) (frame : Sigframe) : Trapframe :=
  { tf with
    r15 := frame.r15, r14 := frame.r14, r13 := frame.r13, r12 := frame.r12
    r11 := frame.rflags &&& 0x3F7FD7
    r10 := frame.r10, r9 := frame.r9, r8 := frame.r8, rsi := frame.rsi, rdi := frame.rdi
    rdx := frame.rdx, rcx := frame.rcx, rax := frame.rax, rip := frame.rip, rsp := frame.rsp }

def doSysSigreturn (sig : SignalState) (tf : Trapframe) (mem : Store) (present : Nat → Bool) :
    SignalState × Trapframe :=
  if sig.savedRip ≠ 0 then
    let userRsp := sig.savedRsp
    let frameAddr := (userRsp - BitVec.ofNat 64 sizeofSigframe).toNat
    let frame := Sigframe.read mem frameAddr
    let tf :=
      if userReadable present frameAddr sizeofSigframe ∧ 0 < frame.signo.toNat ∧
          frame.signo.toNat < nsig then
        restoreFrame tf frame
      else { tf with rip := sig.savedRip, rsp := sig.savedRsp }
    ({ sig with savedRip := 0, savedRsp := 0, blocked := 0 }, tf)
  else (sig, tf)

/-! ## Delivery -/

/-- The task in a trap: `exitCode` once it has been terminated, and the signal that has been
delivered to a handler of its own. -/
structure Trapped where
  sig : SignalState
  tf : Trapframe
  mem : Store
  exitCode : Option Nat := none
  delivered : Option Nat := none

def doSignalDefault (t : Trapped) (s : Nat) : Trapped :=
  if s = sigchld then t else { t with exitCode := some (128 + s) }

def bit (s : Nat) : BitVec 32 := 1#32 <<< s

/-- `mov eax, SYS_SIGRETURN; syscall`, padded with zeros. -/
def trampoline : Store := fun i =>
  ([0xB8, 0x0F, 0, 0, 0, 0x0F, 0x05] : List UInt8).getD i 0

def trampolineSize : Nat := 16

def frameSize : Nat := sizeofSigframe + 8 + trampolineSize

/-- The frame that `check_signals` fills in from the interrupted members. -/
def saveFrame (tf : Trapframe) (s : Nat) : Sigframe :=
  { signo := BitVec.ofNat 64 s, r15 := tf.r15, r14 := tf.r14, r13 := tf.r13, r12 := tf.r12,
    r11 := tf.r11, r10 := tf.r10, r9 := tf.r9, r8 := tf.r8, rsi := tf.rsi, rdi := tf.rdi,
    rdx := tf.rdx, rcx := tf.rcx, rax := tf.rax, rip := tf.rip, rflags := tf.r11,
    rsp := tf.rsp }

/-- The user stack with the trampoline, the return address and the frame. -/
def pushFrame (mem : Store) (newRsp : Nat) (frame : Sigframe) : Store :=
  let mem := blit mem (newRsp + 8) trampolineSize trampoline
  let mem := setWord mem newRsp (BitVec.ofNat 64 (newRsp + 8))
  setWords mem (newRsp + 8 + trampolineSize + 8) frame.words

def deliver (t : Trapped) (present : Nat → Bool) (s : Nat) (handler : Word) : Trapped :=
  let userRsp := t.tf.rsp
  if userRsp.toNat < frameSize + 0x1000 then doSignalDefault t s
  else
    let newRsp := userRsp - BitVec.ofNat 64 frameSize
    if newRsp > userRsp then doSignalDefault t s
    else if !userAddrRangeOk newRsp.toNat frameSize ||
        !userPagesMapped present newRsp.toNat frameSize then doSignalDefault t s
    else
      { t with
        mem := pushFrame t.mem newRsp.toNat (saveFrame t.tf s)
        sig := { t.sig with
          savedRsp := t.tf.rsp
          savedRip := t.tf.rip
          blocked := t.sig.blocked ||| bit s }
        tf := { t.tf with rip := handler, rsp := newRsp, rdi := BitVec.ofNat 64 s }
        delivered := some s }

def Trapped.take (t : Trapped) (s : Nat) : Trapped :=
  { t with sig := { t.sig with pending := t.sig.pending &&& ~~~bit s } }

def checkLoop (present : Nat → Bool) : List Nat → Trapped → Trapped
  | [], t => t
  | s :: rest, t =>
    if t.sig.pending &&& bit s = 0 then checkLoop present rest t
    else if t.sig.blocked &&& bit s ≠ 0 then checkLoop present rest t
    else
      let t := t.take s
      let handler := t.sig.actions s
      if handler = sigDfl then doSignalDefault t s
      else if handler = sigIgn then checkLoop present rest t
      else deliver t present s handler

def checkSignals (present : Nat → Bool) (t : Trapped) : Trapped :=
  if t.sig.pending = 0 then t else checkLoop present (List.range' 1 (nsig - 1)) t

/-! ## Traps -/

/-- The frame of a task in a trap, with the registers that are not in it: RBX and RBP, which C code
preserves, and RSP, which `syscall_entry` keeps at `%gs:200`. -/
structure Context where
  tf : Trapframe
  rbx : Word
  rbp : Word
  rsp : Word
deriving DecidableEq

/-- The registers with which `syscall_return_point` goes back to the task: it pops RAX first, from
the lowest word of the frame, where the C code has `r15`.  The flags are those in R11 and the
address is that in RCX; the members `rip` and `rsp` lie above the frame and are not read. -/
def Context.regs (ctx : Context) : Arch.Reg → Word
  | .rax => ctx.tf.r15
  | .rcx => ctx.tf.r14
  | .rdx => ctx.tf.r13
  | .rdi => ctx.tf.r12
  | .rsi => ctx.tf.r11
  | .r8 => ctx.tf.r10
  | .r9 => ctx.tf.r9
  | .r10 => ctx.tf.r8
  | .r11 => ctx.tf.rsi
  | .r12 => ctx.tf.rdi
  | .r13 => ctx.tf.rdx
  | .r14 => ctx.tf.rcx
  | .r15 => ctx.tf.rax
  | .rbx => ctx.rbx
  | .rbp => ctx.rbp
  | .rsp => ctx.rsp

/-- What a system call other than `sigreturn` does, and a signal that some task sends while
it runs. -/
structure Effect where
  ret : Word
  actions : Nat → Word
  pending : BitVec 32
  mem : Store

/-- A trap: the first one of a forked child is not a call. -/
structure Trap where
  ctx : Context
  mem : Store
  present : Nat → Bool
  isForkChild : Bool
  effect : Effect

/-- The task before `check_signals`: `handle_syscall` has run, and its result is in `tf->rax`. -/
def Trap.handled (trap : Trap) (sig : SignalState) : Trapped :=
  let other : SignalState :=
    { sig with actions := trap.effect.actions, pending := trap.effect.pending }
  if trap.isForkChild then ⟨sig, { trap.ctx.tf with rax := 0 }, trap.mem, none, none⟩
  else if trap.ctx.tf.rax.setWidth 32 = BitVec.ofNat 32 sysSigreturn then
    let (sig, tf) := doSysSigreturn sig trap.ctx.tf trap.mem trap.present
    ⟨sig, { tf with rax := 0 }, trap.mem, none, none⟩
  else ⟨other, { trap.ctx.tf with rax := trap.effect.ret }, trap.effect.mem, none, none⟩

def syscallTrap (trap : Trap) (sig : SignalState) : Trapped :=
  checkSignals trap.present (trap.handled sig)

end AuroraOS.Signal
