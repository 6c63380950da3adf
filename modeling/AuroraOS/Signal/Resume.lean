import AuroraOS.Arch.Syscall
import AuroraOS.Signal.Nesting

/-!
# Where a program goes on after `sigreturn`

`syscall.S` pushes and pops the frame in the order opposite to that of `struct trapframe`
(`pushed_members`, `popped_members`): R11, which SYSRET takes the flags from, is the member `rsi`,
and RCX, where it goes on, the member `r14`.  `do_sys_sigreturn` sets both from the frame on the
user stack as they are.
-/

namespace AuroraOS.Signal

open Lib Arch

/-! ## The members in memory -/

/-- The members that the C code reads at the address that `syscall_entry` passes. -/
def Trapframe.read (m : Store) (tf : Nat) : Trapframe where
  r15 := readField m tf .r15
  r14 := readField m tf .r14
  r13 := readField m tf .r13
  r12 := readField m tf .r12
  r11 := readField m tf .r11
  r10 := readField m tf .r10
  r9 := readField m tf .r9
  r8 := readField m tf .r8
  rsi := readField m tf .rsi
  rdi := readField m tf .rdi
  rdx := readField m tf .rdx
  rcx := readField m tf .rcx
  rax := readField m tf .rax
  rip := readField m tf .rip
  rsp := readField m tf .rsp

/-- The context of a task whose kernel is about to pop the frame. -/
def Context.ofCpu (c : Cpu) : Context where
  tf := .read c.mem (c.regs .rsp).toNat
  rbx := c.regs .rbx
  rbp := c.regs .rbp
  rsp := word c.mem (c.gs userRspOff)

/-- The words that SYSRET finds in R11 and RCX. -/
def Trapframe.popped (tf : Trapframe) : Word × Word := (tf.rsi, tf.r14)

/-- The handler sees the registers of the program under the members of the opposite order. -/
lemma pushed_members {u : Cpu} (y : Symbols) (layout : Layout u) (r : Reg) :
    ({ tf := .read (calledMem y u) ((entered y u).regs .rdi).toNat
       rbx := u.regs .rbx
       rbp := u.regs .rbp
       rsp := u.regs .rsp } : Context).regs r = afterSyscall u r := by
  cases r with
  | rax => exact readField_frame layout (i := 0) (by decide) (f := .r15) rfl
  | rcx => exact readField_frame layout (i := 1) (by decide) (f := .r14) rfl
  | rdx => exact readField_frame layout (i := 2) (by decide) (f := .r13) rfl
  | rdi => exact readField_frame layout (i := 3) (by decide) (f := .r12) rfl
  | rsi => exact readField_frame layout (i := 4) (by decide) (f := .r11) rfl
  | r8 => exact readField_frame layout (i := 5) (by decide) (f := .r10) rfl
  | r9 => exact readField_frame layout (i := 6) (by decide) (f := .r9) rfl
  | r10 => exact readField_frame layout (i := 7) (by decide) (f := .r8) rfl
  | r11 => exact readField_frame layout (i := 8) (by decide) (f := .rsi) rfl
  | r12 => exact readField_frame layout (i := 9) (by decide) (f := .rdi) rfl
  | r13 => exact readField_frame layout (i := 10) (by decide) (f := .rdx) rfl
  | r14 => exact readField_frame layout (i := 11) (by decide) (f := .rcx) rfl
  | r15 => exact readField_frame layout (i := 12) (by decide) (f := .rax) rfl
  | rbx => rfl
  | rbp => rfl
  | rsp => rfl

/-- The task goes on with the registers of its context, at the address and with the flags that
`Trapframe.popped` names. -/
lemma popped_members {c : Cpu} (room : (c.regs .rsp).toNat + 104 < 2 ^ 64) :
    (run syscallReturn c).regs = (Context.ofCpu c).regs ∧
      (run syscallReturn c).rflags =
        sysretFlags (Context.ofCpu c).tf.popped.1 ∧
      (run syscallReturn c).rip = (Context.ofCpu c).tf.popped.2 := by
  have popped := StackState.popAll_spec (s := c.toStackState) .rsp restored
    restored_avoids restored_nodup room
  have member : ∀ i (h : i < restored.length), (run syscallReturn c).regs
      restored[i] = word c.mem ((c.regs .rsp).toNat + 8 * i) := by
    intro i inside
    have different : restored[i] ≠ .rsp := fun same =>
      restored_avoids (same ▸ List.getElem_mem inside)
    rw [run_syscallReturn_regs, if_neg different, popped.words i inside]
  have kept : ∀ r, r ≠ .rsp → r ∉ restored →
      (run syscallReturn c).regs r = c.regs r := by
    intro r different absent
    rw [run_syscallReturn_regs, if_neg different, popped.others r different absent]
  have regs : (run syscallReturn c).regs = (Context.ofCpu c).regs := by
    funext r
    cases r with
    | rax => exact member 0 (by decide)
    | rcx => exact member 1 (by decide)
    | rdx => exact member 2 (by decide)
    | rdi => exact member 3 (by decide)
    | rsi => exact member 4 (by decide)
    | r8 => exact member 5 (by decide)
    | r9 => exact member 6 (by decide)
    | r10 => exact member 7 (by decide)
    | r11 => exact member 8 (by decide)
    | r12 => exact member 9 (by decide)
    | r13 => exact member 10 (by decide)
    | r14 => exact member 11 (by decide)
    | r15 => exact member 12 (by decide)
    | rbx => exact kept .rbx (by decide) (by decide)
    | rbp => exact kept .rbp (by decide) (by decide)
    | rsp => rw [run_syscallReturn_regs, if_pos rfl]; rfl
  refine ⟨regs, ?_, ?_⟩
  · exact congrArg sysretFlags (congrFun regs .r11)
  · exact congrFun regs .rcx

/-! ## What is popped after `sigreturn` -/

/-- With these words in R11 and RCX the program goes on in user space with IOPL 0. -/
def Safe (words : Word × Word) : Prop :=
  sysretFlags words.1 >>> 12 &&& 3 = 0 ∧ words.2.toNat ≤ userAddrMax

def savedFrame (sig : SignalState) (trap : Trap) : Sigframe :=
  Sigframe.read trap.mem (sig.savedRsp - BitVec.ofNat 64 sizeofSigframe).toNat

/-- A context is saved, and its frame is readable and holds a signal. -/
def HasFrame (sig : SignalState) (trap : Trap) : Prop :=
  sig.savedRip ≠ 0 ∧
    userReadable trap.present (sig.savedRsp - BitVec.ofNat 64 sizeofSigframe).toNat
      sizeofSigframe ∧
    0 < (savedFrame sig trap).signo.toNat ∧ (savedFrame sig trap).signo.toNat < nsig

lemma deliver_popped (t : Trapped) (present : Nat → Bool) (s : Nat) (handler : Word) :
    (deliver t present s handler).tf.popped = t.tf.popped := by
  have default : (doSignalDefault t s).tf = t.tf := by
    unfold doSignalDefault
    split <;> rfl
  unfold deliver
  dsimp only
  split_ifs <;> first | rw [default] | rfl

lemma checkLoop_popped (present : Nat → Bool) (ss : List Nat) (t : Trapped) :
    (checkLoop present ss t).tf.popped = t.tf.popped := by
  induction ss generalizing t with
  | nil => rfl
  | cons s ss ih =>
    have default : (doSignalDefault (t.take s) s).tf.popped = t.tf.popped := by
      unfold doSignalDefault
      split <;> rfl
    unfold checkLoop
    dsimp only
    split_ifs
    · exact ih t
    · exact ih t
    · exact default
    · exact ih (t.take s)
    · exact deliver_popped (t.take s) present s _

lemma syscallTrap_popped {trap : Trap} (call : trap.isSigreturn = true) (sig : SignalState) :
    (HasFrame sig trap → (syscallTrap trap sig).tf.popped =
        ((savedFrame sig trap).rsi, (savedFrame sig trap).r14)) ∧
      (¬HasFrame sig trap → (syscallTrap trap sig).tf.popped = trap.ctx.tf.popped) := by
  have kept : (syscallTrap trap sig).tf.popped = (trap.handled sig).tf.popped := by
    unfold syscallTrap checkSignals
    split
    · rfl
    · exact checkLoop_popped _ _ _
  rw [kept, handled_sigreturn call]
  unfold doSysSigreturn
  dsimp only
  split_ifs with saved found
  · exact ⟨fun _ => rfl, fun none => absurd ⟨saved, found⟩ none⟩
  · exact ⟨fun has => absurd has.2 found, fun _ => rfl⟩
  · exact ⟨fun has => absurd has.1 saved, fun _ => rfl⟩

/-- The program goes on safely exactly where the words of the frame that is restored are safe,
or those of the registers if there is none. -/
theorem safe_iff {trap : Trap} (call : trap.isSigreturn = true) (sig : SignalState) :
    Safe (syscallTrap trap sig).tf.popped ↔
      (HasFrame sig trap → Safe ((savedFrame sig trap).rsi, (savedFrame sig trap).r14)) ∧
      (¬HasFrame sig trap → Safe trap.ctx.tf.popped) := by
  have popped := syscallTrap_popped call sig
  by_cases has : HasFrame sig trap
  · simp [has, popped.1 has]
  · simp [has, popped.2 has]

/-- A handler that returns with the given frame on its stack. -/
def frameTrap (frame : Sigframe) : Trap :=
  { callTrap 0 with
    ctx := regs 15
    mem := setWords (fun _ => 0) (0x10000 - sizeofSigframe + 8) frame.words }

/-- The frame of signal 1 with other words where R11 and RCX are. -/
def forgedFrame : Sigframe :=
  { saveFrame (regs 0).tf 1 with rsi := 0x3202, r14 := 0xFFFF800000000000 }

def forgedTrap : Trap := frameTrap forgedFrame

def inHandler : SignalState := { handlers with savedRsp := 0x10000, savedRip := 0x4000 }

lemma savedFrame_frameTrap (frame : Sigframe) : savedFrame inHandler (frameTrap frame) = frame :=
  read_setWords ..

lemma hasFrame_frameTrap {frame : Sigframe} (signo : frame.signo = 1) :
    HasFrame inHandler (frameTrap frame) := by
  refine ⟨by decide, by simp [userReadable, userPagesMapped, frameTrap, callTrap]; decide, ?_⟩
  rw [savedFrame_frameTrap, signo]
  decide

/-- The program goes on with IOPL 3 at the address that the handler chose. -/
theorem sigreturn_unsafe : forgedTrap.isSigreturn = true ∧
    (syscallTrap forgedTrap inHandler).exitCode = none ∧
    ¬Safe (syscallTrap forgedTrap inHandler).tf.popped := by
  refine ⟨by decide, rfl, ?_⟩
  rw [forgedTrap, (syscallTrap_popped (by decide) inHandler).1 (hasFrame_frameTrap rfl),
    savedFrame_frameTrap]
  exact fun safe => absurd safe.1 (by decide)

/-- A handler that leaves the frame as it was goes on at 0x4000. -/
theorem safe_iff_returning :
    HasFrame inHandler (frameTrap (saveFrame (regs 0).tf 1)) ∧
      Safe (syscallTrap (frameTrap (saveFrame (regs 0).tf 1)) inHandler).tf.popped := by
  have has : HasFrame inHandler (frameTrap (saveFrame (regs 0).tf 1)) := hasFrame_frameTrap rfl
  refine ⟨has, (safe_iff (by decide) inHandler).mpr ⟨fun _ => ?_, fun none => absurd has none⟩⟩
  rw [savedFrame_frameTrap]
  exact ⟨by decide, by decide⟩

end AuroraOS.Signal
