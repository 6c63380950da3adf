import AuroraOS.Arch.Machine

/-!
# The system call path

Model of `syscall_entry` of `arch/x86_64/syscall.S`, of `struct trapframe` and of
`syscall_trap` of `kernel/syscall.c`.  The C functions that `syscall_trap` calls are the
parameters `Kernel`.

`syscall_entry` pushes R15 first, so the lowest word of the frame is RAX, while the first
member of `struct trapframe` is `r15`: the C code sees the frame in reverse.  Two members,
`rip` and `rsp`, are read from above the frame.
-/

namespace AuroraOS.Arch

open Lib List Function

/-! ## The frame -/

/-- The registers in the order `syscall_entry` pushes them. -/
def saved : List Reg := [.r15, .r14, .r13, .r12, .r11, .r10, .r9, .r8, .rsi, .rdi, .rdx, .rcx, .rax]

/-- The registers in the order of the pops behind `syscall_return_point`. -/
def restored : List Reg :=
  [.rax, .rcx, .rdx, .rdi, .rsi, .r8, .r9, .r10, .r11, .r12, .r13, .r14, .r15]

def kernelStackOff : Nat := 192

def userRspOff : Nat := 200

def syscallEntry : List Instr :=
  [.swapgs, .storeGs .rsp userRspOff, .loadGs kernelStackOff .rsp] ++
    saved.map .push ++ [.mov .rsp .rdi]

def syscallReturn : List Instr :=
  restored.map .pop ++ [.loadGs userRspOff .rsp, .swapgs, .sysretq]

inductive TfField where
  | r15 | r14 | r13 | r12 | r11 | r10 | r9 | r8 | rsi | rdi | rdx | rcx | rax | rip | rsp
deriving DecidableEq

namespace TfField

def offset : TfField → Nat
  | r15 => 0
  | r14 => 8
  | r13 => 16
  | r12 => 24
  | r11 => 32
  | r10 => 40
  | r9 => 48
  | r8 => 56
  | rsi => 64
  | rdi => 72
  | rdx => 80
  | rcx => 88
  | rax => 96
  | rip => 104
  | rsp => 112

def name : TfField → String
  | r15 => "r15"
  | r14 => "r14"
  | r13 => "r13"
  | r12 => "r12"
  | r11 => "r11"
  | r10 => "r10"
  | r9 => "r9"
  | r8 => "r8"
  | rsi => "rsi"
  | rdi => "rdi"
  | rdx => "rdx"
  | rcx => "rcx"
  | rax => "rax"
  | rip => "rip"
  | rsp => "rsp"

end TfField

def readField (m : Store) (tf : Nat) (f : TfField) : Word := word m (tf + f.offset)

def setField (m : Store) (tf : Nat) (f : TfField) (w : Word) : Store :=
  setWord m (tf + f.offset) w

/-! ## The handler -/

/-- What `handle_syscall` is called with; the number is an `int`. -/
structure Args where
  num : BitVec 32
  a1 : Word
  a2 : Word
  a3 : Word
  a4 : Word
  a5 : Word
  a6 : Word
deriving DecidableEq

structure Kernel where
  /-- `current && current->is_fork_child`. -/
  isForkChild : Bool
  handleSyscall : Args → Store → Word × Store
  checkSignals : Store → Store
  /-- What the calls leave in the registers a C function need not preserve. -/
  scratch : Reg → Word

def trapArgs (m : Store) (tf : Nat) : Args where
  num := (readField m tf .rax).setWidth 32
  a1 := readField m tf .rdi
  a2 := readField m tf .rsi
  a3 := readField m tf .rdx
  a4 := readField m tf .r10
  a5 := readField m tf .r8
  a6 := readField m tf .r9

def syscallTrap (k : Kernel) (tf : Nat) (m : Store) : Option Args × Store :=
  if tf = 0 then (none, m)
  else if k.isForkChild then (none, k.checkSignals (setField m tf .rax 0))
  else
    let args := trapArgs m tf
    let (ret, m) := k.handleSyscall args m
    (some args, k.checkSignals (setField m tf .rax ret))

def calleeSaved : List Reg := [.rbx, .rbp, .rsp, .r12, .r13, .r14, .r15]

/-- The flags that SYSCALL clears, as `syscall_init` sets them in FMASK: TF, IF, DF and AC. -/
def flagMask : Word := 0x40700

def syscallInstr (entry : Word) (u : Cpu) : Cpu :=
  { u with
    regs := update (update u.regs .rcx u.rip) .r11 u.rflags
    rip := entry
    rflags := u.rflags &&& ~~~flagMask }

structure Symbols where
  syscallEntry : Word
  syscallReturnPoint : Word

variable (k : Kernel) (y : Symbols) (u : Cpu)

@[irreducible] def entered : Cpu := run syscallEntry (syscallInstr y.syscallEntry u)

/-- The memory at the first instruction of `syscall_trap`, the return address pushed. -/
@[irreducible] def calledMem : Store :=
  ((entered y u).toStackState.push .rsp y.syscallReturnPoint).mem

/-- What `handle_syscall` is called with. -/
def handlerArgs : Option Args :=
  (syscallTrap k ((entered y u).regs .rdi).toNat (calledMem y u)).1

/-- The memory that `syscall_trap` leaves. -/
@[irreducible] def trapMem : Store :=
  (syscallTrap k ((entered y u).regs .rdi).toNat (calledMem y u)).2

/-- The state when the pops begin. -/
def leaving : Cpu :=
  { entered y u with
    mem := trapMem k y u
    regs := fun r => if r ∈ calleeSaved then (entered y u).regs r else k.scratch r }

/-- The state in which the user program goes on. -/
def syscallRun : Cpu := run syscallReturn (leaving k y u)

/-! ## What a right frame is -/

/-- The handler gets the number and the arguments of the system call convention. -/
def ArgumentsRight : Prop :=
  handlerArgs k y u = some
    { num := (u.regs .rax).setWidth 32
      a1 := u.regs .rdi
      a2 := u.regs .rsi
      a3 := u.regs .rdx
      a4 := u.regs .r10
      a5 := u.regs .r8
      a6 := u.regs .r9 }

/-- A member of the frame has the given name and the given value. -/
def Holds (name : String) (w : Word) : Prop :=
  ∃ f : TfField, f.name = name ∧ readField (calledMem y u) ((entered y u).regs .rdi).toNat f = w

def FieldsRight : Prop :=
  Holds y u "rip" u.rip ∧ Holds y u "rsp" (u.regs .rsp) ∧ Holds y u "rflags" u.rflags

def RegistersKept : Prop :=
  ∀ r, r ≠ .rax → r ≠ .rcx → r ≠ .r11 → (syscallRun k y u).regs r = u.regs r

def SyscallRight : Prop := ArgumentsRight k y u ∧ FieldsRight y u ∧ RegistersKept k y u

/-! ## The entry path -/

/-- The kernel stack pointer that the entry code loads. -/
@[irreducible] def kernelStack : Nat := (word u.mem (u.kernelGsBase.toNat + kernelStackOff)).toNat

/-- The per-CPU data and the kernel stack are apart and inside the address space. -/
structure Layout : Prop where
  gs_lt : u.kernelGsBase.toNat + 208 < 2 ^ 64
  room : 112 ≤ kernelStack u
  top_lt : kernelStack u + 16 < 2 ^ 64
  apart : u.kernelGsBase.toNat + 208 ≤ kernelStack u - 112 ∨
    kernelStack u + 16 ≤ u.kernelGsBase.toNat + 192

variable {k y u}

/-- The registers of a user program as SYSCALL leaves them. -/
def afterSyscall (u : Cpu) (r : Reg) : Word :=
  if r = .r11 then u.rflags else if r = .rcx then u.rip else u.regs r

lemma syscallInstr_regs (entry : Word) (r : Reg) :
    (syscallInstr entry u).regs r = afterSyscall u r := by
  simp only [syscallInstr, afterSyscall, update_apply]

/-- The state when the pushes begin. -/
@[irreducible] def switched (y : Symbols) (u : Cpu) : Cpu :=
  run [.swapgs, .storeGs .rsp userRspOff, .loadGs kernelStackOff .rsp]
    (syscallInstr y.syscallEntry u)

lemma switched_mem (layout : Layout u) : (switched y u).mem =
    setWord u.mem (u.kernelGsBase.toNat + userRspOff) (u.regs .rsp) := by
  have small := layout.gs_lt
  have address : (u.kernelGsBase.toNat + userRspOff) % 2 ^ 64 =
      u.kernelGsBase.toNat + userRspOff := Nat.mod_eq_of_lt (by unfold userRspOff; omega)
  unfold switched
  simp only [run_cons, exec, Cpu.gs]
  simp only [syscallInstr, address]
  rfl

lemma switched_rsp (layout : Layout u) : ((switched y u).regs .rsp).toNat = kernelStack u := by
  have small := layout.gs_lt
  have address : (u.kernelGsBase.toNat + kernelStackOff) % 2 ^ 64 =
      u.kernelGsBase.toNat + kernelStackOff := Nat.mod_eq_of_lt (by unfold kernelStackOff; omega)
  have loaded : (switched y u).regs .rsp =
      word (switched y u).mem ((u.kernelGsBase.toNat + kernelStackOff) % 2 ^ 64) := by
    unfold switched
    simp only [run_cons, run_nil, exec, Cpu.set]
    rfl
  rw [loaded, address, switched_mem layout, word_setWord_apart]
  · unfold kernelStack
    rfl
  · unfold kernelStackOff userRspOff
    omega

variable {r : Reg}

lemma switched_regs (other : r ≠ .rsp) : (switched y u).regs r = afterSyscall u r := by
  rw [← syscallInstr_regs y.syscallEntry]
  unfold switched
  simp [exec, Cpu.set, other]

lemma entered_eq : entered y u =
    exec (.mov .rsp .rdi) (run (saved.map .push) (switched y u)) := by
  unfold entered switched syscallEntry
  rfl

lemma entered_mem : (entered y u).mem = ((switched y u).pushAll .rsp saved).mem := by
  rw [entered_eq, run_push]
  rfl

lemma entered_regs (r : Reg) : (entered y u).regs r =
    if r = .rdi then ((switched y u).pushAll .rsp saved).regs .rsp
    else ((switched y u).pushAll .rsp saved).regs r := by
  rw [entered_eq, run_push]
  exact update_apply _ _ _ r

lemma entered_gsBase : (entered y u).gsBase = u.kernelGsBase := by
  rw [entered_eq, run_push]
  unfold switched
  rfl

/-- What `syscall_entry` has done when it calls the handler. -/
structure Entered (u e : Cpu) : Prop where
  frame : (e.regs .rdi).toNat = kernelStack u - 104
  pointer : e.regs .rsp = e.regs .rdi
  regs : ∀ r, r ≠ .rsp → r ≠ .rdi → e.regs r = afterSyscall u r
  words : ∀ i (h : i < restored.length),
    word e.mem (kernelStack u - 104 + 8 * i) = afterSyscall u restored[i]
  userRsp : word e.mem (u.kernelGsBase.toNat + userRspOff) = u.regs .rsp
  outside : ∀ x, kernelStack u ≤ x →
    x < u.kernelGsBase.toNat + 200 ∨ u.kernelGsBase.toNat + 208 ≤ x → e.mem x = u.mem x
  gs : e.gsBase = u.kernelGsBase

lemma saved_avoids : ∀ r ∈ saved, r ≠ .rsp := by decide

variable {i x : Nat}

lemma saved_mirrored (inside : i < restored.length) (mirror : 12 - i < saved.length) :
    saved[12 - i] = restored[i] := by
  have reversed : restored = saved.reverse := rfl
  simp only [reversed, getElem_reverse]
  rfl

variable (layout : Layout u)
include layout

lemma entered_spec : Entered u (entered y u) := by
  have ⟨small, room, top, apart⟩ := layout
  have start := switched_rsp (y := y) layout
  have pushed := (switched y u).toStackState.pushAll_spec .rsp saved
    (fun member => saved_avoids _ member rfl) (by rw [start]; exact Nat.le_trans (by decide) room)
  have mem := entered_mem (y := y) (u := u)
  have regs := entered_regs (y := y) (u := u)
  have base := entered_gsBase (y := y) (u := u)
  have others := fun r other => (pushed.others r other).trans (switched_regs other)
  obtain ⟨pointer, _, outside, words⟩ := pushed
  rw [start] at pointer outside words
  rw [show 8 * saved.length = 104 from rfl] at pointer outside
  rw [switched_mem layout] at outside
  generalize (switched y u).toStackState.pushAll .rsp saved = t at *
  constructor
  · rw [regs, if_pos rfl]
    exact pointer
  · rw [regs, regs, if_pos rfl, if_neg (by decide)]
  · intro r notRsp notRdi
    rw [regs, if_neg notRdi]
    exact others r notRsp
  · intro i inside
    have below : 12 - i < saved.length := (Nat.sub_le 12 i).trans_lt (by decide)
    have short : i < 13 := inside
    have mirrored := saved_mirrored inside below
    have here := words (12 - i) below
    rw [show kernelStack u - 8 * (12 - i + 1) = kernelStack u - 104 + 8 * i by omega,
      switched_regs (saved_avoids _ (getElem_mem below)), mirrored] at here
    rw [mem]
    exact here
  · have kept : word t.mem (u.kernelGsBase.toNat + userRspOff) =
        word (setWord u.mem (u.kernelGsBase.toNat + userRspOff) (u.regs .rsp))
          (u.kernelGsBase.toNat + userRspOff) := by
      apply word_congr
      intro x low high
      apply outside
      unfold userRspOff at low high
      omega
    rw [mem, kept]
    exact word_setWord_same
  · intro x above apartX
    rw [mem, outside x (.inr above)]
    apply setWord_outside
    unfold userRspOff
    omega
  · exact base

/-! ## The frame as the handler reads it -/

lemma calledMem_outside (out : x < kernelStack u - 112 ∨ kernelStack u - 104 ≤ x) :
    calledMem y u x = (entered y u).mem x := by
  have ⟨_, room, _, _⟩ := layout
  have spec := entered_spec (y := y) layout
  have down : ((entered y u).regs .rsp - 8).toNat = kernelStack u - 112 := by
    rw [spec.pointer, StackState.toNat_sub_eight (by rw [spec.frame]; omega), spec.frame]
    omega
  unfold calledMem
  apply setWord_outside
  omega

lemma frame_word (inside : i < restored.length) :
    word (calledMem y u) (kernelStack u - 104 + 8 * i) = afterSyscall u restored[i] := by
  rw [← (entered_spec layout).words i inside]
  apply word_congr
  intro x low _
  exact calledMem_outside layout (by omega)

/-- A member of the frame is the register that was pushed at its place. -/
lemma readField_frame (inside : i < restored.length) {f : TfField} (place : f.offset = 8 * i) :
    readField (calledMem y u) ((entered y u).regs .rdi).toNat f = afterSyscall u restored[i] := by
  rw [readField, place, (entered_spec layout).frame]
  exact frame_word layout inside

lemma word_above {a : Nat} (low : kernelStack u ≤ a)
    (high : a + 8 ≤ kernelStack u + 16) : word (calledMem y u) a = word u.mem a := by
  have ⟨_, room, _, apart⟩ := layout
  apply word_congr
  intro x above below
  rw [calledMem_outside layout (by omega)]
  exact (entered_spec layout).outside x (by omega) (by omega)

lemma trapArgs_eq : trapArgs (calledMem y u) ((entered y u).regs .rdi).toNat =
      { num := (u.regs .r15).setWidth 32
        a1 := u.regs .r12
        a2 := u.rflags
        a3 := u.regs .r13
        a4 := u.regs .r8
        a5 := u.regs .r10
        a6 := u.regs .r9 } := by
  have field := fun i (h : i < restored.length) (f : TfField) (place : f.offset = 8 * i) =>
    readField_frame (y := y) layout h place
  simp only [trapArgs, field 12 (by decide) .rax rfl, field 9 (by decide) .rdi rfl,
    field 8 (by decide) .rsi rfl, field 10 (by decide) .rdx rfl, field 5 (by decide) .r10 rfl,
    field 7 (by decide) .r8 rfl, field 6 (by decide) .r9 rfl]
  rfl

lemma frame_ne_zero : ((entered y u).regs .rdi).toNat ≠ 0 := by
  have room := layout.room
  rw [(entered_spec layout).frame]
  omega

lemma handlerArgs_eq : handlerArgs k y u = if k.isForkChild then none
    else some (trapArgs (calledMem y u) ((entered y u).regs .rdi).toNat) := by
  unfold handlerArgs syscallTrap
  rw [if_neg (frame_ne_zero layout)]
  split_ifs <;> rfl

lemma argumentsRight_iff : ArgumentsRight k y u ↔
    k.isForkChild = false ∧ (u.regs .r15).setWidth 32 = (u.regs .rax).setWidth 32 ∧
      u.regs .r12 = u.regs .rdi ∧ u.rflags = u.regs .rsi ∧ u.regs .r13 = u.regs .rdx ∧
      u.regs .r8 = u.regs .r10 := by
  unfold ArgumentsRight
  rw [handlerArgs_eq layout, trapArgs_eq layout]
  cases k.isForkChild with
  | true => simp
  | false =>
    simp only [Bool.false_eq_true, if_false, Option.some.injEq, Args.mk.injEq, true_and, and_true]
    constructor
    · intro ⟨num, a1, a2, a3, a4, _⟩
      exact ⟨num, a1, a2, a3, a4⟩
    · intro ⟨num, a1, a2, a3, a4⟩
      exact ⟨num, a1, a2, a3, a4, a4.symm⟩

omit layout

lemma TfField.eq_of_name {f : TfField} :
    (f.name = "rip" → f = .rip) ∧ (f.name = "rsp" → f = .rsp) ∧ f.name ≠ "rflags" := by
  cases f <;> decide

lemma holds_iff {f : TfField} {w : Word} (own : ∀ g : TfField, g.name = f.name → g = f) :
    Holds y u f.name w ↔ readField (calledMem y u) ((entered y u).regs .rdi).toNat f = w := by
  constructor
  · intro ⟨g, name, held⟩
    rw [← own g name]
    exact held
  · exact fun held => ⟨f, rfl, held⟩

lemma readField_above (layout : Layout u) {f : TfField} (low : 104 ≤ f.offset)
    (high : f.offset ≤ 112) : readField (calledMem y u) ((entered y u).regs .rdi).toNat f =
      word u.mem (kernelStack u + (f.offset - 104)) := by
  have room := layout.room
  rw [readField, (entered_spec layout).frame, ← word_above layout (by omega) (by omega)]
  congr 1
  omega

lemma holds_rip_iff (layout : Layout u) :
    Holds y u "rip" u.rip ↔ word u.mem (kernelStack u) = u.rip := by
  refine (holds_iff (f := .rip) fun g => TfField.eq_of_name.1).trans ?_
  rw [readField_above layout (by decide) (by decide)]
  rfl

lemma holds_rsp_iff (layout : Layout u) :
    Holds y u "rsp" (u.regs .rsp) ↔ word u.mem (kernelStack u + 8) = u.regs .rsp := by
  refine (holds_iff (f := .rsp) fun g => TfField.eq_of_name.2.1).trans ?_
  rw [readField_above layout (by decide) (by decide)]
  rfl

lemma not_holds_rflags {w : Word} : ¬ Holds y u "rflags" w :=
  fun ⟨_, name, _⟩ => TfField.eq_of_name.2.2 name

/-! ## The return path -/

/-- The frame and the saved user stack pointer. -/
def Kept (u : Cpu) (x : Nat) : Prop :=
  (kernelStack u - 104 ≤ x ∧ x < kernelStack u) ∨
    (u.kernelGsBase.toNat + 200 ≤ x ∧ x < u.kernelGsBase.toNat + 208)

/-- The called C code does not write to the frame or to the saved user stack pointer. -/
structure KeepsFrame (k : Kernel) (u : Cpu) : Prop where
  handle : ∀ args m x, Kept u x → (k.handleSyscall args m).2 x = m x
  signals : ∀ m x, Kept u x → k.checkSignals m x = m x

/-- The value that `syscall_trap` stores in `tf->rax`. -/
def returned (k : Kernel) (y : Symbols) (u : Cpu) : Word :=
  if k.isForkChild then 0
  else
    (k.handleSyscall (trapArgs (calledMem y u) ((entered y u).regs .rdi).toNat)
      (calledMem y u)).1

variable (layout : Layout u) (keeps : KeepsFrame k u)
include layout keeps

lemma trapMem_kept (kept : Kept u x) :
    trapMem k y u x = setWord (calledMem y u) (kernelStack u - 104 + 96) (returned k y u) x := by
  have frame := (entered_spec (y := y) layout).frame
  -- a write of one word to two memories that agree at `x`
  have write : ∀ m : Store, m x = calledMem y u x → ∀ w,
      setWord m (kernelStack u - 104 + 96) w x =
        setWord (calledMem y u) (kernelStack u - 104 + 96) w x := by
    intro m same w
    simp only [setWord, leWrite, same]
  unfold trapMem syscallTrap returned
  rw [if_neg (frame_ne_zero layout), frame]
  split_ifs with child
  · simp only
    rw [keeps.signals _ _ kept]
    exact write _ rfl 0
  · simp only
    rw [keeps.signals _ _ kept]
    exact write _ (keeps.handle _ _ x kept) _

lemma trapMem_word
    (inside : i < restored.length) : word (trapMem k y u) (kernelStack u - 104 + 8 * i) =
      if i = 12 then returned k y u else afterSyscall u restored[i] := by
  have ⟨_, room, _, _⟩ := layout
  have flat : restored.length = 13 := rfl
  have stored : word (trapMem k y u) (kernelStack u - 104 + 8 * i) =
      word (setWord (calledMem y u) (kernelStack u - 104 + 96) (returned k y u))
        (kernelStack u - 104 + 8 * i) :=
    word_congr fun x low high => trapMem_kept layout keeps (.inl ⟨by omega, by omega⟩)
  rw [stored]
  split_ifs with last
  · subst last
    exact word_setWord_same
  · rw [word_setWord_apart (by omega)]
    exact frame_word layout inside

lemma trapMem_userRsp :
    word (trapMem k y u) (u.kernelGsBase.toNat + userRspOff) = u.regs .rsp := by
  have ⟨_, room, _, apart⟩ := layout
  rw [← (entered_spec layout).userRsp]
  apply word_congr
  intro x low high
  unfold userRspOff at low high
  rw [trapMem_kept layout keeps (.inr ⟨low, high⟩), setWord_outside (by omega)]
  exact calledMem_outside layout (by omega)

omit layout keeps

lemma popAll_mem (rs : List Reg) (s : StackState Reg) : (s.popAll .rsp rs).mem = s.mem := by
  induction rs generalizing s with
  | nil => rfl
  | cons q rs ih => exact ih (s.popReg .rsp q)

lemma run_syscallReturn_regs (c : Cpu) (r : Reg) : (run syscallReturn c).regs r =
    if r = .rsp then word c.mem (c.gs userRspOff) else (c.popAll .rsp restored).regs r := by
  rw [syscallReturn, run_append, run_pop]
  simp only [run_cons, run_nil, exec, Cpu.set, Cpu.gs, update_apply, popAll_mem]

lemma restored_nodup : restored.Nodup := by decide

lemma restored_avoids : .rsp ∉ restored := by decide

lemma leaving_rsp (layout : Layout u) :
    ((leaving k y u).regs .rsp).toNat = kernelStack u - 104 := by
  rw [← (entered_spec layout).frame, ← (entered_spec layout).pointer]
  rfl

lemma leaving_popped (layout : Layout u) :
    StackState.Popped .rsp restored (leaving k y u).toStackState
      ((leaving k y u).popAll .rsp restored) := by
  have ⟨_, room, top, _⟩ := layout
  apply StackState.popAll_spec _ _ restored_avoids restored_nodup
  rw [leaving_rsp layout, show 8 * restored.length = 104 from rfl]
  omega

lemma syscallRun_restored (layout : Layout u) (keeps : KeepsFrame k u)
    (inside : i < restored.length) : (syscallRun k y u).regs restored[i] =
      if i = 12 then returned k y u else afterSyscall u restored[i] := by
  have different : restored[i] ≠ .rsp := fun same =>
    restored_avoids (same ▸ getElem_mem inside)
  rw [syscallRun, run_syscallReturn_regs, if_neg different,
    (leaving_popped layout).words i inside, leaving_rsp layout]
  exact trapMem_word layout keeps inside

lemma syscallRun_r15 (layout : Layout u) (keeps : KeepsFrame k u) :
    (syscallRun k y u).regs .r15 = returned k y u :=
  syscallRun_restored layout keeps (i := 12) (by decide)

lemma syscallRun_rsp (layout : Layout u) (keeps : KeepsFrame k u) :
    (syscallRun k y u).regs .rsp = u.regs .rsp := by
  have small := layout.gs_lt
  have base : (leaving k y u).gsBase = u.kernelGsBase := (entered_spec layout).gs
  rw [syscallRun, run_syscallReturn_regs, if_pos rfl, Cpu.gs, base,
    Nat.mod_eq_of_lt (by unfold userRspOff; omega)]
  exact trapMem_userRsp layout keeps

/-- RBX and RBP are neither pushed nor changed by C code. -/
lemma syscallRun_untouched (layout : Layout u) (callee : r ∈ calleeSaved)
    (absent : r ∉ restored) (other : r ≠ .rsp) : (syscallRun k y u).regs r = u.regs r := by
  have notRdi : r ≠ .rdi := by
    intro same
    apply absent
    rw [same]
    decide
  have same : afterSyscall u r = u.regs r := by
    have notR11 : r ≠ .r11 := fun same => absent (same ▸ by decide)
    have notRcx : r ≠ .rcx := fun same => absent (same ▸ by decide)
    simp [afterSyscall, notR11, notRcx]
  rw [syscallRun, run_syscallReturn_regs, if_neg other,
    (leaving_popped layout).others r other absent, ← same,
    ← (entered_spec layout).regs r other notRdi]
  exact if_pos callee

lemma registersKept_iff (layout : Layout u) (keeps : KeepsFrame k u) :
    RegistersKept k y u ↔ returned k y u = u.regs .r15 := by
  have back := fun i h => syscallRun_restored (y := y) layout keeps (i := i) h
  constructor
  · intro kept
    rw [← kept .r15 (by decide) (by decide) (by decide)]
    exact (syscallRun_r15 layout keeps).symm
  intro result r notRax notRcx notR11
  cases r with
  | rax => exact absurd rfl notRax
  | rcx => exact absurd rfl notRcx
  | r11 => exact absurd rfl notR11
  | rbx => exact syscallRun_untouched layout (by decide) (by decide) (by decide)
  | rbp => exact syscallRun_untouched layout (by decide) (by decide) (by decide)
  | rsp => exact syscallRun_rsp layout keeps
  | rdx => exact back 2 (by decide)
  | rdi => exact back 3 (by decide)
  | rsi => exact back 4 (by decide)
  | r8 => exact back 5 (by decide)
  | r9 => exact back 6 (by decide)
  | r10 => exact back 7 (by decide)
  | r12 => exact back 9 (by decide)
  | r13 => exact back 10 (by decide)
  | r14 => exact back 11 (by decide)
  | r15 => exact (syscallRun_r15 layout keeps).trans result

/-- No system call is read right, because no member of the frame is named for the flags; the other
parts of the property hold exactly under coincidences between registers. -/
theorem syscallRight_iff (layout : Layout u) : (SyscallRight k y u ↔ False) ∧
      (ArgumentsRight k y u ↔
        k.isForkChild = false ∧ (u.regs .r15).setWidth 32 = (u.regs .rax).setWidth 32 ∧
          u.regs .r12 = u.regs .rdi ∧ u.rflags = u.regs .rsi ∧ u.regs .r13 = u.regs .rdx ∧
          u.regs .r8 = u.regs .r10) ∧
      (Holds y u "rip" u.rip ↔ word u.mem (kernelStack u) = u.rip) ∧
      (Holds y u "rsp" (u.regs .rsp) ↔ word u.mem (kernelStack u + 8) = u.regs .rsp) ∧
      (KeepsFrame k u → (RegistersKept k y u ↔ returned k y u = u.regs .r15)) := by
  refine ⟨?_, argumentsRight_iff layout, holds_rip_iff layout, holds_rsp_iff layout,
    registersKept_iff layout⟩
  exact iff_false_intro fun right => not_holds_rflags right.2.1.2.2

/-- A program that calls `write(1, 0x500000, 5)` with 0x77 in R15. -/
def writeCall : Cpu where
  regs
    | .rax => 1
    | .rdi => 1
    | .rsi => 0x500000
    | .rdx => 5
    | .rsp => 0x7ff000
    | .r15 => 0x77
    | _ => 0
  mem := setWord (fun _ => 0) (0x1000 + kernelStackOff) 0x9000
  rip := 0x400102
  rflags := 0x202
  gsBase := 0
  kernelGsBase := 0x1000

def echoKernel : Kernel where
  isForkChild := false
  handleSyscall args m := (args.a3, m)
  checkSignals m := m
  scratch _ := 0

def sampleSymbols : Symbols := ⟨0x101000, 0x101050⟩

lemma writeCall_kernelStack : kernelStack writeCall = 0x9000 := by
  unfold kernelStack
  exact congrArg BitVec.toNat word_setWord_same

lemma writeCall_layout : Layout writeCall where
  gs_lt := by decide
  room := by rw [writeCall_kernelStack]; decide
  top_lt := by rw [writeCall_kernelStack]; decide
  apart := by rw [writeCall_kernelStack]; decide

lemma echoKernel_keepsFrame : KeepsFrame echoKernel writeCall :=
  ⟨fun _ _ _ _ => rfl, fun _ _ _ => rfl⟩

/-- The handler is asked for call number 0x77 and not for call 1, and the program goes on with
another value in R15. -/
theorem writeCall_misread :
    handlerArgs echoKernel sampleSymbols writeCall = some ⟨0x77, 0, 0x202, 0, 0, 0, 0⟩ ∧
      ¬ ArgumentsRight echoKernel sampleSymbols writeCall ∧
      (syscallRun echoKernel sampleSymbols writeCall).regs .r15 = 0 ∧
      ¬ SyscallRight echoKernel sampleSymbols writeCall := by
  have args : handlerArgs echoKernel sampleSymbols writeCall =
      some ⟨0x77, 0, 0x202, 0, 0, 0, 0⟩ := by
    rw [handlerArgs_eq writeCall_layout, trapArgs_eq writeCall_layout]
    rfl
  have wrong : ¬ ArgumentsRight echoKernel sampleSymbols writeCall := by
    rw [ArgumentsRight, args]
    decide
  refine ⟨args, wrong, ?_, fun right => wrong right.1⟩
  rw [syscallRun_r15 writeCall_layout echoKernel_keepsFrame, returned, trapArgs_eq writeCall_layout]
  rfl

theorem syscallRight_iff_writeCall : (SyscallRight echoKernel sampleSymbols writeCall ↔ False) ∧
      (RegistersKept echoKernel sampleSymbols writeCall ↔
        returned echoKernel sampleSymbols writeCall = writeCall.regs .r15) := by
  have all := syscallRight_iff (k := echoKernel) (y := sampleSymbols) writeCall_layout
  exact ⟨all.1, all.2.2.2.2 echoKernel_keepsFrame⟩

end AuroraOS.Arch
