import AuroraOS.Arch.Syscall

/-!
# First switches

Model of `context_switch` of `arch/x86_64/context.S`, of the stack that `create_task` of
`kernel/sched.c` builds for a new task, and of the copy of the trap frame in `sys_fork`.

`context_switch` takes eight words from the new stack: six registers, the flags and the
return address.  `create_task` builds stacks for code that takes the return address first.
-/

namespace AuroraOS.Arch

open Lib Function List

/-! ## The switch -/

def contextSwitch : List Instr :=
  .pushfq :: [Reg.rbp, .rbx, .r12, .r13, .r14, .r15].map .push ++
    [.mov .rdi .rax, .store .rsp .rax, .mov .rsi .rsp] ++
    [Reg.r15, .r14, .r13, .r12, .rbx, .rbp].map .pop ++ [.popfq, .ret]

def popped : List Reg := [.r15, .r14, .r13, .r12, .rbx, .rbp]

/-- What `context_switch` does: the words it takes from the new stack, and the words it
writes to the old stack and to `*old_rsp_ptr`. -/
structure Switched (c c' : Cpu) : Prop where
  pointer : (c'.regs .rsp).toNat = (c.regs .rsi).toNat + 64
  rip : c'.rip = word c'.mem ((c.regs .rsi).toNat + 56)
  regs : ∀ i (h : i < popped.length),
    c'.regs popped[i] = word c'.mem ((c.regs .rsi).toNat + 8 * i)
  outside : ∀ x, x < (c.regs .rsp).toNat - 56 ∨ (c.regs .rsp).toNat ≤ x →
    x < (c.regs .rdi).toNat ∨ (c.regs .rdi).toNat + 8 ≤ x → c'.mem x = c.mem x

def saveOld (c : Cpu) : Cpu :=
  run [.mov .rdi .rax, .store .rsp .rax, .mov .rsi .rsp]
    (run ([Reg.rbp, .rbx, .r12, .r13, .r14, .r15].map .push) (exec .pushfq c))

lemma saveOld_spec {c : Cpu} (room : 56 ≤ (c.regs .rsp).toNat) :
    (saveOld c).regs .rsp = c.regs .rsi ∧
      ∀ x, x < (c.regs .rsp).toNat - 56 ∨ (c.regs .rsp).toNat ≤ x →
        x < (c.regs .rdi).toNat ∨ (c.regs .rdi).toNat + 8 ≤ x → (saveOld c).mem x = c.mem x := by
  have down := StackState.toNat_sub_eight (p := c.regs .rsp) (by omega)
  have pushed := (exec .pushfq c).toStackState.pushAll_spec .rsp
    [.rbp, .rbx, .r12, .r13, .r14, .r15] (by decide) (by
      simp only [exec, StackState.push, update_self, length_cons, length_nil]
      omega)
  obtain ⟨_, others, outside, _⟩ := pushed
  have first : ((exec .pushfq c).regs .rsp).toNat = (c.regs .rsp).toNat - 8 := by
    simp only [exec, StackState.push, update_self, down]
  have kept : ∀ r, r ≠ .rsp → (exec .pushfq c).regs r = c.regs r := fun r other => by
    simp [exec, StackState.push, other]
  rw [saveOld, run_push]
  generalize (exec .pushfq c).toStackState.pushAll .rsp [.rbp, .rbx, .r12, .r13, .r14, .r15] = t
    at *
  constructor
  · simp only [run_cons, run_nil, exec, Cpu.set, update_self]
    rw [update_of_ne (by decide), others .rsi (by decide), kept .rsi (by decide)]
  intro x old pointer
  simp only [run_cons, run_nil, exec, Cpu.set]
  rw [setWord_outside, outside x (by simp only [length_cons, length_nil]; omega)]
  · apply setWord_outside
    omega
  · rw [others .rdi (by decide), kept .rdi (by decide)]
    exact pointer

lemma contextSwitch_spec {c : Cpu} (room : 56 ≤ (c.regs .rsp).toNat)
    (top : (c.regs .rsi).toNat + 64 < 2 ^ 64) : Switched c (run contextSwitch c) := by
  have ⟨pointer, outside⟩ := saveOld_spec room
  have unfolded : run contextSwitch c = run [.popfq, .ret] (run (popped.map .pop) (saveOld c)) := by
    unfold contextSwitch saveOld popped
    rw [run_append, run_append, run_append, run_cons .pushfq]
  have taken := (saveOld c).toStackState.popAll_spec .rsp popped (by decide)
    (by decide) (by rw [pointer]; exact Nat.lt_of_le_of_lt (by simp [popped]) top)
  obtain ⟨next, _, mem, words⟩ := taken
  rw [pointer, show 8 * popped.length = 48 from rfl] at next
  rw [unfolded, run_pop]
  generalize (saveOld c).toStackState.popAll .rsp popped = t at *
  have flags := StackState.toNat_add_eight (p := t.regs .rsp) (by omega)
  have address := StackState.toNat_add_eight (p := t.regs .rsp + 8) (by omega)
  constructor
  · simp only [run_cons, run_nil, exec, StackState.drop, update_self, address, flags, next]
  · simp only [run_cons, run_nil, exec, StackState.drop, StackState.top, update_self, flags, next]
  · intro i inside
    have different : popped[i] ≠ .rsp := by
      have avoids : ∀ r ∈ popped, r ≠ .rsp := by decide
      exact avoids _ (getElem_mem inside)
    have here := words i inside
    rw [pointer] at here
    simp only [run_cons, run_nil, exec, StackState.drop]
    rw [update_of_ne different, update_of_ne different, here, mem]
  · intro x old saved
    simp only [run_cons, exec, StackState.drop, mem]
    exact outside x old saved

/-! ## New stacks -/

def pageSize : Nat := 4096

def createStack (m : Store) (page : Nat) (fn : Word) (y : Symbols) : Store × Nat :=
  let top := page + pageSize
  if fn ≠ 0 then (setWord m (top - 8) fn, top - 8)
  else
    let frameStart := top - 8 * 20
    let m := setWords m frameStart (replicate 20 0)
    let m := setWord m (frameStart + 8 * 19) y.syscallReturnPoint
    let m := setWord m (frameStart + 8 * 11) 0x400000
    let m := setWord m (frameStart + 8 * 4) 0x202
    (m, frameStart)

def forkWords (m : Store) (tf : Nat) : List Word :=
  [TfField.r15, .r14, .r13, .r12, .r11, .r10, .r9, .r8, .rsi, .rdi, .rdx, .rcx].map
    (readField m tf) ++ [0]

def forkStack (m : Store) (tf page : Nat) (y : Symbols) : Store × Nat :=
  let child := createStack m page 0 y
  if tf ≠ 0 ∧ child.2 ≠ 0 then (setWords child.1 child.2 (forkWords child.1 tf), child.2)
  else child

/-- A first switch to a stack page: the page is as it was built, and the switch saves the old
task elsewhere. -/
structure FirstSwitch (c : Cpu) (page : Nat) (built : Store × Nat) : Prop where
  sp : (c.regs .rsi).toNat = built.2
  mem : ∀ x, page ≤ x → x < page + pageSize → c.mem x = built.1 x
  room : 56 ≤ (c.regs .rsp).toNat
  old : (c.regs .rsp).toNat ≤ page ∨ page + pageSize ≤ (c.regs .rsp).toNat - 56
  pointer : (c.regs .rdi).toNat + 8 ≤ page ∨ page + pageSize ≤ (c.regs .rdi).toNat

def StartsAt (fn : Word) (page : Nat) (c : Cpu) : Prop :=
  c.rip = fn ∧ page ≤ (c.regs .rsp).toNat ∧ (c.regs .rsp).toNat ≤ page + pageSize

/-- A child resumes at the return path, and from there as its parent with 0 in RAX. -/
def ResumesAs (u : Cpu) (y : Symbols) (c : Cpu) : Prop :=
  c.rip = y.syscallReturnPoint ∧ (run syscallReturn c).rip = u.rip ∧
    (run syscallReturn c).regs .rax = 0 ∧
    ∀ r, r ≠ .rax → r ≠ .rcx → r ≠ .r11 → (run syscallReturn c).regs r = u.regs r

section New

variable {c u : Cpu} {page tf : Nat} {m : Store} {fn : Word} {y : Symbols}

lemma createStack_task (function : fn ≠ 0) :
    (createStack m page fn y).2 = page + pageSize - 8 := by
  rw [createStack, if_pos function]

lemma firstSwitch_task (function : fn ≠ 0) (high : page + pageSize + 56 < 2 ^ 64)
    (first : FirstSwitch c page (createStack m page fn y)) :
    ((run contextSwitch c).regs .rsp).toNat = page + pageSize + 56 := by
  have sp := first.sp
  rw [createStack_task function, pageSize] at sp
  rw [pageSize] at high
  rw [(contextSwitch_spec first.room (by omega)).pointer, sp, pageSize]
  omega

lemma firstSwitch_word {built : Store × Nat} {a : Nat} (first : FirstSwitch c page built)
    (top : (c.regs .rsi).toNat + 64 < 2 ^ 64) (low : page ≤ a) (high : a + 8 ≤ page + pageSize) :
    word (run contextSwitch c).mem a = word built.1 a := by
  have ⟨_, mem, room, old, pointer⟩ := first
  apply word_congr
  intro x above below
  rw [(contextSwitch_spec room top).outside x (by omega) (by omega)]
  exact mem x (by omega) (by omega)

lemma forkWords_length : (forkWords m tf).length = 13 := rfl

lemma createStack_child : (createStack m page 0 y).2 = page + pageSize - 160 := rfl

lemma word_forkStack (frame : tf ≠ 0) (nonzero : 0 < page) {i : Nat} :
    (∀ h : i < 13, word (forkStack m tf page y).1 (page + pageSize - 160 + 8 * i) =
      (forkWords (createStack m page 0 y).1 tf)[i]) ∧
    (13 ≤ i → i < 19 → word (forkStack m tf page y).1 (page + pageSize - 160 + 8 * i) = 0) := by
  have unfolded : (forkStack m tf page y).1 =
      setWords (createStack m page 0 y).1 (page + pageSize - 160)
        (forkWords (createStack m page 0 y).1 tf) := by
    rw [forkStack, if_pos ⟨frame, by rw [createStack_child]; unfold pageSize; omega⟩]
    rfl
  rw [unfolded]
  constructor
  · intro inside
    exact word_setWords _ (forkWords_length ▸ inside)
  intro low high
  rw [word_congr fun x above below => setWords_outside (by rw [forkWords_length]; omega)]
  simp only [createStack, ne_eq, not_true_eq_false, if_false]
  rw [word_setWord_apart (by omega), word_setWord_apart (by omega), word_setWord_apart (by omega),
    word_setWords (replicate 20 0) (by rw [length_replicate]; omega),
    getElem_replicate]

lemma forkStack_sp : (forkStack m tf page y).2 = page + pageSize - 160 := by
  simp only [forkStack]
  split_ifs <;> rfl

lemma createStack_child_outside {x : Nat} (out : x < page ∨ page + pageSize ≤ x) :
    (createStack m page 0 y).1 x = m x := by
  unfold pageSize at out
  simp only [createStack, pageSize, ne_eq, not_true_eq_false, if_false]
  rw [setWord_outside (by omega), setWord_outside (by omega), setWord_outside (by omega)]
  apply setWords_outside
  rw [length_replicate]
  omega

/-- `sys_fork` runs in the system call of a parent, whose frame is as `syscall_entry` pushed it,
and gets a page for the stack of the child. -/
structure Forking (u : Cpu) (y : Symbols) (m : Store) (page : Nat) : Prop where
  layout : Layout u
  frame : ∀ x, kernelStack u - 104 ≤ x → x < kernelStack u → m x = calledMem y u x
  apart : page + pageSize ≤ kernelStack u - 104 ∨ kernelStack u ≤ page
  nonzero : 0 < page

/-- The return address of the child's first switch is the R10 of its parent: it is taken from
`tf->r8`. -/
lemma firstSwitch_child_rip (forking : Forking u y m page) (high : page + pageSize + 56 < 2 ^ 64)
    (first : FirstSwitch c page (forkStack m (kernelStack u - 104) page y)) :
    (run contextSwitch c).rip = u.regs .r10 := by
  have ⟨layout, frame, apart, nonzero⟩ := forking
  have room := layout.room
  have sp := first.sp
  rw [forkStack_sp] at sp
  have size : pageSize = 4096 := rfl
  have top : (c.regs .rsi).toNat + 64 < 2 ^ 64 := by omega
  rw [(contextSwitch_spec first.room top).rip, firstSwitch_word first top (by omega) (by omega), sp,
    show page + pageSize - 160 + 56 = page + pageSize - 160 + 8 * 7 by omega,
    (word_forkStack (by omega) nonzero).1 (by decide)]
  have place : word (createStack m page 0 y).1 (kernelStack u - 104 + 8 * 7) =
      word (calledMem y u) (kernelStack u - 104 + 8 * 7) := by
    apply word_congr
    intro x low below
    rw [createStack_child_outside (by omega)]
    exact frame x (by omega) (by omega)
  exact place.trans (frame_word layout (by decide))

lemma firstSwitch_child_r10 (forking : Forking u y m page) (high : page + pageSize + 56 < 2 ^ 64)
    (first : FirstSwitch c page (forkStack m (kernelStack u - 104) page y)) :
    (run syscallReturn (run contextSwitch c)).regs .r10 = 0 := by
  have room := forking.layout.room
  have nonzero := forking.nonzero
  have sp := first.sp
  rw [forkStack_sp] at sp
  have size : pageSize = 4096 := rfl
  have top : (c.regs .rsi).toNat + 64 < 2 ^ 64 := by omega
  have pointer := (contextSwitch_spec first.room top).pointer
  have back := StackState.popAll_spec _ _ restored_avoids
    restored_nodup (by rw [pointer, show 8 * restored.length = 104 from rfl]; omega)
  rw [run_syscallReturn_regs, if_neg (by decide)]
  apply (back.words 7 (by decide)).trans
  rw [pointer, firstSwitch_word first top (by omega) (by omega), sp,
    show page + pageSize - 160 + 64 + 8 * 7 = page + pageSize - 160 + 8 * 15 by omega]
  exact (word_forkStack (by omega) nonzero).2 (by decide) (by decide)

end New

/-- No task that `create_task` makes starts at its function on its own stack, and no child of
`sys_fork` resumes as its parent at the return path: it would need the parent's R10 to be the
address of the return path, and that path then gives the child 0 in R10. -/
theorem firstSwitch_never (y : Symbols) (known : y.syscallReturnPoint ≠ 0) (c : Cpu) (page : Nat)
    (m : Store) (high : page + pageSize + 56 < 2 ^ 64) :
    (∀ fn : Word, fn ≠ 0 → FirstSwitch c page (createStack m page fn y) →
      ((run contextSwitch c).regs .rsp).toNat = page + pageSize + 56 ∧
        ¬ StartsAt fn page (run contextSwitch c)) ∧
    (∀ u : Cpu, Forking u y m page →
      FirstSwitch c page (forkStack m (kernelStack u - 104) page y) →
      (run contextSwitch c).rip = u.regs .r10 ∧ ¬ ResumesAs u y (run contextSwitch c)) := by
  constructor
  · intro fn function first
    have pointer := firstSwitch_task function high first
    refine ⟨pointer, fun starts => ?_⟩
    have inside := starts.2.2
    omega
  · intro u forking first
    have rip := firstSwitch_child_rip forking high first
    refine ⟨rip, fun resumes => known ?_⟩
    rw [← resumes.1, rip, ← resumes.2.2.2 .r10 (by decide) (by decide) (by decide)]
    exact firstSwitch_child_r10 forking high first

/-- The idle task at its first switch to a stack at 0x20000. -/
def idleCpu (built : Store × Nat) : Cpu where
  regs
    | .rsp => 0x8000
    | .rdi => 0x7000
    | .rsi => BitVec.ofNat 64 built.2
    | _ => 0
  mem := built.1
  rip := 0x101200
  rflags := 0x202
  gsBase := 0x1000
  kernelGsBase := 0

def taskStack : Store × Nat := createStack (fun _ => 0) 0x20000 0x100000 sampleSymbols

def childStack : Store × Nat :=
  forkStack (calledMem sampleSymbols writeCall) (kernelStack writeCall - 104) 0x20000 sampleSymbols

lemma idleCpu_first {built : Store × Nat} (small : built.2 < 2 ^ 64) :
    FirstSwitch (idleCpu built) 0x20000 built where
  sp := Nat.mod_eq_of_lt small
  mem _ _ _ := rfl
  room := show 56 ≤ 0x8000 by decide
  old := .inl (show 0x8000 ≤ 0x20000 by decide)
  pointer := .inl (show 0x7000 + 8 ≤ 0x20000 by decide)

lemma taskStack_first : FirstSwitch (idleCpu taskStack) 0x20000 taskStack :=
  idleCpu_first (by decide)

lemma childStack_first : FirstSwitch (idleCpu childStack) 0x20000 childStack :=
  idleCpu_first (by rw [childStack, forkStack_sp]; decide)

lemma writeCall_forking :
    Forking writeCall sampleSymbols (calledMem sampleSymbols writeCall) 0x20000 where
  layout := writeCall_layout
  frame _ _ _ := rfl
  apart := .inr (by rw [writeCall_kernelStack]; decide)
  nonzero := by decide

/-- A task made for the function at 0x100000 gets a stack pointer above its stack, and a child of
`writeCall` jumps to address 0. -/
theorem firstSwitch_astray : ¬ StartsAt 0x100000 0x20000 (run contextSwitch (idleCpu taskStack)) ∧
      (run contextSwitch (idleCpu childStack)).rip = 0 ∧
      ¬ ResumesAs writeCall sampleSymbols (run contextSwitch (idleCpu childStack)) := by
  have pointer := firstSwitch_task (by decide) (by decide) taskStack_first
  have rip := firstSwitch_child_rip writeCall_forking (by decide) childStack_first
  refine ⟨fun starts => ?_, rip, fun resumes => ?_⟩
  · have inside := starts.2.2
    exact absurd inside (by decide)
  · have address := resumes.1
    rw [rip] at address
    exact absurd address (by decide)

/-- The idle task switches to a new task, and to a forked one. -/
theorem firstSwitch_never_idle :
    ¬ StartsAt 0x100000 0x20000 (run contextSwitch (idleCpu taskStack)) ∧
      ¬ ResumesAs writeCall sampleSymbols (run contextSwitch (idleCpu childStack)) :=
  ⟨((firstSwitch_never sampleSymbols (by decide) (idleCpu taskStack) 0x20000 (fun _ => 0)
      (by decide)).1 0x100000 (by decide) taskStack_first).2,
    ((firstSwitch_never sampleSymbols (by decide) (idleCpu childStack) 0x20000
      (calledMem sampleSymbols writeCall) (by decide)).2 writeCall writeCall_forking
      childStack_first).2⟩

end AuroraOS.Arch
