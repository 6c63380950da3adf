import AuroraOS.Signal.Model

/-!
# Returning to the interrupted context

Beside the signal state of a task stands the list of the deliveries whose handlers have not returned
yet, innermost first.  The kernel keeps one saved context, for the delivery it made last (`Saved`),
which `sigreturn` forgets.
-/

namespace AuroraOS.Signal

open Lib List

/-- A delivery: the registers and the mask it interrupted, and the memory it left. -/
structure Interrupted where
  ctx : Context
  blocked : BitVec 32
  mem : Store

def Interrupted.frameAddr (d : Interrupted) : Nat :=
  (d.ctx.tf.rsp - BitVec.ofNat 64 sizeofSigframe).toNat

/-- The handler left the frame of a delivery as it was, and readable. -/
structure Intact (d : Interrupted) (trap : Trap) : Prop where
  mem : ∀ x, d.frameAddr ≤ x → x < d.frameAddr + sizeofSigframe → trap.mem x = d.mem x
  mapped : userPagesMapped trap.present d.frameAddr sizeofSigframe = true

def Trap.isSigreturn (trap : Trap) : Bool :=
  !trap.isForkChild && trap.ctx.tf.rax.setWidth 32 == BitVec.ofNat 32 sysSigreturn

/-- The registers with which the task goes on, unless a signal is delivered first. -/
def Trap.resumed (trap : Trap) (sig : SignalState) : Context :=
  { trap.ctx with tf := (trap.handled sig).tf }

structure World where
  sig : SignalState
  stack : List Interrupted

def World.after (w : World) (trap : Trap) (rest : List Interrupted) : World where
  sig := (syscallTrap trap w.sig).sig
  stack :=
    if (syscallTrap trap w.sig).delivered.isSome then
      ⟨trap.resumed w.sig, (trap.handled w.sig).sig.blocked, (syscallTrap trap w.sig).mem⟩ :: rest
    else rest

/-- Traps of the task, in which every `sigreturn` matches the innermost delivery and finds its
frame intact, and signals that other tasks send. -/
inductive Step : World → World → Prop
  | sigreturn (w : World) (trap : Trap) {top : Interrupted} {rest : List Interrupted} :
      trap.isSigreturn = true → w.stack = top :: rest → Intact top trap →
      (syscallTrap trap w.sig).exitCode = none → Step w (w.after trap rest)
  | call (w : World) (trap : Trap) : trap.isSigreturn = false →
      (syscallTrap trap w.sig).exitCode = none → Step w (w.after trap w.stack)
  | raise (w : World) (pending : BitVec 32) :
      Step w { w with sig := { w.sig with pending := pending } }

def World.Fresh (w : World) : Prop :=
  w.sig.blocked = 0 ∧ w.sig.savedRsp = 0 ∧ w.sig.savedRip = 0 ∧ w.stack = []

inductive Reaches : World → Prop
  | start {w : World} : w.Fresh → Reaches w
  | step {w w' : World} : Reaches w → Step w w' → Reaches w'

/-- Either a context is saved, the interrupted R15 and RSI are those that survive (R15 is the member
`rax`, which the result of the call overwrites, and RSI the member `r11`, which is masked as flags),
no signal was blocked before the delivery, and RBX, RBP and RSP are the interrupted ones; or nothing
is saved, and the registers and the mask are the interrupted ones without any restoring. -/
def Restorable (sig : SignalState) (top : Interrupted) (ctx : Context) : Prop :=
  (sig.savedRip ≠ 0 ∧ top.ctx.regs .r15 = 0 ∧
      top.ctx.regs .rsi &&& 0x3F7FD7 = top.ctx.regs .rsi ∧ top.blocked = 0 ∧
      ctx.regs .rbx = top.ctx.regs .rbx ∧ ctx.regs .rbp = top.ctx.regs .rbp ∧
      ctx.regs .rsp = top.ctx.regs .rsp) ∨
    (sig.savedRip = 0 ∧ top.ctx.regs .r15 = 0 ∧
      (∀ r, r ≠ .r15 → ctx.regs r = top.ctx.regs r) ∧ sig.blocked = top.blocked)

/-! ## Frames in memory -/

lemma ofFields_congr {field field' : Nat → Word} (same : ∀ i, i < 17 → field' i = field i) :
    Sigframe.ofFields field' = Sigframe.ofFields field := by
  have cut : ∀ f : Nat → Word,
      Sigframe.ofFields f = Sigframe.ofFields fun i => if i < 17 then f i else 0 := fun _ => rfl
  rw [cut field', cut field]
  congr 1
  funext i
  split
  · rename_i inside
    exact same i inside
  · rfl

lemma read_congr {m m' : Store} {a : Nat}
    (same : ∀ x, a ≤ x → x < a + sizeofSigframe → m' x = m x) :
    Sigframe.read m' a = Sigframe.read m a := by
  refine ofFields_congr fun i inside => word_congr fun x low high => same x (by omega) ?_
  unfold sizeofSigframe
  omega

lemma read_setWords (m : Store) (a : Nat) (frame : Sigframe) :
    Sigframe.read (setWords m (a + 8) frame.words) a = frame := by
  have fields : frame = Sigframe.ofFields fun i => frame.words.getD i 0 := rfl
  rw [fields]
  refine ofFields_congr fun i inside => ?_
  rw [← fields, getD_eq_getElem?_getD,
    getElem?_eq_getElem (show i < frame.words.length from inside)]
  exact word_setWords _ inside

/-! ## What `check_signals` does -/

structure Delivered (t t' : Trapped) (s : Nat) : Prop where
  isSignal : 0 < s ∧ s < nsig
  savedRsp : t'.sig.savedRsp = t.tf.rsp
  savedRip : t'.sig.savedRip = t.tf.rip
  room : frameSize + 0x1000 ≤ t.tf.rsp.toNat
  isUser : t.tf.rsp.toNat ≤ userAddrMax
  mem : t'.mem = pushFrame t.mem (t.tf.rsp.toNat - frameSize) (saveFrame t.tf s)

/-- No handler has been called: the saved context and the mask are as before. -/
structure Undelivered (t t' : Trapped) : Prop where
  delivered : t'.delivered = none
  savedRsp : t'.sig.savedRsp = t.sig.savedRsp
  savedRip : t'.sig.savedRip = t.sig.savedRip

variable {t t' : Trapped} {s : Nat}

lemma Delivered.of_take {r : Nat} (done : Delivered (t.take r) t' s) : Delivered t t' s :=
  { done with }

lemma Undelivered.of_take {r : Nat} (same : Undelivered (t.take r) t') : Undelivered t t' :=
  { same with }

lemma toNat_sub_frameSize {rsp : Word} (room : frameSize + 0x1000 ≤ rsp.toNat) :
    (rsp - BitVec.ofNat 64 frameSize).toNat = rsp.toNat - frameSize := by
  rw [BitVec.toNat_sub, show (BitVec.ofNat 64 frameSize).toNat = 168 from rfl]
  simp only [show frameSize = 168 from rfl] at room ⊢
  omega

lemma doSignalDefault_undelivered (none : t.delivered = none) (s : Nat) :
    Undelivered t (doSignalDefault t s) := by
  unfold doSignalDefault
  split
  · exact ⟨none, rfl, rfl⟩
  · exact ⟨none, rfl, rfl⟩

lemma deliver_cases (none : t.delivered = none) (present : Nat → Bool)
    (isSignal : 0 < s ∧ s < nsig) (handler : Word) :
    Undelivered t (deliver t present s handler) ∨
      (deliver t present s handler).delivered = some s ∧
        Delivered t (deliver t present s handler) s := by
  unfold deliver
  dsimp only
  split
  · exact .inl (doSignalDefault_undelivered none s)
  split
  · exact .inl (doSignalDefault_undelivered none s)
  split
  · exact .inl (doSignalDefault_undelivered none s)
  rename_i room _ valid
  have room := not_lt.mp room
  have down := toNat_sub_frameSize room
  refine .inr ⟨rfl, isSignal, rfl, rfl, room, ?_, by rw [down]⟩
  have range : userAddrRangeOk (t.tf.rsp.toNat - frameSize) frameSize = true := by
    simp_all
  unfold userAddrRangeOk at range
  rw [Nat.sub_add_cancel ((Nat.le_add_right _ _).trans room),
    Nat.mod_eq_of_lt t.tf.rsp.isLt] at range
  simp only [Bool.and_eq_true, Bool.not_eq_true', decide_eq_false_iff_not] at range
  exact not_lt.mp range.2

/-- A handler is called where the stack has room in mapped user memory. -/
lemma deliver_delivers {present : Nat → Bool} (s : Nat) (handler : Word)
    (room : frameSize + 0x1000 ≤ t.tf.rsp.toNat) (isUser : t.tf.rsp.toNat ≤ userAddrMax)
    (mapped : userPagesMapped present (t.tf.rsp.toNat - frameSize) frameSize = true) :
    (deliver t present s handler).delivered = some s ∧
      (deliver t present s handler).exitCode = t.exitCode := by
  have down := toNat_sub_frameSize room
  have below : ¬t.tf.rsp - BitVec.ofNat 64 frameSize > t.tf.rsp := by
    rw [gt_iff_lt, BitVec.lt_def, down]
    omega
  have range : userAddrRangeOk (t.tf.rsp.toNat - frameSize) frameSize = true := by
    have inside : frameSize ≤ t.tf.rsp.toNat := (Nat.le_add_right _ _).trans room
    rw [userAddrRangeOk, Nat.sub_add_cancel inside, Nat.mod_eq_of_lt t.tf.rsp.isLt]
    simp only [Bool.and_eq_true, Bool.not_eq_true', decide_eq_false_iff_not]
    exact ⟨not_lt.mpr (Nat.sub_le _ _), not_lt.mpr isUser⟩
  rw [deliver, if_neg (not_lt.mpr room), if_neg below, down, range, mapped, if_neg (by simp)]
  exact ⟨rfl, rfl⟩

lemma checkLoop_cases (present : Nat → Bool) (ss : List Nat)
    (none : t.delivered = none) (signals : ∀ s ∈ ss, 0 < s ∧ s < nsig) :
    Undelivered t (checkLoop present ss t) ∨ ∃ s, (checkLoop present ss t).delivered = some s ∧
        Delivered t (checkLoop present ss t) s := by
  induction ss generalizing t with
  | nil => exact .inl ⟨none, rfl, rfl⟩
  | cons s ss ih =>
    have later : ∀ s ∈ ss, 0 < s ∧ s < nsig := fun r mem =>
      signals r (mem_cons_of_mem s mem)
    unfold checkLoop
    dsimp only
    split
    · exact ih none later
    split
    · exact ih none later
    split
    · exact .inl (doSignalDefault_undelivered (t := t.take s) none s).of_take
    split
    · rcases ih (t := t.take s) none later with same | ⟨r, is, done⟩
      · exact .inl same.of_take
      · exact .inr ⟨r, is, done.of_take⟩
    · rcases deliver_cases (t := t.take s) none present (signals s (mem_cons_self ..))
        (t.sig.actions s) with same | ⟨is, done⟩
      · exact .inl same.of_take
      · exact .inr ⟨s, is, done.of_take⟩

lemma checkSignals_cases (present : Nat → Bool) (none : t.delivered = none) :
    Undelivered t (checkSignals present t) ∨ ∃ s, (checkSignals present t).delivered = some s ∧
        Delivered t (checkSignals present t) s := by
  unfold checkSignals
  split
  · exact .inl ⟨none, rfl, rfl⟩
  · refine checkLoop_cases present _ none fun s mem => ?_
    have bounds := mem_range'_1.mp mem
    omega

/-! ## The saved context -/

/-- The memory of a delivery has the frame of the interrupted registers. -/
structure Framed (d : Interrupted) : Prop where
  frame : ∃ s, 0 < s ∧ s < nsig ∧ Sigframe.read d.mem d.frameAddr = saveFrame d.ctx.tf s
  room : frameSize + 0x1000 ≤ d.ctx.tf.rsp.toNat
  isUser : d.ctx.tf.rsp.toNat ≤ userAddrMax

/-- A saved context is that of the innermost delivery. -/
def Saved (w : World) : Prop :=
  w.sig.savedRip ≠ 0 → ∃ top rest, w.stack = top :: rest ∧ w.sig.savedRip = top.ctx.tf.rip ∧
    w.sig.savedRsp = top.ctx.tf.rsp ∧ Framed top

variable {d : Interrupted}

lemma frameAddr_eq (room : frameSize + 0x1000 ≤ d.ctx.tf.rsp.toNat) :
    d.frameAddr = d.ctx.tf.rsp.toNat - sizeofSigframe := by
  rw [Interrupted.frameAddr, BitVec.toNat_sub,
    show (BitVec.ofNat 64 sizeofSigframe).toNat = 144 from rfl]
  simp only [show sizeofSigframe = 144 from rfl] at room ⊢
  omega

lemma Delivered.framed (done : Delivered t t' s)
    (regs : d.ctx.tf = t.tf) (mem : d.mem = t'.mem) : Framed d := by
  have room := done.room
  rw [← regs] at room
  refine ⟨⟨s, done.isSignal.1, done.isSignal.2, ?_⟩, room, regs ▸ done.isUser⟩
  have place : t.tf.rsp.toNat - frameSize + 8 + trampolineSize = d.frameAddr := by
    rw [frameAddr_eq room, regs]
    have enough := done.room
    simp only [show frameSize = 168 from rfl, show sizeofSigframe = 144 from rfl,
      show trampolineSize = 16 from rfl] at enough ⊢
    omega
  rw [mem, done.mem, pushFrame, place, read_setWords, regs]

variable {trap : Trap}

lemma handled_sigreturn (call : trap.isSigreturn = true) (sig : SignalState) : trap.handled sig =
      ⟨(doSysSigreturn sig trap.ctx.tf trap.mem trap.present).1,
        { (doSysSigreturn sig trap.ctx.tf trap.mem trap.present).2 with rax := 0 }, trap.mem,
        none, none⟩ := by
  simp only [Trap.isSigreturn, Bool.and_eq_true, Bool.not_eq_true', beq_iff_eq] at call
  rw [Trap.handled, if_neg (by simp [call.1]), if_pos call.2]

lemma handled_delivered (trap : Trap) (sig : SignalState) :
    (trap.handled sig).delivered = none := by
  unfold Trap.handled
  split
  · rfl
  split
  · rfl
  · rfl

lemma savedRip_sigreturn (call : trap.isSigreturn = true) (sig : SignalState) :
    (trap.handled sig).sig.savedRip = 0 := by
  rw [handled_sigreturn call]
  unfold doSysSigreturn
  split
  · rfl
  · rename_i none
    exact not_not.mp none

lemma saved_call (call : trap.isSigreturn = false) (sig : SignalState) :
    (trap.handled sig).sig.savedRip = sig.savedRip ∧
      (trap.handled sig).sig.savedRsp = sig.savedRsp := by
  unfold Trap.handled
  split
  · exact ⟨rfl, rfl⟩
  split
  · rename_i notChild isCall
    simp [Trap.isSigreturn, notChild, isCall] at call
  · exact ⟨rfl, rfl⟩

variable {w : World}

lemma Saved.after {rest : List Interrupted}
    (kept : Saved ⟨(trap.handled w.sig).sig, rest⟩) : Saved (w.after trap rest) := by
  rcases checkSignals_cases trap.present (handled_delivered trap w.sig) with
    same | ⟨s, is, done⟩
  · have stack : (w.after trap rest).stack = rest := by
      simp [World.after, syscallTrap, same.delivered]
    intro saved
    rw [stack]
    have before := kept (same.savedRip ▸ saved)
    simpa only [World.after, syscallTrap, same.savedRip, same.savedRsp] using before
  · intro _
    refine ⟨⟨trap.resumed w.sig, (trap.handled w.sig).sig.blocked, (syscallTrap trap w.sig).mem⟩,
      rest, ?_, done.savedRip, done.savedRsp, done.framed rfl rfl⟩
    simp [World.after, syscallTrap, is]

lemma Saved.step {w' : World} (saved : Saved w) (step : Step w w') : Saved w' := by
  cases step with
  | sigreturn trap call _ _ _ =>
    exact .after fun outstanding => absurd (savedRip_sigreturn call w.sig) outstanding
  | call trap call _ =>
    have same := saved_call call w.sig
    refine .after fun outstanding => ?_
    have before := saved (same.1 ▸ outstanding)
    simpa only [same.1, same.2] using before
  | raise pending => exact saved

lemma Saved.of_reaches (reaches : Reaches w) : Saved w := by
  induction reaches with
  | start fresh => exact fun outstanding => absurd fresh.2.2.1 outstanding
  | step _ step ih => exact ih.step step

/-! ## What `sigreturn` restores -/

lemma userReadable_frame (framed : Framed d) (intact : Intact d trap) :
    userReadable trap.present d.frameAddr sizeofSigframe = true := by
  have place := frameAddr_eq framed.room
  have room := framed.room
  have isUser := framed.isUser
  simp only [show sizeofSigframe = 144 from rfl,
    show userAddrMax = 0x00007FFFFFFFFFFF from rfl] at room isUser place
  have mapped := intact.mapped
  rw [userReadable, mapped, Bool.and_true, userAddrRangeOk]
  simp only [show sizeofSigframe = 144 from rfl, show userAddrMax = 0x00007FFFFFFFFFFF from rfl,
    Bool.and_eq_true, bne_iff_ne, Bool.not_eq_true', decide_eq_false_iff_not]
  omega

/-- With a saved context the frame is restored, except for some bits of the member `r11`. -/
lemma doSysSigreturn_saved {top : Interrupted} {rest : List Interrupted}
    (saved : Saved w) (outstanding : w.stack = top :: rest) (there : w.sig.savedRip ≠ 0)
    (intact : Intact top trap) :
    doSysSigreturn w.sig trap.ctx.tf trap.mem trap.present =
      ({ w.sig with savedRip := 0, savedRsp := 0, blocked := 0 },
        { top.ctx.tf with r11 := top.ctx.tf.r11 &&& 0x3F7FD7 }) := by
  obtain ⟨top', rest', stack, rip, rsp, framed⟩ := saved there
  obtain ⟨rfl, rfl⟩ : top' = top ∧ rest' = rest := by
    rw [outstanding] at stack
    cases stack
    exact ⟨rfl, rfl⟩
  obtain ⟨s, positive, small, frame⟩ := framed.frame
  have readable := userReadable_frame framed intact
  have read : Sigframe.read trap.mem top'.frameAddr = saveFrame top'.ctx.tf s :=
    (read_congr intact.mem).trans frame
  have signo : (saveFrame top'.ctx.tf s).signo.toNat = s := by
    simp only [saveFrame, BitVec.toNat_ofNat]
    simp only [nsig] at small
    omega
  have place : (w.sig.savedRsp - BitVec.ofNat 64 sizeofSigframe).toNat = top'.frameAddr := by
    rw [rsp, Interrupted.frameAddr]
  rw [doSysSigreturn, if_pos there]
  dsimp only
  rw [place, read, signo, if_pos ⟨readable, positive, small⟩]
  rfl

lemma regs_restored_iff {ctx d : Context} {flags : Word} :
    ({ ctx with tf := { d.tf with r11 := flags, rax := 0 } } : Context).regs = d.regs ↔
      d.regs .r15 = 0 ∧ flags = d.regs .rsi ∧ ctx.regs .rbx = d.regs .rbx ∧
        ctx.regs .rbp = d.regs .rbp ∧ ctx.regs .rsp = d.regs .rsp := by
  constructor
  · intro same
    exact ⟨(congrFun same .r15).symm, congrFun same .rsi, congrFun same .rbx, congrFun same .rbp,
      congrFun same .rsp⟩
  · rintro ⟨r15, rsi, rbx, rbp, rsp⟩
    funext r
    cases r
    case r15 => exact r15.symm
    case rsi => exact rsi
    case rbx => exact rbx
    case rbp => exact rbp
    case rsp => exact rsp
    all_goals rfl

lemma regs_kept_iff {ctx d : Context} :
    ({ ctx with tf := { ctx.tf with rax := 0 } } : Context).regs = d.regs ↔
      d.regs .r15 = 0 ∧ ∀ r, r ≠ .r15 → ctx.regs r = d.regs r := by
  have other : ∀ r, r ≠ .r15 →
      ({ ctx with tf := { ctx.tf with rax := 0 } } : Context).regs r = ctx.regs r := by
    intro r different
    cases r
    case r15 => exact absurd rfl different
    all_goals rfl
  constructor
  · intro same
    exact ⟨(congrFun same .r15).symm, fun r different =>
      (other r different).symm.trans (congrFun same r)⟩
  · rintro ⟨r15, rest⟩
    funext r
    by_cases last : r = .r15
    · rw [last]
      exact r15.symm
    · rw [other r last, rest r last]

/-- In every run of properly nested deliveries and returns that find their frames intact, a
`sigreturn` resumes the task with the registers that the matching delivery interrupted, and
with the mask before it, exactly if the context is `Restorable`. -/
theorem restores_iff {w : World} (reaches : Reaches w) {top : Interrupted}
    {rest : List Interrupted} (outstanding : w.stack = top :: rest) (trap : Trap)
    (call : trap.isSigreturn = true) (intact : Intact top trap) :
    ((trap.resumed w.sig).regs = top.ctx.regs ∧
        (trap.handled w.sig).sig.blocked = top.blocked) ↔
      Restorable w.sig top trap.ctx := by
  have saved := Saved.of_reaches reaches
  rw [Trap.resumed, handled_sigreturn call, Restorable]
  rcases eq_or_ne w.sig.savedRip 0 with none | there
  · have nothing : doSysSigreturn w.sig trap.ctx.tf trap.mem trap.present =
        (w.sig, trap.ctx.tf) := if_neg (not_not.mpr none)
    rw [nothing]
    simp only [none, ne_eq, not_true_eq_false, false_and, true_and, false_or]
    rw [regs_kept_iff, and_assoc]
  · rw [doSysSigreturn_saved saved outstanding there intact]
    simp only [there, ne_eq, not_false_eq_true, true_and, false_and, or_false]
    rw [regs_restored_iff]
    constructor
    · rintro ⟨⟨r15, rsi, kept⟩, mask⟩
      exact ⟨r15, rsi, mask.symm, kept⟩
    · rintro ⟨r15, rsi, mask, kept⟩
      exact ⟨⟨r15, rsi, kept⟩, mask.symm⟩

/-! ## One delivery and its return -/

def handlers : SignalState where
  actions := fun s => if s = 1 then 0x5000 else sigDfl
  pending := 0
  blocked := 0
  savedRsp := 0
  savedRip := 0

/-- A task at 0x4000 with interrupts on and the given R15.  Above its frame stand the words 0x4000
and 0x10000, which the C code takes for RIP and RSP. -/
def regs (r15 : Word) : Context where
  tf := { r15 := 0, r14 := 0x4000, r13 := 0, r12 := 0, r11 := 0, r10 := 0, r9 := 0, r8 := 0,
          rsi := 0x202, rdi := 0, rdx := 0, rcx := 0, rax := r15, rip := 0x4000, rsp := 0x10000 }
  rbx := 0
  rbp := 0
  rsp := 0x8000

def callTrap (ret : Word) : Trap where
  ctx := regs 39
  mem := fun _ => 0
  present := fun _ => true
  isForkChild := false
  effect := { ret := ret, actions := handlers.actions, pending := bit 1, mem := fun _ => 0 }

def interrupted (ret : Word) : World := World.after ⟨handlers, []⟩ (callTrap ret) []

def returnTrap (ret : Word) : Trap :=
  { callTrap ret with ctx := regs 15, mem := (syscallTrap (callTrap ret) handlers).mem }

def delivery (ret : Word) : Interrupted :=
  ⟨(callTrap ret).resumed handlers, 0, (syscallTrap (callTrap ret) handlers).mem⟩

lemma handled_callTrap (ret : Word) : (callTrap ret).handled handlers =
    ⟨{ handlers with pending := bit 1 }, (regs ret).tf, fun _ => 0, none, none⟩ :=
  rfl

lemma callTrap_delivers (ret : Word) : (syscallTrap (callTrap ret) handlers).delivered = some 1 ∧
      (syscallTrap (callTrap ret) handlers).exitCode = none := by
  rw [syscallTrap, handled_callTrap, checkSignals, if_neg (show ¬bit 1 = 0 by decide),
    show range' 1 (nsig - 1) = 1 :: range' 2 30 from rfl, checkLoop,
    if_neg (show ¬bit 1 &&& bit 1 = 0 by decide),
    if_neg (show ¬handlers.blocked &&& bit 1 ≠ 0 by decide)]
  dsimp only [Trapped.take]
  rw [if_neg (show ¬handlers.actions 1 = sigDfl by decide),
    if_neg (show ¬handlers.actions 1 = sigIgn by decide)]
  refine deliver_delivers 1 _ ?_ ?_ ?_
  · exact show frameSize + 0x1000 ≤ 0x10000 by decide
  · exact show 0x10000 ≤ userAddrMax by decide
  · simp [userPagesMapped, callTrap]

lemma reaches_interrupted (ret : Word) :
    Reaches (interrupted ret) ∧ (interrupted ret).stack = [delivery ret] := by
  obtain ⟨delivers, survives⟩ := callTrap_delivers ret
  refine ⟨.step (.start ⟨rfl, rfl, rfl, rfl⟩) (.call _ (callTrap ret) rfl survives), ?_⟩
  rw [interrupted, World.after, delivers]
  rfl

lemma intact_returnTrap (ret : Word) : Intact (delivery ret) (returnTrap ret) :=
  ⟨fun _ _ _ => rfl, by simp [userPagesMapped, returnTrap, callTrap]⟩

/-- The process id that `getpid` returned is lost: the task goes on with 0 in R15. -/
theorem return_loses_r15 : Reaches (interrupted 7) ∧ (interrupted 7).stack = [delivery 7] ∧
    (returnTrap 7).isSigreturn = true ∧ Intact (delivery 7) (returnTrap 7) ∧
    (delivery 7).ctx.regs .r15 = 7 ∧
    ((returnTrap 7).resumed (interrupted 7).sig).regs .r15 = 0 := by
  obtain ⟨reaches, stack⟩ := reaches_interrupted 7
  refine ⟨reaches, stack, by decide, intact_returnTrap 7, by decide, ?_⟩
  rw [Trap.resumed, handled_sigreturn (by decide)]
  rfl

theorem restores_iff_interrupted :
    ((returnTrap 0).resumed (interrupted 0).sig).regs = (delivery 0).ctx.regs ∧
      ((returnTrap 0).handled (interrupted 0).sig).sig.blocked = (delivery 0).blocked := by
  obtain ⟨reaches, stack⟩ := reaches_interrupted 0
  refine (restores_iff reaches stack (returnTrap 0) (by decide) (intact_returnTrap 0)).mpr ?_
  exact .inl ⟨by decide, by decide, by decide, by decide, by decide, by decide, by decide⟩

end AuroraOS.Signal
