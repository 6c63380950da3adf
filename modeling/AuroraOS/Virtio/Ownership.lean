import AuroraOS.Virtio.Model
import Mathlib.Data.List.Nodup
import Mathlib.Data.Nat.ModEq

/-!
# Who owns a descriptor

`virtq_get_buf` gives back the head of a completed chain and no other descriptor of it, and the free
list has no end mark: behind its last descriptor it leads to descriptor 0 again.
-/

namespace AuroraOS.Virtio

open List Option Function

/-- Following the links from `head` one meets the descriptors `xs` first. -/
def Leads (desc : Nat → VirtqDesc) : Nat → List Nat → Prop
  | _, [] => True
  | head, x :: xs => head = x ∧ Leads desc (desc x).next.toNat xs

section Leads

variable {desc desc' : Nat → VirtqDesc} {head d : Nat} {xs : List Nat}

lemma Leads.congr (leads : Leads desc head xs) (same : ∀ x ∈ xs, desc' x = desc x) :
    Leads desc' head xs := by
  induction xs generalizing head with
  | nil => trivial
  | cons x xs ih =>
    obtain ⟨rfl, rest⟩ := leads
    refine ⟨rfl, ?_⟩
    rw [same head mem_cons_self]
    exact ih rest fun y mem => same y (mem_cons_of_mem _ mem)

lemma Leads.update (leads : Leads desc head xs) (new : VirtqDesc) (outside : d ∉ xs) :
    Leads (update desc d new) head xs := by
  apply leads.congr
  intro x mem
  apply update_of_ne
  intro same
  exact outside (same ▸ mem)

lemma Leads.push (leads : Leads desc head xs) (outside : d ∉ xs) (small : ∀ x ∈ xs, x < 65536) :
    Leads (Function.update desc d { desc d with next := BitVec.ofNat 16 head }) d (d :: xs) := by
  refine ⟨rfl, ?_⟩
  cases xs with
  | nil => trivial
  | cons x xs =>
    have first : head = x := leads.1
    have below := small x mem_cons_self
    rw [update_self, BitVec.toNat_ofNat, Nat.mod_eq_of_lt (by omega)]
    exact leads.update _ outside

lemma leads_range' (n k : Nat) (next : ∀ i, i + 1 < k + n → (desc i).next.toNat = i + 1) :
    Leads desc k (range' k n) := by
  induction n generalizing k with
  | zero => trivial
  | succ n ih =>
    refine ⟨rfl, ?_⟩
    cases n with
    | zero => trivial
    | succ n =>
      rw [next k (by omega)]
      exact ih (k + 1) fun i inside => next i (by omega)

end Leads

def System.taken (s : System) : List Nat := (s.built ++ s.flying ++ s.done).flatten

/-- The used ring holds the completed chains that are not fetched, oldest first. -/
structure Used (s : System) : Prop where
  idx : s.vq.usedIdx = s.vq.lastUsedIdx + BitVec.ofNat 16 s.done.length
  cells : ∀ (k d : Nat), s.done[k]? = some [d] →
    (s.vq.usedRing ((s.vq.lastUsedIdx.toNat + k) % s.vq.num)).id.toNat = d

/-- Every descriptor is free or in one chain of its own. -/
structure Owned (s : System) (free : List Nat) : Prop where
  size : s.vq.num ∣ 65536
  bound : s.vq.num ≤ virtioVqMaxSize
  leads : Leads s.vq.desc s.vq.freeHead free
  all : (free ++ s.taken).Perm (range s.vq.num)
  single : ∀ chain ∈ s.built ++ s.flying ++ s.done, ∃ d, chain = [d]
  used : Used s

/-- A call of `virtq_add_chain` with one buffer, while a descriptor is free. -/
def Admissible (s : System) : Op → Prop
  | .addChain bufs => bufs.length = 1 ∧ s.taken.length < s.vq.num
  | _ => True

inductive Run (s₀ : System) : System → Prop
  | nil : Run s₀ s₀
  | snoc {s s' : System} (op : Op) (run : Run s₀ s) (ok : Admissible s op)
      (step : exec s op = some s') : Run s₀ s'

section Invariant

variable {s s' : System} {free : List Nat} {d : Nat}

lemma Owned.nodup (owned : Owned s free) : (free ++ s.taken).Nodup :=
  owned.all.nodup_iff.mpr nodup_range

lemma Owned.lt (owned : Owned s free) (mem : d ∈ free ++ s.taken) : d < s.vq.num :=
  mem_range.mp (owned.all.mem_iff.mp mem)

variable {vq : Virtq}

lemma handOut_eq (leads : Leads vq.desc vq.freeHead free)
    (nodup : free.Nodup) (inside : ∀ x ∈ free, x < vq.num) : handOut free.length vq = free := by
  induction free generalizing vq with
  | nil => rfl
  | cons x free ih =>
    obtain ⟨head, rest⟩ := leads
    obtain ⟨fresh, nodup⟩ := nodup_cons.mp nodup
    have small : ¬vq.freeHead ≥ vq.num := by
      rw [head]
      exact not_le.mpr (inside x mem_cons_self)
    rw [length_cons, handOut, virtqAddDescriptor, if_neg small, head]
    refine congrArg (x :: ·) (ih ?_ nodup ?_)
    · exact rest.update _ fresh
    · exact fun y mem => inside y (mem_cons_of_mem _ mem)

lemma Owned.available (owned : Owned s free) (mem : d ∈ free) : Available s.vq d := by
  refine ⟨free.length, ?_⟩
  rw [handOut_eq owned.leads (nodup_append.mp owned.nodup).1]
  · exact mem
  · exact fun x inFree => owned.lt (mem_append_left _ inFree)

lemma Owned.addChain (owned : Owned s free) (buf : Buffer) (room : s.taken.length < s.vq.num) :
    ∃ rest, free = s.vq.freeHead :: rest ∧
      virtqAddChain s.vq [buf] = (some s.vq.freeHead, [s.vq.freeHead], { s.vq with
          freeHead := (s.vq.desc s.vq.freeHead).next.toNat
          desc := update s.vq.desc s.vq.freeHead ⟨buf.addr, buf.len, buf.flags, 0⟩ }) := by
  cases free with
  | nil =>
    have count := owned.all.length_eq
    rw [nil_append, length_range] at count
    omega
  | cons x rest =>
    obtain ⟨head, -⟩ := owned.leads
    have small : ¬s.vq.freeHead ≥ s.vq.num := by
      rw [head]
      exact not_le.mpr (owned.lt mem_cons_self)
    refine ⟨rest, by rw [head], ?_⟩
    simp [virtqAddChain, chainLoop, virtqAddDescriptor, small]

lemma Owned.afterAdd (owned : Owned s free) (buf : Buffer) (room : s.taken.length < s.vq.num)
    (step : exec s (.addChain [buf]) = some s') : ∃ free', Owned s' free' := by
  obtain ⟨rest, rfl, call⟩ := owned.addChain buf room
  rw [exec, call] at step
  obtain rfl := some.inj step
  have fresh : s.vq.freeHead ∉ rest :=
    (nodup_cons.mp (nodup_append.mp owned.nodup).1).1
  refine ⟨rest, owned.size, owned.bound, owned.leads.2.update _ fresh, ?_, ?_, ?_⟩
  · refine Perm.trans ?_ owned.all
    exact perm_middle
  · intro chain mem
    rcases mem_cons.mp mem with rfl | mem
    · exact ⟨_, rfl⟩
    · exact owned.single chain mem
  · exact ⟨owned.used.idx, owned.used.cells⟩

variable {chain : List Nat}

lemma Owned.of_moved (owned : Owned s free)
    (moved : (s'.built ++ s'.flying ++ s'.done).Perm (s.built ++ s.flying ++ s.done))
    (num : s'.vq.num = s.vq.num) (head : s'.vq.freeHead = s.vq.freeHead)
    (desc : s'.vq.desc = s.vq.desc) (used : Used s') : Owned s' free where
  size := num ▸ owned.size
  bound := num ▸ owned.bound
  leads := by
    rw [head, desc]
    exact owned.leads
  all := by
    rw [num]
    exact (moved.flatten.append_left free).trans owned.all
  single chain mem := owned.single chain (moved.mem_iff.mp mem)
  used := used

lemma Owned.afterKick (owned : Owned s free)
    (step : exec s (.kick chain) = some s') : Owned s' free := by
  rw [exec.eq_def] at step
  cases chain with
  | nil => cases step
  | cons head rest =>
    dsimp only at step
    split at step
    · next mem =>
        obtain rfl := some.inj step
        refine owned.of_moved (Perm.append_right _ ?_) rfl rfl rfl
          ⟨owned.used.idx, owned.used.cells⟩
        exact perm_middle.trans ((perm_cons_erase mem).symm.append_right _)
    · cases step

/-- Cells of a ring whose size divides the range of its index. -/
lemma ring_cell {num k : Nat} (size : num ∣ 65536) (idx : BitVec 16) :
    (idx + BitVec.ofNat 16 k).toNat % num = (idx.toNat + k) % num := by
  rw [BitVec.toNat_add, BitVec.toNat_ofNat, Nat.add_mod_mod]
  exact Nat.mod_mod_of_dvd _ size

lemma length_flatten_single {chains : List (List Nat)}
    (single : ∀ chain ∈ chains, ∃ d, chain = [d]) : chains.flatten.length = chains.length := by
  induction chains with
  | nil => rfl
  | cons chain chains ih =>
    obtain ⟨d, rfl⟩ := single chain mem_cons_self
    have rest := ih fun c mem => single c (mem_cons_of_mem _ mem)
    rw [flatten_cons, length_append, rest, length_singleton, length_cons, add_comm]

section

variable (owned : Owned s free)
include owned

lemma Owned.count : s.built.length + s.flying.length + s.done.length ≤ s.vq.num := by
  have total := owned.all.length_eq
  rw [length_append, System.taken, length_flatten_single owned.single, length_append,
    length_append, length_range] at total
  omega

lemma Owned.afterComplete {len : BitVec 32}
    (step : exec s (.complete chain len) = some s') : Owned s' free := by
  rw [exec.eq_def] at step
  cases chain with
  | nil => cases step
  | cons head rest =>
    dsimp only at step
    split at step
    · next mem =>
        obtain rfl := some.inj step
        have listed := mem_append_left s.done (mem_append_right s.built mem)
        obtain ⟨d, same⟩ := owned.single (head :: rest) listed
        obtain ⟨rfl, rfl⟩ := cons.inj same
        have count := owned.count
        have positive := length_pos_of_mem mem
        have bound := owned.bound
        have idx := owned.used.idx
        have inRange := owned.lt (mem_append_right free (mem_flatten_of_mem listed mem_cons_self))
        have cell : s.vq.usedIdx.toNat % s.vq.num =
            (s.vq.lastUsedIdx.toNat + s.done.length) % s.vq.num := by
          rw [idx, ring_cell owned.size]
        refine owned.of_moved ?_ rfl rfl rfl ⟨?_, ?_⟩
        · rw [append_assoc, append_assoc]
          apply Perm.append_left
          rw [← append_assoc]
          refine perm_append_comm.trans ?_
          exact (perm_cons_erase mem).symm.append_right s.done
        · change s.vq.usedIdx + 1 = s.vq.lastUsedIdx + BitVec.ofNat 16 (s.done ++ [[head]]).length
          rw [idx, length_append, length_singleton, BitVec.ofNat_add, BitVec.add_assoc]
          rfl
        · intro k d placed
          change (update s.vq.usedRing (s.vq.usedIdx.toNat % s.vq.num)
            ⟨BitVec.ofNat 32 head, len⟩ ((s.vq.lastUsedIdx.toNat + k) % s.vq.num)).id.toNat = d
          rw [cell]
          rcases lt_or_ge k s.done.length with before | last
          · rw [getElem?_append_left before] at placed
            have other : (s.vq.lastUsedIdx.toNat + k) % s.vq.num ≠
                (s.vq.lastUsedIdx.toNat + s.done.length) % s.vq.num := by
              intro same
              have close : k % s.vq.num = s.done.length % s.vq.num :=
                Nat.ModEq.add_left_cancel' _ same
              rw [Nat.mod_eq_of_lt (by omega), Nat.mod_eq_of_lt (by omega)] at close
              omega
            rw [update_of_ne other]
            exact owned.used.cells k d placed
          · have inside := (List.getElem?_eq_some_iff.mp placed).1
            rw [length_append, length_singleton] at inside
            obtain rfl : k = s.done.length := le_antisymm (Nat.le_of_lt_succ inside) last
            rw [getElem?_append_right (Nat.le_refl _), Nat.sub_self] at placed
            obtain rfl : head = d := (cons.inj (some.inj placed)).1
            rw [update_self, BitVec.toNat_ofNat]
            rw [virtioVqMaxSize] at bound
            omega
    · cases step

lemma Owned.getBuf_cons {rest : List (List Nat)} (completed : s.done = [d] :: rest) :
    ∃ len vq, virtqGetBuf s.vq = (some d, some len, vq) ∧
      Owned { s with vq := vq, done := rest } (d :: free) := by
  have cell := owned.used.cells 0 d (by rw [completed]; rfl)
  have bound := owned.bound
  have count := owned.count
  have idx := owned.used.idx
  have taken : d ∈ s.taken := by
    refine mem_flatten_of_mem (mem_append_right _ ?_) (mem_singleton_self d)
    rw [completed]
    exact mem_cons_self
  have inRange := owned.lt (mem_append_right free taken)
  have more : s.vq.lastUsedIdx ≠ s.vq.usedIdx := by
    intro same
    have zero : BitVec.ofNat 16 s.done.length = 0#16 := by
      apply (BitVec.add_right_inj s.vq.lastUsedIdx).mp
      rw [BitVec.add_zero, ← idx, same]
    have length := congrArg BitVec.toNat zero
    rw [completed, length_cons] at length count
    rw [virtioVqMaxSize] at bound
    rw [BitVec.toNat_ofNat, Nat.mod_eq_of_lt (by omega)] at length
    cases length
  rw [add_zero] at cell
  have small : ¬(s.vq.usedRing (s.vq.lastUsedIdx.toNat % s.vq.num)).id.toNat ≥ s.vq.num := by
    rw [cell]
    exact not_le.mpr inRange
  have outside : d ∉ free := fun inFree =>
    (nodup_append.mp owned.nodup).2.2 d inFree d taken rfl
  rw [virtqGetBuf, if_neg more]
  rw [if_neg small, cell]
  refine ⟨_, _, rfl, owned.size, owned.bound, ?_, ?_, ?_, ?_, ?_⟩
  · apply owned.leads.push outside
    intro x mem
    have below := owned.lt (mem_append_left _ mem)
    rw [virtioVqMaxSize] at bound
    omega
  · have moved : (free ++ s.taken).Perm (d :: free ++ (s.built ++ s.flying ++ rest).flatten) := by
      have split : s.taken = (s.built ++ s.flying).flatten ++ d :: rest.flatten := by
        rw [System.taken, completed, flatten_append]
        rfl
      have after : (s.built ++ s.flying ++ rest).flatten =
          (s.built ++ s.flying).flatten ++ rest.flatten := flatten_append
      rw [split, after, cons_append, ← append_assoc, ← append_assoc]
      exact perm_middle
    exact moved.symm.trans owned.all
  · intro chain mem
    apply owned.single
    rw [completed]
    rcases mem_append.mp mem with inside | inside
    · exact mem_append_left _ inside
    · exact mem_append_right _ (mem_cons_of_mem _ inside)
  · rw [idx, completed, length_cons, Nat.add_comm, BitVec.ofNat_add, BitVec.add_assoc]
    rfl
  · intro k e placed
    have later := owned.used.cells (k + 1) e (by rw [completed]; exact placed)
    have position : ((s.vq.lastUsedIdx + 1).toNat + k) % s.vq.num =
        (s.vq.lastUsedIdx.toNat + (k + 1)) % s.vq.num := by
      have step := ring_cell (k := 1) owned.size s.vq.lastUsedIdx
      rw [add_comm k 1, ← add_assoc, Nat.add_mod, Nat.add_mod (_ + 1), ← step]
      rfl
    rw [position]
    exact later

lemma Owned.getBuf_nil (empty : s.done = []) : virtqGetBuf s.vq = (none, none, s.vq) := by
  have idx := owned.used.idx
  rw [empty, length_nil, BitVec.add_zero] at idx
  rw [virtqGetBuf, if_pos idx.symm]

lemma Owned.afterGetBuf (step : exec s .getBuf = some s') : ∃ free', Owned s' free' := by
  rw [exec] at step
  cases completed : s.done with
  | nil =>
    rw [owned.getBuf_nil completed] at step
    obtain rfl := some.inj step
    exact ⟨free, owned⟩
  | cons chain rest =>
    obtain ⟨d, rfl⟩ := owned.single chain
      (mem_append_right _ (by rw [completed]; exact mem_cons_self))
    obtain ⟨len, vq, call, after⟩ := owned.getBuf_cons completed
    rw [call, completed] at step
    obtain rfl := some.inj step
    exact ⟨d :: free, after⟩

lemma Owned.step {op : Op} (ok : Admissible s op)
    (step : exec s op = some s') : ∃ free', Owned s' free' := by
  cases op with
  | addChain bufs =>
    obtain ⟨one, room⟩ := ok
    obtain ⟨buf, rfl⟩ := length_eq_one_iff.mp one
    exact owned.afterAdd buf room step
  | kick chain => exact ⟨free, owned.afterKick step⟩
  | complete chain len => exact ⟨free, owned.afterComplete step⟩
  | getBuf => exact owned.afterGetBuf step

end

lemma owned_start {size : Nat} {allocated : Bool}
    (init : virtqInit size allocated = some vq) (power : size ∣ 65536)
    (small : size ≤ virtioVqMaxSize) : Owned (start vq) (range vq.num) := by
  rw [virtqInit, if_neg (not_lt.mpr small)] at init
  split at init
  · cases init
  next usable =>
    obtain rfl := some.inj init
    rw [virtioVqMaxSize] at small
    refine ⟨power, small, ?_, ?_, ?_, ?_, ?_⟩
    · rw [range_eq_range']
      exact leads_range' size 0 (fun i inside => by
        change (if i < size - 1 then BitVec.ofNat 16 (i + 1) else 0).toNat = i + 1
        rw [if_pos (by omega), BitVec.toNat_ofNat, Nat.mod_eq_of_lt (by omega)])
    · change (range size ++ []).Perm (range size)
      rw [append_nil]
    · intro chain impossible
      cases impossible
    · rfl
    · intro k d impossible
      cases impossible

lemma Run.owned {s₀ : System} (run : Run s₀ s) (owned : Owned s₀ free) :
    ∃ free', Owned s free' := by
  induction run with
  | nil => exact ⟨free, owned⟩
  | snoc op _ ok step ih =>
    obtain ⟨free', ownedS⟩ := ih
    exact ownedS.step ok step

end Invariant

/-- **Descriptors have one owner.**  Where each chain has one descriptor and is built while one is
free, a call hands out descriptors of no chain that is still under way, and once a completed chain
is fetched its descriptors are available again. -/
theorem descriptors_owned_of_run {size : Nat} {vq : Virtq} {s : System}
    (init : virtqInit size true = some vq) (small : size ≤ virtioVqMaxSize)
    (power : size ∣ 65536) (run : Run (start vq) s) :
    (∀ bufs, Admissible s (.addChain bufs) →
      ∃ first taken vq', virtqAddChain s.vq bufs = (some first, taken, vq') ∧ taken.Nodup ∧
        ∀ d ∈ taken, ∀ chain ∈ s.built ++ s.flying ++ s.done, d ∉ chain) ∧
    (∀ chain rest s', s.done = chain :: rest → exec s .getBuf = some s' →
      ∀ d ∈ chain, Available s'.vq d) := by
  obtain ⟨free, owned⟩ := run.owned (owned_start init power small)
  constructor
  · intro bufs ok
    obtain ⟨one, room⟩ := ok
    obtain ⟨buf, rfl⟩ := length_eq_one_iff.mp one
    obtain ⟨rest, rfl, call⟩ := owned.addChain buf room
    refine ⟨_, _, _, call, nodup_singleton _, ?_⟩
    intro d taken chain mem inChain
    obtain rfl := mem_singleton.mp taken
    have apart := (nodup_append.mp owned.nodup).2.2 _ mem_cons_self
    exact apart _ (mem_flatten.mpr ⟨chain, mem, inChain⟩) rfl
  · intro chain rest s' completed step d inChain
    obtain ⟨e, rfl⟩ := owned.single chain
      (mem_append_right _ (by rw [completed]; exact mem_cons_self))
    obtain rfl := mem_singleton.mp inChain
    obtain ⟨len, vq', call, after⟩ := owned.getBuf_cons completed
    rw [exec, call, completed] at step
    obtain rfl := some.inj step
    exact after.available mem_cons_self

/-- A queue of one descriptor hands it out twice; and after a chain of two descriptors has
completed on a queue of four, the second of them does not come back. -/
theorem descriptor_reused_and_lost : ((virtqInit 1 true).bind fun vq =>
      (exec (start vq) (.addChain [⟨0, 0, 0⟩])).bind fun s =>
      (exec s (.addChain [⟨0, 0, 0⟩])).map fun s => s.built) = some [[0], [0]] ∧
    ((virtqInit 4 true).bind fun vq =>
      (exec (start vq) (.addChain [⟨0, 0, 0⟩, ⟨0, 0, 0⟩])).bind fun s =>
      (exec s (.kick [0, 1])).bind fun s =>
      (exec s (.complete [0, 1] 0)).bind fun s =>
      (exec s .getBuf).map fun s => (s.built ++ s.flying ++ s.done, handOut 8 s.vq)) =
      some ([], [0, 2, 3, 0, 0, 0, 0, 0]) := by
  decide

def fourDescriptors : Virtq := (virtqInit 4 true).get rfl

/-- Two chains of four descriptors are under way, and the second one has completed first. -/
theorem descriptors_owned_of_run_twice : ∃ s s', Run (start fourDescriptors) s ∧
    s.flying = [[0]] ∧ s.done = [[1]] ∧
    (∃ first taken vq', virtqAddChain s.vq [⟨0, 0, 0⟩] = (some first, taken, vq') ∧
      taken.Nodup ∧ ∀ d ∈ taken, ∀ chain ∈ s.built ++ s.flying ++ s.done, d ∉ chain) ∧
    exec s .getBuf = some s' ∧ Available s'.vq 1 := by
  have init : virtqInit 4 true = some fourDescriptors := rfl
  have add : Run (start fourDescriptors) _ :=
    .snoc (.addChain [⟨0, 0, 0⟩]) .nil ⟨rfl, by decide⟩ rfl
  have again := Run.snoc (.addChain [⟨0, 0, 0⟩]) add ⟨rfl, by decide⟩ rfl
  have kick := Run.snoc (.kick [0]) again trivial rfl
  have both := Run.snoc (.kick [1]) kick trivial rfl
  have complete := Run.snoc (.complete [1] 0) both trivial rfl
  have owned := descriptors_owned_of_run init (by decide) (by decide) complete
  exact ⟨_, _, complete, rfl, rfl, owned.1 [⟨0, 0, 0⟩] ⟨rfl, by decide⟩, rfl,
    owned.2 [1] [] _ rfl rfl 1 (by decide)⟩

end AuroraOS.Virtio
