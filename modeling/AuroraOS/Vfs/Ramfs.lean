import AuroraOS.Lib.NameTree
import AuroraOS.Vfs.Model

/-!
# ramfs as a tree

`Ramfs.Ok` says that the nodes form a tree in which siblings have different names.  `walk` follows
its edges along a path, without any cache: this is what a lookup is to find.
-/

namespace AuroraOS.Vfs

open Lib Function List Option

namespace Ramfs

def tree (fs : Ramfs) : NameTree NodeId Name :=
  fun n => (fs.nodes n).map fun x => { name := x.name, children := x.children }

def child (fs : Ramfs) (m : NodeId) (name : Name) : Option NodeId := fs.tree.child m name

structure Ok (fs : Ramfs) (depth : NodeId → Nat) : Prop where
  tree : fs.tree.Ok fs.root depth
  files : ∀ m x, fs.nodes m = some x → x.isDir = false → x.children = []
  fresh : ∀ n, fs.next ≤ n → fs.nodes n = none

/-- The components of a path followed from a node, with the rules of `vfs_lookup` for long
names and for the names `.` and `..`. -/
def walkFrom (fs : Ramfs) : NodeId → List Name → Option NodeId
  | n, [] => some n
  | n, t :: ts =>
    if 255 < t.length then none
    else if t = [dot, dot] then none
    else if t = [dot] then walkFrom fs n ts
    else (fs.child n t).bind fun c => walkFrom fs c ts

def walk (fs : Ramfs) (path : Name) : Option NodeId :=
  if path.head? = some slash ∧ path.length ≤ 4096 then
    fs.walkFrom fs.root (State.tokens path.tail)
  else none

variable {fs fs' : Ramfs} {depth : NodeId → Nat} {m n dir : NodeId} {name : Name} {x y : Node}
  {done : Bool}

lemma node_eq (known : fs.nodes n = some x) : fs.node n = .ok x := by
  rw [node, known]

lemma node_ok (read : fs.node n = .ok x) : fs.nodes n = some x := by
  unfold node at read
  split at read
  · cases read
    assumption
  · cases read

lemma tree_eq (known : fs.nodes n = some x) :
    fs.tree n = some { name := x.name, children := x.children } := by
  rw [tree, known]
  rfl

lemma tree_none (free : fs.nodes n = none) : fs.tree n = none := by
  rw [tree, free]
  rfl

lemma nodes_of_tree {e : TreeNode NodeId Name} (known : fs.tree n = some e) :
    ∃ x, fs.nodes n = some x ∧ x.name = e.name ∧ x.children = e.children := by
  obtain ⟨x, here, rfl⟩ := map_eq_some_iff.mp known
  exact ⟨x, here, rfl, rfl⟩

lemma tree_name : (fs.tree n).map TreeNode.name = (fs.nodes n).map Node.name := by
  unfold tree
  cases fs.nodes n <;> rfl

lemma find_eq {cs : List NodeId} (live : ∀ c ∈ cs, ∃ y, fs.nodes c = some y) :
    fs.find name cs = .ok (cs.find? fun c => (fs.tree c).map TreeNode.name = some name) := by
  induction cs with
  | nil => rfl
  | cons c cs ih =>
    obtain ⟨y, known⟩ := live c mem_cons_self
    have rest := ih fun c' mem => live c' (mem_cons_of_mem _ mem)
    rw [find, node_eq known, find?_cons, tree_name, known]
    by_cases same : y.name = name
    · simp [Except.bind, same]
    · simp [Except.bind, same, rest]

section Ok

variable (ok : Ok fs depth)
include ok

lemma Ok.find_children (known : fs.nodes m = some x) :
    fs.find name x.children = .ok (fs.child m name) := by
  rw [find_eq, child, NameTree.child, tree_eq known]
  · rfl
  · intro c mem
    obtain ⟨e, here⟩ := ok.tree.live m _ (tree_eq known) c mem
    obtain ⟨y, here, _⟩ := nodes_of_tree here
    exact ⟨y, here⟩

lemma Ok.lookup_eq (known : fs.nodes m = some x) : fs.lookup m name = .ok (fs.child m name) := by
  rw [lookup, node_eq known]
  exact ok.find_children known

lemma Ok.child_live (edge : fs.child m name = some n) :
    ∃ x, fs.nodes n = some x ∧ x.name = name := by
  obtain ⟨e, known, rfl⟩ := ok.tree.child_live edge
  obtain ⟨x, here, named, _⟩ := nodes_of_tree known
  exact ⟨x, here, named⟩

lemma Ok.ne_fresh (known : fs.nodes m = some x) (high : fs.next ≤ n) : n ≠ m := by
  rintro rfl
  rw [ok.fresh n high] at known
  cases known

lemma Ok.root_live : ∃ x, fs.nodes fs.root = some x := by
  obtain ⟨e, known⟩ := ok.tree.root
  obtain ⟨x, here, _⟩ := nodes_of_tree known
  exact ⟨x, here⟩

lemma Ok.child_file (known : fs.nodes m = some x) (file : x.isDir = false) :
    fs.child m name = none :=
  NameTree.child_leaf (tree_eq known) (ok.files m x known file)

end Ok

/-! ## The operations -/

lemma link_nodes {new : Node} : (fs.link dir x new).nodes =
    update (update fs.nodes fs.next (some new)) dir
      (some { x with children := fs.next :: x.children }) := rfl

lemma unlinkNode_nodes : (fs.unlinkNode dir x n).nodes = update
    (update fs.nodes dir (some { x with children := x.children.erase n })) n none := rfl

lemma link_tree {new : Node} (empty : new.children = []) : (fs.link dir x new).tree =
      fs.tree.link dir { name := x.name, children := x.children } fs.next new.name := by
  refine (comp_update (Option.map _) (update fs.nodes fs.next (some new)) dir _).trans ?_
  rw [comp_update, map_some, empty]
  rfl

lemma unlinkNode_tree : (fs.unlinkNode dir x n).tree =
    fs.tree.unlink dir { name := x.name, children := x.children } n := by
  refine (comp_update (Option.map _) (update fs.nodes dir _) n none).trans ?_
  rw [comp_update]
  rfl

section Make

variable {new : Node} (ok : Ok fs depth) (known : fs.nodes dir = some x)
include ok known

lemma Ok.link (isDir : x.isDir = true) (absent : fs.child dir new.name = none)
    (empty : new.children = []) :
    Ok (fs.link dir x new) (update depth fs.next (depth dir + 1)) := by
  have free : fs.nodes fs.next = none := ok.fresh _ (Nat.le_refl _)
  have unused : fs.tree fs.next = none := tree_none free
  refine ⟨?_, ?_, ?_⟩
  · rw [link_tree empty]
    exact ok.tree.link unused (tree_eq known) absent (Nat.lt_succ_self _)
  · intro m z at' file
    by_cases here : m = dir
    · rw [here, link_nodes, update_self] at at'
      cases at'
      exact absurd (isDir.symm.trans file) nofun
    rw [link_nodes, update_of_ne here] at at'
    by_cases isNew : m = fs.next
    · rw [isNew, update_self] at at'
      cases at'
      exact empty
    · rw [update_of_ne isNew] at at'
      exact ok.files m z at' file
  · intro k high
    have above : fs.next < k := high
    rw [link_nodes, update_of_ne (ok.ne_fresh known (Nat.le_of_lt above)),
      update_of_ne (Nat.ne_of_gt above)]
    exact ok.fresh k (Nat.le_of_lt above)

lemma Ok.unlinkNode (edge : fs.child dir name = some n) : Ok (fs.unlinkNode dir x n) depth := by
  refine ⟨?_, ?_, ?_⟩
  · rw [unlinkNode_tree]
    exact ok.tree.unlink (tree_eq known) edge
  · intro m z at' file
    by_cases gone : m = n
    · rw [gone, unlinkNode_nodes, update_self] at at'
      cases at'
    rw [unlinkNode_nodes, update_of_ne gone] at at'
    by_cases isDir : m = dir
    · rw [isDir, update_self] at at'
      cases at'
      rw [ok.files dir x known file]
      rfl
    · rw [update_of_ne isDir] at at'
      exact ok.files m z at' file
  · intro k high
    by_cases gone : k = n
    · rw [gone, unlinkNode_nodes, update_self]
    · rw [unlinkNode_nodes, update_of_ne gone, update_of_ne (ok.ne_fresh known high)]
      exact ok.fresh k high

end Make

lemma make_spec {isDir : Bool} (ok : Ok fs depth)
    (ran : fs.make isDir dir name = .ok (fs', done)) :
    (∃ depth', Ok fs' depth') ∧ fs'.root = fs.root ∧
      ∀ m name' n, fs.child m name' = some n → fs'.child m name' = some n := by
  unfold make at ran
  cases read : fs.node dir with
  | error e => rw [read] at ran; cases ran
  | ok x =>
    have known := node_ok read
    rw [read] at ran
    simp only [Except.bind] at ran
    split at ran
    · next isDir' =>
        rw [ok.find_children known] at ran
        cases found : fs.child dir name with
        | some c =>
          rw [found] at ran
          cases ran
          exact ⟨⟨depth, ok⟩, rfl, fun _ _ _ edge => edge⟩
        | none =>
          rw [found] at ran
          cases ran
          have unused : fs.tree fs.next = none := tree_none (ok.fresh _ (Nat.le_refl _))
          refine ⟨⟨_, ok.link known isDir' found rfl⟩, rfl, ?_⟩
          intro m name' n edge
          rw [child, link_tree rfl]
          exact (ok.tree.child_link unused (tree_eq known) found).mpr (.inl edge)
    · cases ran
      exact ⟨⟨depth, ok⟩, rfl, fun _ _ _ edge => edge⟩

def removed (fs : Ramfs) (removable : Node → Bool) (dir : NodeId) (name : Name) : Option NodeId :=
  (fs.child dir name).filter fun n => (fs.nodes n).any removable

lemma remove_spec {removable : Node → Bool} (ok : Ok fs depth)
    (leaf : ∀ y, removable y = true → y.isDir = false ∨ y.children = [])
    (ran : fs.remove removable dir name = .ok (fs', done)) :
    Ok fs' depth ∧ fs'.root = fs.root ∧
      ∀ m name' n, fs.child m name' = some n → fs.removed removable dir name ≠ some n →
        fs'.child m name' = some n := by
  unfold remove at ran
  cases read : fs.node dir with
  | error e => rw [read] at ran; cases ran
  | ok x =>
    have known := node_ok read
    rw [read] at ran
    simp only [Except.bind] at ran
    split at ran
    · rw [ok.find_children known] at ran
      cases found : fs.child dir name with
      | none =>
        rw [found] at ran
        cases ran
        exact ⟨ok, rfl, fun _ _ _ edge _ => edge⟩
      | some c =>
        obtain ⟨y, here, _⟩ := ok.child_live found
        rw [found] at ran
        simp only [node_eq here] at ran
        split at ran
        · next may =>
            cases ran
            refine ⟨ok.unlinkNode known found, rfl, ?_⟩
            have empty : y.children = [] := (leaf y may).elim (ok.files c y here) id
            intro m name' n edge other
            rw [child, unlinkNode_tree]
            refine (ok.tree.child_unlink (tree_eq known) found (tree_eq here) empty).mpr ⟨edge, ?_⟩
            rintro rfl
            refine other ?_
            rw [removed, found, filter_some, here, any_some, may]
            rfl
        · cases ran
          exact ⟨ok, rfl, fun _ _ _ edge _ => edge⟩
    · cases ran
      exact ⟨ok, rfl, fun _ _ _ edge _ => edge⟩

lemma write_spec {offset : Nat} {buf : List UInt8} (ok : Ok fs depth)
    (ran : fs.write n offset buf = .ok fs') :
    Ok fs' depth ∧ fs'.root = fs.root ∧ fs'.tree = fs.tree := by
  unfold write at ran
  cases read : fs.node n with
  | error e => rw [read] at ran; cases ran
  | ok x =>
    have known := node_ok read
    rw [read] at ran
    cases ran
    have same : tree { fs with
        nodes := update fs.nodes n
          (some { x with data := written x.data offset buf }) } = fs.tree :=
      (comp_update (Option.map _) fs.nodes n _).trans (update_eq_self_iff.mpr (tree_eq known).symm)
    refine ⟨⟨?_, ?_, ?_⟩, rfl, same⟩
    · rw [same]
      exact ok.tree
    · intro m z at' file
      dsimp only at at'
      by_cases here : m = n
      · rw [here, update_self] at at'
        cases at'
        exact ok.files n x known file
      · rw [update_of_ne here] at at'
        exact ok.files m z at' file
    · exact fun k high => (update_of_ne (ok.ne_fresh known high) ..).trans (ok.fresh k high)

end Ramfs

end AuroraOS.Vfs
