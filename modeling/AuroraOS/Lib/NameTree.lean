import Mathlib.Data.List.Nodup

/-!
# Trees of named nodes

A store of nodes, each with a name and a list of children.  `NameTree.Ok` says that the store holds
a tree in which siblings have different names; such a tree is known by `child`.
-/

namespace AuroraOS.Lib

open Function List Option Function

structure TreeNode (ι κ : Type) where
  name : κ
  children : List ι

abbrev NameTree (ι κ : Type) := ι → Option (TreeNode ι κ)

namespace NameTree

set_option linter.unusedSectionVars false

variable {ι κ : Type} [DecidableEq ι] [DecidableEq κ]

/-- The child of `m` that has the name. -/
def child (t : NameTree ι κ) (m : ι) (name : κ) : Option ι :=
  (t m).bind fun x => x.children.find? fun c => (t c).map TreeNode.name = some name

/-- The nodes form a tree with the root `r`, in which `depth` grows downwards. -/
structure Ok (t : NameTree ι κ) (r : ι) (depth : ι → Nat) : Prop where
  root : ∃ x, t r = some x
  live : ∀ m x, t m = some x → ∀ c ∈ x.children, ∃ y, t c = some y
  names : ∀ m x, t m = some x → ∀ c ∈ x.children, ∀ c' ∈ x.children,
    (t c).map TreeNode.name = (t c').map TreeNode.name → c = c'
  parent : ∀ m m' x x', t m = some x → t m' = some x' →
    ∀ c ∈ x.children, c ∈ x'.children → m = m'
  nodup : ∀ m x, t m = some x → x.children.Nodup
  below : ∀ m x, t m = some x → ∀ c ∈ x.children, depth m < depth c
  top : depth r = 0

/-- A new leaf `n` below `dir`. -/
def link (t : NameTree ι κ) (dir : ι) (x : TreeNode ι κ) (n : ι) (name : κ) : NameTree ι κ :=
  update (update t n (some { name := name, children := [] })) dir
    (some { x with children := n :: x.children })

/-- The leaf `n` below `dir` taken out. -/
def unlink (t : NameTree ι κ) (dir : ι) (x : TreeNode ι κ) (n : ι) : NameTree ι κ :=
  update (update t dir (some { x with children := x.children.erase n })) n none

variable {t : NameTree ι κ} {root m n dir : ι} {depth : ι → Nat} {name : κ} {x y : TreeNode ι κ}

lemma child_leaf (known : t m = some x) (leaf : x.children = []) : t.child m name = none := by
  rw [child, known, bind_some, leaf]
  rfl

lemma Ok.of_leaves (here : ∃ x, t root = some x)
    (leaves : ∀ m x, t m = some x → x.children = []) (top : depth root = 0) :
    Ok t root depth := by
  have empty : ∀ {m x c}, t m = some x → c ∉ x.children := by
    intro m x c known mem
    rw [leaves m x known] at mem
    cases mem
  refine ⟨here, ?_, ?_, ?_, ?_, ?_, top⟩
  · exact fun m x known c mem => absurd mem (empty known)
  · exact fun m x known c mem => absurd mem (empty known)
  · exact fun m m' x x' known _ c mem => absurd mem (empty known)
  · intro m x known
    rw [leaves m x known]
    exact nodup_nil
  · exact fun m x known c mem => absurd mem (empty known)

section Ok

variable (ok : Ok t root depth)
include ok

lemma Ok.child_iff : t.child m name = some n ↔
    ∃ x, t m = some x ∧ n ∈ x.children ∧ (t n).map TreeNode.name = some name := by
  constructor
  · intro found
    obtain ⟨x, known, found⟩ := bind_eq_some_iff.mp found
    have named := find?_some found
    exact ⟨x, known, mem_of_find?_eq_some found, of_decide_eq_true named⟩
  · rintro ⟨x, known, mem, named⟩
    rw [child, known, bind_some]
    cases found : x.children.find? fun c => (t c).map TreeNode.name = some name with
    | none => exact absurd (decide_eq_true named) (find?_eq_none.mp found n mem)
    | some c =>
      have first := find?_some found
      rw [ok.names m x known c (mem_of_find?_eq_some found) n mem
        ((of_decide_eq_true first).trans named.symm)]

variable (edge : t.child m name = some n)
include edge

lemma Ok.child_depth : depth m < depth n := by
  obtain ⟨x, known, mem, _⟩ := ok.child_iff.mp edge
  exact ok.below m x known n mem

lemma Ok.child_live : ∃ y, t n = some y ∧ y.name = name := by
  obtain ⟨_, _, _, named⟩ := ok.child_iff.mp edge
  exact map_eq_some_iff.mp named

lemma Ok.child_unique {m' : ι} {name' : κ}
    (edge' : t.child m' name' = some n) : m' = m ∧ name' = name := by
  obtain ⟨x, known, mem, named⟩ := ok.child_iff.mp edge
  obtain ⟨x', known', mem', named'⟩ := ok.child_iff.mp edge'
  exact ⟨ok.parent _ _ _ _ known' known n mem' mem, some.inj (named'.symm.trans named)⟩

lemma Ok.child_ne_root : n ≠ root := by
  rintro rfl
  have := ok.child_depth edge
  rw [ok.top] at this
  exact absurd this (Nat.not_lt_zero _)

omit edge

lemma Ok.unused (free : t n = none) (known : t m = some x) : n ∉ x.children ∧ m ≠ n := by
  constructor
  · intro mem
    obtain ⟨y, here⟩ := ok.live m x known _ mem
    rw [free] at here
    cases here
  · rintro rfl
    rw [free] at known
    cases known

end Ok

/-! ## Adding a leaf -/

section Link

lemma link_dir : t.link dir x n name dir = some { x with children := n :: x.children } :=
  update_self ..

lemma link_new (different : dir ≠ n) :
    t.link dir x n name n = some { name := name, children := [] } :=
  (update_of_ne different.symm _ _).trans (update_self ..)

lemma link_other (notDir : m ≠ dir) (notNew : m ≠ n) : t.link dir x n name m = t m :=
  (update_of_ne notDir _ _).trans (update_of_ne notNew _ _)

lemma link_name (name : κ) (known : t dir = some x) (notNew : m ≠ n) :
    (t.link dir x n name m).map TreeNode.name = (t m).map TreeNode.name := by
  by_cases here : m = dir
  · rw [here, link_dir, known]
    rfl
  · rw [link_other here notNew]

lemma link_cases (different : dir ≠ n) {z : TreeNode ι κ} (isAt : t.link dir x n name m = some z) :
    m = dir ∧ z = { x with children := n :: x.children } ∨
      m = n ∧ z = { name := name, children := [] } ∨ m ≠ dir ∧ m ≠ n ∧ t m = some z := by
  by_cases isDir : m = dir
  · rw [isDir, link_dir] at isAt
    exact .inl ⟨isDir, (some.inj isAt).symm⟩
  · by_cases isNew : m = n
    · rw [isNew, link_new different] at isAt
      exact .inr (.inl ⟨isNew, (some.inj isAt).symm⟩)
    · rw [link_other isDir isNew] at isAt
      exact .inr (.inr ⟨isDir, isNew, isAt⟩)

variable (ok : Ok t root depth) (free : t n = none) (known : t dir = some x)
  (absent : t.child dir name = none)
include ok free known absent

omit known absent in
lemma Ok.link_children (name : κ) (different : dir ≠ n) (known : t dir = some x)
    {z : TreeNode ι κ} {c : ι} (isAt : t.link dir x n name m = some z) (inside : c ∈ z.children) :
    m = dir ∧ c = n ∨ (m ≠ n ∧ c ≠ n) ∧ ∃ z', t m = some z' ∧ c ∈ z'.children := by
  have old : ∀ {z'}, t m = some z' → c ∈ z'.children → m ≠ n → (m ≠ n ∧ c ≠ n) ∧
      ∃ z', t m = some z' ∧ c ∈ z'.children := fun known mem notNew =>
    ⟨⟨notNew, fun same => (ok.unused free known).1 (same ▸ mem)⟩, _, known, mem⟩
  rcases link_cases different isAt with ⟨rfl, rfl⟩ | ⟨_, rfl⟩ | ⟨_, notNew, known'⟩
  · rcases mem_cons.mp inside with rfl | mem
    · exact .inl ⟨rfl, rfl⟩
    · exact .inr (old known mem different)
  · cases inside
  · exact .inr (old known' inside notNew)

lemma Ok.link {k : Nat} (deeper : depth dir < k) :
    Ok (t.link dir x n name) root (update depth n k) := by
  have ⟨unlinked, different⟩ := ok.unused free known
  have children := fun {m z c} =>
    ok.link_children free name different known (m := m) (z := z) (c := c)
  have live : ∀ {m y}, m ≠ n → t m = some y → ∃ y, t.link dir x n name m = some y := by
    intro m y notNew here
    by_cases same : m = dir
    · exact ⟨_, (congrArg _ same).trans link_dir⟩
    · exact ⟨y, (link_other same notNew).trans here⟩
  -- the new name is not the name of an old child
  have fresh : ∀ {z c}, t dir = some z → c ∈ z.children → (t c).map TreeNode.name ≠ some name := by
    intro z c here old named
    have edge := ok.child_iff.mpr ⟨z, here, old, named⟩
    rw [absent] at edge
    cases edge
  constructor
  · obtain ⟨r, rootKnown⟩ := ok.root
    exact live (ok.unused free rootKnown).2 rootKnown
  · intro m z isAt c mem
    rcases children isAt mem with ⟨_, rfl⟩ | ⟨⟨_, notNew⟩, z', known', old⟩
    · exact ⟨_, link_new different⟩
    · obtain ⟨y, here⟩ := ok.live m z' known' c old
      exact live notNew here
  · intro m z isAt c mem c' mem' same
    rcases children isAt mem with ⟨rfl, rfl⟩ | ⟨⟨_, notNew⟩, z', known', old⟩ <;>
      rcases children isAt mem' with ⟨_, same'⟩ | ⟨⟨_, notNew'⟩, z'', known'', old'⟩
    · exact same'.symm
    · rw [link_new different, link_name name known notNew'] at same
      exact absurd same.symm (fresh known'' old')
    · subst_vars
      rw [link_new different, link_name name known notNew] at same
      exact absurd same (fresh known' old)
    · rw [link_name name known notNew, link_name name known notNew'] at same
      cases known'.symm.trans known''
      exact ok.names m z' known' c old c' old' same
  · intro m m' z z' isAt isAt' c mem mem'
    rcases children isAt mem with ⟨rfl, rfl⟩ | ⟨⟨_, notNew⟩, _, known', old⟩ <;>
      rcases children isAt' mem' with ⟨rfl, same⟩ | ⟨⟨_, notNew'⟩, _, known'', old'⟩
    · rfl
    · exact absurd rfl notNew'
    · exact absurd same notNew
    · exact ok.parent _ _ _ _ known' known'' c old old'
  · intro m z isAt
    rcases link_cases different isAt with ⟨_, rfl⟩ | ⟨_, rfl⟩ | ⟨_, _, known'⟩
    · exact nodup_cons.mpr ⟨unlinked, ok.nodup dir x known⟩
    · exact nodup_nil
    · exact ok.nodup m z known'
  · intro m z isAt c mem
    rcases children isAt mem with ⟨rfl, rfl⟩ | ⟨⟨notNew, notNew'⟩, z', known', old⟩
    · rw [update_of_ne different, update_self]
      exact deeper
    · rw [update_of_ne notNew, update_of_ne notNew']
      exact ok.below m z' known' c old
  · obtain ⟨r, rootKnown⟩ := ok.root
    exact (update_of_ne (ok.unused free rootKnown).2 ..).trans ok.top

lemma Ok.child_link {m' n' : ι} {name' : κ} : (t.link dir x n name).child m' name' = some n' ↔
      t.child m' name' = some n' ∨ m' = dir ∧ name' = name ∧ n' = n := by
  have ⟨_, different⟩ := ok.unused free known
  rw [(ok.link free known absent (Nat.lt_succ_self _)).child_iff, ok.child_iff]
  constructor
  · rintro ⟨z, isAt, mem, named⟩
    rcases ok.link_children free name different known isAt mem with
      ⟨rfl, rfl⟩ | ⟨⟨_, notNew⟩, z', known', old⟩
    · rw [link_new different] at named
      exact .inr ⟨rfl, (some.inj named).symm, rfl⟩
    · rw [link_name name known notNew] at named
      exact .inl ⟨z', known', old, named⟩
  · rintro (⟨z, known', mem, named⟩ | ⟨rfl, rfl, rfl⟩)
    · obtain ⟨y, here, _⟩ := map_eq_some_iff.mp named
      rw [← link_name name known (ok.unused free here).2] at named
      by_cases isDir : m' = dir
      · subst isDir
        cases known.symm.trans known'
        exact ⟨_, link_dir, mem_cons_of_mem _ mem, named⟩
      · exact ⟨z, (link_other isDir (ok.unused free known').2).trans known', mem, named⟩
    · exact ⟨_, link_dir, mem_cons_self, by rw [link_new different]; rfl⟩

end Link

/-! ## Taking a leaf away -/

section Unlink

lemma unlink_self : t.unlink dir x n n = none := update_self ..

lemma unlink_dir (different : dir ≠ n) :
    t.unlink dir x n dir = some { x with children := x.children.erase n } :=
  (update_of_ne different _ _).trans (update_self ..)

lemma unlink_other (notNode : m ≠ n) (notDir : m ≠ dir) : t.unlink dir x n m = t m :=
  (update_of_ne notNode _ _).trans (update_of_ne notDir _ _)

lemma unlink_name (known : t dir = some x) (different : dir ≠ n) (notNode : m ≠ n) :
    (t.unlink dir x n m).map TreeNode.name = (t m).map TreeNode.name := by
  by_cases here : m = dir
  · rw [here, unlink_dir different, known]
    rfl
  · rw [unlink_other notNode here]

lemma unlink_cases (different : dir ≠ n) {z : TreeNode ι κ} (isAt : t.unlink dir x n m = some z) :
    m ≠ n ∧ (m = dir ∧ z = { x with children := x.children.erase n } ∨ m ≠ dir ∧ t m = some z) := by
  by_cases gone : m = n
  · rw [gone, unlink_self] at isAt
    cases isAt
  · by_cases isDir : m = dir
    · rw [isDir, unlink_dir different] at isAt
      exact ⟨gone, .inl ⟨isDir, (some.inj isAt).symm⟩⟩
    · rw [unlink_other gone isDir] at isAt
      exact ⟨gone, .inr ⟨isDir, isAt⟩⟩

variable (ok : Ok t root depth) (known : t dir = some x) (edge : t.child dir name = some n)
include ok known edge

lemma Ok.child_member : n ∈ x.children ∧ dir ≠ n := by
  obtain ⟨x', known', mem, _⟩ := ok.child_iff.mp edge
  cases known.symm.trans known'
  refine ⟨mem, fun same => ?_⟩
  have := ok.below dir x known n mem
  rw [same] at this
  exact Nat.lt_irrefl _ this

lemma Ok.unlink_children {z : TreeNode ι κ} {c : ι} (isAt : t.unlink dir x n m = some z)
    (inside : c ∈ z.children) : ∃ z', t m = some z' ∧ c ∈ z'.children ∧ c ≠ n := by
  have ⟨mem, different⟩ := ok.child_member known edge
  rcases unlink_cases different isAt with ⟨_, ⟨rfl, rfl⟩ | ⟨notDir, known'⟩⟩
  · have := (ok.nodup m x known).mem_erase_iff.mp inside
    exact ⟨x, known, this.2, this.1⟩
  · refine ⟨z, known', inside, ?_⟩
    rintro rfl
    exact notDir (ok.parent _ _ _ _ known' known c inside mem)

lemma Ok.unlink : Ok (t.unlink dir x n) root depth := by
  have ⟨mem, different⟩ := ok.child_member known edge
  constructor
  · by_cases isDir : root = dir
    · exact ⟨_, (congrArg _ isDir).trans (unlink_dir different)⟩
    · obtain ⟨r, rootKnown⟩ := ok.root
      exact ⟨r, (unlink_other (ok.child_ne_root edge).symm isDir).trans rootKnown⟩
  · intro m z isAt c inside
    obtain ⟨z', known', inside', notNode⟩ := ok.unlink_children known edge isAt inside
    obtain ⟨u, there⟩ := ok.live m z' known' c inside'
    by_cases isDir : c = dir
    · exact ⟨_, (congrArg _ isDir).trans (unlink_dir different)⟩
    · exact ⟨u, (unlink_other notNode isDir).trans there⟩
  · intro m z isAt c inside c' inside' same
    obtain ⟨z', known', old, notNode⟩ := ok.unlink_children known edge isAt inside
    obtain ⟨z'', known'', old', notNode'⟩ := ok.unlink_children known edge isAt inside'
    cases known'.symm.trans known''
    rw [unlink_name known different notNode, unlink_name known different notNode'] at same
    exact ok.names m z' known' c old c' old' same
  · intro m m' z z' isAt isAt' c inside inside'
    obtain ⟨u, known', old, _⟩ := ok.unlink_children known edge isAt inside
    obtain ⟨u', known'', old', _⟩ := ok.unlink_children known edge isAt' inside'
    exact ok.parent _ _ _ _ known' known'' c old old'
  · intro m z isAt
    rcases unlink_cases different isAt with ⟨_, ⟨rfl, rfl⟩ | ⟨_, known'⟩⟩
    · exact (ok.nodup m x known).erase n
    · exact ok.nodup m z known'
  · intro m z isAt c inside
    obtain ⟨z', known', old, _⟩ := ok.unlink_children known edge isAt inside
    exact ok.below m z' known' c old
  · exact ok.top

lemma Ok.child_unlink (here : t n = some y) (leaf : y.children = []) {m' n' : ι} {name' : κ} :
    (t.unlink dir x n).child m' name' = some n' ↔ t.child m' name' = some n' ∧ n' ≠ n := by
  have ⟨mem, different⟩ := ok.child_member known edge
  rw [(ok.unlink known edge).child_iff, ok.child_iff]
  constructor
  · rintro ⟨z, isAt, inside, named⟩
    obtain ⟨z', known', old, notNode⟩ := ok.unlink_children known edge isAt inside
    rw [unlink_name known different notNode] at named
    exact ⟨⟨z', known', old, named⟩, notNode⟩
  · rintro ⟨⟨z, known', inside, named⟩, notNode⟩
    rw [← unlink_name known different notNode] at named
    have stays : m' ≠ n := by
      rintro rfl
      cases here.symm.trans known'
      rw [leaf] at inside
      cases inside
    by_cases isDir : m' = dir
    · subst isDir
      cases known.symm.trans known'
      exact ⟨_, unlink_dir different, (mem_erase_of_ne notNode).mpr inside, named⟩
    · exact ⟨z, (unlink_other stays isDir).trans known', inside, named⟩

end Unlink

end NameTree

end AuroraOS.Lib
