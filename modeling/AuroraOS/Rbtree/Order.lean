import AuroraOS.Rbtree.Erase
import AuroraOS.Rbtree.Walk

/-!
# Walking the tree in order

`rb_find_min` finds the first node of the tree and `rb_next` the node behind another one, where the
order is that of the keys.
-/

namespace AuroraOS.Rbtree

open Lib Lib.RedBlack

variable {s : RbHeap} {t : ItemTree} {ctx : ItemCtx} {fuel : Nat}

variable {up found : Option Nat}

lemma Rep.key {node : Nat → RbNode} (rep : Rep node t up) :
    ∀ x ∈ t.toList, (node x.addr).key = x.key := by
  induction t generalizing up with
  | nil => simp
  | node c l y r ihl ihr =>
    intro x mem
    simp only [RbTree.toList_node, List.mem_append, List.mem_cons] at mem
    rcases mem with inLeft | rfl | inRight
    · exact ihl rep.2.1 x inLeft
    · rw [rep.1]
      rfl
    · exact ihr rep.2.2 x inRight

lemma IsRbTree.ordered (tree : IsRbTree s t) :
    (addrs t).Pairwise fun a b => (s.node a).key ≤ (s.node b).key := by
  refine List.pairwise_map.mpr (tree.sorted.imp_of_mem fun inX inY le => ?_)
  rwa [tree.linked.tree.key _ inX, tree.linked.tree.key _ inY]

lemma leftmost_first {c : Color} {l r : ItemTree} {x : Item}
    (focus : Focus s ctx (.node c l x r)) :
    ∃ first, (addrs (.node c l x r)).head? = some first ∧
      ∀ fuel, l.toList.length < fuel → leftmost s fuel x.addr = some first := by
  obtain ⟨spine, cy, y, yr, same, sides, walk⟩ := leftmost_spec focus
  refine ⟨y.addr, ?_, walk⟩
  rw [same, addrs, toList_plug, before_of_left sides]
  rfl

lemma rbFindMin_spec (focus : Focus s [] t) (enough : t.toList.length < fuel) :
    rbFindMin s fuel = some (addrs t).head? := by
  have root : s.root = ptr t := focus.path
  rw [rbFindMin, root]
  cases t with
  | nil => rfl
  | node c l x r =>
    obtain ⟨first, isHead, walk⟩ := leftmost_first focus
    simp only [RbTree.toList_node, List.length_append] at enough
    simp only [ptr, walk fuel (by omega), isHead, Option.map_some]

variable {a : Nat}

lemma climb_spec (focus : Focus s ctx t) (root : ptr t = some a) (enough : ctx.length < fuel) :
    climb s fuel a (parentOf ctx) = some ((after ctx).map Item.addr).head? := by
  induction ctx generalizing t a fuel with
  | nil =>
    cases fuel with
    | zero => cases enough
    | succ fuel => rfl
  | cons f ctx ih =>
    cases fuel with
    | zero => cases enough
    | succ fuel =>
      have isRight : some a = (s.node f.label.addr).right ↔ f.side = .right :=
        focus.child_iff (d := .right) root
      have above : Focus s ctx (f.fill t) := focus_join.mpr focus
      have top : ptr (f.fill t) = some f.label.addr := ptr_join ..
      rw [parentOf, climb]
      split
      · rw [above.parent top, ih above top (Nat.lt_of_succ_lt_succ enough), after, isRight.mp ‹_›]
      · cases side : f.side with
        | left => simp [after, side]
        | right => exact absurd (isRight.mpr side) ‹_›

lemma length_le_before_after (ctx : ItemCtx) :
    ctx.length ≤ (before ctx).length + (after ctx).length := by
  induction ctx with
  | nil => exact Nat.zero_le _
  | cons f ctx ih =>
    simp only [before, after]
    cases f.side <;> simp <;> omega

lemma rbNext_spec {front back : List Nat} (focus : Focus s [] t)
    (place : addrs t = front ++ a :: back) (enough : t.toList.length < fuel) :
    rbNext s a fuel = some back.head? := by
  obtain ⟨x, mem, rfl⟩ : ∃ x ∈ t.toList, x.addr = a := by
    refine List.mem_map.mp (show a ∈ addrs t from ?_)
    simp [place]
  obtain ⟨ctx, c, l, r, rfl⟩ := exists_plug_of_mem mem
  -- no address occurs twice, so that both ways to split the list at `x` are the same
  have behind : back = (r.toList ++ after ctx).map Item.addr := by
    have nodup : (addrs (plug ctx (.node c l x r))).Nodup := (List.nodup_append.mp focus.nodup).1
    rw [place] at nodup
    have order : addrs (plug ctx (.node c l x r)) =
        (before ctx ++ l.toList).map Item.addr ++
          x.addr :: (r.toList ++ after ctx).map Item.addr := by
      simp [addrs, toList_plug]
    obtain ⟨fresh, -⟩ := List.nodup_cons.mp (List.nodup_middle.mp nodup)
    rw [List.mem_append, not_or] at fresh
    exact ((List.append_cons_inj_of_notMem fresh.1 fresh.2).mp (place.symm.trans order)).2.2
  have here := focus.narrow
  have size := length_le_before_after ctx
  simp only [toList_plug, RbTree.toList_node, List.length_append, List.length_cons] at enough
  rw [rbNext, show (s.node x.addr).right = ptr r by rw [here.tree.1]; rfl, behind]
  cases r with
  | nil =>
    rw [here.parent rfl]
    exact climb_spec here rfl (by omega)
  | node c' l' x' r' =>
    have inRight : Focus s (⟨.right, c, x, l⟩ :: ctx) (.node c' l' x' r') := by
      have mirrored : Focus s ctx (RbTree.join .right c (.node c' l' x' r') x l) := here
      exact focus_join.mp mirrored
    obtain ⟨first, isHead, walk⟩ := leftmost_first inRight
    simp only [RbTree.toList_node, List.length_append] at enough
    rw [List.map_append, ← addrs, List.head?_append, isHead]
    simp only [ptr, walk fuel (by omega)]
    rfl

lemma visit_spec {front back : List Nat} (focus : Focus s [] t)
    (place : addrs t = front ++ back) (enough : t.toList.length + back.length < fuel) :
    visit s fuel back.head? = some back := by
  induction back generalizing front fuel with
  | nil =>
    cases fuel with
    | zero => cases enough
    | succ fuel => rfl
  | cons a back ih =>
    cases fuel with
    | zero => cases enough
    | succ fuel =>
      simp only [List.length_cons] at enough
      have behind : addrs t = (front ++ [a]) ++ back := by simp [place]
      rw [List.head?_cons, visit, rbNext_spec focus place (by omega), Option.bind_some,
        ih behind (by omega), Option.map_some]

lemma inOrder_spec (focus : Focus s [] t) : Returns (inOrder s) (addrs t) := by
  refine ⟨t.toList.length + (addrs t).length + 1, fun fuel enough => ?_⟩
  rw [inOrder, rbFindMin_spec focus (by omega), Option.bind_some]
  exact visit_spec focus (List.nil_append _).symm enough

lemma search_step {key y : Nat} {next : Option Nat} {found : Option Nat}
    (step : ∀ fuel, search s key (fuel + 1) (some y) = search s key fuel next)
    (rest : Returns (search s key · next) found) : Returns (search s key · (some y)) found := by
  obtain ⟨bound, rest⟩ := rest
  exact .of_succ bound fun fuel enough => (step fuel).trans (rest fuel enough)

lemma search_spec (key : Nat) (rep : Rep s.node t up) (sorted : Sorted t.toList) :
    (∃ x ∈ t.toList, x.key = key ∧ Returns (search s key · (ptr t)) (some x.addr)) ∨
      (∀ x ∈ t.toList, x.key ≠ key) ∧ Returns (search s key · (ptr t)) none := by
  induction t generalizing up with
  | nil => exact .inr ⟨by simp, .of_succ 0 fun _ _ => rfl⟩
  | node c l y r ihl ihr =>
    obtain ⟨here, left, right⟩ := rep
    simp only [Sorted, RbTree.toList_node, List.pairwise_append, List.pairwise_cons,
      List.mem_cons, forall_eq_or_imp] at sorted
    obtain ⟨sortedL, ⟨yr, sortedR⟩, ly⟩ := sorted
    simp only [RbTree.toList_node, List.mem_append, List.mem_cons]
    rcases Nat.lt_trichotomy key y.key with low | same | high
    · have step (fuel : Nat) : search s key (fuel + 1) (some y.addr) =
          search s key fuel (ptr l) := by simp [search, here, cell, low]
      rcases ihl left sortedL with ⟨x, mem, isKey, found⟩ | ⟨absent, none⟩
      · exact .inl ⟨x, .inl mem, isKey, search_step step found⟩
      · refine .inr ⟨?_, search_step step none⟩
        rintro x (inL | rfl | inR) rfl
        · exact absent x inL rfl
        · omega
        · exact absurd (yr x inR) (by omega)
    · exact .inl ⟨y, .inr (.inl rfl), same.symm, .of_succ 0 fun _ _ => by
        simp [search, here, same, ptr]⟩
    · have step (fuel : Nat) : search s key (fuel + 1) (some y.addr) =
          search s key fuel (ptr r) := by simp [search, here, cell, high, Nat.lt_asymm high]
      rcases ihr right sortedR with ⟨x, mem, isKey, found⟩ | ⟨absent, none⟩
      · exact .inl ⟨x, .inr (.inr mem), isKey, search_step step found⟩
      · refine .inr ⟨?_, search_step step none⟩
        rintro x (inL | rfl | inR) rfl
        · exact absurd (ly x inL).1 (by omega)
        · omega
        · exact absent x inR rfl

lemma eq_erase {xs ys : List Nat} (perm : xs.Perm (a :: ys)) (order : ys.Sublist xs)
    (nodup : xs.Nodup) : ys = xs.erase a := by
  have fresh : a ∉ ys := (List.nodup_cons.mp (perm.nodup_iff.mp nodup)).1
  have rest : (xs.erase a).Perm ys := by simpa using perm.erase a
  refine List.Sublist.eq_of_length ?_ rest.length_eq.symm
  rw [← List.erase_of_not_mem fresh]
  exact order.erase a

/-- Where `rb_insert` puts a node in the order of the tree, that `rb_erase` takes its node out, what
`rb_find_min` and `rb_find` return, and that iteration lists the nodes in that order. -/
theorem reachable_inOrder {s₀ : RbHeap} {nodes : List Nat}
    (reach : Relation.ReflTransGen Step (rbInit s₀, []) (s, nodes)) :
    ∃ t, IsRbTree s t ∧ (addrs t).Perm nodes ∧ Returns (inOrder s) (addrs t) ∧
      Returns (rbFindMin s) (addrs t).head? ∧
      (∀ key, (∃ a ∈ nodes, (s.node a).key = key ∧ Returns (rbFind s key) (some a)) ∨
        (∀ a ∈ nodes, (s.node a).key ≠ key) ∧ Returns (rbFind s key) none) ∧
      (∀ a ∉ nodes, ∃ s' front back, Returns (rbInsert s a) s' ∧ addrs t = front ++ back ∧
        Returns (inOrder s') (front ++ a :: back) ∧
        (∀ b ∈ front, (s.node b).key ≤ (s.node a).key) ∧
        ∀ b ∈ back, (s.node a).key < (s.node b).key) ∧
      ∀ a ∈ nodes, ∃ s', Returns (rbErase s a) (false, s') ∧
        Returns (inOrder s') ((addrs t).erase a) := by
  obtain ⟨t, tree, same⟩ : HoldsTree s nodes := holdsTree_of_reach reach (holdsTree_rbInit s₀)
  have keys := tree.linked.tree.key
  refine ⟨t, tree, same, inOrder_spec tree.linked, ⟨_, fun _ => rbFindMin_spec tree.linked⟩,
    fun key => ?_, fun a fresh => ?_, fun a mem => ?_⟩
  · rw [show rbFind s key = (search s key · (ptr t)) by rw [← tree.linked.path]; rfl]
    rcases search_spec key tree.linked.tree tree.sorted with
      ⟨x, mem, isKey, found⟩ | ⟨absent, none⟩
    · exact .inl ⟨x.addr, same.mem_iff.mp (List.mem_map_of_mem mem), by rwa [keys x mem], found⟩
    · refine .inr ⟨fun a mem => ?_, none⟩
      obtain ⟨x, inTree, rfl⟩ := List.mem_map.mp (same.mem_iff.mpr mem)
      rw [keys x inTree]
      exact absent x inTree
  · obtain ⟨s', t', front, back, run, tree', old, new, low, high⟩ :=
      rbInsert_spec tree fun h => fresh (same.mem_iff.mp h)
    refine ⟨s', front.map Item.addr, back.map Item.addr, run, ?_, ?_, ?_, ?_⟩
    · rw [addrs, old, List.map_append]
    · have order := inOrder_spec tree'.linked
      rwa [addrs, new, List.map_append, List.map_cons] at order
    · intro b mem
      obtain ⟨x, inFront, rfl⟩ := List.mem_map.mp mem
      rw [keys x (by simp [old, inFront])]
      exact low x inFront
    · intro b mem
      obtain ⟨x, inBack, rfl⟩ := List.mem_map.mp mem
      rw [keys x (by simp [old, inBack])]
      exact high x inBack
  · obtain ⟨s', t', z, run, tree', rfl, items, order⟩ := rbErase_spec tree (same.mem_iff.mpr mem)
    refine ⟨s', run, ?_⟩
    have nodup : (addrs t).Nodup := (List.nodup_append.mp tree.linked.nodup).1
    have gone : addrs t' = (addrs t).erase z.addr :=
      eq_erase (items.map Item.addr) (order.map Item.addr) nodup
    exact gone ▸ inOrder_spec tree'.linked

lemma reach_nodup (s₀ : RbHeap) {nodes : List Nat} (nodup : nodes.Nodup) :
    ∃ s, Relation.ReflTransGen Step (rbInit s₀, []) (s, nodes) := by
  induction nodes with
  | nil => exact ⟨_, .refl⟩
  | cons a nodes ih =>
    obtain ⟨fresh, rest⟩ := List.nodup_cons.mp nodup
    obtain ⟨s, reach⟩ := ih rest
    obtain ⟨s', run, -⟩ := (holdsTree_of_reach reach (holdsTree_rbInit s₀)).insert fresh
    exact ⟨s', reach.tail (.insert fresh run)⟩

/-- Nodes whose keys are not in the order of their addresses, some of them equal. -/
def mixed : RbHeap := ⟨fun a => ⟨.red, none, none, none, a * 5 % 6⟩, none⟩

/-- Seven nodes are inserted, and one of them is erased. -/
theorem reachable_inOrder_seven : ∃ s order,
    Relation.ReflTransGen Step (rbInit mixed, []) (s, [7, 6, 5, 4, 3, 2, 1]) ∧
      order.Perm [7, 6, 5, 4, 3, 2, 1] ∧ Returns (inOrder s) order ∧
      Returns (rbFindMin s) order.head? ∧ ∃ s', Returns (rbErase s 4) (false, s') ∧
        Returns (inOrder s') (order.erase 4) := by
  obtain ⟨s, reach⟩ := reach_nodup mixed (show [7, 6, 5, 4, 3, 2, 1].Nodup by decide)
  obtain ⟨t, -, same, order, least, -, -, erases⟩ := reachable_inOrder reach
  exact ⟨s, addrs t, reach, same, order, least, erases 4 (by decide)⟩

/-! ## The length of a walk -/

lemma leftmost_ends {c : Color} {l r : ItemTree} {x : Item} (rep : Rep s.node (.node c l x r) up)
    (enough : l.depth < fuel) : (leftmost s fuel x.addr).isSome := by
  induction l generalizing c x r up fuel with
  | nil => cases fuel with
    | zero => cases enough
    | succ fuel => simp [leftmost, rep.1, cell, ptr]
  | node c' l' y r' ih => cases fuel with
    | zero => cases enough
    | succ fuel =>
      simp only [RbTree.depth] at enough
      simp only [leftmost, rep.1, cell, ptr]
      exact ih rep.2.1 (by omega)

/-- However a tree of `n` nodes was built, `rb_find_min` visits at most `2 * log2 (n + 1)` nodes. -/
theorem rbFindMin_logarithmic {s₀ : RbHeap} {nodes : List Nat}
    (reach : Relation.ReflTransGen Step (rbInit s₀, []) (s, nodes)) :
    nodes = [] ∨ (rbFindMin s (2 * (nodes.length + 1).log2)).isSome := by
  obtain ⟨t, tree, same⟩ : HoldsTree s nodes := holdsTree_of_reach reach (holdsTree_rbInit s₀)
  obtain ⟨height, balanced⟩ := tree.balanced
  have deep := balanced.depth_le_log
  rw [show t.toList.length = nodes.length from List.length_map _ ▸ same.length_eq] at deep
  rw [rbFindMin, show s.root = ptr t from tree.linked.path]
  cases t with
  | nil => exact .inl (List.nil_perm.mp same)
  | node c l x r =>
    simp only [RbTree.depth] at deep
    rw [ptr, Option.isSome_map]
    exact .inr (leftmost_ends tree.linked.tree (by omega))

/-- Six steps are enough for seven nodes. -/
theorem rbFindMin_logarithmic_seven : ∃ s,
    Relation.ReflTransGen Step (rbInit mixed, []) (s, [7, 6, 5, 4, 3, 2, 1]) ∧
      (rbFindMin s 6).isSome := by
  obtain ⟨s, reach⟩ := reach_nodup mixed (show [7, 6, 5, 4, 3, 2, 1].Nodup by decide)
  exact ⟨s, reach, (rbFindMin_logarithmic reach).resolve_left (List.cons_ne_nil _ _)⟩

end AuroraOS.Rbtree
