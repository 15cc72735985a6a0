import Mathlib.Order.Bounds.Defs
import OpenRisc.Proofs.Automaton.Numbering
import OpenRisc.Proofs.Automaton.Path

set_option autoImplicit false

namespace OpenRisc

namespace Tree

theorem mem_references {node target : Nat} {children : List Tree}
    (member : target ∈ references node children) :
    target = 0 ∨ node ≤ target ∧ target < node + forestNodeCount children := by
  induction children generalizing node with
  | nil => simp [references] at member
  | cons child rest ih =>
    rw [references, List.mem_cons, reference_eq] at member
    rw [forestNodeCount]
    rcases member with here | later
    · split at here <;> omega
    · have bounds := ih later
      omega

theorem depth_le_forestDepth {child : Tree} {children : List Tree} (member : child ∈ children) :
    child.depth ≤ forestDepth children := by
  induction children with
  | nil => simp at member
  | cons head rest ih =>
    rcases List.mem_cons.mp member with rfl | later
    · exact Nat.le_max_left _ _
    · exact (ih later).trans (Nat.le_max_right _ _)

theorem exists_depth_eq {children : List Tree} (nonempty : children ≠ []) :
    ∃ child ∈ children, child.depth = forestDepth children := by
  induction children with
  | nil => contradiction
  | cons head rest ih =>
    by_cases shallower : head.depth < forestDepth rest
    · have more : rest ≠ [] := by
        rintro rfl
        simp [forestDepth] at shallower
      obtain ⟨child, member, deepest⟩ := ih more
      exact ⟨child, List.mem_cons_of_mem _ member, by rw [deepest, forestDepth]; omega⟩
    · exact ⟨head, List.mem_cons_self, by rw [forestDepth]; omega⟩

theorem Splits.exists_deepest {available : Word} {group : List Entry} {test : Span}
    {children : List Tree} (split : Splits available group (.branch test children)) :
    ∃ (value : Nat) (child : Tree), children[value]? = some child ∧
      child.depth = forestDepth children ∧
      selected test value group ≠ [] ∧
      Splits (available &&& ~~~test.mask) (selected test value group) child := by
  cases split with
  | branch several chosen full parts =>
    have wide : children ≠ [] := by
      rw [← List.length_pos_iff, full]
      exact test.fanout_pos
    obtain ⟨child, member, deepest⟩ := exists_depth_eq wide
    obtain ⟨value, present⟩ := List.mem_iff_getElem?.mp member
    have part := parts value child present
    by_cases rows : selected test value group = []
    · -- Without rows the deepest child is a mere invalid one, so any child with rows is as deep.
      have flat : forestDepth children = 0 := by
        rw [rows] at part
        cases part with
        | invalid => exact deepest.symm
        | branch several => simp at several
      obtain ⟨entry, inside⟩ := List.exists_mem_of_length_pos (show 0 < group.length by omega)
      have within : (test.read entry.pattern.value).toNat < children.length :=
        full ▸ test.toNat_read_lt _
      have other := List.getElem?_eq_getElem within
      have shallow := depth_le_forestDepth (List.mem_of_getElem? other)
      refine ⟨_, _, other, by omega, ?_, parts _ _ other⟩
      exact List.ne_nil_of_mem (mem_selected.mpr ⟨inside, rfl⟩)
    · exact ⟨value, child, present, deepest, rows, part⟩

theorem Splits.nodeCount_pos {available : Word} {group : List Entry} {tree : Tree}
    (split : Splits available group tree) (nonempty : group ≠ []) : 0 < tree.nodeCount := by
  cases split with
  | invalid => contradiction
  | leaf => exact Nat.one_pos
  | branch => exact Nat.succ_pos _

end Tree

namespace Automaton

variable {automaton : Automaton}

structure Laid (automaton : Automaton) (tree : Tree) (node edge : Nat) : Prop where
  nodes : Placed (tree.layoutNodes edge) automaton.nodes.toList node
  edges : Placed (tree.layoutEdges node) automaton.edges.toList edge

theorem Laid.below {test : Span} {children : List Tree} {node edge : Nat}
    (laid : automaton.Laid (.branch test children) node edge) :
    Placed (Tree.forestNodes (edge + children.length) children) automaton.nodes.toList (node + 1) ∧
      Placed (Tree.forestEdges (node + 1) children) automaton.edges.toList
        (edge + children.length) := by
  have nodes := laid.nodes
  have edges := laid.edges
  rw [Tree.layoutNodes] at nodes
  rw [Tree.layoutEdges] at edges
  have later := edges.append_right
  rw [Tree.length_references] at later
  exact ⟨nodes.tail, later⟩

theorem Laid.length_le {tree : Tree} {node edge : Nat} (laid : automaton.Laid tree node edge)
    (present : 0 < tree.nodeCount) : node + tree.nodeCount ≤ automaton.nodes.size := by
  have some : tree.layoutNodes edge ≠ [] := by
    rwa [← List.length_pos_iff, Tree.length_layoutNodes]
  have room := laid.nodes.length_le some
  rwa [Tree.length_layoutNodes, Array.length_toList] at room

theorem laid_forest {children : List Tree} {node edge target : Nat}
    (nodes : Placed (Tree.forestNodes edge children) automaton.nodes.toList node)
    (edges : Placed (Tree.forestEdges node children) automaton.edges.toList edge)
    (above : node ≤ target) (below : target < node + Tree.forestNodeCount children) :
    ∃ (value : Nat) (child : Tree) (start block : Nat), children[value]? = some child ∧
      automaton.Laid child start block ∧ start ≤ target ∧ target < start + child.nodeCount := by
  induction children generalizing node edge with
  | nil =>
    simp only [Tree.forestNodeCount] at below
    omega
  | cons child rest ih =>
    rw [Tree.forestNodes] at nodes
    rw [Tree.forestEdges] at edges
    rw [Tree.forestNodeCount] at below
    by_cases here : target < node + child.nodeCount
    · exact ⟨0, child, node, edge, rfl, ⟨nodes.append_left, edges.append_left⟩, above, here⟩
    · have laterNodes := nodes.append_right
      have laterEdges := edges.append_right
      rw [Tree.length_layoutNodes] at laterNodes
      rw [Tree.length_layoutEdges] at laterEdges
      obtain ⟨value, found, start, block, present, laid⟩ :=
        ih laterNodes laterEdges (by omega) (by omega)
      exact ⟨value + 1, found, start, block, present, laid⟩

theorem laid_of_splits {available : Word} {group : List Entry} {tree : Tree}
    (split : Tree.Splits available group tree) {node edge target : Nat}
    (laid : automaton.Laid tree node edge) (above : node ≤ target)
    (below : target < node + tree.nodeCount) :
    ∃ available group part block, Tree.Splits available group part ∧
      automaton.Laid part target block ∧ 0 < part.nodeCount := by
  induction split generalizing node edge with
  | invalid available =>
    simp only [Tree.nodeCount] at below
    omega
  | leaf available entry =>
    simp only [Tree.nodeCount] at below
    obtain rfl : node = target := by omega
    exact ⟨available, [entry], _, edge, .leaf available entry, laid, Nat.one_pos⟩
  | @branch available group test children several chosen full parts ih =>
    by_cases here : node = target
    · subst here
      exact ⟨available, group, _, edge, .branch several chosen full parts, laid, Nat.succ_pos _⟩
    · obtain ⟨nodes, edges⟩ := laid.below
      rw [Tree.nodeCount] at below
      have beyond : node + 1 ≤ target := by omega
      obtain ⟨value, child, start, block, present, placed, reached, inside⟩ :=
        laid_forest nodes edges beyond (by omega)
      exact ih value child present placed reached inside

theorem branch_of_laid {available : Word} {group : List Entry} {part : Tree} {node block : Nat}
    (split : Tree.Splits available group part) (laid : automaton.Laid part node block)
    (present : 0 < part.nodeCount) {test : Span} {firstEdge : Nat}
    (read : automaton.nodes[node]? = some (.branch test firstEdge)) :
    Tree.Fits available group test ∧
      ∀ value < test.fanout, ∃ child, automaton.edges[firstEdge + value]? = some child ∧
        (child ≠ 0 → node < child ∧ child < automaton.nodes.size) := by
  have stands := laid.nodes
  cases split with
  | invalid => simp [Tree.nodeCount] at present
  | leaf _ entry =>
    have leaf := stands.getElem? (i := 0) rfl
    simp [read] at leaf
  | branch several chosen full parts =>
    rename_i own children
    have same := stands.getElem? (i := 0) rfl
    rw [Nat.add_zero, Array.getElem?_toList, read, Option.some.injEq, Node.branch.injEq] at same
    obtain ⟨rfl, rfl⟩ := same
    refine ⟨Tree.fits_of_widestRun? chosen, fun value within => ?_⟩
    have inside : value < (Tree.references (node + 1) children).length := by
      rwa [Tree.length_references, full]
    have edges := laid.edges
    rw [Tree.layoutEdges] at edges
    have linked := edges.append_left.getElem? (List.getElem?_eq_getElem inside)
    rw [Array.getElem?_toList] at linked
    have room := laid.length_le present
    rw [Tree.nodeCount] at room
    refine ⟨_, linked, fun named => ?_⟩
    have bounds := Tree.mem_references (List.getElem_mem inside)
    omega

theorem length_path_le {node target : Nat} {path : List Stop}
    (leads : automaton.Path node path target) {tree : Tree} (stored : automaton.Stores tree node) :
    path.length ≤ tree.depth := by
  induction leads generalizing tree with
  | here node => exact Nat.zero_le _
  | step read within linked onward ih =>
    cases stored with
    | invalid empty => simp [empty] at read
    | leaf other => simp [other] at read
    | branch same count inside below =>
      simp only [same, Option.some.injEq, Node.branch.injEq] at read
      obtain ⟨rfl, rfl⟩ := read
      have present := List.getElem?_eq_getElem (count.symm ▸ within)
      have rest := ih (below _ _ _ present linked)
      have child := Tree.depth_le_forestDepth (List.mem_of_getElem? present)
      rw [Tree.depth, List.length_cons]
      omega

theorem exists_longest_path {available : Word} {group : List Entry} {tree : Tree}
    (split : Tree.Splits available group tree) (nonempty : group ≠ []) {node : Nat}
    (stored : automaton.Stores tree node) :
    ∃ path target row, automaton.Path node path target ∧
      automaton.nodes[target]? = some (.leaf row) ∧ path.length = tree.depth := by
  induction split generalizing node with
  | invalid available => contradiction
  | leaf available entry =>
    cases stored with
    | leaf read => exact ⟨[], node, entry.row, .here node, read, rfl⟩
  | @branch available group test children several chosen full parts ih =>
    obtain ⟨value, child, present, deepest, rows, _⟩ :=
      (Tree.Splits.branch several chosen full parts).exists_deepest
    obtain ⟨firstEdge, next, read, within, linked, below⟩ := stored.child present
    obtain ⟨path, target, row, leads, leaf, long⟩ := ih value child present rows below
    refine ⟨_, target, row, .step read within linked leads, leaf, ?_⟩
    rw [Tree.depth, List.length_cons, long, deepest]

/-- An arena that is a tree over `rows` rows. Node 0 stands for every child without rows; any other
node hangs from one edge, the root from none. -/
structure ProperTree (rows : Nat) (automaton : Automaton) : Prop where
  invalid : ∀ node : Nat, automaton.nodes[node]? = some .invalid ↔ node = 0
  downward : ∀ (node firstEdge : Nat) (test : Span),
    automaton.nodes[node]? = some (.branch test firstEdge) →
      ∀ value < test.fanout, ∃ child, automaton.edges[firstEdge + value]? = some child ∧
        (child ≠ 0 → node < child ∧ child < automaton.nodes.size)
  rooted : automaton.root ≠ 0 ∧ automaton.root < automaton.nodes.size ∧
    automaton.edges.toList.count automaton.root = 0
  hung : ∀ node < automaton.nodes.size, node ≠ 0 → node ≠ automaton.root →
    automaton.edges.toList.count node = 1
  tiled : ∀ edge < automaton.edges.size, automaton.nodes.toList.countP (Node.owns edge) = 1
  leaf : ∀ row, automaton.nodes.toList.count (.leaf row) = if row < rows then 1 else 0
  reached : ∀ row < rows, automaton.Bears automaton.root row
  narrow : ∀ (node firstEdge : Nat) (test : Span),
    automaton.nodes[node]? = some (.branch test firstEdge) →
      1 ≤ test.width ∧ test.width ≤ 8 ∧ test.start + test.width ≤ 32
  disjoint : ∀ path target, automaton.Path automaton.root path target →
    path.Pairwise fun stop later => Disjoint stop.test.bits later.test.bits
  depth : IsGreatest
    {length | ∃ path target row, automaton.Path automaton.root path target ∧
      automaton.nodes[target]? = some (.leaf row) ∧ path.length = length} automaton.depth
  shallow : automaton.depth ≤ 32

theorem laid_ofTree (tree : Tree) : (ofTree tree).Laid tree 1 0 where
  nodes := (Placed.self (Node.invalid :: tree.layoutNodes 0)).tail
  edges := Placed.self _

theorem size_nodes_ofTree (tree : Tree) : (ofTree tree).nodes.size = tree.nodeCount + 1 := by
  simp [ofTree, Tree.length_layoutNodes]

theorem invalid_ofTree_iff (tree : Tree) (node : Nat) :
    (ofTree tree).nodes[node]? = some .invalid ↔ node = 0 := by
  cases node with
  | zero => simp [ofTree]
  | succ node =>
    have absent : Node.invalid ∉ tree.layoutNodes 0 := Tree.invalid_not_mem_layoutNodes 0 tree
    simp only [ofTree, List.getElem?_toArray, List.getElem?_cons_succ]
    exact ⟨fun read => absurd (List.mem_of_getElem? read) absent, fun zero => by omega⟩

theorem count_edges_ofTree (tree : Tree) {node : Nat} (named : node ≠ 0) :
    (ofTree tree).edges.toList.count node =
      if 1 < node ∧ node < (ofTree tree).nodes.size then 1 else 0 := by
  rw [size_nodes_ofTree, Nat.add_comm tree.nodeCount]
  exact Tree.count_layoutEdges named 1 tree

theorem countP_owns_ofTree {tree : Tree} (full : tree.Full) {edge : Nat}
    (inside : edge < (ofTree tree).edges.size) :
    (ofTree tree).nodes.toList.countP (Node.owns edge) = 1 := by
  have within : edge < tree.edgeCount := by
    simpa [ofTree, Tree.length_layoutEdges] using inside
  have owners := Tree.countP_owns full 0 edge
  rw [if_pos (by omega)] at owners
  simpa [ofTree, Node.owns] using owners

theorem count_entries (patterns : List Pattern) (row : Nat) :
    ((entries patterns).countP fun entry => entry.row == row) =
      if row < patterns.length then 1 else 0 := by
  have rows : ((entries patterns).countP fun entry => entry.row == row) =
      ((entries patterns).map Entry.row).count row := by
    rw [List.count, List.countP_map]
    rfl
  rw [rows, rows_entries, List.nodup_range.count]
  simp only [List.mem_range]

section

variable {available : Word} {group : List Entry} {tree : Tree}

theorem root_ofTree (split : Tree.Splits available group tree) (nonempty : group ≠ []) :
    (ofTree tree).root = 1 := by
  have present := split.nodeCount_pos nonempty
  simp [ofTree, Tree.reference_eq, Nat.ne_of_gt present]

theorem depth_isGreatest (split : Tree.Splits available group tree) (nonempty : group ≠ []) {node : Nat}
    (stored : automaton.Stores tree node) :
    IsGreatest
      {length | ∃ path target row, automaton.Path node path target ∧
        automaton.nodes[target]? = some (.leaf row) ∧ path.length = length} tree.depth := by
  constructor
  · exact exists_longest_path split nonempty stored
  · rintro length ⟨path, target, row, leads, leaf, rfl⟩
    exact length_path_le leads stored

theorem depth_le_budget (split : Tree.Splits available group tree) (nonempty : group ≠ []) {node : Nat}
    (stored : automaton.Stores tree node) : tree.depth ≤ available.ones.card := by
  obtain ⟨path, target, row, leads, _, long⟩ := exists_longest_path split nonempty stored
  obtain ⟨_, _, _, spends⟩ := stores_of_path leads stored split
  have short := spends.short
  omega

end

section

variable {patterns : List Pattern}

theorem branch_of_build (done : build patterns = .ok automaton) {node firstEdge : Nat} {test : Span}
    (read : automaton.nodes[node]? = some (.branch test firstEdge)) :
    (∃ available group, Tree.Fits available group test) ∧
      ∀ value < test.fanout, ∃ child, automaton.edges[firstEdge + value]? = some child ∧
        (child ≠ 0 → node < child ∧ child < automaton.nodes.size) := by
  obtain ⟨_, _, root, built, rfl⟩ := build_eq_ok_iff.mp done
  have named : node ≠ 0 := by
    rintro rfl
    simp [ofTree] at read
  have inside := (Array.getElem?_eq_some_iff.mp read).1
  rw [size_nodes_ofTree] at inside
  have reached : 1 ≤ node := by omega
  obtain ⟨available, group, part, block, split, laid, present⟩ :=
    laid_of_splits (Tree.splits_of_partition built) (laid_ofTree root) reached (by omega)
  have branch := branch_of_laid split laid present read
  exact ⟨⟨available, group, branch.1⟩, branch.2⟩

theorem proper_of_build (done : build patterns = .ok automaton) :
    ProperTree patterns.length automaton := by
  have branch := fun node firstEdge test =>
    @branch_of_build automaton patterns done node firstEdge test
  obtain ⟨nonempty, _, root, built, rfl⟩ := build_eq_ok_iff.mp done
  have split := Tree.splits_of_partition built
  have stored := stores_ofTree split.full
  have rows : entries patterns ≠ [] := by simpa [entries] using nonempty
  have first := root_ofTree split rows
  have present := split.nodeCount_pos rows
  constructor
  case invalid => exact invalid_ofTree_iff root
  case downward => exact fun node firstEdge test read => (branch node firstEdge test read).2
  case rooted =>
    rw [first, size_nodes_ofTree, count_edges_ofTree root Nat.one_ne_zero]
    simp [present]
  case hung =>
    intro node inside named other
    rw [count_edges_ofTree root named, if_pos (by omega)]
  case tiled => exact fun edge inside => countP_owns_ofTree split.full inside
  case leaf =>
    intro row
    have leaves := split.count_leaf row 0
    rw [count_entries] at leaves
    simpa [ofTree] using leaves
  case reached =>
    intro row inside
    have member : (⟨row, patterns[row]⟩ : Entry) ∈ entries patterns :=
      mem_entries.mpr (List.getElem?_eq_getElem inside)
    exact bears_of_mem split stored member
  case narrow =>
    intro node firstEdge test read
    obtain ⟨available, group, fits⟩ := (branch node firstEdge test read).1
    exact ⟨fits.nonempty, fits.narrow, fits.inside⟩
  case disjoint =>
    intro path target leads
    obtain ⟨_, _, _, spends⟩ := stores_of_path leads stored split
    exact spends.disjoint
  case depth => exact depth_isGreatest split rows stored
  case shallow => exact (depth_le_budget split rows stored).trans (Word.card_ones_le _)

end

end Automaton

end OpenRisc
