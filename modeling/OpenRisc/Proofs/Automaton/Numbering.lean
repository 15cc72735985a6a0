import OpenRisc.Proofs.Automaton.Arena
import OpenRisc.Proofs.Automaton.Size

set_option autoImplicit false

namespace OpenRisc

def Node.owns (edge : Nat) : Node → Bool
  | .branch test firstEdge => decide (firstEdge ≤ edge ∧ edge < firstEdge + test.fanout)
  | _ => false

theorem Node.owns_iff {edge : Nat} {node : Node} :
    node.owns edge = true ↔
      ∃ test firstEdge value, node = .branch test firstEdge ∧ value < test.fanout ∧
        firstEdge + value = edge := by
  cases node with
  | invalid => simp [owns]
  | leaf row => simp [owns]
  | branch test firstEdge =>
    rw [owns, decide_eq_true_eq]
    constructor
    · rintro ⟨above, below⟩
      exact ⟨test, firstEdge, edge - firstEdge, rfl, by omega, by omega⟩
    · rintro ⟨_, _, value, same, within, rfl⟩
      cases same
      omega

namespace Tree

theorem reference_eq (node : Nat) (tree : Tree) :
    tree.reference node = if tree.nodeCount = 0 then 0 else node := by
  cases tree <;> simp [reference, nodeCount]

mutual

theorem count_layoutEdges {target : Nat} (named : target ≠ 0) (node : Nat) (tree : Tree) :
    (tree.layoutEdges node).count target =
      if node < target ∧ target < node + tree.nodeCount then 1 else 0 := by
  cases tree with
  | invalid =>
    rw [nodeCount, if_neg (by omega)]
    rfl
  | leaf row =>
    rw [nodeCount, if_neg (by omega)]
    rfl
  | branch test children =>
    have below := count_forestEdges named (node + 1) children
    rw [layoutEdges, nodeCount, List.count_append, below]
    congr 1
    exact propext ⟨fun _ => by omega, fun _ => by omega⟩

theorem count_forestEdges {target : Nat} (named : target ≠ 0) (node : Nat) (children : List Tree) :
    (references node children).count target + (forestEdges node children).count target =
      if node ≤ target ∧ target < node + forestNodeCount children then 1 else 0 := by
  cases children with
  | nil =>
    rw [forestNodeCount, if_neg (by omega)]
    rfl
  | cons tree rest =>
    have own := count_layoutEdges named node tree
    have later := count_forestEdges named (node + tree.nodeCount) rest
    rw [references, forestEdges, forestNodeCount, List.count_cons, List.count_append, own,
      reference_eq]
    simp only [beq_iff_eq]
    split_ifs at later ⊢ <;> omega

end

theorem countP_owns_forest {edge : Nat} {children : List Tree}
    (each : ∀ child ∈ children, ∀ first, (child.layoutNodes first).countP (Node.owns edge) =
      if first ≤ edge ∧ edge < first + child.edgeCount then 1 else 0) (first : Nat) :
    (forestNodes first children).countP (Node.owns edge) =
      if first ≤ edge ∧ edge < first + forestEdgeCount children then 1 else 0 := by
  induction children generalizing first with
  | nil =>
    rw [forestEdgeCount, if_neg (by omega)]
    rfl
  | cons child rest ih =>
    have own := each child List.mem_cons_self first
    have later := ih (fun other member => each other (List.mem_cons_of_mem _ member))
      (first + child.edgeCount)
    rw [forestNodes, forestEdgeCount, List.countP_append, own, later]
    split_ifs <;> omega

theorem countP_owns {tree : Tree} (full : tree.Full) (first edge : Nat) :
    (tree.layoutNodes first).countP (Node.owns edge) =
      if first ≤ edge ∧ edge < first + tree.edgeCount then 1 else 0 := by
  induction full generalizing first with
  | invalid =>
    rw [show edgeCount .invalid = 0 from rfl, if_neg (by omega)]
    rfl
  | leaf row =>
    rw [show edgeCount (.leaf row) = 0 from rfl, if_neg (by omega)]
    rfl
  | @branch test children count each ih =>
    have below := countP_owns_forest ih (first + children.length)
    rw [layoutNodes, edgeCount, List.countP_cons, below, count]
    simp only [Node.owns, decide_eq_true_eq]
    split_ifs <;> omega

theorem countP_forestNodes (counted : Node → Bool) {children : List Tree} {size : Nat → Nat}
    (each : ∀ (value : Nat) (child : Tree), children[value]? = some child →
      ∀ edge, (child.layoutNodes edge).countP counted = size value) (edge : Nat) :
    (forestNodes edge children).countP counted =
      ∑ value ∈ Finset.range children.length, size value := by
  induction children generalizing size edge with
  | nil => simp [forestNodes]
  | cons child rest ih =>
    have own := each 0 child rfl edge
    have later := @ih (fun value => size (value + 1)) (fun value => each (value + 1))
      (edge + child.edgeCount)
    rw [forestNodes, List.countP_append, own, later, List.length_cons, Finset.sum_range_succ']
    omega

theorem Splits.count_leaf {available : Word} {group : List Entry} {tree : Tree}
    (split : Splits available group tree) (row edge : Nat) :
    (tree.layoutNodes edge).count (.leaf row) = group.countP fun entry => entry.row == row := by
  induction split generalizing edge with
  | invalid available => simp [layoutNodes]
  | leaf available entry => simp [layoutNodes, List.count_cons, List.countP_cons]
  | @branch available group test children several chosen full parts ih =>
    have below := countP_forestNodes (fun node => node == .leaf row) ih (edge + children.length)
    rw [layoutNodes, List.count_cons, List.count, below, full, sum_countP_selected]
    simp

mutual

theorem invalid_not_mem_layoutNodes (edge : Nat) (tree : Tree) :
    Node.invalid ∉ tree.layoutNodes edge := by
  cases tree with
  | invalid => simp [layoutNodes]
  | leaf row => simp [layoutNodes]
  | branch test children => simp [layoutNodes, invalid_not_mem_forestNodes]

theorem invalid_not_mem_forestNodes (edge : Nat) (children : List Tree) :
    Node.invalid ∉ forestNodes edge children := by
  cases children with
  | nil => simp [forestNodes]
  | cons tree rest =>
    simp [forestNodes, invalid_not_mem_layoutNodes, invalid_not_mem_forestNodes]

end

end Tree

end OpenRisc
