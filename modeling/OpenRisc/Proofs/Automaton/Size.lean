import Mathlib.Algebra.BigOperators.Group.Finset.Piecewise
import Mathlib.Algebra.Order.BigOperators.Group.Finset
import Mathlib.Tactic.IntervalCases
import OpenRisc.Automaton.Image
import OpenRisc.Proofs.Automaton.Budget

set_option autoImplicit false

namespace OpenRisc.Tree

mutual

def branchCost (cost : Nat → Nat) : Tree → Nat
  | .branch test children => cost test.width + forestCost cost children
  | _ => 0

def forestCost (cost : Nat → Nat) : List Tree → Nat
  | [] => 0
  | tree :: rest => tree.branchCost cost + forestCost cost rest

end

theorem forestCost_le {cost : Nat → Nat} {children : List Tree} {size : Nat → Nat} {share : Nat}
    (each : ∀ (value : Nat) (child : Tree), children[value]? = some child →
      8 * child.branchCost cost ≤ size value * share) :
    8 * forestCost cost children ≤
      (∑ value ∈ Finset.range children.length, size value) * share := by
  induction children generalizing size with
  | nil => simp [forestCost]
  | cons child rest ih =>
    have first := each 0 child rfl
    have later := @ih (fun value => size (value + 1)) fun value => each (value + 1)
    rw [forestCost, List.length_cons, Finset.sum_range_succ', Nat.mul_add, Nat.add_mul]
    omega

theorem sum_countP_selected (test : Span) (counted : Entry → Bool) (group : List Entry) :
    ∑ value ∈ Finset.range test.fanout, (selected test value group).countP counted =
      group.countP counted := by
  induction group with
  | nil => simp [selected]
  | cons entry rest ih =>
    have shown : (test.read entry.pattern.value).toNat ∈ Finset.range test.fanout :=
      Finset.mem_range.mpr (test.toNat_read_lt _)
    have step (value : Nat) : (selected test value (entry :: rest)).countP counted =
        (selected test value rest).countP counted +
          if (test.read entry.pattern.value).toNat = value then [entry].countP counted else 0 := by
      by_cases same : (test.read entry.pattern.value).toNat = value <;>
        simp [selected, same, List.countP_cons]
    simp only [step, Finset.sum_add_distrib, ih, Finset.sum_ite_eq, shown, if_true,
      List.countP_cons, List.countP_nil, Nat.zero_add]

theorem sum_selected (test : Span) (group : List Entry) :
    ∑ value ∈ Finset.range test.fanout, (selected test value group).length = group.length := by
  simpa using sum_countP_selected test (fun _ => true) group

-- A row pays for the branches of one path only, and their tests share the bits of the budget.
theorem Splits.branchCost_le {cost : Nat → Nat} {rate : Nat}
    (cheap : ∀ width, 0 < width → width ≤ Automaton.maxTestWidth → 8 * cost width ≤ width * rate)
    {available : Word} {group : List Entry} {tree : Tree} (split : Splits available group tree) :
    8 * tree.branchCost cost ≤ group.length * (available.ones.card * rate) := by
  induction split with
  | invalid available => simp [branchCost]
  | leaf available entry => simp [branchCost]
  | @branch available group test children several chosen full parts ih =>
    have fits := fits_of_widestRun? chosen
    have own := cheap test.width fits.nonempty fits.narrow
    have below := forestCost_le ih
    rw [full, sum_selected] at below
    calc 8 * branchCost cost (.branch test children)
        = 8 * cost test.width + 8 * forestCost cost children := by rw [branchCost, Nat.mul_add]
      _ ≤ test.width * rate +
          group.length * ((available &&& ~~~test.mask).ones.card * rate) :=
        Nat.add_le_add own below
      _ ≤ group.length * (test.width * rate) +
          group.length * ((available &&& ~~~test.mask).ones.card * rate) :=
        Nat.add_le_add_right (Nat.le_mul_of_pos_left _ (by omega)) _
      _ = group.length * (available.ones.card * rate) := by
        rw [← Nat.mul_add, ← Nat.add_mul, Nat.add_comm test.width, fits.card_ones]

mutual

theorem sum_recordSize (edge : Nat) (tree : Tree) :
    ((tree.layoutNodes edge).map Node.recordSize).sum = tree.branchCost fun width => 2 + 1 <<< width := by
  cases tree with
  | invalid => rfl
  | leaf row => rfl
  | branch test children =>
    rw [layoutNodes, List.map_cons, List.sum_cons, branchCost, sum_forest_recordSize]
    rfl

theorem sum_forest_recordSize (edge : Nat) (children : List Tree) :
    ((forestNodes edge children).map Node.recordSize).sum =
      forestCost (fun width => 2 + 1 <<< width) children := by
  cases children with
  | nil => rfl
  | cons tree rest =>
    rw [forestNodes, List.map_append, List.sum_append, forestCost, sum_recordSize,
      sum_forest_recordSize]

end

theorem recordSize_cheap (width : Nat) (nonempty : 0 < width)
    (narrow : width ≤ Automaton.maxTestWidth) : 8 * (2 + 1 <<< width) ≤ width * 258 := by
  rw [Automaton.maxTestWidth] at narrow
  interval_cases width <;> decide

theorem fanout_cheap (width : Nat) (nonempty : 0 < width) (narrow : width ≤ Automaton.maxTestWidth) :
    8 * (1 <<< width) ≤ width * 256 := by
  rw [Automaton.maxTestWidth] at narrow
  interval_cases width <;> decide

theorem Splits.branchCost_le_rows {cost : Nat → Nat} {rate : Nat}
    (cheap : ∀ width, 0 < width → width ≤ Automaton.maxTestWidth → 8 * cost width ≤ width * rate)
    {group : List Entry} {tree : Tree} (split : Splits (BitVec.allOnes 32) group tree) :
    tree.branchCost cost ≤ 4 * rate * group.length := by
  have budget := Nat.mul_le_mul_right rate (Word.card_ones_le (BitVec.allOnes 32))
  have bound := (split.branchCost_le cheap).trans (Nat.mul_le_mul_left _ budget)
  rw [show 32 * rate = 8 * (4 * rate) by omega, Nat.mul_left_comm, Nat.mul_comm group.length] at bound
  exact Nat.le_of_mul_le_mul_left bound (by decide)

theorem Splits.sum_recordSize_le {group : List Entry} {tree : Tree}
    (split : Splits (BitVec.allOnes 32) group tree) (edge : Nat) :
    ((tree.layoutNodes edge).map Node.recordSize).sum ≤ 1032 * group.length := by
  rw [sum_recordSize]
  exact split.branchCost_le_rows recordSize_cheap

theorem forestEdgeCount_eq {cost : Nat → Nat} {children : List Tree}
    (each : ∀ child ∈ children, child.edgeCount = child.branchCost cost) :
    forestEdgeCount children = forestCost cost children := by
  induction children with
  | nil => rfl
  | cons child rest ih =>
    obtain ⟨here, later⟩ := List.forall_mem_cons.mp each
    rw [forestEdgeCount, forestCost, here, ih later]

theorem Splits.edgeCount_eq {available : Word} {group : List Entry} {tree : Tree}
    (split : Splits available group tree) :
    tree.edgeCount = tree.branchCost fun width => 1 <<< width := by
  induction split with
  | invalid available => rfl
  | leaf available entry => rfl
  | @branch available group test children several chosen full parts ih =>
    have each : ∀ child ∈ children, child.edgeCount = child.branchCost fun width => 1 <<< width := by
      intro child member
      obtain ⟨value, present⟩ := List.mem_iff_getElem?.mp member
      exact ih value child present
    rw [edgeCount, branchCost, full, Span.fanout, forestEdgeCount_eq each]

theorem Splits.edgeCount_le {group : List Entry} {tree : Tree}
    (split : Splits (BitVec.allOnes 32) group tree) : tree.edgeCount ≤ 1024 * group.length := by
  rw [split.edgeCount_eq]
  exact split.branchCost_le_rows fanout_cheap

theorem forestNodeCount_eq {cost : Nat → Nat} {children : List Tree} {leaves : Nat → Nat}
    (each : ∀ (value : Nat) (child : Tree), children[value]? = some child →
      child.nodeCount = child.branchCost cost + leaves value) :
    forestNodeCount children =
      forestCost cost children + ∑ value ∈ Finset.range children.length, leaves value := by
  induction children generalizing leaves with
  | nil => rfl
  | cons child rest ih =>
    have first := each 0 child rfl
    have later := @ih (fun value => leaves (value + 1)) fun value => each (value + 1)
    rw [forestNodeCount, forestCost, List.length_cons, Finset.sum_range_succ', first, later]
    omega

theorem Splits.nodeCount_eq {available : Word} {group : List Entry} {tree : Tree}
    (split : Splits available group tree) :
    tree.nodeCount = tree.branchCost (fun _ => 1) + group.length := by
  induction split with
  | invalid available => rfl
  | leaf available entry => rfl
  | @branch available group test children several chosen full parts ih =>
    have below := forestNodeCount_eq ih
    rw [full, sum_selected] at below
    rw [nodeCount, branchCost, below]
    omega

theorem Splits.nodeCount_le {available : Word} {group : List Entry} {tree : Tree}
    (split : Splits available group tree) :
    tree.nodeCount ≤ group.length * (1 + available.ones.card) := by
  have branches : 8 * tree.branchCost (fun _ => 1) ≤ group.length * (available.ones.card * 8) :=
    split.branchCost_le fun width nonempty _ => by omega
  rw [← Nat.mul_assoc] at branches
  rw [split.nodeCount_eq, Nat.mul_add]
  omega

theorem Splits.edgeCount_le_budget {available : Word} {group : List Entry} {tree : Tree}
    (split : Splits available group tree) :
    tree.edgeCount ≤ group.length * (32 * available.ones.card) := by
  have branches := split.branchCost_le fanout_cheap
  rw [← split.edgeCount_eq, ← Nat.mul_assoc] at branches
  rw [Nat.mul_left_comm]
  omega

mutual

-- An edge leads to each node but the first.
theorem nodeCount_le (tree : Tree) : tree.nodeCount ≤ tree.edgeCount + 1 := by
  cases tree with
  | invalid => exact Nat.zero_le _
  | leaf row => exact Nat.le_refl _
  | branch test children =>
    have below := forestNodeCount_le children
    rw [nodeCount, edgeCount]
    omega

theorem forestNodeCount_le (children : List Tree) :
    forestNodeCount children ≤ forestEdgeCount children + children.length := by
  cases children with
  | nil => exact Nat.le_refl _
  | cons tree rest =>
    have here := nodeCount_le tree
    have later := forestNodeCount_le rest
    rw [forestNodeCount, forestEdgeCount, List.length_cons]
    omega

end

end OpenRisc.Tree
