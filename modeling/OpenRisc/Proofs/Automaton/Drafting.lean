import OpenRisc.Automaton.Draft
import OpenRisc.Proofs.Automaton.ProperTree
import OpenRisc.Proofs.Automaton.Serialization

set_option autoImplicit false

namespace OpenRisc

namespace Tree

mutual

def reach (level : Nat) : Tree → Nat
  | .invalid => 0
  | .leaf _ => level
  | .branch _ children => forestReach (level + 1) children

def forestReach (level : Nat) : List Tree → Nat
  | [] => 0
  | tree :: rest => max (tree.reach level) (forestReach level rest)

end

mutual

theorem reach_le (level : Nat) (tree : Tree) : tree.reach level ≤ level + tree.depth := by
  cases tree with
  | invalid => exact Nat.zero_le _
  | leaf row => exact Nat.le_refl _
  | branch test children =>
    have below := forestReach_le (level + 1) children
    rw [reach, depth]
    omega

theorem forestReach_le (level : Nat) (children : List Tree) :
    forestReach level children ≤ level + forestDepth children := by
  cases children with
  | nil => exact Nat.zero_le _
  | cons tree rest =>
    have here := reach_le level tree
    have later := forestReach_le level rest
    rw [forestReach, forestDepth]
    omega

end

theorem reach_le_forestReach {level : Nat} {child : Tree} {children : List Tree}
    (member : child ∈ children) : child.reach level ≤ forestReach level children := by
  induction children with
  | nil => simp at member
  | cons head rest ih =>
    rcases List.mem_cons.mp member with rfl | later
    · exact Nat.le_max_left _ _
    · exact (ih later).trans (Nat.le_max_right _ _)

theorem Splits.reach_eq {available : Word} {group : List Entry} {tree : Tree}
    (split : Splits available group tree) (nonempty : group ≠ []) (level : Nat) :
    tree.reach level = level + tree.depth := by
  induction split generalizing level with
  | invalid available => contradiction
  | leaf available entry => rfl
  | @branch available group test children several chosen full parts ih =>
    obtain ⟨value, child, present, deepest, rows, _⟩ :=
      (Tree.Splits.branch several chosen full parts).exists_deepest
    have far := ih value child present rows (level + 1)
    have above : child.reach (level + 1) ≤ forestReach (level + 1) children :=
      reach_le_forestReach (List.mem_of_getElem? present)
    have below := forestReach_le (level + 1) children
    rw [reach, depth]
    omega

end Tree

namespace Draft

open OpenRisc.Tree

theorem numbered_of_lt {number : Nat} (small : number < 2 ^ 32) : numbered number = .ok number :=
  if_pos (Word.toNat_ofNat_of_lt small)

theorem push_of_lt (draft : Draft) (small : draft.nodes.size < 2 ^ 32) (node : Node) :
    draft.push node =
      .ok (draft.nodes.size, { draft with nodes := draft.nodes.push node }) := by
  rw [push, numbered_of_lt small]
  rfl

theorem write_of_none {available : Word} {group : List Entry} (several : 2 ≤ group.length)
    (exhausted : Automaton.widestRun? (commonBits available group) = none) (level : Nat)
    (draft : Draft) :
    write available group level draft =
      .error (.rejected (.inseparable ⟨group.map Entry.row, available⟩)) := by
  match group, several with
  | first :: second :: rest, _ =>
    rw [write]
    · split
      next => rfl
      next chosen => simp [exhausted] at chosen
    · simp

theorem write_of_some {available : Word} {group : List Entry} {test : Span}
    (several : 2 ≤ group.length)
    (chosen : Automaton.widestRun? (commonBits available group) = some test) (level : Nat)
    (draft : Draft) :
    write available group level draft = do
      let firstEdge ← numbered draft.edges.size
      let (node, begun) ← (draft.reserve test.fanout).push (.branch test firstEdge)
      let below := fun rows draft => write (available &&& ~~~test.mask) rows (level + 1) draft
      let filled ← (List.range test.fanout).foldlM (fill below test group firstEdge) begun
      return (node, filled) := by
  match group, several with
  | first :: second :: rest, _ =>
    rw [write]
    · split
      next exhausted => simp [chosen] at exhausted
      next other same =>
        rw [chosen] at same
        cases same
        rfl
    · simp

-- Each row pays for the nodes and the edges of the tests that are still ahead of it.
structure Room (nodes edges : Nat) (available : Word) (rows : Nat) : Prop where
  nodes : nodes + rows * (1 + available.ones.card) ≤ 2 ^ 32
  edges : edges + rows * (32 * available.ones.card) ≤ 2 ^ 32

theorem Room.after {nodes edges rows : Nat} {available : Word} {group : List Entry} {tree : Tree}
    (room : Room nodes edges available (group.length + rows))
    (split : Splits available group tree) :
    Room (nodes + tree.nodeCount) (edges + tree.edgeCount) available rows := by
  have nodeBound := split.nodeCount_le
  have edgeBound := split.edgeCount_le_budget
  obtain ⟨nodeRoom, edgeRoom⟩ := room
  rw [Nat.add_mul] at nodeRoom edgeRoom
  constructor <;> omega

theorem Room.of_le {nodes edges rows fewer : Nat} {available : Word}
    (room : Room nodes edges available rows) (less : fewer ≤ rows) :
    Room nodes edges available fewer where
  nodes := (Nat.add_le_add_left (Nat.mul_le_mul_right _ less) _).trans room.nodes
  edges := (Nat.add_le_add_left (Nat.mul_le_mul_right _ less) _).trans room.edges

theorem Room.lt {nodes edges rows : Nat} {available : Word}
    (room : Room nodes edges available rows) (some : 0 < rows) : nodes < 2 ^ 32 := by
  have own := Nat.mul_le_mul some (Nat.le_add_right 1 available.ones.card)
  have total := room.nodes
  omega

theorem Room.below {nodes edges : Nat} {available : Word} {group : List Entry} {test : Span}
    (room : Room nodes edges available group.length) (some : 0 < group.length)
    (fits : Fits available group test) :
    edges < 2 ^ 32 ∧
      Room (nodes + 1) (edges + test.fanout) (available &&& ~~~test.mask) group.length := by
  have wide := fits.nonempty
  have cheap := fanout_cheap test.width wide fits.narrow
  rw [← Span.fanout] at cheap
  have own := Nat.mul_le_mul_right test.width some
  obtain ⟨nodeRoom, edgeRoom⟩ := room
  rw [← fits.card_ones] at nodeRoom edgeRoom
  rw [Nat.mul_left_comm, Nat.mul_add] at edgeRoom
  rw [← Nat.add_assoc, Nat.mul_add] at nodeRoom
  refine ⟨by omega, by omega, ?_⟩
  rw [Nat.mul_left_comm]
  omega

def extended (draft : Draft) (level : Nat) (tree : Tree) : Draft where
  nodes := draft.nodes ++ (tree.layoutNodes draft.edges.size).toArray
  edges := draft.edges ++ (tree.layoutEdges draft.nodes.size).toArray
  depth := max draft.depth (tree.reach level)

def filled (draft : Draft) (front back : List Nat) (level : Nat) (children : List Tree) : Draft where
  nodes := draft.nodes ++ (forestNodes draft.edges.size children).toArray
  edges := (front ++ references draft.nodes.size children ++ back ++
    forestEdges draft.nodes.size children).toArray
  depth := max draft.depth (forestReach level children)

def stuck (group : Inseparable) : DraftError :=
  .rejected (.inseparable group)

def outcome (draft : Draft) (level : Nat) (answer : Except Inseparable Tree) :
    Except DraftError (Nat × Draft) :=
  (answer.map fun tree => (draft.nodes.size, draft.extended level tree)).mapError stuck

def advanced (draft : Draft) (front back : List Nat) (count level : Nat) (tree : Tree) : Draft where
  nodes := draft.nodes ++ (tree.layoutNodes draft.edges.size).toArray
  edges := (front ++ [tree.reference draft.nodes.size] ++ List.replicate count 0 ++
    (back ++ tree.layoutEdges draft.nodes.size)).toArray
  depth := max draft.depth (tree.reach level)

theorem filled_nil {draft : Draft} {front back : List Nat}
    (reserved : draft.edges = (front ++ List.replicate 0 0 ++ back).toArray) (level : Nat) :
    draft.filled front back level [] = draft := by
  obtain ⟨nodes, edges, depth⟩ := draft
  subst reserved
  simp [filled, forestNodes, forestEdges, references, forestReach]

theorem size_nodes_advanced (draft : Draft) (front back : List Nat) (count level : Nat)
    (tree : Tree) :
    (draft.advanced front back count level tree).nodes.size =
      draft.nodes.size + tree.nodeCount := by
  simp [advanced, length_layoutNodes]

theorem size_edges_advanced {draft : Draft} {front back : List Nat} {count : Nat}
    (reserved : draft.edges = (front ++ List.replicate (count + 1) 0 ++ back).toArray)
    (level : Nat) (tree : Tree) :
    (draft.advanced front back count level tree).edges.size =
      draft.edges.size + tree.edgeCount := by
  simp [advanced, reserved, length_layoutEdges]
  omega

theorem filled_advanced {draft : Draft} {front back : List Nat} {count : Nat}
    (reserved : draft.edges = (front ++ List.replicate (count + 1) 0 ++ back).toArray)
    (level : Nat) (tree : Tree) (rest : List Tree) :
    (draft.advanced front back count level tree).filled
        (front ++ [tree.reference draft.nodes.size]) (back ++ tree.layoutEdges draft.nodes.size)
        level rest =
      draft.filled front back level (tree :: rest) := by
  rw [filled, filled, size_nodes_advanced, size_edges_advanced reserved]
  simp [advanced, forestNodes, forestEdges, references, forestReach, Nat.max_assoc]

section

variable {write : List Entry → Draft → Except DraftError (Nat × Draft)} {available : Word}
  {level : Nat} {test : Span} {group : List Entry} {firstEdge value : Nat} {draft : Draft}
  {front back : List Nat}
  (fixed : ∀ entry ∈ group, ∀ p < test.width, entry.pattern.mask.getLsbD (test.start + p) = true)

include fixed

-- No row of a group is refused for its mask: all of them fix the bits of the test.
theorem shown_eq_selected (value : Nat) : shown test value group = selected test value group := by
  refine List.filter_congr fun entry member => ?_
  have full : test.read entry.pattern.mask = Word.lowMask test.width := by
    apply BitVec.eq_of_getLsbD_eq
    intro p inside
    by_cases within : p < test.width
    · simp [-BitVec.getLsbD_eq_getElem, Span.getLsbD_read, within, inside, fixed entry member p within]
    · simp [-BitVec.getLsbD_eq_getElem, Span.getLsbD_read, within]
  rw [full, beq_self_eq_true, Bool.and_true]

theorem fill_eq
    (below : selected test value group ≠ [] →
      write (selected test value group) draft =
        draft.outcome level (partition available (selected test value group)))
    (small : value < 2 ^ 32) {count : Nat} (reached : front.length = firstEdge + value)
    (reserved : draft.edges = (front ++ List.replicate (count + 1) 0 ++ back).toArray) :
    fill write test group firstEdge draft value =
      ((partition available (selected test value group)).map
        (draft.advanced front back count level)).mapError stuck := by
  have rows := shown_eq_selected fixed value
  simp only [fill, numbered_of_lt small, bind, Except.bind, rows]
  by_cases nothing : selected test value group = []
  · have same : draft.advanced front back count level .invalid = draft := by
      obtain ⟨nodes, edges, depth⟩ := draft
      subst reserved
      simp [advanced, layoutNodes, layoutEdges, reach, reference, List.replicate_succ]
    rw [nothing, partition]
    exact congrArg Except.ok same.symm
  · rw [if_neg (by simpa using nothing), below nothing]
    cases answer : partition available (selected test value group) with
    | error group => rfl
    | ok tree =>
      have present := (splits_of_partition answer).nodeCount_pos nothing
      have named : tree.reference draft.nodes.size = draft.nodes.size := by
        rw [reference_eq, if_neg (Nat.ne_of_gt present)]
      have patched : ((draft.extended level tree).edges.setIfInBounds (firstEdge + value)
          draft.nodes.size) = (draft.advanced front back count level tree).edges := by
        rw [extended, reserved, ← reached]
        simp only [List.append_toArray, List.setIfInBounds_toArray]
        rw [List.append_assoc _ back, set_reserved, advanced, named]
      exact congrArg (fun edges => Except.ok { draft.extended level tree with edges }) patched

variable (write) in
-- The reserved edges shrink from the left; later values append behind earlier ones.
theorem foldlM_fill
    (below : ∀ (value : Nat) (draft : Draft), selected test value group ≠ [] →
      Room draft.nodes.size draft.edges.size available (selected test value group).length →
      write (selected test value group) draft =
        draft.outcome level (partition available (selected test value group)))
    {count : Nat} (small : value + count ≤ 2 ^ 32) (reached : front.length = firstEdge + value)
    (reserved : draft.edges = (front ++ List.replicate count 0 ++ back).toArray)
    (room : Room draft.nodes.size draft.edges.size available
      ((List.range' value count).map fun value => (selected test value group).length).sum) :
    (List.range' value count).foldlM (fill write test group firstEdge) draft =
      (((List.range' value count).mapM fun value =>
        partition available (selected test value group)).map
          (draft.filled front back level)).mapError stuck := by
  induction count generalizing value draft front back with
  | zero =>
    rw [List.range'_zero, List.foldlM_nil, List.mapM_nil]
    exact congrArg Except.ok (filled_nil reserved level).symm
  | succ count ih =>
    rw [List.range'_succ, List.map_cons, List.sum_cons] at room
    -- The first value may use what all of them may use; the others keep the rest of it.
    have own := fill_eq fixed (below value draft · (room.of_le (Nat.le_add_right _ _)))
      (show value < 2 ^ 32 by omega) reached reserved
    rw [List.range'_succ, List.foldlM_cons, List.mapM_cons, own]
    cases answer : partition available (selected test value group) with
    | error group => rfl
    | ok tree =>
      have after := room.after (splits_of_partition answer)
      rw [← size_nodes_advanced draft front back count level,
        ← size_edges_advanced reserved level] at after
      change List.foldlM _ (draft.advanced front back count level tree) _ = _
      rw [ih (by omega) (by simp [reached, Nat.add_assoc]) rfl after]
      cases (List.range' (value + 1) count).mapM fun value =>
          partition available (selected test value group) with
      | error group => rfl
      | ok rest => exact congrArg Except.ok (filled_advanced reserved level tree rest)

end

theorem sum_selected_range' (test : Span) (group : List Entry) :
    ((List.range' 0 test.fanout).map fun value => (selected test value group).length).sum =
      group.length := by
  rw [← List.range_eq_range']
  exact sum_selected test group

def begun (draft : Draft) (test : Span) : Draft where
  nodes := draft.nodes.push (.branch test draft.edges.size)
  edges := draft.edges ++ Array.replicate test.fanout 0
  depth := draft.depth

theorem push_reserve {draft : Draft} (small : draft.nodes.size < 2 ^ 32) (test : Span) :
    (draft.reserve test.fanout).push (.branch test draft.edges.size) =
      .ok (draft.nodes.size, draft.begun test) :=
  push_of_lt (draft.reserve test.fanout) small (.branch test draft.edges.size)

theorem edges_begun (draft : Draft) (test : Span) :
    (draft.begun test).edges =
      (draft.edges.toList ++ List.replicate test.fanout 0 ++ []).toArray := by
  simp [begun]

theorem filled_begun (draft : Draft) {test : Span} {children : List Tree}
    (full : children.length = test.fanout) (level : Nat) :
    (draft.begun test).filled draft.edges.toList [] (level + 1) children =
      draft.extended level (.branch test children) := by
  simp [filled, begun, extended, layoutNodes, layoutEdges, reach, full]

theorem write_branch {available : Word} {group : List Entry} {test : Span}
    (several : 2 ≤ group.length)
    (chosen : Automaton.widestRun? (commonBits available group) = some test) {draft : Draft}
    (nodes : draft.nodes.size < 2 ^ 32) (edges : draft.edges.size < 2 ^ 32) (level : Nat) :
    write available group level draft =
      ((List.range test.fanout).foldlM
        (fill (fun rows draft => write (available &&& ~~~test.mask) rows (level + 1) draft) test
          group draft.edges.size) (draft.begun test)).map fun filled =>
            (draft.nodes.size, filled) := by
  rw [write_of_some several chosen]
  simp only [numbered_of_lt edges, push_reserve nodes, bind, Except.bind]
  rfl

theorem write_eq {available : Word} {group : List Entry} (nonempty : group ≠ []) (draft : Draft)
    (room : Room draft.nodes.size draft.edges.size available group.length) (level : Nat) :
    write available group level draft = draft.outcome level (partition available group) := by
  induction available, group using partition.induct generalizing draft level with
  | case1 available => contradiction
  | case2 available entry =>
    have small : draft.nodes.size < 2 ^ 32 := room.lt Nat.one_pos
    have pushed := push_of_lt { draft with depth := max draft.depth level } small (.leaf entry.row)
    rw [write, pushed, partition]
    simp [outcome, extended, layoutNodes, layoutEdges, reach, Except.map, Except.mapError]
  | case3 available first second rest group exhausted =>
    have several : 2 ≤ (first :: second :: rest).length := by simp
    rw [write_of_none several exhausted, partition_of_none several exhausted]
    rfl
  | case4 available first second rest group test chosen ih =>
    have several : 2 ≤ (first :: second :: rest).length := by simp
    have rows : 0 < (first :: second :: rest).length := by simp
    obtain ⟨small, below⟩ := room.below rows (fits_of_widestRun? chosen)
    have narrow : 0 + test.fanout ≤ 2 ^ 32 := by
      rw [Nat.zero_add]
      exact (Nat.le_add_left _ _).trans ((Nat.le_add_right _ _).trans below.edges)
    have share : Room (draft.begun test).nodes.size (draft.begun test).edges.size
        (available &&& ~~~test.mask) ((List.range' 0 test.fanout).map fun value =>
          (selected test value (first :: second :: rest)).length).sum := by
      rw [sum_selected_range']
      simpa [begun] using below
    have filled := foldlM_fill
      (fun rows draft => write (available &&& ~~~test.mask) rows (level + 1) draft)
      (fits_of_widestRun? chosen).fixed
      (fun value draft present room => ih value present draft room (level + 1)) narrow rfl
      (edges_begun draft test) share
    rw [Array.length_toList] at filled
    rw [write_branch several chosen (room.lt rows) small, partition_of_some several chosen,
      List.range_eq_range', filled]
    cases done : (List.range' 0 test.fanout).mapM fun value =>
        partition (available &&& ~~~test.mask) (selected test value (first :: second :: rest)) with
    | error group => rfl
    | ok children =>
      have full : children.length = test.fanout := by simpa using Traversal.length_of_mapM done
      exact congrArg (fun after => Except.ok (draft.nodes.size, after))
        (filled_begun draft full level)

end Draft

namespace Automaton

theorem ofTree_eq_extended {available : Word} {group : List Entry} {tree : Tree}
    (split : Tree.Splits available group tree) (nonempty : group ≠ []) :
    let draft := Draft.extended ⟨#[.invalid], #[], 0⟩ 0 tree
    (⟨draft.nodes, draft.edges, 1, draft.depth⟩ : Automaton) = ofTree tree := by
  have depth := split.reach_eq nonempty 0
  have root : tree.reference 1 = 1 := root_ofTree split nonempty
  simp [Draft.extended, ofTree, depth, root]

theorem write_eq_build {patterns : List Pattern} (few : patterns.length ≤ 2000000) :
    Automaton.write patterns = (build patterns).mapError .rejected := by
  rw [Automaton.write, build]
  by_cases empty : patterns.isEmpty = true
  · rw [if_pos empty, if_pos empty]
    rfl
  · rw [if_neg empty, if_neg empty]
    cases firstOverlap? patterns with
    | some overlap => rfl
    | none =>
      have rows : entries patterns ≠ [] := by simpa [entries] using empty
      have length : (entries patterns).length = patterns.length := by simp [entries]
      have budget := Word.card_ones_le (BitVec.allOnes 32)
      have room : Draft.Room 1 0 (BitVec.allOnes 32) (entries patterns).length := by
        have nodes := Nat.mul_le_mul few (Nat.add_le_add_left budget 1)
        have edges := Nat.mul_le_mul few (Nat.mul_le_mul_left 32 budget)
        constructor <;> rw [length] <;> omega
      have written := Draft.write_eq rows ⟨#[.invalid], #[], 0⟩ room 0
      simp only [written, Automaton.tree]
      cases answer : Tree.partition (BitVec.allOnes 32) (entries patterns) with
      | error group => rfl
      | ok tree =>
        exact congrArg Except.ok (ofTree_eq_extended (Tree.splits_of_partition answer) rows)

theorem write_of_build {patterns : List Pattern} {automaton : Automaton}
    (done : build patterns = .ok automaton) (few : patterns.length ≤ 2000000) :
    Automaton.write patterns = .ok automaton := by
  rw [write_eq_build few, done]
  rfl

/-- The arena of a table that builds is a proper tree, also when it is written in place. -/
theorem properTree_of_build {patterns : List Pattern} {automaton : Automaton}
    (done : build patterns = .ok automaton) :
    ProperTree patterns.length automaton ∧
      (patterns.length ≤ 2000000 → Automaton.write patterns = .ok automaton) :=
  ⟨proper_of_build done, write_of_build done⟩

theorem properTree_nestedRows :
    build nestedRows = .ok nestedAutomaton ∧ ProperTree 3 nestedAutomaton ∧
      Automaton.write nestedRows = .ok nestedAutomaton := by
  obtain ⟨proper, written⟩ := properTree_of_build build_nestedRows
  exact ⟨build_nestedRows, proper, written (by decide)⟩

end Automaton

end OpenRisc
