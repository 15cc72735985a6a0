import OpenRisc.Proofs.Automaton.Arena
import OpenRisc.Proofs.Automaton.Size

set_option autoImplicit false

namespace OpenRisc

theorem Word.toNat_ofNat_of_lt {number : Nat} (small : number < 2 ^ 32) :
    (BitVec.ofNat 32 number).toNat = number := by
  rw [BitVec.toNat_ofNat, Nat.mod_eq_of_lt small]

def Node.Sound (rows edges : Nat) : Node → Prop
  | .invalid => True
  | .leaf row => row < rows
  | .branch test firstEdge =>
    test.start + test.width ≤ 32 ∧ 0 < test.width ∧ firstEdge + test.fanout ≤ edges

theorem Node.Sound.mono {rows rows' edges edges' : Nat} {node : Node} (sound : node.Sound rows edges)
    (more : rows ≤ rows') (longer : edges ≤ edges') : node.Sound rows' edges' := by
  cases node with
  | invalid => trivial
  | leaf row => exact Nat.lt_of_lt_of_le sound more
  | branch test firstEdge => exact ⟨sound.1, sound.2.1, sound.2.2.trans longer⟩

namespace Tree

theorem forestNodes_sound {rows : Nat} {children : List Tree}
    (each : ∀ child ∈ children, ∀ edge, ∀ node ∈ child.layoutNodes edge,
      node.Sound rows (edge + child.edgeCount))
    {edge : Nat} {node : Node} (member : node ∈ forestNodes edge children) :
    node.Sound rows (edge + forestEdgeCount children) := by
  induction children generalizing edge with
  | nil => simp [forestNodes] at member
  | cons child rest ih =>
    rw [forestNodes, List.mem_append] at member
    rw [forestEdgeCount]
    rcases member with here | later
    · exact (each child List.mem_cons_self edge node here).mono (Nat.le_refl _) (by omega)
    · have sound := ih (fun child member => each child (List.mem_cons_of_mem _ member)) later
      exact sound.mono (Nat.le_refl _) (by omega)

theorem Splits.sound {rows : Nat} {available : Word} {group : List Entry} {tree : Tree}
    (split : Splits available group tree) (known : ∀ entry ∈ group, entry.row < rows) (edge : Nat) :
    ∀ node ∈ tree.layoutNodes edge, node.Sound rows (edge + tree.edgeCount) := by
  induction split generalizing edge with
  | invalid available => simp [layoutNodes]
  | leaf available entry =>
    intro node member
    rw [layoutNodes, List.mem_singleton] at member
    subst member
    exact known entry (List.mem_singleton_self _)
  | @branch available group test children several chosen full parts ih =>
    intro node member
    have fits := fits_of_widestRun? chosen
    rw [layoutNodes, List.mem_cons] at member
    rcases member with rfl | below
    · refine ⟨fits.inside, fits.nonempty, ?_⟩
      rw [edgeCount, full]
      omega
    · have each : ∀ child ∈ children, ∀ edge, ∀ node ∈ child.layoutNodes edge,
          node.Sound rows (edge + child.edgeCount) := by
        intro child member
        obtain ⟨value, present⟩ := List.mem_iff_getElem?.mp member
        exact ih value child present fun entry kept => known entry (mem_selected.mp kept).1
      rw [edgeCount, ← Nat.add_assoc]
      exact forestNodes_sound each below

end Tree

namespace Automaton

structure Compact (automaton : Automaton) : Prop where
  sound : ∀ node ∈ automaton.nodes, node.Sound (2 ^ 31 - 1) automaton.edges.size
  small : 1 + (automaton.nodes.toList.map Node.recordSize).sum < 2 ^ 31

theorem sound_of_build {patterns : List Pattern} {automaton : Automaton}
    (done : build patterns = .ok automaton) :
    ∀ node ∈ automaton.nodes, node.Sound patterns.length automaton.edges.size := by
  obtain ⟨_, _, root, built, rfl⟩ := build_eq_ok_iff.mp done
  have split := Tree.splits_of_partition built
  intro node member
  rw [ofTree, List.mem_toArray, List.mem_cons] at member
  rcases member with rfl | below
  · trivial
  · have sound := split.sound (fun entry => row_lt_of_mem_entries) 0 node below
    simpa [ofTree, Tree.length_layoutEdges] using sound

theorem sum_recordSize_of_build {patterns : List Pattern} {automaton : Automaton}
    (done : build patterns = .ok automaton) :
    (automaton.nodes.toList.map Node.recordSize).sum ≤ 1032 * patterns.length := by
  obtain ⟨_, _, root, built, rfl⟩ := build_eq_ok_iff.mp done
  have bound := (Tree.splits_of_partition built).sum_recordSize_le 0
  have length : (entries patterns).length = patterns.length := by simp [entries]
  rw [ofTree, List.map_cons, List.sum_cons, show Node.recordSize .invalid = 0 from rfl]
  omega

theorem compact_of_build {patterns : List Pattern} {automaton : Automaton}
    (few : patterns.length ≤ 2000000) (done : build patterns = .ok automaton) :
    automaton.Compact := by
  have records := sum_recordSize_of_build done
  constructor
  · exact fun node member =>
      (sound_of_build done node member).mono (by omega) (Nat.le_refl _)
  · omega

theorem getLsbD_leafMarker (p : Nat) : leafMarker.getLsbD p = decide (p = 31) := by
  rw [show leafMarker = BitVec.twoPow 32 31 from rfl, BitVec.getLsbD_twoPow]
  simp [eq_comm]

theorem and_leafMarker {word : Word} (small : word.toNat < 2 ^ 31) : word &&& leafMarker = 0 := by
  apply BitVec.eq_of_getLsbD_eq
  intro p _
  rw [BitVec.getLsbD_and, getLsbD_leafMarker]
  by_cases top : p = 31
  · subst top
    rw [BitVec.getLsbD, Nat.testBit_lt_two_pow small]
    rfl
  · simp [top]

theorem marked_and_leafMarker (word : Word) : (leafMarker ||| word) &&& leafMarker ≠ 0 := by
  intro zero
  have bit := congrArg (fun word => word.getLsbD 31) zero
  simp [getLsbD_leafMarker, -BitVec.getLsbD_eq_getElem] at bit

theorem marked_and_not_leafMarker {word : Word} (small : word.toNat < 2 ^ 31) :
    (leafMarker ||| word) &&& ~~~leafMarker = word := by
  have clear := and_leafMarker small
  apply BitVec.eq_of_getLsbD_eq
  intro p inside
  have bit := congrArg (fun word => word.getLsbD p) clear
  simp only [BitVec.getLsbD_and, getLsbD_leafMarker] at bit
  rw [BitVec.getLsbD_and, BitVec.getLsbD_or, BitVec.getLsbD_not, getLsbD_leafMarker]
  by_cases top : p = 31
  · simpa [top] using bit.symm
  · simp [top, inside]

section

variable {automaton : Automaton}

theorem Compact.node (compact : automaton.Compact) {node : Nat} {content : Node}
    (read : automaton.nodes[node]? = some content) :
    content.Sound (2 ^ 31 - 1) automaton.edges.size :=
  compact.sound content (Array.mem_of_getElem? read)

theorem children_getElem? {node firstEdge value next : Nat} {test : Span}
    (read : automaton.nodes[node]? = some (.branch test firstEdge)) (within : value < test.fanout)
    (linked : automaton.edges[firstEdge + value]? = some next) :
    (automaton.children node)[value]? = some next := by
  simp only [children, read]
  rw [List.getElem?_take_of_lt within, List.getElem?_drop, Array.getElem?_toList, linked]

theorem recordOffset_eq (automaton : Automaton) (node : Nat) :
    automaton.recordOffset node =
      1 + ((automaton.nodes.toList.take node).map Node.recordSize).sum := by
  have total (nodes : List Node) (offset : Nat) :
      nodes.foldl (fun offset node => offset + node.recordSize) offset =
        offset + (nodes.map Node.recordSize).sum := by
    induction nodes generalizing offset with
    | nil => simp
    | cons node rest ih => rw [List.foldl_cons, ih, List.map_cons, List.sum_cons, Nat.add_assoc]
  exact total _ 1

theorem length_record {rows node : Nat} {content : Node}
    (sound : content.Sound rows automaton.edges.size)
    (read : automaton.nodes[node]? = some content) :
    (automaton.record node).length = content.recordSize := by
  cases content with
  | invalid => simp [record, read, Node.recordSize]
  | leaf row => simp [record, read, Node.recordSize]
  | branch test firstEdge =>
    obtain ⟨_, _, linked⟩ := sound
    have length : (automaton.children node).length = test.fanout := by
      simp only [children, read, List.length_take, List.length_drop, Array.length_toList]
      omega
    simp only [record, read, List.length_cons, List.length_map, length, Node.recordSize]
    omega

theorem length_records {rows : Nat}
    (sound : ∀ node ∈ automaton.nodes, node.Sound rows automaton.edges.size) {count : Nat}
    (inside : count ≤ automaton.nodes.size) :
    ((List.range count).flatMap automaton.record).length =
      ((automaton.nodes.toList.take count).map Node.recordSize).sum := by
  induction count with
  | zero => simp
  | succ count ih =>
    have read := Array.getElem?_eq_getElem (show count < automaton.nodes.size by omega)
    have last := length_record (sound _ (Array.getElem_mem _)) read
    rw [List.range_succ, List.flatMap_append, List.length_append, ih (by omega), List.take_add_one,
      Array.getElem?_toList, read, List.map_append, List.sum_append]
    simp [last]

theorem size_serialize {rows : Nat}
    (sound : ∀ node ∈ automaton.nodes, node.Sound rows automaton.edges.size) :
    automaton.serialize.size = 1 + (automaton.nodes.toList.map Node.recordSize).sum := by
  have records := length_records sound (Nat.le_refl _)
  rw [← Array.length_toList, List.take_length] at records
  rw [← records, serialize]
  simp [Nat.add_comm]

theorem placed_record (compact : automaton.Compact) {node : Nat}
    (inside : node < automaton.nodes.size) :
    Placed (automaton.record node) automaton.serialize.toList (automaton.recordOffset node) := by
  have whole : Placed ((List.range automaton.nodes.size).flatMap automaton.record)
      automaton.serialize.toList 1 :=
    (Placed.self (automaton.entry automaton.root :: _)).tail
  obtain ⟨later, count⟩ := Nat.exists_eq_add_of_lt inside
  rw [recordOffset_eq]
  rw [show automaton.nodes.size = node + (later + 1) by omega, List.range_add, List.flatMap_append,
    List.range_succ_eq_map, List.map_cons, List.flatMap_cons] at whole
  have placed := whole.append_right.append_left
  rwa [length_records compact.sound (by omega)] at placed

theorem recordOffset_lt (compact : automaton.Compact) (node : Nat) :
    automaton.recordOffset node < 2 ^ 31 := by
  have total := compact.small
  rw [← List.take_append_drop node automaton.nodes.toList, List.map_append, List.sum_append] at total
  rw [recordOffset_eq]
  omega

theorem entry_leaf (compact : automaton.Compact) {node row : Nat}
    (read : automaton.nodes[node]? = some (.leaf row)) :
    automaton.entry node ≠ invalidEntry ∧ automaton.entry node &&& leafMarker ≠ 0 ∧
      (automaton.entry node &&& ~~~leafMarker).toNat = row := by
  have bound : row < 2 ^ 31 - 1 := compact.node read
  have number : (BitVec.ofNat 32 row).toNat = row := Word.toNat_ofNat_of_lt (by omega)
  have content := marked_and_not_leafMarker (number.trans_lt (by omega : row < 2 ^ 31))
  have same : automaton.entry node = leafMarker ||| BitVec.ofNat 32 row := by simp only [entry, read]
  rw [same]
  refine ⟨fun invalid => ?_, marked_and_leafMarker _, by rw [content, number]⟩
  rw [invalid] at content
  have full := congrArg BitVec.toNat content
  rw [number, show (invalidEntry &&& ~~~leafMarker).toNat = 2 ^ 31 - 1 from rfl] at full
  omega

theorem entry_branch (compact : automaton.Compact) {node firstEdge : Nat} {test : Span}
    (read : automaton.nodes[node]? = some (.branch test firstEdge)) :
    automaton.entry node &&& leafMarker = 0 ∧
      (automaton.entry node).toNat = automaton.recordOffset node := by
  have bound := recordOffset_lt compact node
  have same : automaton.entry node = BitVec.ofNat 32 (automaton.recordOffset node) := by
    simp only [entry, read]
  have number : (automaton.entry node).toNat = automaton.recordOffset node := by
    rw [same]
    exact Word.toNat_ofNat_of_lt (by omega)
  exact ⟨and_leafMarker (number.trans_lt bound), number⟩

theorem ne_invalidEntry {word : Word} (unmarked : word &&& leafMarker = 0) : word ≠ invalidEntry := by
  rintro rfl
  exact absurd unmarked (by decide)

theorem serialize_getElem? (compact : automaton.Compact) {node : Nat} {content : Node}
    (read : automaton.nodes[node]? = some content) {i : Nat} {word : Word}
    (written : (automaton.record node)[i]? = some word) :
    automaton.serialize[automaton.recordOffset node + i]? = some word := by
  have inside := (Array.getElem?_eq_some_iff.mp read).1
  rw [← Array.getElem?_toList]
  exact (placed_record compact inside).getElem? written

theorem serialize_branch (compact : automaton.Compact) {node firstEdge : Nat} {test : Span}
    (read : automaton.nodes[node]? = some (.branch test firstEdge)) :
    automaton.serialize[automaton.recordOffset node]? = some (BitVec.ofNat 32 test.start) ∧
      automaton.serialize[automaton.recordOffset node + 1]? = some (Word.lowMask test.width) ∧
      ∀ value next, value < test.fanout → automaton.edges[firstEdge + value]? = some next →
        automaton.serialize[automaton.recordOffset node + 2 + value]? =
          some (automaton.entry next) := by
  refine ⟨?_, ?_, fun value next within linked => ?_⟩
  · exact serialize_getElem? compact read (i := 0) (by simp only [record, read]; rfl)
  · exact serialize_getElem? compact read (i := 1) (by simp only [record, read]; rfl)
  · have child := children_getElem? read within linked
    rw [Nat.add_assoc]
    refine serialize_getElem? compact read ?_
    simp only [record, read]
    rw [Nat.add_comm 2, List.getElem?_cons_succ, List.getElem?_cons_succ, List.getElem?_map, child]
    rfl

theorem record_inside (compact : automaton.Compact) {node firstEdge : Nat} {test : Span}
    (read : automaton.nodes[node]? = some (.branch test firstEdge)) :
    automaton.recordOffset node + (2 + test.fanout) ≤ automaton.serialize.size := by
  have inside := (Array.getElem?_eq_some_iff.mp read).1
  have length := length_record (compact.node read) read
  have room := (placed_record compact inside).length_le (by simp [record, read])
  rwa [length, Node.recordSize, Array.length_toList] at room

theorem walkEntry_of_stores (compact : automaton.Compact) {raw : Word} {tree : Tree}
    {branches : Nat} {result : Option Nat} (leads : tree.Leads raw branches result) {node : Nat}
    (stored : automaton.Stores tree node) {looked : Nat} (enough : branches < looked) :
    walkEntry automaton.serialize raw looked (automaton.entry node) = result := by
  induction leads generalizing node looked with
  | invalid =>
    obtain ⟨looked, rfl⟩ := Nat.exists_eq_succ_of_ne_zero (Nat.ne_of_gt enough)
    cases stored with
    | invalid read =>
      have invalid : automaton.entry 0 = invalidEntry := by simp only [entry, read]
      rw [walkEntry, if_pos invalid]
  | leaf row =>
    obtain ⟨looked, rfl⟩ := Nat.exists_eq_succ_of_ne_zero (Nat.ne_of_gt enough)
    cases stored with
    | leaf read =>
      obtain ⟨valid, marked, content⟩ := entry_leaf compact read
      rw [walkEntry, if_neg valid, if_pos marked, content]
  | @branch test children child branches result selected rest ih =>
    obtain ⟨looked, rfl⟩ := Nat.exists_eq_succ_of_ne_zero (show looked ≠ 0 by omega)
    cases stored with
    | branch read count linked below =>
      rename_i firstEdge
      obtain ⟨unmarked, offset⟩ := entry_branch compact read
      obtain ⟨inside, nonempty, _⟩ := compact.node read
      have within := count ▸ (List.getElem?_eq_some_iff.mp selected).1
      have edge := Array.getElem?_eq_getElem
        (show firstEdge + (test.read raw).toNat < automaton.edges.size by omega)
      obtain ⟨start, mask, entries⟩ := serialize_branch compact read
      have target := entries _ _ within edge
      have position : (BitVec.ofNat 32 test.start).toNat % 32 = test.start := by
        rw [Word.toNat_ofNat_of_lt (by omega)]
        omega
      rw [walkEntry, if_neg (ne_invalidEntry unmarked), if_neg (not_not.mpr unmarked), offset]
      simp only [start, mask, Option.bind_eq_bind, Option.bind_some, position]
      rw [← Span.read, target]
      exact ih (below _ _ _ selected edge) (Nat.lt_of_succ_lt_succ enough)

theorem serialize_zero : automaton.serialize[0]? = some (automaton.entry automaton.root) := by
  simp [serialize]

end

end Automaton

end OpenRisc
