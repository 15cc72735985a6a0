import OpenRisc.Automaton.Flatten
import OpenRisc.Proofs.Automaton.ProperTree
import OpenRisc.Proofs.Automaton.Serialization

set_option autoImplicit false

namespace OpenRisc.Automaton

variable {automaton : Automaton}

def recordsFrom (automaton : Automaton) (node count : Nat) : List Word :=
  (List.range' node count).flatMap automaton.record

theorem recordsFrom_add (node first second : Nat) :
    automaton.recordsFrom node (first + second) =
      automaton.recordsFrom node first ++ automaton.recordsFrom (node + first) second := by
  rw [recordsFrom, recordsFrom, recordsFrom, ← List.flatMap_append, List.range'_append_1]

theorem recordsFrom_succ (node count : Nat) :
    automaton.recordsFrom node (count + 1) =
      automaton.record node ++ automaton.recordsFrom (node + 1) count := by
  rw [recordsFrom, List.range'_succ, List.flatMap_cons, recordsFrom]

theorem recordOffset_succ {node : Nat} {content : Node}
    (read : automaton.nodes[node]? = some content) :
    automaton.recordOffset (node + 1) = automaton.recordOffset node + content.recordSize := by
  rw [recordOffset_eq, recordOffset_eq, List.take_add_one, Array.getElem?_toList, read,
    List.map_append, List.sum_append, Nat.add_assoc]
  simp

theorem recordOffset_add (compact : automaton.Compact) {node count : Nat}
    (inside : node + count ≤ automaton.nodes.size) :
    automaton.recordOffset (node + count) =
      automaton.recordOffset node + (automaton.recordsFrom node count).length := by
  induction count with
  | zero => simp [recordsFrom]
  | succ count ih =>
    have read := Array.getElem?_eq_getElem (show node + count < automaton.nodes.size by omega)
    have last : automaton.recordsFrom (node + count) 1 = automaton.record (node + count) := by
      simp [recordsFrom]
    rw [← Nat.add_assoc, recordOffset_succ read, ih (by omega), recordsFrom_add, List.length_append,
      last, length_record (compact.node read) read, Nat.add_assoc]

theorem serialize_eq_recordsFrom (automaton : Automaton) :
    automaton.serialize =
      (automaton.entry automaton.root :: automaton.recordsFrom 0 automaton.nodes.size).toArray := by
  rw [serialize, recordsFrom, List.range_eq_range']

def Appends (automaton : Automaton) (append : Nat → Array Word → Array Word × Word) (tree : Tree) :
    Prop :=
  ∀ node edge image, automaton.Laid tree node edge → image.size = automaton.recordOffset node →
    append (tree.reference node) image =
      (image ++ (automaton.recordsFrom node tree.nodeCount).toArray,
        automaton.entry (tree.reference node))

theorem fillFrom_of_laid (compact : automaton.Compact)
    {append : Nat → Array Word → Array Word × Word} {children : List Tree}
    (each : ∀ child ∈ children, automaton.Appends append child) {node edge : Nat}
    (nodes : Placed (Tree.forestNodes edge children) automaton.nodes.toList node)
    (edges : Placed (Tree.forestEdges node children) automaton.edges.toList edge)
    (inside : node + Tree.forestNodeCount children ≤ automaton.nodes.size)
    (front back : List Word)
    (reached : front.length + children.length + back.length = automaton.recordOffset node) :
    fillFrom append front.length (Tree.references node children)
        (front ++ List.replicate children.length invalidEntry ++ back).toArray =
      (front ++ (Tree.references node children).map automaton.entry ++ back ++
        automaton.recordsFrom node (Tree.forestNodeCount children)).toArray := by
  induction children generalizing node edge front back with
  | nil => simp [Tree.references, fillFrom, Tree.forestNodeCount, recordsFrom]
  | cons child rest ih =>
    rw [Tree.forestNodes] at nodes
    rw [Tree.forestEdges] at edges
    rw [Tree.forestNodeCount] at inside ⊢
    have laterNodes := nodes.append_right
    have laterEdges := edges.append_right
    rw [Tree.length_layoutNodes] at laterNodes
    rw [Tree.length_layoutEdges] at laterEdges
    have appended := each child List.mem_cons_self node edge
      (front ++ List.replicate (rest.length + 1) invalidEntry ++ back).toArray
      ⟨nodes.append_left, edges.append_left⟩ (by simpa [Nat.add_assoc] using reached)
    have offset := recordOffset_add compact
      (show node + child.nodeCount ≤ automaton.nodes.size by omega)
    have later := ih (fun other member => each other (List.mem_cons_of_mem _ member)) laterNodes
      laterEdges (by omega) (front ++ [automaton.entry (child.reference node)])
      (back ++ automaton.recordsFrom node child.nodeCount) (by
        simp only [List.length_append, List.length_cons, List.length_nil] at reached ⊢
        omega)
    rw [List.length_append, List.length_singleton] at later
    rw [Tree.references, fillFrom, List.length_cons, appended]
    simp only [List.append_toArray, List.setIfInBounds_toArray]
    rw [List.append_assoc _ back, set_reserved, later, recordsFrom_add]
    simp only [List.map_cons, List.append_assoc, List.nil_append, List.cons_append]

theorem children_of_laid {test : Span} {children : List Tree} {node edge : Nat}
    (laid : automaton.Laid (.branch test children) node edge)
    (count : children.length = test.fanout) :
    automaton.nodes[node]? = some (.branch test edge) ∧
      automaton.children node = Tree.references (node + 1) children := by
  have nodes := laid.nodes
  have edges := laid.edges
  rw [Tree.layoutNodes] at nodes
  rw [Tree.layoutEdges] at edges
  have read : automaton.nodes[node]? = some (.branch test edge) := by
    simpa using nodes.getElem? (i := 0) rfl
  have block := List.prefix_iff_eq_take.mp edges.append_left
  rw [Tree.length_references, count] at block
  refine ⟨read, ?_⟩
  rw [Automaton.children, read]
  exact block.symm

theorem reserve_eq (test : Span) (image : Array Word) :
    reserve test image =
      (image.toList ++ [BitVec.ofNat 32 test.start, Word.lowMask test.width] ++
        List.replicate test.fanout invalidEntry ++ []).toArray := by
  simp [reserve]

theorem appends_of_full (compact : automaton.Compact)
    (shared : automaton.nodes[0]? = some .invalid) {tree : Tree} (full : tree.Full)
    {branches : Nat} (deep : tree.depth ≤ branches) :
    automaton.Appends (automaton.appendFrom branches) tree := by
  induction full generalizing branches with
  | invalid =>
    intro node edge image laid reached
    have nothing : automaton.recordsFrom node (Tree.nodeCount .invalid) = [] := rfl
    rw [nothing, Tree.reference, appendFrom, entry, shared]
    simp
  | leaf row =>
    intro node edge image laid reached
    have read : automaton.nodes[node]? = some (.leaf row) := by
      simpa using laid.nodes.getElem? (i := 0) rfl
    have nothing : automaton.recordsFrom node (Tree.nodeCount (.leaf row)) = [] := by
      simp [recordsFrom, Tree.nodeCount, record, read]
    change automaton.appendFrom branches node image = (_, automaton.entry node)
    rw [nothing, appendFrom, entry, read]
    simp
  | @branch test children count each ih =>
    intro node edge image laid reached
    obtain ⟨read, references⟩ := children_of_laid laid count
    cases branches with
    | zero => simp [Tree.depth] at deep
    | succ branches =>
      rw [Tree.depth, Nat.succ_le_succ_iff] at deep
      obtain ⟨nodes, edges⟩ := laid.below
      have room := laid.length_le (Nat.succ_pos _)
      rw [Tree.nodeCount] at room
      have below : ∀ child ∈ children, automaton.Appends (automaton.appendFrom branches) child :=
        fun child member => ih child member ((Tree.depth_le_forestDepth member).trans deep)
      have filled := fillFrom_of_laid compact below nodes edges (by omega)
        (image.toList ++ [BitVec.ofNat 32 test.start, Word.lowMask test.width]) []
        (by
          rw [recordOffset_succ read, Node.recordSize, ← reached]
          simp
          omega)
      have front : (image.toList ++
          [BitVec.ofNat 32 test.start, Word.lowMask test.width]).length = image.size + 2 := by simp
      change automaton.appendFrom (branches + 1) node image =
        (image ++ (automaton.recordsFrom node (Tree.forestNodeCount children + 1)).toArray,
          automaton.entry node)
      rw [appendFrom, entry, read, recordsFrom_succ, record, read, references, ← reached]
      simp only [reserve_eq]
      rw [← count, ← front, filled]
      simp

theorem flatten_eq_serialize {patterns : List Pattern} (few : patterns.length ≤ 2000000)
    (done : build patterns = .ok automaton) : automaton.flatten = automaton.serialize := by
  have compact := compact_of_build few done
  obtain ⟨nonempty, _, root, built, rfl⟩ := build_eq_ok_iff.mp done
  have split := Tree.splits_of_partition built
  have rows : entries patterns ≠ [] := by simpa [entries] using nonempty
  have deep : root.depth ≤ maxBranches :=
    (depth_le_budget split rows (stores_ofTree split.full)).trans (Word.card_ones_le _)
  have shared : (ofTree root).nodes[0]? = some .invalid := rfl
  have nothing : (ofTree root).record 0 = [] := by rw [record, shared]
  have behind : (#[0] : Array Word).size = (ofTree root).recordOffset 1 := recordOffset_succ shared
  have appended := appends_of_full compact shared split.full deep 1 0 #[0] (laid_ofTree root) behind
  have first : (ofTree root).root = root.reference 1 := rfl
  rw [serialize_eq_recordsFrom, size_nodes_ofTree, recordsFrom_succ, nothing, flatten, first,
    appended]
  simp

/-- A walk through the image of an automaton ends where the walk through its arena does. -/
theorem walkImage_serialize {patterns : List Pattern} {automaton : Automaton}
    (few : patterns.length ≤ 2000000) (done : build patterns = .ok automaton) (raw : Word) :
    walkImage automaton.serialize raw = automaton.walk raw ∧
      walkImage automaton.flatten raw = automaton.walk raw ∧
      automaton.flatten = automaton.serialize ∧
      (automaton.trace raw).arrival ≠ .lost ∧ (automaton.trace raw).path.length ≤ maxBranches ∧
      (∀ looked, (automaton.trace raw).path.length < looked →
        walkEntry automaton.serialize raw looked (automaton.entry automaton.root) =
          automaton.walk raw) ∧
      (∀ node row, automaton.nodes[node]? = some (.leaf row) →
        automaton.entry node ≠ invalidEntry ∧ automaton.entry node &&& leafMarker ≠ 0 ∧
          (automaton.entry node &&& ~~~leafMarker).toNat = row) ∧
      ∀ node test firstEdge, automaton.nodes[node]? = some (.branch test firstEdge) →
        automaton.entry node &&& leafMarker = 0 ∧
          (automaton.entry node).toNat = automaton.recordOffset node := by
  have compact := compact_of_build few done
  have finds := finds_of_build done raw
  obtain ⟨tree, stored, leads⟩ := finds.descends
  have walked (looked : Nat) (enough : (automaton.trace raw).path.length < looked) :=
    walkEntry_of_stores compact leads stored enough
  have read : walkImage automaton.serialize raw = automaton.walk raw := by
    rw [walkImage, serialize_zero]
    exact walked (maxBranches + 1) (Nat.lt_succ_of_le finds.short)
  have written := flatten_eq_serialize few done
  exact ⟨read, written ▸ read, written, finds.arrives, finds.short, walked,
    fun _ _ => entry_leaf compact, fun _ _ _ => entry_branch compact⟩

theorem walkImage_two_rows :
    ∃ automaton, build [⟨0x55555555, 0x00000000⟩, ⟨0x55555555, 0x40000000⟩] = .ok automaton ∧
      walkImage automaton.serialize 0xEAAAAAAA = automaton.walk 0xEAAAAAAA ∧
      walkImage automaton.flatten 0xEAAAAAAA = automaton.walk 0xEAAAAAAA := by
  obtain ⟨automaton, done⟩ := Traversal.exists_of_isOk
    (show (build [⟨0x55555555, 0x00000000⟩, ⟨0x55555555, 0x40000000⟩]).isOk = true by
      decide +kernel)
  obtain ⟨read, written, _⟩ := walkImage_serialize (by decide) done 0xEAAAAAAA
  exact ⟨automaton, done, read, written⟩

end OpenRisc.Automaton
