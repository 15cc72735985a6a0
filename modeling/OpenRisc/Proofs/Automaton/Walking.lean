import OpenRisc.Proofs.Automaton.Serialization

set_option autoImplicit false

namespace OpenRisc.Automaton

/-- The walk that `raw` takes from a node, however long it is. Whatever it reads is there to be read,
and it ends at a row or at the invalid node. -/
inductive Walks (automaton : Automaton) (raw : Word) : (node : Nat) → Trace → Prop where
  | row {node index : Nat} (inside : node < automaton.nodes.size)
      (read : automaton.nodes[node] = .leaf index) : Walks automaton raw node ⟨[], .row index⟩
  | invalid {node : Nat} (inside : node < automaton.nodes.size)
      (read : automaton.nodes[node] = .invalid) : Walks automaton raw node ⟨[], .invalid⟩
  | branch {node firstEdge : Nat} {test : Span} {rest : Trace}
      (inside : node < automaton.nodes.size)
      (read : automaton.nodes[node] = .branch test firstEdge)
      (shifted : test.start < 32)
      (linked : firstEdge + (test.read raw).toNat < automaton.edges.size)
      (onward : Walks automaton raw automaton.edges[firstEdge + (test.read raw).toNat] rest) :
      Walks automaton raw node ⟨⟨node, test, (test.read raw).toNat⟩ :: rest.path, rest.arrival⟩

variable {automaton : Automaton} {raw : Word}

theorem traceFrom_of_walks {node : Nat} {trace : Trace} (walks : automaton.Walks raw node trace)
    {limit : Nat} (short : trace.path.length ≤ limit) :
    automaton.traceFrom raw limit node = trace := by
  induction walks generalizing limit with
  | row inside read =>
    rw [traceFrom, Array.getElem?_eq_getElem inside, read]
  | invalid inside read =>
    rw [traceFrom, Array.getElem?_eq_getElem inside, read]
  | branch inside read shifted linked onward ih =>
    cases limit with
    | zero => simp at short
    | succ limit =>
      rw [traceFrom]
      simp only [Array.getElem?_eq_getElem inside, read, Array.getElem?_eq_getElem linked,
        ih (Nat.le_of_succ_le_succ short)]

theorem Walks.unique {node : Nat} {one other : Trace} (walks : automaton.Walks raw node one)
    (walks' : automaton.Walks raw node other) : one = other := by
  rw [← traceFrom_of_walks walks (Nat.le_max_left one.path.length other.path.length)]
  exact traceFrom_of_walks walks' (Nat.le_max_right _ _)

theorem walks_of_stores (compact : automaton.Compact) {tree : Tree} {branches : Nat}
    {result : Option Nat} (leads : tree.Leads raw branches result) {node : Nat}
    (stored : automaton.Stores tree node) :
    ∃ trace, automaton.Walks raw node trace ∧ trace.path.length = branches := by
  induction leads generalizing node with
  | invalid =>
    cases stored with
    | invalid read =>
      obtain ⟨inside, same⟩ := Array.getElem?_eq_some_iff.mp read
      exact ⟨_, .invalid inside same, rfl⟩
  | leaf row =>
    cases stored with
    | leaf read =>
      obtain ⟨inside, same⟩ := Array.getElem?_eq_some_iff.mp read
      exact ⟨_, .row inside same, rfl⟩
  | @branch test children child branches result selected rest ih =>
    cases stored with
    | branch read count linked below =>
      rename_i firstEdge
      obtain ⟨inside, same⟩ := Array.getElem?_eq_some_iff.mp read
      obtain ⟨within, nonempty, _⟩ := compact.node read
      have edge : firstEdge + (test.read raw).toNat < automaton.edges.size := by
        have chosen := (List.getElem?_eq_some_iff.mp selected).1
        omega
      obtain ⟨trace, walks, length⟩ := ih (below _ _ _ selected (Array.getElem?_eq_getElem edge))
      exact ⟨_, .branch inside same (by omega) edge walks, congrArg Nat.succ length⟩

theorem walks_iff_of_build {patterns : List Pattern} (few : patterns.length ≤ 2000000)
    (done : build patterns = .ok automaton) (raw : Word) (trace : Trace) :
    automaton.Walks raw automaton.root trace ↔ trace = automaton.trace raw := by
  have finds := finds_of_build done raw
  obtain ⟨tree, stored, leads⟩ := finds.descends
  obtain ⟨walk, walks, length⟩ := walks_of_stores (compact_of_build few done) leads stored
  have same : automaton.trace raw = walk := traceFrom_of_walks walks (length.trans_le finds.short)
  rw [same]
  constructor
  · exact fun other => other.unique walks
  · rintro rfl
    exact walks

theorem size_lt_of_build {patterns : List Pattern} (few : patterns.length ≤ 2000000)
    (done : build patterns = .ok automaton) :
    automaton.nodes.size < 2 ^ 32 ∧ automaton.edges.size < 2 ^ 32 := by
  obtain ⟨_, _, root, built, rfl⟩ := build_eq_ok_iff.mp done
  have edges := (Tree.splits_of_partition built).edgeCount_le
  have nodes := root.nodeCount_le
  rw [show (entries patterns).length = patterns.length by simp [entries]] at edges
  simp only [ofTree, List.size_toArray, List.length_cons, Tree.length_layoutNodes,
    Tree.length_layoutEdges]
  omega

end OpenRisc.Automaton
