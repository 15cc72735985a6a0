import OpenRisc.Automaton.Walk
import OpenRisc.Proofs.Automaton.Descent

set_option autoImplicit false

namespace OpenRisc

def Placed {α : Type} (part whole : List α) (start : Nat) : Prop :=
  part <+: whole.drop start

namespace Placed

variable {α : Type} {part rest whole : List α} {start : Nat}

theorem self (whole : List α) : Placed whole whole 0 :=
  List.prefix_rfl

theorem append_left (placed : Placed (part ++ rest) whole start) : Placed part whole start :=
  (List.prefix_append part rest).trans placed

theorem append_right (placed : Placed (part ++ rest) whole start) :
    Placed rest whole (start + part.length) := by
  obtain ⟨after, same⟩ := placed
  refine ⟨after, ?_⟩
  rw [← List.drop_drop, ← same, List.append_assoc, List.drop_left]

theorem tail {head : α} (placed : Placed (head :: rest) whole start) :
    Placed rest whole (start + 1) := by
  have split : Placed ([head] ++ rest) whole start := placed
  exact split.append_right

theorem getElem? (placed : Placed part whole start) {i : Nat} {item : α}
    (present : part[i]? = some item) : whole[start + i]? = some item := by
  obtain ⟨after, same⟩ := placed
  rw [← List.getElem?_drop, ← same]
  exact List.getElem?_append_left (List.getElem?_eq_some_iff.mp present).1 ▸ present

theorem length_le (placed : Placed part whole start) (nonempty : part ≠ []) :
    start + part.length ≤ whole.length := by
  have bound := List.IsPrefix.length_le placed
  have some := List.length_pos_iff.mpr nonempty
  rw [List.length_drop] at bound
  omega

end Placed

theorem set_reserved {α : Type} (front back : List α) (count : Nat) (blank item : α) :
    (front ++ List.replicate (count + 1) blank ++ back).set front.length item =
      (front ++ [item]) ++ List.replicate count blank ++ back := by
  rw [List.append_assoc, List.set_append_right _ _ (Nat.le_refl _), Nat.sub_self,
    List.replicate_succ]
  simp

namespace Tree

inductive Full : Tree → Prop where
  | invalid : Full .invalid
  | leaf (row : Nat) : Full (.leaf row)
  | branch {test : Span} {children : List Tree} (count : children.length = test.fanout)
      (each : ∀ child ∈ children, Full child) : Full (.branch test children)

theorem Splits.full {available : Word} {group : List Entry} {tree : Tree}
    (split : Splits available group tree) : tree.Full := by
  induction split with
  | invalid available => exact .invalid
  | leaf available entry => exact .leaf entry.row
  | branch several chosen full parts ih =>
    refine .branch full fun child member => ?_
    obtain ⟨value, present⟩ := List.mem_iff_getElem?.mp member
    exact ih value child present

end Tree

namespace Automaton

inductive Stores (automaton : Automaton) : Tree → (node : Nat) → Prop where
  | invalid (read : automaton.nodes[0]? = some .invalid) : Stores automaton .invalid 0
  | leaf {node row : Nat} (read : automaton.nodes[node]? = some (.leaf row)) :
      Stores automaton (.leaf row) node
  | branch {node firstEdge : Nat} {test : Span} {children : List Tree}
      (read : automaton.nodes[node]? = some (.branch test firstEdge))
      (count : children.length = test.fanout)
      (linked : firstEdge + children.length ≤ automaton.edges.size)
      (below : ∀ (value : Nat) (child : Tree) (next : Nat), children[value]? = some child →
        automaton.edges[firstEdge + value]? = some next → Stores automaton child next) :
      Stores automaton (.branch test children) node

theorem stores_forest {automaton : Automaton} {children : List Tree}
    (each : ∀ child ∈ children, ∀ node edge,
      Placed (child.layoutNodes edge) automaton.nodes.toList node →
      Placed (child.layoutEdges node) automaton.edges.toList edge →
      automaton.Stores child (child.reference node))
    {node edge : Nat} (nodes : Placed (Tree.forestNodes edge children) automaton.nodes.toList node)
    (edges : Placed (Tree.forestEdges node children) automaton.edges.toList edge)
    {value next : Nat} {child : Tree} (present : children[value]? = some child)
    (linked : (Tree.references node children)[value]? = some next) :
    automaton.Stores child next := by
  induction children generalizing node edge value with
  | nil => simp at present
  | cons head rest ih =>
    rw [Tree.forestNodes] at nodes
    rw [Tree.forestEdges] at edges
    cases value with
    | zero =>
      simp only [Tree.references, List.getElem?_cons_zero, Option.some.injEq] at present linked
      subst present linked
      exact each head List.mem_cons_self node edge nodes.append_left edges.append_left
    | succ value =>
      simp only [Tree.references, List.getElem?_cons_succ] at present linked
      have laterNodes := nodes.append_right
      have laterEdges := edges.append_right
      rw [Tree.length_layoutNodes] at laterNodes
      rw [Tree.length_layoutEdges] at laterEdges
      exact ih (fun child member => each child (List.mem_cons_of_mem _ member)) laterNodes
        laterEdges present linked

theorem stores_of_layout {automaton : Automaton}
    (shared : automaton.nodes[0]? = some .invalid) {tree : Tree} (full : tree.Full)
    (node edge : Nat) (nodes : Placed (tree.layoutNodes edge) automaton.nodes.toList node)
    (edges : Placed (tree.layoutEdges node) automaton.edges.toList edge) :
    automaton.Stores tree (tree.reference node) := by
  induction full generalizing node edge with
  | invalid => exact .invalid shared
  | leaf row =>
    have read := nodes.getElem? (i := 0) rfl
    change automaton.Stores (.leaf row) node
    exact .leaf (by simpa using read)
  | @branch test children count each ih =>
    rw [Tree.layoutNodes] at nodes
    rw [Tree.layoutEdges] at edges
    have read := nodes.getElem? (i := 0) rfl
    have fits := edges.append_left.length_le
    change automaton.Stores (.branch test children) node
    refine .branch (by simpa using read) count ?_ fun value child next present linked => ?_
    · have nonempty : Tree.references (node + 1) children ≠ [] := by
        rw [← List.length_pos_iff, Tree.length_references, count]
        exact test.fanout_pos
      simpa [Tree.length_references] using fits nonempty
    · have inside : value < (Tree.references (node + 1) children).length := by
        rw [Tree.length_references]
        exact (List.getElem?_eq_some_iff.mp present).1
      have reference := List.getElem?_eq_getElem inside
      have same := edges.append_left.getElem? reference
      rw [Array.getElem?_toList, linked, Option.some.injEq] at same
      have later := edges.append_right
      rw [Tree.length_references] at later
      exact stores_forest ih nodes.tail later present (same ▸ reference)

theorem stores_ofTree {tree : Tree} (full : tree.Full) :
    (ofTree tree).Stores tree (ofTree tree).root := by
  apply stores_of_layout rfl full 1 0
  · exact (Placed.self (Node.invalid :: tree.layoutNodes 0)).tail
  · exact Placed.self _

theorem traceFrom_of_stores {automaton : Automaton} {raw : Word} {tree : Tree} {branches : Nat}
    {result : Option Nat} (leads : tree.Leads raw branches result) {node limit : Nat}
    (stored : automaton.Stores tree node) (short : branches ≤ limit) :
    (automaton.traceFrom raw limit node).arrival.row? = result ∧
      (automaton.traceFrom raw limit node).arrival ≠ .lost ∧
      (automaton.traceFrom raw limit node).path.length = branches := by
  induction leads generalizing node limit with
  | invalid =>
    cases stored with
    | invalid read => simp [traceFrom, read, Arrival.row?]
  | leaf row =>
    cases stored with
    | leaf read => simp [traceFrom, read, Arrival.row?]
  | @branch test children child branches result selected rest ih =>
    cases stored with
    | branch read count linked below =>
      rename_i firstEdge
      cases limit with
      | zero => omega
      | succ limit =>
        have within := (List.getElem?_eq_some_iff.mp selected).1
        have next := Array.getElem?_eq_getElem
          (show firstEdge + (test.read raw).toNat < automaton.edges.size by omega)
        obtain ⟨row, found, length⟩ :=
          ih (below _ _ _ selected next) (Nat.le_of_succ_le_succ short)
        rw [traceFrom]
        simp only [read, next]
        exact ⟨row, found, by simp [length]⟩

structure Finds (patterns : List Pattern) (automaton : Automaton) (raw : Word) : Prop where
  descends : ∃ tree, automaton.Stores tree automaton.root ∧
    tree.Leads raw (automaton.trace raw).path.length (automaton.walk raw)
  arrives : (automaton.trace raw).arrival ≠ .lost
  short : (automaton.trace raw).path.length ≤ maxBranches
  known : ∀ row, automaton.walk raw = some row → row < patterns.length
  found : ∀ row pattern, patterns[row]? = some pattern → pattern.accepts raw →
    automaton.walk raw = some row

theorem finds_of_build {patterns : List Pattern} {automaton : Automaton}
    (done : build patterns = .ok automaton) (raw : Word) : Finds patterns automaton raw := by
  obtain ⟨_, _, root, built, rfl⟩ := build_eq_ok_iff.mp done
  have split := Tree.splits_of_partition built
  have stored := stores_ofTree split.full
  obtain ⟨branches, result, leads, short, known, found⟩ := split.leads raw
  have limited : branches ≤ maxBranches := short.trans (Word.card_ones_le _)
  obtain ⟨walked, arrives, length⟩ := traceFrom_of_stores leads stored limited
  change (ofTree root).walk raw = result at walked
  change ((ofTree root).trace raw).path.length = branches at length
  subst walked length
  refine ⟨⟨root, stored, leads⟩, arrives, limited, fun row same => ?_, ?_⟩
  · obtain ⟨entry, member, rfl⟩ := known row same
    exact row_lt_of_mem_entries member
  · exact fun row pattern present => found ⟨row, pattern⟩ (mem_entries.mpr present)

end Automaton

end OpenRisc
