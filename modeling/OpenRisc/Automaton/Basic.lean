import OpenRisc.Automaton.Layout
import OpenRisc.Text.Hex
import OpenRisc.Text.Quoted

set_option autoImplicit false

namespace OpenRisc

/-- A decision tree in one arena. Node 0 is the shared invalid node. -/
structure Automaton where
  nodes : Array Node
  edges : Array Nat
  root : Nat
  depth : Nat
  deriving DecidableEq, Repr

inductive AutomatonError where
  | emptyTable
  | overlapping (first second : Nat)
  | inseparable (group : Inseparable)
  deriving DecidableEq, Repr

def AutomatonError.message (name : Nat → String) : AutomatonError → String
  | .emptyTable => "Opcode table is empty"
  | .overlapping first second =>
    "Opcodes `" ++ name first ++ "` and `" ++ name second ++
      "` match overlapping instruction words"
  | .inseparable group =>
    "No common fixed bit-field separates " ++ Text.quoteAll (group.rows.map name) ++
      " (available mask 0x" ++ Text.hexColumn group.available ++ ")"

namespace Automaton

def ofTree (tree : Tree) : Automaton where
  nodes := (.invalid :: tree.layoutNodes 0).toArray
  edges := (tree.layoutEdges 1).toArray
  root := tree.reference 1
  depth := tree.depth

def firstOverlapFrom? (first : Nat) : List Pattern → Option (Nat × Nat)
  | [] => none
  | pattern :: rest =>
    match rest.findIdx? pattern.overlaps with
    | some distance => some (first, first + 1 + distance)
    | none => firstOverlapFrom? (first + 1) rest

def firstOverlap? (patterns : List Pattern) : Option (Nat × Nat) :=
  firstOverlapFrom? 0 patterns

def entries (patterns : List Pattern) : List Entry :=
  patterns.zipIdx.map fun (pattern, row) => ⟨row, pattern⟩

theorem mem_entries {patterns : List Pattern} {entry : Entry} :
    entry ∈ entries patterns ↔ patterns[entry.row]? = some entry.pattern := by
  rw [entries, List.mem_map]
  constructor
  · rintro ⟨⟨pattern, row⟩, member, rfl⟩
    exact List.mem_zipIdx_iff_getElem?.mp member
  · intro present
    exact ⟨(entry.pattern, entry.row), List.mem_zipIdx_iff_getElem?.mpr present, rfl⟩

theorem rows_entries (patterns : List Pattern) :
    (entries patterns).map Entry.row = List.range patterns.length := by
  simp only [entries, List.map_map]
  rw [List.range_eq_range']
  exact List.zipIdx_map_snd 0 patterns

theorem row_lt_of_mem_entries {patterns : List Pattern} {entry : Entry}
    (member : entry ∈ entries patterns) : entry.row < patterns.length :=
  (List.getElem?_eq_some_iff.mp (mem_entries.mp member)).1

theorem nodup_rows {patterns : List Pattern} {group : List Entry}
    (inside : group.Sublist (entries patterns)) : (group.map Entry.row).Nodup := by
  have rows := inside.map Entry.row
  rw [rows_entries] at rows
  exact rows.nodup List.nodup_range

def tree (patterns : List Pattern) : Except Inseparable Tree :=
  Tree.partition (BitVec.allOnes 32) (entries patterns)

-- Overlaps are looked for first, so that they are reported as such: a tree would give up on a group
-- that holds both rows.
def build (patterns : List Pattern) : Except AutomatonError Automaton :=
  if patterns.isEmpty then .error .emptyTable
  else
    match firstOverlap? patterns with
    | some (first, second) => .error (.overlapping first second)
    | none =>
      match tree patterns with
      | .error group => .error (.inseparable group)
      | .ok tree => .ok (ofTree tree)

theorem build_eq_ok_iff {patterns : List Pattern} {automaton : Automaton} :
    build patterns = .ok automaton ↔ patterns ≠ [] ∧ firstOverlap? patterns = none ∧
      ∃ root, tree patterns = .ok root ∧ automaton = ofTree root := by
  rw [build]
  split
  next empty => simp_all
  next nonempty =>
    split
    next overlap => simp [overlap]
    next disjoint =>
      split
      next failed => simp [failed]
      next root built =>
        constructor
        · intro done
          cases done
          exact ⟨by simpa using nonempty, disjoint, root, built, rfl⟩
        · rintro ⟨_, _, other, same, rfl⟩
          rw [built] at same
          cases same
          rfl

theorem build_eq_inseparable_iff {patterns : List Pattern} {group : Inseparable} :
    build patterns = .error (.inseparable group) ↔ patterns ≠ [] ∧ firstOverlap? patterns = none ∧
      tree patterns = .error group := by
  rw [build]
  split
  next empty => simp_all
  next nonempty =>
    split
    next overlap => simp [overlap]
    next disjoint =>
      split
      next failed => simp_all
      next root built => simp [built]

def children (automaton : Automaton) (node : Nat) : List Nat :=
  match automaton.nodes[node]? with
  | some (.branch test firstEdge) =>
    (automaton.edges.toList.drop firstEdge).take test.fanout
  | _ => []

end Automaton

end OpenRisc
