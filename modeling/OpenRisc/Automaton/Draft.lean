import OpenRisc.Automaton.Basic

set_option autoImplicit false

namespace OpenRisc

/-- An arena in the making. A branch reserves its edges before the groups below it are written. -/

structure Draft where
  nodes : Array Node
  edges : Array Nat
  depth : Nat
  deriving DecidableEq, Repr

inductive DraftError where
  | truncated (number : Nat)
  | rejected (error : AutomatonError)
  deriving DecidableEq, Repr

namespace Draft

def numbered (number : Nat) : Except DraftError Nat :=
  if (BitVec.ofNat 32 number).toNat = number then .ok number else .error (.truncated number)

def push (draft : Draft) (node : Node) : Except DraftError (Nat × Draft) := do
  let number ← numbered draft.nodes.size
  return (number, { draft with nodes := draft.nodes.push node })

-- Until they are filled in, reserved edges lead to the shared invalid node.
def reserve (draft : Draft) (count : Nat) : Draft :=
  { draft with edges := draft.edges ++ Array.replicate count 0 }

def shown (test : Span) (value : Nat) (group : List Entry) : List Entry :=
  group.filter fun entry =>
    (test.read entry.pattern.value).toNat == value &&
      test.read entry.pattern.mask == Word.lowMask test.width

def fill (write : List Entry → Draft → Except DraftError (Nat × Draft)) (test : Span)
    (group : List Entry) (firstEdge : Nat) (draft : Draft) (value : Nat) :
    Except DraftError Draft := do
  let rows := shown test (← numbered value) group
  if rows.isEmpty then
    return draft
  else
    let (node, written) ← write rows draft
    return { written with edges := written.edges.setIfInBounds (firstEdge + value) node }

def write (available : Word) (group : List Entry) (level : Nat) (draft : Draft) :
    Except DraftError (Nat × Draft) :=
  match group with
  | [entry] => push { draft with depth := max draft.depth level } (.leaf entry.row)
  | group =>
    match _chosen : Automaton.widestRun? (Tree.commonBits available group) with
    | none => .error (.rejected (.inseparable ⟨group.map Entry.row, available⟩))
    | some test => do
      let firstEdge ← numbered draft.edges.size
      let (node, begun) ← (draft.reserve test.fanout).push (.branch test firstEdge)
      let below := fun rows draft => write (available &&& ~~~test.mask) rows (level + 1) draft
      let filled ← (List.range test.fanout).foldlM (fill below test group firstEdge) begun
      return (node, filled)
termination_by available.toNat
decreasing_by exact Tree.untested_lt _chosen

end Draft

def Automaton.write (patterns : List Pattern) : Except DraftError Automaton :=
  if patterns.isEmpty then .error (.rejected .emptyTable)
  else
    match firstOverlap? patterns with
    | some (first, second) => .error (.rejected (.overlapping first second))
    | none => do
      let (root, draft) ← Draft.write (BitVec.allOnes 32) (entries patterns) 0 ⟨#[.invalid], #[], 0⟩
      return ⟨draft.nodes, draft.edges, root, draft.depth⟩

end OpenRisc
