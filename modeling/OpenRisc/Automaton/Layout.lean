import OpenRisc.Automaton.Tree

set_option autoImplicit false

namespace OpenRisc

inductive Node where
  | invalid
  | leaf (row : Nat)
  | branch (test : Span) (firstEdge : Nat)
  deriving DecidableEq, Repr

namespace Tree

mutual

def nodeCount : Tree → Nat
  | .invalid => 0
  | .leaf _ => 1
  | .branch _ children => forestNodeCount children + 1

def forestNodeCount : List Tree → Nat
  | [] => 0
  | tree :: rest => tree.nodeCount + forestNodeCount rest

end

mutual

def edgeCount : Tree → Nat
  | .branch _ children => children.length + forestEdgeCount children
  | _ => 0

def forestEdgeCount : List Tree → Nat
  | [] => 0
  | tree :: rest => tree.edgeCount + forestEdgeCount rest

end

mutual

def depth : Tree → Nat
  | .branch _ children => forestDepth children + 1
  | _ => 0

def forestDepth : List Tree → Nat
  | [] => 0
  | tree :: rest => max tree.depth (forestDepth rest)

end

mutual

-- Every invalid child is the shared node 0. A branch takes its edges before its children do.
def layoutNodes (edge : Nat) : Tree → List Node
  | .invalid => []
  | .leaf row => [.leaf row]
  | .branch test children => .branch test edge :: forestNodes (edge + children.length) children

def forestNodes (edge : Nat) : List Tree → List Node
  | [] => []
  | tree :: rest => tree.layoutNodes edge ++ forestNodes (edge + tree.edgeCount) rest

end

def reference (node : Nat) : Tree → Nat
  | .invalid => 0
  | _ => node

def references (node : Nat) : List Tree → List Nat
  | [] => []
  | tree :: rest => tree.reference node :: references (node + tree.nodeCount) rest

mutual

def layoutEdges (node : Nat) : Tree → List Nat
  | .branch _ children => references (node + 1) children ++ forestEdges (node + 1) children
  | _ => []

def forestEdges (node : Nat) : List Tree → List Nat
  | [] => []
  | tree :: rest => tree.layoutEdges node ++ forestEdges (node + tree.nodeCount) rest

end

theorem length_references (node : Nat) (children : List Tree) :
    (references node children).length = children.length := by
  induction children generalizing node with
  | nil => rfl
  | cons tree rest ih => simp [references, ih]

mutual

theorem length_layoutNodes (edge : Nat) (tree : Tree) :
    (tree.layoutNodes edge).length = tree.nodeCount := by
  cases tree with
  | invalid => rfl
  | leaf row => rfl
  | branch test children => simp [layoutNodes, nodeCount, length_forestNodes]

theorem length_forestNodes (edge : Nat) (children : List Tree) :
    (forestNodes edge children).length = forestNodeCount children := by
  cases children with
  | nil => rfl
  | cons tree rest =>
    simp [forestNodes, forestNodeCount, length_layoutNodes, length_forestNodes]

end

mutual

theorem length_layoutEdges (node : Nat) (tree : Tree) :
    (tree.layoutEdges node).length = tree.edgeCount := by
  cases tree with
  | invalid => rfl
  | leaf row => rfl
  | branch test children =>
    simp [layoutEdges, edgeCount, length_references, length_forestEdges]

theorem length_forestEdges (node : Nat) (children : List Tree) :
    (forestEdges node children).length = forestEdgeCount children := by
  cases children with
  | nil => rfl
  | cons tree rest =>
    simp [forestEdges, forestEdgeCount, length_layoutEdges, length_forestEdges]

end

end Tree

end OpenRisc
