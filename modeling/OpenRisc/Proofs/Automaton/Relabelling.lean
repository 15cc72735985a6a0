import OpenRisc.Automaton.Basic

set_option autoImplicit false

namespace OpenRisc

def Entry.relabel (rename : Nat → Nat) (entry : Entry) : Entry :=
  { entry with row := rename entry.row }

def Node.relabel (rename : Nat → Nat) : Node → Node
  | .leaf row => .leaf (rename row)
  | node => node

def Automaton.relabel (rename : Nat → Nat) (automaton : Automaton) : Automaton :=
  { automaton with nodes := automaton.nodes.map (Node.relabel rename) }

namespace Tree

mutual

def relabel (rename : Nat → Nat) : Tree → Tree
  | .invalid => .invalid
  | .leaf row => .leaf (rename row)
  | .branch test children => .branch test (relabelForest rename children)

def relabelForest (rename : Nat → Nat) : List Tree → List Tree
  | [] => []
  | tree :: rest => tree.relabel rename :: relabelForest rename rest

end

theorem relabelForest_eq_map (rename : Nat → Nat) (children : List Tree) :
    relabelForest rename children = children.map (relabel rename) := by
  induction children with
  | nil => rfl
  | cons tree rest ih => rw [relabelForest, ih, List.map_cons]

structure LikeTree (rename : Nat → Nat) (tree other : Tree) : Prop where
  nodeCount : other.nodeCount = tree.nodeCount
  edgeCount : other.edgeCount = tree.edgeCount
  depth : other.depth = tree.depth
  reference : ∀ node, other.reference node = tree.reference node
  nodes : ∀ edge, other.layoutNodes edge = (tree.layoutNodes edge).map (Node.relabel rename)
  edges : ∀ node, other.layoutEdges node = tree.layoutEdges node

structure LikeForest (rename : Nat → Nat) (children others : List Tree) : Prop where
  length : others.length = children.length
  nodeCount : forestNodeCount others = forestNodeCount children
  edgeCount : forestEdgeCount others = forestEdgeCount children
  depth : forestDepth others = forestDepth children
  references : ∀ node, references node others = references node children
  nodes : ∀ edge, forestNodes edge others = (forestNodes edge children).map (Node.relabel rename)
  edges : ∀ node, forestEdges node others = forestEdges node children

mutual

theorem likeTree_relabel (rename : Nat → Nat) (tree : Tree) :
    LikeTree rename tree (tree.relabel rename) := by
  cases tree with
  | invalid => constructor <;> simp [relabel, layoutNodes]
  | leaf row =>
    constructor <;>
      simp [relabel, nodeCount, edgeCount, depth, reference, layoutNodes, layoutEdges, Node.relabel]
  | branch test children =>
    have below := likeForest_relabel rename children
    constructor <;>
      simp [relabel, nodeCount, edgeCount, depth, reference, layoutNodes, layoutEdges, Node.relabel,
        below.length, below.nodeCount, below.edgeCount, below.depth, below.references, below.nodes,
        below.edges]

theorem likeForest_relabel (rename : Nat → Nat) (children : List Tree) :
    LikeForest rename children (relabelForest rename children) := by
  cases children with
  | nil => constructor <;> simp [relabelForest, forestNodes]
  | cons tree rest =>
    have here := likeTree_relabel rename tree
    have later := likeForest_relabel rename rest
    constructor <;>
      simp [relabelForest, forestNodeCount, forestEdgeCount, forestDepth, references, forestNodes,
        forestEdges, here.nodeCount, here.edgeCount, here.depth, here.reference, here.nodes,
        here.edges, later.length, later.nodeCount, later.edgeCount, later.depth, later.references,
        later.nodes, later.edges]

end

end Tree

theorem Automaton.ofTree_relabel (rename : Nat → Nat) (tree : Tree) :
    ofTree (tree.relabel rename) = (ofTree tree).relabel rename := by
  have like := Tree.likeTree_relabel rename tree
  simp [ofTree, Automaton.relabel, Node.relabel, like.depth, like.reference, like.nodes, like.edges]

end OpenRisc
