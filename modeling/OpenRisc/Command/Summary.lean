import OpenRisc.Table

set_option autoImplicit false

namespace OpenRisc.Command

def isBranch : Node → Bool
  | .branch _ _ => true
  | _ => false

def isLeaf : Node → Bool
  | .leaf _ => true
  | _ => false

def summary (table : Table) : List String :=
  let automaton := table.automaton
  let letters := table.letters.entries.map LetterInfo.letter
  ["opcodes:    " ++ toString table.rows.size,
    "letters:    " ++ String.ofList letters,
    "branches:   " ++ toString (automaton.nodes.toList.countP isBranch),
    "leaves:     " ++ toString (automaton.nodes.toList.countP isLeaf),
    "edges:      " ++ toString automaton.edges.size,
    "depth:      " ++ toString automaton.depth,
    "flat words: " ++ toString automaton.serialize.size]

def chunksOf {α : Type} (size : Nat) : List α → List (List α)
  | [] => []
  | first :: rest =>
    (first :: rest.take (size - 1)) :: chunksOf size (rest.drop (size - 1))
termination_by items => items.length
decreasing_by simp only [List.length_drop, List.length_cons]; omega

def imageLines (table : Table) : List String :=
  (chunksOf 8 table.automaton.serialize.toList).map fun words =>
    " ".intercalate (words.map Text.hexColumn)

end OpenRisc.Command
