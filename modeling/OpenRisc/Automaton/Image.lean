import OpenRisc.Automaton.Walk

set_option autoImplicit false

namespace OpenRisc

namespace Node

def recordSize : Node → Nat
  | .branch test _ => 2 + test.fanout
  | _ => 0

end Node

namespace Automaton

def leafMarker : Word := 0x80000000

def invalidEntry : Word := BitVec.allOnes 32

def recordOffset (automaton : Automaton) (node : Nat) : Nat :=
  (automaton.nodes.toList.take node).foldl (fun offset node => offset + node.recordSize) 1

def entry (automaton : Automaton) (node : Nat) : Word :=
  match automaton.nodes[node]? with
  | some (.leaf row) => leafMarker ||| BitVec.ofNat 32 row
  | some (.branch _ _) => BitVec.ofNat 32 (automaton.recordOffset node)
  | _ => invalidEntry

def record (automaton : Automaton) (node : Nat) : List Word :=
  match automaton.nodes[node]? with
  | some (.branch test _) =>
    BitVec.ofNat 32 test.start :: Word.lowMask test.width ::
      (automaton.children node).map automaton.entry
  | _ => []

-- The root's entry and then, in arena order, a record for each branch: start, mask and entries.
def serialize (automaton : Automaton) : Array Word :=
  (automaton.entry automaton.root ::
    (List.range automaton.nodes.size).flatMap automaton.record).toArray

-- An image need not be well formed; an offset outside it leads nowhere.
def walkEntry (image : Array Word) (raw : Word) : (entries : Nat) → (entry : Word) → Option Nat
  | 0, _ => none
  | entries + 1, entry =>
    if entry = invalidEntry then none
    else if entry &&& leafMarker ≠ 0 then some (entry &&& ~~~leafMarker).toNat
    else do
      let start ← image[entry.toNat]?
      let mask ← image[entry.toNat + 1]?
      let value := (raw >>> (start.toNat % 32)) &&& mask
      let next ← image[entry.toNat + 2 + value.toNat]?
      walkEntry image raw entries next

-- The root's entry and one more for each branch of the longest path.
def walkImage (image : Array Word) (raw : Word) : Option Nat := do
  let root ← image[0]?
  walkEntry image raw (maxBranches + 1) root

end Automaton

end OpenRisc
