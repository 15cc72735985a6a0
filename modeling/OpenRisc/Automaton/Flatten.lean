import OpenRisc.Automaton.Image

set_option autoImplicit false

namespace OpenRisc.Automaton

def reserve (test : Span) (image : Array Word) : Array Word :=
  image ++ #[BitVec.ofNat 32 test.start, Word.lowMask test.width] ++
    Array.replicate test.fanout invalidEntry

def fillFrom (append : Nat → Array Word → Array Word × Word) (position : Nat) :
    List Nat → Array Word → Array Word
  | [], image => image
  | child :: rest, image =>
    let appended := append child image
    fillFrom append (position + 1) rest (appended.1.setIfInBounds position appended.2)

def appendFrom (automaton : Automaton) :
    (branches : Nat) → (node : Nat) → Array Word → Array Word × Word
  | branches, node, image =>
    match automaton.nodes[node]? with
    | some (.leaf row) => (image, leafMarker ||| BitVec.ofNat 32 row)
    | some (.branch test _) =>
      match branches with
      | 0 => (image, invalidEntry)
      | branches + 1 =>
        let filled := fillFrom (appendFrom automaton branches) (image.size + 2)
          (automaton.children node) (reserve test image)
        (filled, BitVec.ofNat 32 image.size)
    | _ => (image, invalidEntry)

def flatten (automaton : Automaton) : Array Word :=
  let appended := automaton.appendFrom maxBranches automaton.root #[0]
  appended.1.setIfInBounds 0 appended.2

end OpenRisc.Automaton
