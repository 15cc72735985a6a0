import OpenRisc.Automaton.Basic

set_option autoImplicit false

namespace OpenRisc

structure Stop where
  node : Nat
  test : Span
  value : Nat
  deriving DecidableEq, Repr

inductive Arrival where
  | row (index : Nat)
  | invalid
  | lost
  deriving DecidableEq, Repr

def Arrival.row? : Arrival → Option Nat
  | .row index => some index
  | _ => none

structure Trace where
  path : List Stop
  arrival : Arrival
  deriving DecidableEq, Repr

namespace Automaton

-- Every branch tests a bit that no other branch of the path tests, so 32 branches suffice.
def maxBranches : Nat := 32

def traceFrom (automaton : Automaton) (raw : Word) : (branches : Nat) → (node : Nat) → Trace
  | branches, node =>
    match automaton.nodes[node]? with
    | some (.leaf row) => ⟨[], .row row⟩
    | some .invalid => ⟨[], .invalid⟩
    | some (.branch test firstEdge) =>
      let value := (test.read raw).toNat
      match branches, automaton.edges[firstEdge + value]? with
      | branches + 1, some child =>
        let rest := traceFrom automaton raw branches child
        ⟨⟨node, test, value⟩ :: rest.path, rest.arrival⟩
      | _, _ => ⟨[], .lost⟩
    | none => ⟨[], .lost⟩

def trace (automaton : Automaton) (raw : Word) : Trace :=
  automaton.traceFrom raw maxBranches automaton.root

-- The row whose leaf `raw` reaches. Bits that no branch tested are not compared.
def walk (automaton : Automaton) (raw : Word) : Option Nat :=
  (automaton.trace raw).arrival.row?

end Automaton

end OpenRisc
