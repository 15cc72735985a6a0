import OpenRisc.Automaton.Choice
import OpenRisc.Pattern

set_option autoImplicit false

namespace OpenRisc

structure Entry where
  row : Nat
  pattern : Pattern
  deriving DecidableEq, Repr

/-- A decision tree over instruction words. A branch has one child for each value of its test. -/
inductive Tree where
  | invalid
  | leaf (row : Nat)
  | branch (test : Span) (children : List Tree)
  deriving Repr

structure Inseparable where
  rows : List Nat
  available : Word
  deriving DecidableEq, Repr

namespace Tree

def commonBits (available : Word) (group : List Entry) : Word :=
  group.foldl (fun common entry => common &&& entry.pattern.mask) available

def selected (test : Span) (value : Nat) (group : List Entry) : List Entry :=
  group.filter fun entry => (test.read entry.pattern.value).toNat == value

theorem getLsbD_commonBits (available : Word) (group : List Entry) (p : Nat) :
    (commonBits available group).getLsbD p = true ↔
      available.getLsbD p = true ∧ ∀ entry ∈ group, entry.pattern.mask.getLsbD p = true := by
  induction group generalizing available with
  | nil => simp [commonBits]
  | cons entry rest ih =>
    have step := ih (available &&& entry.pattern.mask)
    simp only [commonBits, List.foldl_cons] at step ⊢
    rw [step]
    simp [and_assoc]

theorem untested_lt {available : Word} {group : List Entry} {test : Span}
    (chosen : Automaton.widestRun? (commonBits available group) = some test) :
    (available &&& ~~~test.mask).toNat < available.toNat := by
  have set : (commonBits available group).getLsbD test.start = true := by
    simpa using Automaton.widestRun?_covers chosen 0 (Automaton.width_pos_of_widestRun? chosen)
  have held := ((getLsbD_commonBits available group test.start).mp set).1
  have wide := Automaton.width_pos_of_widestRun? chosen
  rw [BitVec.toNat_and]
  refine Nat.lt_of_le_of_ne Nat.and_le_left fun same => ?_
  have kept : available &&& ~~~test.mask = available := BitVec.eq_of_toNat_eq (by simpa using same)
  have bit := congrArg (fun word => word.getLsbD test.start) kept
  simp [Span.getLsbD_mask, held, wide] at bit

/-- Splits a group on the widest run of bits that all its entries fix, until one entry is left.
A tested bit is not available again, so at most 32 tests follow each other. -/
def partition (available : Word) (group : List Entry) : Except Inseparable Tree :=
  match group with
  | [] => .ok .invalid
  | [entry] => .ok (.leaf entry.row)
  | first :: second :: rest =>
    let group := first :: second :: rest
    match _chosen : Automaton.widestRun? (commonBits available group) with
    | none => .error ⟨group.map Entry.row, available⟩
    | some test => do
      let children ← (List.range test.fanout).mapM fun value =>
        partition (available &&& ~~~test.mask) (selected test value group)
      return .branch test children
termination_by available.toNat
decreasing_by exact untested_lt _chosen

end Tree

end OpenRisc
