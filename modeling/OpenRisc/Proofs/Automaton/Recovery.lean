import OpenRisc.Proofs.Automaton.Serialization

set_option autoImplicit false

namespace OpenRisc

theorem Word.lowMask_injective {width other : Nat} (narrow : width ≤ 32) (narrow' : other ≤ 32)
    (same : lowMask width = lowMask other) : width = other := by
  have covers {one two : Nat} (inside : one ≤ 32) (equal : lowMask one = lowMask two) :
      one ≤ two := by
    by_contra wider
    have bit := congrArg (fun word => word.getLsbD two) equal
    simp [getLsbD_lowMask, -BitVec.getLsbD_eq_getElem] at bit
    omega
  exact Nat.le_antisymm (covers narrow same) (covers narrow' same.symm)

namespace Automaton

inductive Unfolds (image : Array Word) : (entry : Word) → Tree → Prop where
  | invalid : Unfolds image invalidEntry .invalid
  | leaf {entry : Word} (valid : entry ≠ invalidEntry) (marked : entry &&& leafMarker ≠ 0) :
      Unfolds image entry (.leaf (entry &&& ~~~leafMarker).toNat)
  | branch {entry : Word} {test : Span} {children : List Tree} (unmarked : entry &&& leafMarker = 0)
      (start : image[entry.toNat]? = some (BitVec.ofNat 32 test.start))
      (mask : image[entry.toNat + 1]? = some (Word.lowMask test.width))
      (inside : test.start + test.width ≤ 32) (nonempty : 0 < test.width)
      (full : children.length = test.fanout)
      (room : entry.toNat + 2 + children.length ≤ image.size)
      (below : ∀ (value : Nat) (child : Tree) (next : Word), children[value]? = some child →
        image[entry.toNat + 2 + value]? = some next → Unfolds image next child) :
      Unfolds image entry (.branch test children)

variable {image : Array Word} {entry : Word}

theorem Unfolds.unique {tree other : Tree} (unfolds : Unfolds image entry tree)
    (unfolds' : Unfolds image entry other) : tree = other := by
  induction unfolds generalizing other with
  | invalid =>
    cases unfolds' with
    | invalid => rfl
    | leaf valid => contradiction
    | branch unmarked => exact absurd unmarked (by decide)
  | leaf valid marked =>
    cases unfolds' with
    | invalid => contradiction
    | leaf => rfl
    | branch unmarked => contradiction
  | @branch entry test children unmarked start mask inside nonempty full room below ih =>
    cases unfolds' with
    | invalid => exact absurd unmarked (by decide)
    | leaf _ marked => contradiction
    | @branch _ test' children' _ start' mask' inside' nonempty' full' _ below' =>
      have starts : test.start = test'.start := by
        rw [start, Option.some.injEq] at start'
        have numbers := congrArg BitVec.toNat start'
        rwa [Word.toNat_ofNat_of_lt (by omega), Word.toNat_ofNat_of_lt (by omega)] at numbers
      have widths : test.width = test'.width := by
        rw [mask, Option.some.injEq] at mask'
        exact Word.lowMask_injective (by omega) (by omega) mask'
      obtain rfl : test = test' := by
        cases test
        cases test'
        exact Span.mk.injEq .. |>.mpr ⟨starts, widths⟩
      have children_eq : children = children' := by
        refine List.ext_getElem (full.trans full'.symm) fun value within within' => ?_
        have present := List.getElem?_eq_getElem within
        have linked := Array.getElem?_eq_getElem
          (show entry.toNat + 2 + value < image.size by omega)
        exact ih value _ _ present linked (below' value _ _ (List.getElem?_eq_getElem within') linked)
      rw [children_eq]

theorem unfolds_of_stores {automaton : Automaton} (compact : automaton.Compact) {tree : Tree}
    {node : Nat} (stored : automaton.Stores tree node) :
    Unfolds automaton.serialize (automaton.entry node) tree := by
  induction stored with
  | invalid read =>
    have invalid : automaton.entry 0 = invalidEntry := by simp only [entry, read]
    rw [invalid]
    exact .invalid
  | leaf read =>
    obtain ⟨valid, marked, content⟩ := entry_leaf compact read
    rw [← content]
    exact .leaf valid marked
  | @branch node firstEdge test children read count linked below ih =>
    obtain ⟨unmarked, offset⟩ := entry_branch compact read
    obtain ⟨inside, nonempty, _⟩ := compact.node read
    obtain ⟨start, mask, entries⟩ := serialize_branch compact read
    have room := record_inside compact read
    refine .branch unmarked (offset ▸ start) (offset ▸ mask) inside nonempty count
      (by omega) fun value child next present found => ?_
    have within := (List.getElem?_eq_some_iff.mp present).1
    have edge := Array.getElem?_eq_getElem
      (show firstEdge + value < automaton.edges.size by omega)
    rw [offset, entries _ _ (count ▸ within) edge, Option.some.injEq] at found
    rw [← found]
    exact ih value child _ present edge

theorem eq_of_serialize_eq {patterns others : List Pattern} {automaton other : Automaton}
    (few : patterns.length ≤ 2000000) (few' : others.length ≤ 2000000)
    (done : build patterns = .ok automaton) (done' : build others = .ok other)
    (same : automaton.serialize = other.serialize) : automaton = other := by
  have compact := compact_of_build few done
  have compact' := compact_of_build few' done'
  obtain ⟨_, _, tree, built, rfl⟩ := build_eq_ok_iff.mp done
  obtain ⟨_, _, tree', built', rfl⟩ := build_eq_ok_iff.mp done'
  have unfolds := unfolds_of_stores compact (stores_ofTree (Tree.splits_of_partition built).full)
  have unfolds' := unfolds_of_stores compact' (stores_ofTree (Tree.splits_of_partition built').full)
  have first : (ofTree tree).serialize[0]? = some ((ofTree tree).entry (ofTree tree).root) :=
    serialize_zero
  rw [same, serialize_zero, Option.some.injEq] at first
  rw [same, ← first] at unfolds
  rw [unfolds.unique unfolds']

end Automaton

end OpenRisc
