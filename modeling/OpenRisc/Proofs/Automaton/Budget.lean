import Mathlib.Order.Interval.Finset.Nat
import OpenRisc.Proofs.Automaton.Splitting

set_option autoImplicit false

namespace OpenRisc

namespace Word

def ones (word : Word) : Finset Nat :=
  (Finset.range 32).filter fun p => word.getLsbD p = true

theorem mem_ones {word : Word} {p : Nat} : p ∈ word.ones ↔ word.getLsbD p = true := by
  rw [ones, Finset.mem_filter, Finset.mem_range, and_iff_right_iff_imp]
  exact BitVec.lt_of_getLsbD

theorem card_ones_le (word : Word) : word.ones.card ≤ 32 :=
  (Finset.card_filter_le _ _).trans (Finset.card_range 32).le

theorem ones_and_not_mask (word : Word) (span : Span) :
    (word &&& ~~~span.mask).ones = word.ones \ Finset.Ico span.start (span.start + span.width) := by
  ext p
  rw [Finset.mem_sdiff, Finset.mem_Ico, mem_ones, mem_ones, BitVec.getLsbD_and,
    BitVec.getLsbD_not, Span.getLsbD_mask]
  by_cases inside : p < 32
  · simp only [inside, decide_true, Bool.true_and, Bool.and_eq_true, Bool.not_eq_true',
      Bool.and_eq_false_iff, decide_eq_false_iff_not]
    exact and_congr_right fun _ => by omega
  · simp [BitVec.getLsbD_of_ge word p (by omega)]

end Word

namespace Tree

theorem Fits.card_ones {available : Word} {group : List Entry} {test : Span}
    (fits : Fits available group test) :
    (available &&& ~~~test.mask).ones.card + test.width = available.ones.card := by
  have covered : Finset.Ico test.start (test.start + test.width) ⊆ available.ones := by
    intro p member
    obtain ⟨above, below⟩ := Finset.mem_Ico.mp member
    have free := fits.untested (p - test.start) (by omega)
    rw [show test.start + (p - test.start) = p by omega] at free
    exact Word.mem_ones.mpr free
  have width : (Finset.Ico test.start (test.start + test.width)).card = test.width := by
    rw [Nat.card_Ico]
    omega
  have bounded := Finset.card_le_card covered
  rw [Word.ones_and_not_mask, Finset.card_sdiff_of_subset covered]
  omega

end Tree

end OpenRisc
