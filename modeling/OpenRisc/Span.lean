import OpenRisc.Word

set_option autoImplicit false

namespace OpenRisc

structure Span where
  start : Nat
  width : Nat
  deriving DecidableEq, Repr

namespace Span

def mask (span : Span) : Word :=
  Word.lowMask span.width <<< span.start

def read (span : Span) (raw : Word) : Word :=
  (raw >>> span.start) &&& Word.lowMask span.width

def fanout (span : Span) : Nat :=
  1 <<< span.width

theorem getLsbD_mask (span : Span) (p : Nat) :
    span.mask.getLsbD p =
      (decide (p < 32) && decide (span.start ≤ p) && decide (p < span.start + span.width)) := by
  by_cases below : p < span.start
  · simp [mask, below, Nat.not_le.mpr below]
  · have reached : span.start ≤ p := by omega
    have inside : p - span.start < span.width ↔ p < span.start + span.width := by omega
    by_cases within : p < 32
    · have shifted : p - span.start < 32 := by omega
      simp [mask, below, reached, inside, within]
    · simp [mask, within]

theorem getLsbD_read (span : Span) (raw : Word) (p : Nat) :
    (span.read raw).getLsbD p = (decide (p < span.width) && raw.getLsbD (span.start + p)) := by
  by_cases within : p < 32
  · simp [read, within, Bool.and_comm]
  · have outside : 32 ≤ span.start + p := by omega
    simp [read, within, BitVec.getLsbD_of_ge _ _ outside]

theorem read_eq_read_iff (span : Span) (left right : Word) :
    span.read left = span.read right ↔
      ∀ p < span.width, left.getLsbD (span.start + p) = right.getLsbD (span.start + p) := by
  constructor
  · intro same p within
    have bit := congrArg (fun word => word.getLsbD p) same
    simpa [getLsbD_read, within] using bit
  · intro same
    apply BitVec.eq_of_getLsbD_eq
    intro p _
    by_cases within : p < span.width
    · simp [getLsbD_read, within, same p within]
    · simp [getLsbD_read, within]

theorem and_mask_eq_iff (span : Span) (left right : Word) :
    left &&& span.mask = right &&& span.mask ↔
      ∀ p < span.width, span.start + p < 32 →
        left.getLsbD (span.start + p) = right.getLsbD (span.start + p) := by
  constructor
  · intro same p within inside
    have covered : span.mask.getLsbD (span.start + p) = true := by
      simp [getLsbD_mask, inside, within]
    have bit := congrArg (fun word => word.getLsbD (span.start + p)) same
    simpa only [BitVec.getLsbD_and, covered, Bool.and_true] using bit
  · intro same
    apply BitVec.eq_of_getLsbD_eq
    intro p inside
    by_cases covered : span.start ≤ p ∧ p < span.start + span.width
    · have bit := same (p - span.start) (by omega) (by omega)
      rw [show span.start + (p - span.start) = p by omega] at bit
      rw [BitVec.getLsbD_and, BitVec.getLsbD_and, bit]
    · have outside : span.mask.getLsbD p = false := by
        rw [getLsbD_mask]
        simp only [Bool.and_eq_false_iff, decide_eq_false_iff_not]
        omega
      rw [BitVec.getLsbD_and, BitVec.getLsbD_and, outside, Bool.and_false, Bool.and_false]

theorem and_mask_eq_iff_read (span : Span) (left right : Word) :
    left &&& span.mask = right &&& span.mask ↔ span.read left = span.read right := by
  rw [and_mask_eq_iff, read_eq_read_iff]
  constructor
  · intro same p within
    by_cases inside : span.start + p < 32
    · exact same p within inside
    · rw [BitVec.getLsbD_of_ge _ _ (by omega), BitVec.getLsbD_of_ge _ _ (by omega)]
  · exact fun same p within _ => same p within

theorem fanout_pos (span : Span) : 0 < span.fanout := by
  rw [fanout, Nat.one_shiftLeft]
  exact Nat.two_pow_pos _

theorem toNat_read_lt (span : Span) (raw : Word) : (span.read raw).toNat < span.fanout := by
  rw [fanout, Nat.one_shiftLeft]
  apply Nat.lt_pow_two_of_testBit
  intro p beyond
  rw [← BitVec.getLsbD, getLsbD_read]
  simp [Nat.not_lt.mpr beyond]

end Span

end OpenRisc
