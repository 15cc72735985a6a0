import Mathlib.Algebra.Ring.Int.Defs
import Mathlib.Algebra.Ring.Nat
import OpenRisc.LetterTable
import OpenRisc.Proofs.Template.Number

set_option autoImplicit false

namespace OpenRisc

/-- `value` has the low `width` bits of `number` and lies where two's complement numbers of `width`
bits lie. -/
structure TwosComplement (width number : Nat) (value : Int) : Prop where
  least : -2 ^ (width - 1) ≤ value
  greatest : value < 2 ^ (width - 1)
  congruent : (2 ^ width : Int) ∣ value - number

namespace TwosComplement

theorem iff_bmod {width : Nat} (positive : 0 < width) (number : Nat) (value : Int) :
    TwosComplement width number value ↔ (number : Int).bmod (2 ^ width) = value := by
  obtain ⟨low, rfl⟩ : ∃ low, width = low + 1 := ⟨width - 1, by omega⟩
  have half : ((2 ^ (low + 1) : Nat) : Int) / 2 = 2 ^ low := by
    rw [Nat.pow_succ]
    push_cast
    omega
  have upper : (((2 ^ (low + 1) : Nat) : Int) + 1) / 2 = 2 ^ low := by
    rw [Nat.pow_succ]
    push_cast
    omega
  rw [Int.bmod_eq_iff (Nat.two_pow_pos _), half, upper]
  constructor
  · rintro ⟨least, greatest, congruent⟩
    exact ⟨least, greatest, by exact_mod_cast congruent⟩
  · rintro ⟨least, greatest, congruent⟩
    exact ⟨least, greatest, by exact_mod_cast congruent⟩

end TwosComplement

theorem Word.toInt_signExtend {width : Nat} (inside : width ≤ 32) (value : Word) :
    (Word.signExtend value width).toInt = (value.toNat : Int).bmod (2 ^ width) := by
  rw [Word.signExtend, BitVec.toInt_signExtend_of_le inside, BitVec.toInt_setWidth]

namespace Template

def value (template : Template) (raw : Word) (letter : Char) : Word :=
  if isSigned letter then
    BitVec.ofInt 32 (((template.number raw letter).toNat : Int).bmod
      (2 ^ template.letterWidth letter))
  else template.number raw letter

theorem value_of_signed (template : Template) (raw : Word) {letter : Char}
    (signed : isSigned letter = true) :
    template.value raw letter =
      Word.signExtend (template.number raw letter) (template.letterWidth letter) := by
  rw [value, if_pos signed, Word.signExtend, BitVec.signExtend, BitVec.toInt_setWidth]

def stored (template : Template) (letter : Char) (number : Word) : Word :=
  if isSigned letter then Word.signExtend number (template.letterWidth letter) else number

theorem value_eq_stored (template : Template) (raw : Word) (letter : Char) :
    template.value raw letter = template.stored letter (template.number raw letter) := by
  rw [stored]
  split
  next signed => exact template.value_of_signed raw signed
  next unsigned => rw [value, if_neg unsigned]

theorem number_and_lowMask (template : Template) (raw : Word) (letter : Char) :
    template.number raw letter &&& Word.lowMask (template.letterWidth letter) =
      template.number raw letter := by
  apply BitVec.eq_of_getLsbD_eq
  intro k inside
  rw [BitVec.getLsbD_and, Word.getLsbD_lowMask, getLsbD_number, letterWidth]
  by_cases within : k < (template.positions letter).length
  · simp [inside, within]
  · rw [List.getElem?_eq_none (Nat.le_of_not_lt within)]
    simp

theorem stored_and_lowMask (template : Template) (letter : Char) (number : Word) :
    template.stored letter number &&& Word.lowMask (template.letterWidth letter) =
      number &&& Word.lowMask (template.letterWidth letter) := by
  rw [stored]
  split
  next =>
    apply BitVec.eq_of_getLsbD_eq
    intro k inside
    rw [BitVec.getLsbD_and, BitVec.getLsbD_and, Word.getLsbD_lowMask, Word.signExtend,
      BitVec.getLsbD_signExtend]
    by_cases within : k < template.letterWidth letter <;> simp [inside, within]
  next => rfl

theorem value_and_lowMask (template : Template) (raw : Word) (letter : Char) :
    template.value raw letter &&& Word.lowMask (template.letterWidth letter) =
      template.number raw letter := by
  rw [value_eq_stored, stored_and_lowMask, number_and_lowMask]

theorem twosComplement_value (template : Template) (raw : Word) {letter : Char}
    (signed : isSigned letter = true) (present : 0 < template.letterWidth letter) (value : Int) :
    TwosComplement (template.letterWidth letter) (template.number raw letter).toNat value ↔
      value = (template.value raw letter).toInt := by
  rw [TwosComplement.iff_bmod present, template.value_of_signed raw signed,
    Word.toInt_signExtend (template.letterWidth_le letter), eq_comm]

end Template

end OpenRisc
