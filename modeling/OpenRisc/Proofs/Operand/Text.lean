import Mathlib.Data.List.Basic
import OpenRisc.Proofs.Text.Numeral

set_option autoImplicit false

namespace OpenRisc.Operand

theorem number_of_negative {operand : Operand}
    (negative : (operand.signed && operand.value.msb) = true) :
    operand.number.toList = '-' :: (Text.hex (-operand.value)).toList := by
  rw [number, if_pos negative, String.toList_append]
  rfl

theorem number_of_not_negative {operand : Operand}
    (plain : (operand.signed && operand.value.msb) = false) :
    operand.number = Text.hex operand.value := by
  rw [number, plain, if_neg Bool.false_ne_true]

theorem hex_ne_negative {raw : Word} {rest : List Char} : (Text.hex raw).toList ≠ '-' :: rest := by
  simp [Text.toList_hex]

theorem number_injective {left right : Operand} (same : left.number = right.number) :
    left.value = right.value := by
  have characters := congrArg String.toList same
  cases sign : left.signed && left.value.msb <;> cases sign' : right.signed && right.value.msb
  case false.false =>
    rw [number_of_not_negative sign, number_of_not_negative sign'] at same
    exact Text.hex_injective same
  case false.true =>
    rw [number_of_not_negative sign, number_of_negative sign'] at characters
    exact absurd characters hex_ne_negative
  case true.false =>
    rw [number_of_negative sign, number_of_not_negative sign'] at characters
    exact absurd characters.symm hex_ne_negative
  case true.true =>
    rw [number_of_negative sign, number_of_negative sign', List.cons.injEq] at characters
    exact BitVec.neg_inj.mp (Text.hex_injective (String.toList_inj.mp characters.2))

theorem not_mem_number (operand : Operand) {mark : Char} (other : mark.isAlphanum = false)
    (apart : mark ≠ '-') : mark ∉ operand.number.toList := by
  cases sign : operand.signed && operand.value.msb with
  | false =>
    rw [number_of_not_negative sign]
    exact Text.not_mem_hex other _
  | true =>
    rw [number_of_negative sign, List.mem_cons, not_or]
    exact ⟨apart, Text.not_mem_hex other _⟩

theorem toList_text_register {operand : Operand} (kind : operand.kind = .register) :
    operand.text.toList = 'r' :: Nat.toDigits 10 operand.value.toNat := by
  simp [text, kind]

theorem toList_text_displacement {operand : Operand} (kind : operand.kind = .displacement) :
    operand.text.toList =
      operand.number.toList ++ '(' :: 'r' :: (Nat.toDigits 10 operand.base.toNat ++ [')']) := by
  simp [text, kind]

theorem comma_not_mem_text (operand : Operand) : ',' ∉ operand.text.toList := by
  have decimal := Text.not_mem_toDigits (show ','.isAlphanum = false by decide)
  have number := operand.not_mem_number (show ','.isAlphanum = false by decide) (by decide)
  cases kind : operand.kind with
  | register => simp [toList_text_register kind, decimal]
  | immediate => simpa [text, kind] using number
  | displacement => simp [toList_text_displacement kind, number, decimal]
  | synthetic => simp [text, kind]

theorem text_injective {left right : Operand} (kind : left.kind = right.kind)
    (shown : left.kind ≠ .synthetic) (same : left.text = right.text) :
    left.value = right.value ∧ (left.kind = .displacement → left.base = right.base) := by
  have characters := congrArg String.toList same
  cases here : left.kind with
  | register =>
    rw [toList_text_register here, toList_text_register (kind ▸ here), List.cons.injEq] at characters
    exact ⟨Text.toDigits_injective characters.2, nofun⟩
  | immediate =>
    have there := kind ▸ here
    simp only [text, here, there] at same
    exact ⟨number_injective same, nofun⟩
  | displacement =>
    rw [toList_text_displacement here, toList_text_displacement (kind ▸ here)] at characters
    have front : '(' ∉ left.number.toList := left.not_mem_number (by decide) (by decide)
    have back : '(' ∉ 'r' :: (Nat.toDigits 10 left.base.toNat ++ [')']) := by
      simp [Text.not_mem_toDigits (show '('.isAlphanum = false by decide)]
    obtain ⟨numbers, _, bases⟩ := (List.append_cons_inj_of_notMem front back).mp characters
    rw [List.cons.injEq, List.append_cancel_right_eq] at bases
    exact ⟨number_injective (String.toList_inj.mp numbers), fun _ => Text.toDigits_injective bases.2⟩
  | synthetic => exact absurd here shown

end OpenRisc.Operand
