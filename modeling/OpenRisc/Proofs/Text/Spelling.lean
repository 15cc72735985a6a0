import Mathlib.Data.List.Forall2
import Mathlib.Data.Nat.Digits.Defs
import OpenRisc.Proofs.Text.Ascii

set_option autoImplicit false

namespace OpenRisc.Text

def Spells (digits : List Char) (number : Nat) : Prop :=
  ∃ values : List Nat, List.Forall₂ IsHexDigit digits values ∧
    Nat.ofDigits 16 values.reverse = number

def Overflows (digits : List Char) : Prop :=
  ∃ front number, front <+: digits ∧ Spells front number ∧ 2 ^ 32 ≤ number

def shiftIn (number digit : Nat) : Nat :=
  16 * number + digit

def Continues (value : Nat) (digits : List Char) (number : Nat) : Prop :=
  ∃ values, List.Forall₂ IsHexDigit digits values ∧ values.foldl shiftIn value = number

theorem spells_iff {digits : List Char} {number : Nat} :
    Spells digits number ↔ Continues 0 digits number := by
  have flipped : (fun number digit => digit + 16 * number) = shiftIn := by
    funext number digit
    rw [shiftIn, Nat.add_comm]
  have horner (values : List Nat) : Nat.ofDigits 16 values.reverse = values.foldl shiftIn 0 := by
    rw [Nat.ofDigits_eq_foldr, List.foldr_reverse, ← flipped]
    rfl
  simp only [Spells, Continues, horner]

theorem le_foldl_shiftIn (number : Nat) (values : List Nat) :
    number ≤ values.foldl shiftIn number := by
  induction values generalizing number with
  | nil => exact Nat.le_refl number
  | cons digit rest ih =>
    have step : number ≤ shiftIn number digit := by
      rw [shiftIn]
      omega
    exact step.trans (ih (shiftIn number digit))

theorem Continues.le {value number : Nat} {digits : List Char}
    (continues : Continues value digits number) : value ≤ number := by
  obtain ⟨values, _, rfl⟩ := continues
  exact le_foldl_shiftIn value values

theorem continues_nil {value number : Nat} : Continues value [] number ↔ value = number := by
  simp [Continues]

theorem continues_cons {value number : Nat} {c : Char} {rest : List Char} :
    Continues value (c :: rest) number ↔
      ∃ digit, hexValue? c = some digit ∧ Continues (shiftIn value digit) rest number := by
  simp only [hexValue?_eq_some_iff]
  constructor
  · intro continues
    obtain ⟨values, hex, same⟩ := continues
    cases hex with
    | cons here later => exact ⟨_, here, _, later, same⟩
  · intro continues
    obtain ⟨digit, here, values, later, same⟩ := continues
    exact ⟨digit :: values, .cons here later, same⟩

def Overruns (value : Nat) (digits : List Char) : Prop :=
  ∃ front number, front <+: digits ∧ Continues value front number ∧ 2 ^ 32 ≤ number

theorem overruns_of_le {value : Nat} (large : 2 ^ 32 ≤ value) (digits : List Char) :
    Overruns value digits :=
  ⟨[], value, List.nil_prefix, continues_nil.mpr rfl, large⟩

theorem not_overruns_nil {value : Nat} (small : value < 2 ^ 32) : ¬ Overruns value [] := by
  intro overruns
  obtain ⟨front, number, short, continues, large⟩ := overruns
  rw [List.prefix_nil.mp short, continues_nil] at continues
  omega

theorem overruns_cons {value : Nat} (small : value < 2 ^ 32) {c : Char} {rest : List Char} :
    Overruns value (c :: rest) ↔
      ∃ digit, hexValue? c = some digit ∧ Overruns (shiftIn value digit) rest := by
  constructor
  · intro overruns
    obtain ⟨front, number, starts, continues, large⟩ := overruns
    rcases List.prefix_cons_iff.mp starts with rfl | ⟨later, rfl, remains⟩
    · rw [continues_nil] at continues
      omega
    · obtain ⟨digit, read, onward⟩ := continues_cons.mp continues
      exact ⟨digit, read, later, number, remains, onward, large⟩
  · intro overruns
    obtain ⟨digit, read, front, number, starts, continues, large⟩ := overruns
    exact ⟨c :: front, number, List.cons_prefix_cons.mpr ⟨rfl, starts⟩,
      continues_cons.mpr ⟨digit, read, continues⟩, large⟩

theorem overflows_iff {digits : List Char} : Overflows digits ↔ Overruns 0 digits := by
  simp only [Overflows, Overruns, spells_iff]

theorem Spells.hex {digits : List Char} {number : Nat} (spelled : Spells digits number) :
    ∀ c ∈ digits, ∃ digit, IsHexDigit c digit := by
  obtain ⟨values, hex, -⟩ := spelled
  induction hex with
  | nil => simp
  | cons here _ ih => exact List.forall_mem_cons.mpr ⟨⟨_, here⟩, ih⟩

theorem not_mem_of_other {number : List Char} {c : Char}
    (hex : ∀ c ∈ number, ∃ digit, IsHexDigit c digit) (other : hexValue? c = none) :
    c ∉ number := by
  intro member
  obtain ⟨digit, here⟩ := hex c member
  rw [hexValue?_eq_some_iff.mpr here] at other
  cases other

theorem toNat_read_digit (start : Nat) (raw : Word) :
    (Span.read ⟨start, 4⟩ raw).toNat = raw.toNat / 2 ^ start % 16 := by
  rw [Span.read, BitVec.toNat_and, BitVec.toNat_ushiftRight, Nat.shiftRight_eq_div_pow]
  exact Nat.and_two_pow_sub_one_eq_mod _ 4

theorem spells_hexDigits (raw : Word) : Spells (hexDigits raw) raw.toNat := by
  refine ⟨[28, 24, 20, 16, 12, 8, 4, 0].map fun start => (Span.read ⟨start, 4⟩ raw).toNat, ?_, ?_⟩
  · rw [hexDigits, List.forall₂_map_left_iff, List.forall₂_map_right_iff, List.forall₂_same]
    intro start _
    exact ⟨Span.toNat_read_lt ⟨start, 4⟩ raw, .inl rfl⟩
  · have bound := raw.isLt
    simp only [List.map_cons, List.map_nil, toNat_read_digit, List.reverse_cons, List.reverse_nil,
      List.nil_append, List.cons_append, Nat.ofDigits_cons, Nat.ofDigits_nil]
    omega

end OpenRisc.Text
