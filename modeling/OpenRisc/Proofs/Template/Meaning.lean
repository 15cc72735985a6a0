import OpenRisc.Proofs.Template.Expansion
import OpenRisc.Proofs.Template.Reading

set_option autoImplicit false

namespace OpenRisc.Template

/-- Each bit has the meaning of its character; the first character is that of bit 31. -/
def Shows (template : Template) (chars : List Char) : Prop :=
  ∀ k < 32, ∃ c, chars[k]? = some c ∧
    (template.pattern.mask.getLsbD (31 - k) = true ↔ c = '0' ∨ c = '1') ∧
    (template.pattern.value.getLsbD (31 - k) = true ↔ c = '1') ∧
    ∀ letter, (template.letterMask letter).getLsbD (31 - k) = true ↔
      c = letter ∧ letter.isAlpha = true

theorem shows_of_bits {template : Template} {chars : List Char} (full : chars.length = 32)
    (legal : ∀ c ∈ chars, IsBitChar c) (bits : template.bits = (chars.map Bit.ofChar).reverse) :
    template.Shows chars := by
  intro k inside
  have within : k < chars.length := full ▸ inside
  have here := legal chars[k] (List.getElem_mem within)
  have bit : template.bit (31 - k) = Bit.ofChar chars[k] := by
    have mirrored : 32 - 1 - (31 - k) = k := by omega
    rw [Template.bit, bits, List.getD_eq_getElem?_getD, List.getElem?_reverse (by simp; omega),
      List.length_map, full, mirrored, List.getElem?_map, List.getElem?_eq_getElem within]
    rfl
  have read (holds : Nat → Bool) : (Word.ofBits holds).getLsbD (31 - k) = holds (31 - k) := by
    rw [Word.getLsbD_ofBits, decide_eq_true (show 31 - k < 32 by omega), Bool.true_and]
  refine ⟨chars[k], List.getElem?_eq_getElem within, ?_, ?_, fun letter => ?_⟩
  · rw [pattern, read, bit]
    exact (Bit.fixed_ofChar here).1
  · rw [pattern, read, bit]
    exact (Bit.fixed_ofChar here).2
  · rw [letterMask, read, bit]
    exact Bit.operand_ofChar here letter

theorem mask_and_letterMask (template : Template) (letter : Char) :
    template.pattern.mask &&& template.letterMask letter = 0 := by
  apply BitVec.eq_of_getLsbD_eq
  intro p inside
  cases held : template.bit p <;> simp [pattern, letterMask, inside, held]

theorem letterMask_and_letterMask (template : Template) {left right : Char} (other : left ≠ right) :
    template.letterMask left &&& template.letterMask right = 0 := by
  apply BitVec.eq_of_getLsbD_eq
  intro p inside
  have apart : (template.bit p == .operand left && template.bit p == .operand right) = false := by
    rw [Bool.and_eq_false_iff, beq_eq_false_iff_ne, beq_eq_false_iff_ne]
    by_cases held : template.bit p = .operand left
    · exact .inr fun also => other (Bit.operand.inj (held.symm.trans also))
    · exact .inl held
  rw [BitVec.getLsbD_and, letterMask, letterMask, Word.getLsbD_ofBits, Word.getLsbD_ofBits,
    decide_eq_true inside, Bool.true_and, Bool.true_and, apart]
  exact BitVec.getLsbD_zero.symm

theorem letterWidth_eq_countP (template : Template) (letter : Char) :
    template.letterWidth letter = (List.range 32).countP (template.letterMask letter).getLsbD := by
  rw [letterWidth, positions, ← List.countP_eq_length_filter]
  apply List.countP_congr
  intro p member
  simp [letterMask, List.mem_range.mp member]

/-- A text is a template if its words expand to 32 bits; if not, the leftmost defect is named. -/
theorem parse_iff_expansion (text : String) :
    ((∃ template, parse text = .ok template) ↔ ∃ chars, Expansion text chars ∧ chars.length = 32) ∧
      (∀ template chars, parse text = .ok template → Expansion text chars →
        template.Shows chars ∧
          (∀ letter, template.pattern.mask &&& template.letterMask letter = 0) ∧
          (∀ left right, left ≠ right →
            template.letterMask left &&& template.letterMask right = 0) ∧
          template.pattern.value &&& template.pattern.mask = template.pattern.value ∧
          ∀ letter, template.letterWidth letter =
            (List.range 32).countP (template.letterMask letter).getLsbD) ∧
      (∀ error, parse text = .error error ↔ FirstDefect text error ∨
        ∃ chars, Expansion text chars ∧ chars.length ≠ 32 ∧ error = .width chars.length) ∧
      (2 * text.length < UInt32.size → ∀ chars, Expansion text chars →
        chars.length < UInt32.size) ∧
      (∀ template, parse text = .ok template →
        ∃ reading, Reading.ofText text = .ok reading ∧ reading.Answers template) ∧
      ∀ error, Reading.ofText text = .error error ↔ parse text = .error error := by
  refine ⟨⟨?_, ?_⟩, ?_, fun _ => parse_eq_error_iff, ?_, fun _ => Reading.ofText_of_parse,
    fun _ => Reading.ofText_eq_error_iff⟩
  · rintro ⟨template, parsed⟩
    obtain ⟨chars, expansion⟩ := exists_expansion_of_parse parsed
    exact ⟨chars, expansion, (bits_of_parse parsed expansion).1⟩
  · rintro ⟨chars, expansion, full⟩
    obtain ⟨template, parsed, _⟩ := (parse_of_expansion expansion).1 full
    exact ⟨template, parsed⟩
  · intro template chars parsed expansion
    obtain ⟨full, bits⟩ := bits_of_parse parsed expansion
    exact ⟨shows_of_bits full (isBitChar_of_expansion expansion) bits, template.mask_and_letterMask,
      fun _ _ => template.letterMask_and_letterMask, template.value_within_mask,
      template.letterWidth_eq_countP⟩
  · intro short chars expansion
    have bound := length_of_expansion expansion
    omega

theorem parse_iff_expansion_addImmediate :
    ∃ template, parse "10 0x7 DDDDDAAAAAIIIIIIIIIIIIIIII" = .ok template ∧
      template.Shows "100111DDDDDAAAAAIIIIIIIIIIIIIIII".toList := by
  have expansion : Expansion "10 0x7 DDDDDAAAAAIIIIIIIIIIIIIIII"
      "100111DDDDDAAAAAIIIIIIIIIIIIIIII".toList := by
    refine ⟨["10", "0111", "DDDDDAAAAAIIIIIIIIIIIIIIII"].map String.toList, ?_, rfl⟩
    have bits : Expands "10".toList "10".toList := .bits (by decide) (by simp [IsBitChar])
    have nibble : Expands "0x7".toList "0111".toList :=
      .nibble (show Text.IsHexDigit '7' 7 by decide)
    have fields : Expands "DDDDDAAAAAIIIIIIIIIIIIIIII".toList "DDDDDAAAAAIIIIIIIIIIIIIIII".toList :=
      .bits (by decide) (by simp [IsBitChar])
    exact .cons bits (.cons nibble (.cons fields .nil))
  obtain ⟨accepts, means, _⟩ := parse_iff_expansion "10 0x7 DDDDDAAAAAIIIIIIIIIIIIIIII"
  obtain ⟨template, parsed⟩ := accepts.mpr ⟨_, expansion, rfl⟩
  exact ⟨template, parsed, (means template _ parsed expansion).1⟩

example : parse "0x5 0X5 0x" = .error (.unexpectedChar '5') := rfl

end OpenRisc.Template
