import OpenRisc.Proofs.Program.Operands
import OpenRisc.Proofs.Signature.Grammar
import OpenRisc.Proofs.Table.Compilation

set_option autoImplicit false

namespace OpenRisc.Table

theorem extract_of_row {table : Table} {index : Nat} {row : Row}
    (stored : table.rows[index]? = some row) (raw : Word) :
    table.extract raw index = row.program.extract raw := by
  rw [extract, stored]

namespace Compiled

variable {opcodes : List Opcode} {templates : List Template} {table : Table}

theorem evaluates (compiled : Compiled opcodes templates table) {index : Nat} {opcode : Opcode}
    (present : opcodes[index]? = some opcode) :
    ∃ template elements, Template.parse opcode.template = .ok template ∧
      (∀ spelled, Signature.Spells opcode.signature spelled ↔ spelled = elements) ∧
      ∀ raw, table.extract raw index = elements.map (Element.operand template raw) := by
  obtain ⟨template, program, found, parsed, built, stored⟩ := compiled.row present
  have agrees := LetterTable.agrees_of_build compiled.lettered (List.mem_of_getElem? found)
  obtain ⟨elements, read, _, extracted⟩ := Program.extract_of_compile agrees built
  refine ⟨template, elements, parsed, fun spelled => ?_, fun raw => ?_⟩
  · rw [← Signature.parse_eq_ok_iff, read, Except.ok.injEq, eq_comm]
  · rw [extract_of_row stored, extracted]

end Compiled

/-- A row extracts the operands that its signature spells, from the bits of its own template. -/
theorem extract_eq_operands {opcodes : List Opcode} {table : Table}
    (done : compile opcodes = .ok table) {index : Nat} {opcode : Opcode}
    (present : opcodes[index]? = some opcode) :
    ∃ template elements, Template.parse opcode.template = .ok template ∧
      (∀ spelled, Signature.Spells opcode.signature spelled ↔ spelled = elements) ∧
      (∀ raw, table.extract raw index = elements.map (Element.operand template raw)) ∧
      ∀ element ∈ elements, ∀ letter ∈ element.letters, 0 < template.letterWidth letter ∧
        ∀ raw,
          (∀ k, (template.number raw letter).getLsbD k =
            ((template.positions letter)[k]?).any raw.getLsbD) ∧
          (isSigned letter = false → template.value raw letter = template.number raw letter) ∧
          (isSigned letter = true → ∀ value, TwosComplement (template.letterWidth letter)
            (template.number raw letter).toNat value ↔
              value = (template.value raw letter).toInt) := by
  obtain ⟨templates, compiled⟩ := compiled_of_compile done
  obtain ⟨template, program, found, parsed, built, stored⟩ := compiled.row present
  have agrees := LetterTable.agrees_of_build compiled.lettered (List.mem_of_getElem? found)
  obtain ⟨elements, read, uses, extracted⟩ := Program.extract_of_compile agrees built
  refine ⟨template, elements, parsed, ?_, ?_, ?_⟩
  · intro spelled
    rw [← Signature.parse_eq_ok_iff, read, Except.ok.injEq, eq_comm]
  · intro raw
    rw [extract_of_row stored, extracted]
  · intro element member letter named
    have width : 0 < template.letterWidth letter := by
      obtain ⟨p, covered⟩ := (template.uses_iff letter).mp (uses element member letter named)
      exact List.length_pos_of_mem covered
    refine ⟨width, fun raw => ⟨template.getLsbD_number raw letter, ?_, ?_⟩⟩
    · intro unsigned
      rw [Template.value, unsigned, if_neg Bool.false_ne_true]
    · intro signed value
      exact template.twosComplement_value raw signed width value

def storeWord : Opcode :=
  { name := "l.sw", signature := "I(rA),rB"
    template := "11 0x5 IIIII AAAAA BBBB BIII IIII IIII" }

theorem extract_storeWord :
    ∃ table, compile [storeWord] = .ok table ∧
      table.extract 0xD7E14FFC 0 =
        [{ kind := .displacement, value := -4, base := 1, signed := true },
          { kind := .register, value := 9 }] := by
  obtain ⟨table, done⟩ := Traversal.exists_of_isOk
    (show (compile [storeWord]).isOk = true by decide +kernel)
  obtain ⟨template, elements, parsed, spells, extracted, _⟩ :=
    @extract_eq_operands [storeWord] table done 0 storeWord rfl
  have spelled := (spells [.displacement 'I' 'A', .register 'B']).mp
    (.inr ⟨by simp, by decide, by decide⟩)
  have evaluated : (Template.parse storeWord.template).toOption.map (fun template =>
      [Element.displacement 'I' 'A', .register 'B'].map (Element.operand template 0xD7E14FFC)) =
        some [{ kind := .displacement, value := -4, base := 1, signed := true },
          { kind := .register, value := 9 }] := by
    decide +kernel
  rw [parsed, spelled] at evaluated
  exact ⟨table, done, (extracted _).trans (Option.some.inj evaluated)⟩

end OpenRisc.Table
