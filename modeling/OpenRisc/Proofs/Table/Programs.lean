import OpenRisc.Proofs.Program.Assembly
import OpenRisc.Proofs.Program.Emission
import OpenRisc.Proofs.Program.Refusal
import OpenRisc.Proofs.Table.Operands
import OpenRisc.Proofs.Template.Runs

set_option autoImplicit false

namespace OpenRisc

theorem Element.mem_letters_of_field? {element : Element} {isBase : Bool} {letter : Char}
    (field : element.field? isBase = some letter) : letter ∈ element.letters := by
  cases element <;> cases isBase <;> simp_all [field?, letters]

structure Run.Fill (template : Template) (letter : Char) (runs : List Run) : Prop where
  present : 0 < template.letterWidth letter
  blocks : Run.Decomposes (template.letterMask letter) runs
  total : (runs.map fun run => run.width).sum = template.letterWidth letter
  inside : ∀ run ∈ runs, run.start + run.width ≤ 32

theorem Template.fill_runs {template : Template} {letter : Char}
    (used : template.uses letter = true) : Run.Fill template letter (template.runs letter) where
  present := by
    obtain ⟨p, covered⟩ := (template.uses_iff letter).mp used
    exact List.length_pos_of_mem covered
  blocks := template.decomposes_runs letter
  total := template.sum_width_runs letter
  inside := (template.decomposes_runs letter).inside

namespace Table

/-- The program of a row, with what an extraction takes for granted. -/
structure Programmed (table : Table) (index : Nat) (template : Template) (elements : List Element)
    (program : Program) : Prop where
  stored : table.program? index = some program
  nonempty : 1 ≤ elements.length
  few : elements.length ≤ Program.maxOperands
  slots : ∀ slot, slot ∈ program.map Step.slot ↔ slot < elements.length
  wellFormed : program.WellFormed template elements.zipIdx
  fields : ∀ element slot, (element, slot) ∈ elements.zipIdx → ∀ isBase letter,
    element.field? isBase = some letter → Run.Fill template letter (program.fieldRuns slot isBase)
  count : table.operandCount? index = some elements.length
  extracted : ∀ raw, (table.extract raw index).length = elements.length

theorem Compiled.programmed {opcodes : List Opcode} {templates : List Template} {table : Table}
    (compiled : Compiled opcodes templates table) {index : Nat} {opcode : Opcode}
    (present : opcodes[index]? = some opcode) :
    ∃ template elements program, Template.parse opcode.template = .ok template ∧
      Signature.parse opcode.signature = .ok elements ∧
      Programmed table index template elements program := by
  obtain ⟨template, program, found, parsed, built, stored⟩ := compiled.row present
  have agrees := LetterTable.agrees_of_build compiled.lettered (List.mem_of_getElem? found)
  obtain ⟨elements, read, few, done⟩ := Program.compile_eq_ok built
  have wellFormed := Program.wellFormed_of_ofElements agrees done
  have held : table.program? index = some program := by
    rw [Table.program?, stored, Option.map_some]
  refine ⟨template, elements, program, parsed, read, held, ?_, few, ?_, wellFormed, ?_, ?_, ?_⟩
  next =>
    rw [Signature.length_of_parse read]
    exact Nat.succ_pos _
  next =>
    intro slot
    rw [wellFormed.slots, List.zipIdx_map_snd]
    simp
  next =>
    intro element slot member isBase letter field
    have named := Element.mem_letters_of_field? field
    have used := Program.uses_of_ofElements agrees done (List.fst_mem_of_mem_zipIdx member) named
    rw [wellFormed.fields element slot member, Element.runs, field]
    exact Template.fill_runs used
  next => rw [operandCount?, held, Option.map_some, Program.operandCount_of_ofElements agrees done]
  next =>
    intro raw
    obtain ⟨also, read', _, extracted⟩ := Program.extract_of_compile agrees built
    rw [read, Except.ok.injEq] at read'
    rw [extract_of_row stored, extracted, List.length_map, read']

/-- Every row of a table has a program that an extraction can rely on. -/
theorem programs_sound :
    (∀ opcodes table, compile opcodes = .ok table →
      ∀ index opcode, opcodes[index]? = some opcode →
        ∃ template elements program, Template.parse opcode.template = .ok template ∧
          Signature.parse opcode.signature = .ok elements ∧
          elements.length = opcode.signature.toList.count ',' + 1 ∧
          Programmed table index template elements program) ∧
      (∀ templates letters, LetterTable.build templates = .ok letters →
        ∀ template ∈ templates, ∀ signature failure,
          Program.compile template letters signature = .error failure ↔
            Program.Refused template signature failure) ∧
      ∀ template letters signature, Program.emit template letters signature =
        (Program.compile template letters signature).map List.toArray := by
  refine ⟨?_, ?_, Program.emit_eq_compile⟩
  next =>
    intro opcodes table done index opcode present
    obtain ⟨templates, compiled⟩ := compiled_of_compile done
    obtain ⟨template, elements, program, parsed, read, programmed⟩ := compiled.programmed present
    exact ⟨template, elements, program, parsed, read, Signature.length_of_parse read, programmed⟩
  next =>
    intro templates letters built template member signature failure
    exact Program.compile_eq_error_iff (LetterTable.serves_of_build built member)

theorem programs_sound_storeWord :
    ∃ table template program, compile [storeWord] = .ok table ∧
      Template.parse storeWord.template = .ok template ∧
      Programmed table 0 template [.displacement 'I' 'A', .register 'B'] program ∧
      Program.compile template table.letters "rB,I(rD),rK" = .error (.unknownField 'D') := by
  obtain ⟨table, done⟩ := Traversal.exists_of_isOk
    (show (compile [storeWord]).isOk = true by decide +kernel)
  obtain ⟨template, elements, program, parsed, read, _, programmed⟩ :=
    programs_sound.1 [storeWord] table done 0 storeWord rfl
  have spelled : Signature.parse storeWord.signature =
      .ok [.displacement 'I' 'A', .register 'B'] := by
    decide +kernel
  rw [spelled, Except.ok.injEq] at read
  subst read
  obtain ⟨templates, compiled⟩ := compiled_of_compile done
  obtain ⟨other, found, same⟩ := compiled.template (show [storeWord][0]? = some storeWord from rfl)
  rw [parsed, Except.ok.injEq] at same
  subst same
  have letters : ((Template.parse storeWord.template).toOption.map fun template =>
      ['B', 'I', 'D'].map template.uses) = some [true, true, false] := by
    decide +kernel
  rw [parsed] at letters
  have refused : Program.Refused template "rB,I(rD),rK" (.unknownField 'D') := by
    have read : Signature.parse "rB,I(rD),rK" =
        .ok [.register 'B', .displacement 'I' 'D', .register 'K'] := by
      decide +kernel
    have named : [Element.register 'B', .displacement 'I' 'D', .register 'K'].flatMap
        Element.letters = ['B', 'I'] ++ 'D' :: ['K'] := rfl
    simp only [Except.toOption, Option.map_some, List.map_cons, List.map_nil, Option.some.injEq,
      List.cons.injEq] at letters
    exact .unknownField read (by decide) named (by simp [letters]) letters.2.2.1
  exact ⟨table, template, program, done, parsed, programmed,
    (programs_sound.2.1 templates table.letters compiled.lettered template
      (List.mem_of_getElem? found) _ _).mpr refused⟩

end Table

end OpenRisc
