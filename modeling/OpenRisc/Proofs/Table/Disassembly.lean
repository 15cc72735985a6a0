import OpenRisc.Disassembly
import OpenRisc.InstructionSet
import OpenRisc.Proofs.Operand.Text
import OpenRisc.Proofs.Table.Decoding
import OpenRisc.Proofs.Table.Operands

set_option autoImplicit false

namespace OpenRisc

namespace Disassembly

def shown (disassembly : Disassembly) : List Operand :=
  disassembly.operands.filter fun operand => operand.kind != .synthetic

theorem toList_text (disassembly : Disassembly) :
    disassembly.text.toList = disassembly.mnemonic.toList ++
      if disassembly.shown = [] then []
      else ' ' :: [','].intercalate (disassembly.shown.map fun operand => operand.text.toList) := by
  have filtered : (disassembly.operands.filter fun operand => operand.kind != .synthetic) =
      disassembly.shown := rfl
  rw [text, filtered]
  split
  next bare => rw [if_pos bare, List.append_nil]
  next operands listed =>
    rw [if_neg listed]
    simp [Function.comp_def]

theorem text_eq_iff {left right : Disassembly} (mnemonic : left.mnemonic = right.mnemonic)
    (count : left.shown.length = right.shown.length) :
    left.text = right.text ↔ left.shown.map Operand.text = right.shown.map Operand.text := by
  have characters (disassembly : Disassembly) :
      (disassembly.shown.map fun operand => operand.text.toList) =
        (disassembly.shown.map Operand.text).map String.toList := by simp
  have separate (disassembly : Disassembly) :
      ∀ piece ∈ disassembly.shown.map fun operand => operand.text.toList, ',' ∉ piece := by
    intro piece member
    obtain ⟨operand, _, rfl⟩ := List.mem_map.mp member
    exact operand.comma_not_mem_text
  rw [← String.toList_inj, toList_text, toList_text, mnemonic, List.append_cancel_left_eq]
  constructor
  · intro same
    by_cases bare : left.shown = []
    · have also : right.shown = [] := List.eq_nil_of_length_eq_zero (by simpa [bare] using count.symm)
      rw [bare, also]
    · have also : right.shown ≠ [] := by
        intro none
        exact bare (List.eq_nil_of_length_eq_zero (by simpa [none] using count))
      rw [if_neg bare, if_neg also, List.cons.injEq] at same
      have pieces := congrArg (List.splitOn ',') same.2
      rw [List.splitOn_intercalate _ (separate left) (by simpa using bare),
        List.splitOn_intercalate _ (separate right) (by simpa using also), characters, characters]
        at pieces
      exact List.map_injective_iff.mpr (fun _ _ => String.toList_inj.mp) pieces
  · intro same
    have empty : left.shown = [] ↔ right.shown = [] := by
      rw [← List.length_eq_zero_iff, count, List.length_eq_zero_iff]
    simp only [characters, same, empty]

theorem takeWhile_text {disassembly : Disassembly} (solid : ' ' ∉ disassembly.mnemonic.toList) :
    disassembly.text.toList.takeWhile (· != ' ') = disassembly.mnemonic.toList := by
  have whole : ∀ c ∈ disassembly.mnemonic.toList, (c != ' ') = true := by
    rintro c member
    simp only [bne_iff_ne, ne_eq]
    rintro rfl
    exact solid member
  rw [toList_text, List.takeWhile_append_of_pos whole]
  split <;> simp

end Disassembly

namespace Element

theorem kind_operand (template : Template) (left right : Word) (element : Element) :
    (element.operand template left).kind = (element.operand template right).kind := by
  cases element <;> rfl

theorem kind_eq_synthetic_iff {template : Template} {raw : Word} {element : Element} :
    (element.operand template raw).kind = .synthetic ↔ element = .synthetic := by
  cases element <;> simp [operand]

theorem text_operand_eq_iff {template : Template} {left right : Word} {element : Element} :
    (element.operand template left).text = (element.operand template right).text ↔
      ∀ letter ∈ element.letters,
        template.number left letter = template.number right letter := by
  constructor
  · intro same letter named
    have restored {letter : Char}
        (value : template.value left letter = template.value right letter) :
        template.number left letter = template.number right letter := by
      rw [← template.value_and_lowMask, value, template.value_and_lowMask]
    have told := Operand.text_injective (kind_operand template left right element)
    cases element with
    | register other =>
      rw [List.mem_singleton.mp named]
      exact restored (told nofun same).1
    | immediate other =>
      rw [List.mem_singleton.mp named]
      exact restored (told nofun same).1
    | displacement value base =>
      obtain ⟨values, bases⟩ := told nofun same
      rcases List.mem_cons.mp named with rfl | named
      · exact restored values
      · rw [List.mem_singleton.mp named]
        exact bases rfl
    | synthetic => simp [letters] at named
  · intro same
    rw [operand_eq_operandOf, operand_eq_operandOf]
    apply congrArg Operand.text
    apply operandOf_congr
    · intro letter named
      rw [template.value_eq_stored, template.value_eq_stored, same letter named]
    · exact same

end Element

namespace Disassembly

theorem text_eq_iff_of_operands {left right : Disassembly} {template : Template}
    {elements : List Element} {first second : Word} (mnemonic : left.mnemonic = right.mnemonic)
    (operands : left.operands = elements.map (Element.operand template first))
    (operands' : right.operands = elements.map (Element.operand template second)) :
    left.text = right.text ↔ ∀ element ∈ elements, ∀ letter ∈ element.letters,
      ∀ p, template.bit p = .operand letter → first.getLsbD p = second.getLsbD p := by
  have listed (raw : Word) :
      (elements.map (Element.operand template raw)).filter (fun operand => operand.kind != .synthetic) =
        (elements.filter (· != .synthetic)).map (Element.operand template raw) := by
    rw [List.filter_map]
    apply congrArg (List.map _)
    apply List.filter_congr
    intro element _
    rw [Bool.eq_iff_iff]
    simp [Element.kind_eq_synthetic_iff]
  have here : left.shown = (elements.filter (· != .synthetic)).map (Element.operand template first) := by
    rw [shown, operands, listed]
  have there : right.shown =
      (elements.filter (· != .synthetic)).map (Element.operand template second) := by
    rw [shown, operands', listed]
  rw [text_eq_iff mnemonic (by rw [here, there, List.length_map, List.length_map]), here, there,
    List.map_map, List.map_map, List.map_inj_left]
  simp only [Function.comp_apply, Element.text_operand_eq_iff, Template.number_eq_iff,
    List.mem_filter, bne_iff_ne, ne_eq]
  constructor
  · intro same element member letter named
    refine same element ⟨member, ?_⟩ letter named
    rintro rfl
    simp [Element.letters] at named
  · exact fun same element present => same element present.1

end Disassembly

theorem instructions_distinct :
    (instructions.map Opcode.name).Nodup ∧ ∀ opcode ∈ instructions, ' ' ∉ opcode.name.toList := by
  constructor
  · -- Numbers are told apart faster than names.
    apply List.Nodup.of_map fun name => name.toList.foldl (fun code c => 256 * code + c.toNat) 0
    decide +kernel
  · decide +kernel

namespace Table

theorem disassemble?_eq_none {table : Table} {raw : Word} (undecoded : table.decode raw = none) :
    table.disassemble? raw = none := by
  rw [disassemble?, undecoded]
  rfl

theorem Compiled.disassemble?_eq {opcodes : List Opcode} {templates : List Template} {table : Table}
    (compiled : Compiled opcodes templates table) {raw : Word} {index : Nat} {opcode : Opcode}
    (decoded : table.decode raw = some index) (present : opcodes[index]? = some opcode) :
    table.disassemble? raw =
      some { raw, index, mnemonic := opcode.name, operands := table.extract raw index } := by
  simp [disassemble?, decoded, compiled.opcode?_eq, present]

theorem Compiled.of_disassemble? {opcodes : List Opcode} {templates : List Template} {table : Table}
    (compiled : Compiled opcodes templates table) {raw : Word} {disassembly : Disassembly}
    (done : table.disassemble? raw = some disassembly) :
    ∃ opcode, table.decode raw = some disassembly.index ∧
      opcodes[disassembly.index]? = some opcode ∧ disassembly.mnemonic = opcode.name := by
  simp only [disassemble?, compiled.opcode?_eq, Option.bind_eq_bind, Option.bind_eq_some_iff,
    Option.pure_def, Option.some.injEq] at done
  obtain ⟨index, decoded, opcode, present, rfl⟩ := done
  exact ⟨opcode, decoded, present, rfl⟩

/-- Words of one row have the same text exactly if they agree on all fields of the signature. -/
theorem text_eq_iff_agree {opcodes : List Opcode} {table : Table}
    (done : compile opcodes = .ok table) :
    (∀ index opcode, opcodes[index]? = some opcode →
      ∃ template elements, Template.parse opcode.template = .ok template ∧
        (∀ spelled, Signature.Spells opcode.signature spelled ↔ spelled = elements) ∧
        ∀ left right, table.decode left = some index → table.decode right = some index →
          ∃ one other, table.disassemble? left = some one ∧
            table.disassemble? right = some other ∧
            (one.text = other.text ↔ ∀ element ∈ elements, ∀ letter ∈ element.letters,
              ∀ p, template.bit p = .operand letter → left.getLsbD p = right.getLsbD p)) ∧
      ((opcodes.map Opcode.name).Nodup → (∀ opcode ∈ opcodes, ' ' ∉ opcode.name.toList) →
        ∀ left right one other, table.disassemble? left = some one →
          table.disassemble? right = some other → one.text = other.text →
            ∃ index, table.decode left = some index ∧ table.decode right = some index) ∧
      (instructions.map Opcode.name).Nodup ∧
      ∀ opcode ∈ instructions, ' ' ∉ opcode.name.toList := by
  obtain ⟨templates, compiled⟩ := compiled_of_compile done
  refine ⟨?_, ?_, instructions_distinct⟩
  · intro index opcode present
    obtain ⟨template, elements, parsed, spells, extracted⟩ := compiled.evaluates present
    refine ⟨template, elements, parsed, spells, fun left right here there => ?_⟩
    refine ⟨_, _, compiled.disassemble?_eq here present, compiled.disassemble?_eq there present, ?_⟩
    exact Disassembly.text_eq_iff_of_operands rfl (extracted left) (extracted right)
  · intro distinct solid left right one other here there same
    obtain ⟨opcode, decoded, present, named⟩ := compiled.of_disassemble? here
    obtain ⟨opcode', decoded', present', named'⟩ := compiled.of_disassemble? there
    have mnemonic (disassembly : Disassembly) (opcode : Opcode) (member : opcode ∈ opcodes)
        (named : disassembly.mnemonic = opcode.name) :
        disassembly.text.toList.takeWhile (· != ' ') = opcode.name.toList := by
      rw [Disassembly.takeWhile_text (named ▸ solid opcode member), named]
    have names : opcode.name = opcode'.name := by
      rw [← String.toList_inj, ← mnemonic one opcode (List.mem_of_getElem? present) named, same,
        mnemonic other opcode' (List.mem_of_getElem? present') named']
    have rows : one.index = other.index := by
      apply (List.getElem?_inj (by simpa using (List.getElem?_eq_some_iff.mp present).1) distinct).mp
      rw [List.getElem?_map, List.getElem?_map, present, present', Option.map_some, Option.map_some,
        names]
    exact ⟨one.index, decoded, rows ▸ decoded'⟩

theorem text_additions :
    ∃ table, compile additions = .ok table ∧
      (∃ one other, table.disassemble? 0xE0642800 = some one ∧
        table.disassemble? 0xE06428F0 = some other ∧ one.text = other.text ∧
        ∃ index, table.decode 0xE0642800 = some index ∧ table.decode 0xE06428F0 = some index) ∧
      ∃ one other, table.disassemble? 0x9C640010 = some one ∧
        table.disassemble? 0x9C640011 = some other ∧ one.text ≠ other.text := by
  obtain ⟨table, done⟩ := Traversal.exists_of_isOk
    (show (compile additions).isOk = true by decide +kernel)
  obtain ⟨templates, compiled⟩ := compiled_of_compile done
  obtain ⟨agree, tells, _⟩ := text_eq_iff_agree done
  have decoded (raw : Word) (index : Nat) (found : search? additions raw = some index) :
      table.decode raw = some index :=
    (compiled.decode_eq_search? raw).trans found
  refine ⟨table, done, ?_, ?_⟩
  · obtain ⟨template, elements, parsed, spells, texts⟩ := agree 1 _ rfl
    have spelled := (spells [.register 'D', .register 'A', .register 'B']).mp
      (.inr ⟨by simp, by decide, by decide⟩)
    subst spelled
    obtain ⟨one, other, here, there, same⟩ := texts 0xE0642800 0xE06428F0
      (decoded _ 1 (by decide +kernel)) (decoded _ 1 (by decide +kernel))
    have numbers : (Template.parse "11 0x8 DDDDD AAAAA BBBB B--- ---- 0x0").toOption.map
        (fun template => ['D', 'A', 'B'].all fun letter =>
          template.number 0xE0642800 letter == template.number 0xE06428F0 letter) = some true := by
      decide +kernel
    rw [show Template.parse "11 0x8 DDDDD AAAAA BBBB B--- ---- 0x0" = .ok template from parsed]
      at numbers
    have equal := same.mpr (by
      simp only [← Template.number_eq_iff]
      simpa [Except.toOption, Element.letters] using numbers)
    exact ⟨one, other, here, there, equal,
      tells (by decide) (by decide +kernel) _ _ one other here there equal⟩
  · obtain ⟨template, elements, parsed, spells, texts⟩ := agree 0 _ rfl
    have spelled := (spells [.register 'D', .register 'A', .immediate 'I']).mp
      (.inr ⟨by simp, by decide, by decide⟩)
    subst spelled
    obtain ⟨one, other, here, there, same⟩ := texts 0x9C640010 0x9C640011
      (decoded _ 0 (by decide +kernel)) (decoded _ 0 (by decide +kernel))
    have held : (Template.parse "10 0x7 DDDDD AAAAA IIII IIII IIII IIII").toOption.map
        (fun template => template.bit 0) = some (.operand 'I') := by
      decide +kernel
    rw [show Template.parse "10 0x7 DDDDD AAAAA IIII IIII IIII IIII" = .ok template from parsed]
      at held
    refine ⟨one, other, here, there, fun equal => ?_⟩
    have bit := same.mp equal (.immediate 'I') (by simp) 'I' (by simp [Element.letters]) 0
      (Option.some.inj held)
    exact absurd bit (by decide)

end Table

end OpenRisc
