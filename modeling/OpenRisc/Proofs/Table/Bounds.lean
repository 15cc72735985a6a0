import OpenRisc.Proofs.Automaton.Walking
import OpenRisc.Proofs.Program.Assembly
import OpenRisc.Proofs.Program.Shifts
import OpenRisc.Proofs.Table.Disassembly

set_option autoImplicit false

namespace OpenRisc.Table

theorem length_extract_le (table : Table) (raw : Word) (index : Nat) :
    (table.extract raw index).length ≤ Program.maxOperands := by
  rw [extract]
  split
  next row stored =>
    rw [Program.length_extract]
    exact Nat.min_le_left _ _
  next => exact Nat.zero_le _

namespace Compiled

variable {opcodes : List Opcode} {templates : List Template} {table : Table}

theorem of_program? (compiled : Compiled opcodes templates table) {index : Nat} {program : Program}
    (stored : table.program? index = some program) :
    ∃ template signature, table.letters.Agrees template ∧
      Program.compile template table.letters signature = .ok program := by
  cases present : opcodes[index]? with
  | some opcode =>
    obtain ⟨template, other, found, built, same⟩ := compiled.program? present
    rw [stored, Option.some.injEq] at same
    subst same
    exact ⟨template, opcode.signature,
      LetterTable.agrees_of_build compiled.lettered (List.mem_of_getElem? found), built⟩
  | none =>
    rw [Table.program?, compiled.row_of_none present] at stored
    cases stored

theorem index_disassemble? (compiled : Compiled opcodes templates table) (raw : Word) :
    (table.disassemble? raw).map Disassembly.index = table.decode raw := by
  cases decoded : table.decode raw with
  | none => rw [disassemble?_eq_none decoded, Option.map_none]
  | some index =>
    obtain ⟨opcode, _, present, _⟩ := (compiled.decode_eq_some raw index).mp decoded
    rw [compiled.disassemble?_eq decoded present, Option.map_some]

end Compiled

/-- Decoding never leaves what a compiled table holds, for any word. -/
theorem decoding_in_bounds {opcodes : List Opcode} {table : Table}
    (few : opcodes.length ≤ 2000000) (done : compile opcodes = .ok table) (raw : Word) :
    (table.automaton.nodes.size < 2 ^ 32 ∧ table.automaton.edges.size < 2 ^ 32) ∧
      (∀ trace, table.automaton.Walks raw table.automaton.root trace ↔
        trace = table.automaton.trace raw) ∧
      (table.automaton.trace raw).path.length ≤ 32 ∧
      (∀ index, (table.automaton.trace raw).arrival = .row index → index < table.rows.size) ∧
      (∀ index program, table.program? index = some program → ∀ step ∈ program, step.InWord) ∧
      (∀ index program, table.program? index = some program → program.Roomy raw {}) ∧
      (∀ index, (table.extract raw index).length ≤ Program.maxOperands) ∧
      (table.disassemble? raw).map Disassembly.index = table.decode raw := by
  obtain ⟨templates, compiled⟩ := compiled_of_compile done
  have patterns : (templates.map Template.pattern).length = opcodes.length := by
    rw [List.length_map, compiled.length_templates]
  have few' := patterns.trans_le few
  have finds := Automaton.finds_of_build compiled.built raw
  refine ⟨Automaton.size_lt_of_build few' compiled.built,
    Automaton.walks_iff_of_build few' compiled.built raw, finds.short, ?_, ?_, ?_,
    table.length_extract_le raw, compiled.index_disassemble? raw⟩
  · intro index arrived
    rw [compiled.size_rows, ← patterns]
    exact finds.known index (by rw [Automaton.walk, arrived, Arrival.row?])
  · intro index program stored
    obtain ⟨template, signature, agrees, built⟩ := compiled.of_program? stored
    exact Program.inWord_of_compile agrees built
  · intro index program stored
    obtain ⟨template, signature, agrees, built⟩ := compiled.of_program? stored
    exact Program.roomy_of_compile agrees built raw

theorem decoding_in_bounds_additions :
    ∃ table, additions.length ≤ 2000000 ∧ compile additions = .ok table ∧
      (∃ trace, table.automaton.Walks 0xE0642803 table.automaton.root trace ∧
        trace.path.length ≤ 32) ∧
      (∀ step ∈ (table.program? 1).getD [], step.InWord) ∧
      (∀ index, (table.extract 0xE0642803 index).length ≤ 5) ∧
      table.disassemble? 0xE0642803 = none := by
  obtain ⟨table, done⟩ := Traversal.exists_of_isOk
    (show (compile additions).isOk = true by decide +kernel)
  obtain ⟨templates, compiled⟩ := compiled_of_compile done
  have few : additions.length ≤ 2000000 := by decide
  obtain ⟨_, walks, short, _, steps, _, room, agree⟩ := decoding_in_bounds few done 0xE0642803
  have rejected : table.decode 0xE0642803 = none :=
    (compiled.decode_eq_search? _).trans (by decide +kernel)
  refine ⟨table, few, done, ⟨_, (walks _).mpr rfl, short⟩, ?_, room, ?_⟩
  · obtain ⟨_, program, _, _, stored⟩ := compiled.program? (show additions[1]? = some _ from rfl)
    rw [stored]
    exact steps 1 program stored
  · rw [rejected, Option.map_eq_none_iff] at agree
    exact agree

end OpenRisc.Table
