import OpenRisc.Proofs.Automaton.Selection
import OpenRisc.Proofs.Program.Locality
import OpenRisc.Proofs.Table.Disassembly

set_option autoImplicit false

namespace OpenRisc.Table

theorem extract_eq_of_program? {one other : Table} {index index' : Nat}
    (same : one.program? index = other.program? index') (raw : Word) :
    one.extract raw index = other.extract raw index' := by
  have run (table : Table) (index : Nat) : table.extract raw index =
      ((table.program? index).map fun program => program.extract raw).getD [] := by
    rw [extract, program?]
    cases table.rows[index]? <;> rfl
  rw [run, run, same]

section

variable {opcodes part : List Opcode} {chosen : List Nat}

theorem selects_templates (selects : Selects chosen opcodes part) {templates kept : List Template}
    (parsed : parseTemplates opcodes = .ok templates) (parsed' : parseTemplates part = .ok kept) :
    Selects chosen templates kept where
  distinct := selects.distinct
  count := by
    rw [Traversal.length_of_mapM parsed', List.length_zipIdx, selects.count]
  same k i position := by
    obtain ⟨opcode, here, there⟩ := selects.item_of_chosen position
    obtain ⟨template, found, read⟩ := parse_of_parseTemplates parsed there
    obtain ⟨template', found', read'⟩ := parse_of_parseTemplates parsed' here
    rw [read, Except.ok.injEq] at read'
    rw [found, found', read']

theorem encodes_select_iff (selects : Selects chosen opcodes part) {raw : Word} {k : Nat} :
    Encodes part raw k ↔ ∃ i, chosen[k]? = some i ∧ Encodes opcodes raw i := by
  constructor
  · rintro ⟨opcode, template, present, encoded⟩
    obtain ⟨i, position, original⟩ := selects.chosen_of_item present
    exact ⟨i, position, opcode, template, original, encoded⟩
  · rintro ⟨i, position, opcode, template, original, encoded⟩
    exact ⟨opcode, template, (selects.same k i position).trans original, encoded⟩

end

namespace Compiled

variable {opcodes part : List Opcode} {templates kept : List Template} {table small : Table}
  {chosen : List Nat}

-- The signed letters have the same widths in the letter tables of both.
theorem program_select (compiled : Compiled opcodes templates table)
    (selects : Selects chosen templates kept) {letters : LetterTable}
    (lettered : LetterTable.build kept = .ok letters) {k i : Nat} (position : chosen[k]? = some i)
    {opcode : Opcode} (original : opcodes[i]? = some opcode) {template : Template}
    (found : kept[k]? = some template) :
    ∃ program, Program.compile template letters opcode.signature = .ok program ∧
      table.program? i = some program := by
  obtain ⟨other, program, there, done, stored⟩ := compiled.program? original
  rw [← selects.same k i position, found, Option.some.injEq] at there
  subst there
  have present := List.mem_of_getElem? found
  have local_eq := Program.compile_local (LetterTable.serves_of_build lettered present)
    (LetterTable.serves_of_build compiled.lettered (selects.subset present)) opcode.signature
  exact ⟨program, local_eq.trans done, stored⟩

theorem exists_select (compiled : Compiled opcodes templates table)
    (selects : Selects chosen opcodes part) (nonempty : part ≠ []) :
    ∃ kept small, Compiled part kept small := by
  obtain ⟨kept, parsed⟩ := exists_parseTemplates (by
    intro opcode member
    obtain ⟨index, present⟩ := List.mem_iff_getElem?.mp (selects.subset member)
    obtain ⟨template, _, parsed⟩ := compiled.template present
    exact ⟨template, parsed⟩)
  have picked := selects_templates selects compiled.parsed parsed
  obtain ⟨letters, lettered⟩ := LetterTable.build_of_uniform
    ((LetterTable.uniform_of_build compiled.lettered).mono picked.subset)
  obtain ⟨automaton, built⟩ :=
    Automaton.build_select compiled.built (picked.map Template.pattern) (by
      rw [← List.length_pos_iff, List.length_map, picked.count, ← selects.count]
      exact List.length_pos_iff.mpr nonempty)
  obtain ⟨rows, rowed⟩ : ∃ rows, (part.zip kept).zipIdx.mapM (compileRow letters) = .ok rows := by
    apply Traversal.exists_of_forall_ok
    rintro ⟨⟨opcode, template⟩, k⟩ member
    obtain ⟨here, found⟩ := List.getElem?_zip_eq_some.mp (List.mk_mem_zipIdx_iff_getElem?.mp member)
    obtain ⟨i, position, original⟩ := selects.chosen_of_item here
    obtain ⟨program, done, _⟩ := compiled.program_select picked lettered position original found
    exact ⟨{ opcode, template, program }, by simp [compileRow, done]⟩
  exact ⟨kept, { rows := rows.toArray, letters, automaton }, parsed, lettered, built, rowed⟩

theorem program?_select (compiled : Compiled opcodes templates table)
    (compiled' : Compiled part kept small) (selects : Selects chosen opcodes part) {k i : Nat}
    (position : chosen[k]? = some i) :
    ∃ program, table.program? i = some program ∧ small.program? k = some program := by
  have picked := selects_templates selects compiled.parsed compiled'.parsed
  obtain ⟨opcode, here, original⟩ := selects.item_of_chosen position
  obtain ⟨template, program, found, done, stored⟩ := compiled'.program? here
  obtain ⟨program', done', stored'⟩ :=
    compiled.program_select picked compiled'.lettered position original found
  rw [done, Except.ok.injEq] at done'
  exact ⟨program, done' ▸ stored', stored⟩

theorem decode_select_iff (compiled : Compiled opcodes templates table)
    (compiled' : Compiled part kept small) (selects : Selects chosen opcodes part) {raw : Word}
    {k : Nat} :
    small.decode raw = some k ↔ ∃ i, chosen[k]? = some i ∧ table.decode raw = some i := by
  simp only [compiled'.decode_eq_some, compiled.decode_eq_some, encodes_select_iff selects]

theorem disassemble?_select (compiled : Compiled opcodes templates table)
    (compiled' : Compiled part kept small) (selects : Selects chosen opcodes part) {raw : Word}
    {i : Nat} (decoded : table.decode raw = some i) (member : i ∈ chosen) :
    ∃ whole picked, table.disassemble? raw = some whole ∧ small.disassemble? raw = some picked ∧
      whole.index = i ∧ chosen[picked.index]? = some i ∧ picked.mnemonic = whole.mnemonic ∧
      picked.operands = whole.operands ∧ picked.text = whole.text := by
  obtain ⟨k, position⟩ := List.mem_iff_getElem?.mp member
  obtain ⟨opcode, here, original⟩ := selects.item_of_chosen position
  obtain ⟨program, stored, stored'⟩ := compiled.program?_select compiled' selects position
  have decoded' := (compiled.decode_select_iff compiled' selects).mpr ⟨i, position, decoded⟩
  have operands := extract_eq_of_program? (stored'.trans stored.symm) raw
  refine ⟨_, _, compiled.disassemble?_eq decoded original,
    compiled'.disassemble?_eq decoded' here, rfl, position, rfl, operands, ?_⟩
  rw [Disassembly.text, Disassembly.text, operands]

end Compiled

/-- Rows do not influence each other: a selection of them behaves as the whole table does. -/
theorem compile_selection {opcodes : List Opcode} {table : Table}
    (done : compile opcodes = .ok table) {chosen : List Nat} {part : List Opcode}
    (selects : Selects chosen opcodes part) (nonempty : part ≠ []) :
    ∃ small, compile part = .ok small ∧
      (∀ k i, chosen[k]? = some i → ∃ opcode program alone, opcodes[i]? = some opcode ∧
        table.program? i = some program ∧ small.program? k = some program ∧
        compile [opcode] = .ok alone ∧ alone.program? 0 = some program) ∧
      (∀ raw i, table.decode raw = some i → i ∈ chosen →
        ∃ whole picked, table.disassemble? raw = some whole ∧
          small.disassemble? raw = some picked ∧ whole.index = i ∧
          chosen[picked.index]? = some i ∧ picked.mnemonic = whole.mnemonic ∧
          picked.operands = whole.operands ∧ picked.text = whole.text) ∧
      (∀ raw, (∀ i, table.decode raw = some i → i ∉ chosen) → small.disassemble? raw = none) ∧
      ((∀ i < opcodes.length, i ∈ chosen) → ∀ raw,
        (small.disassemble? raw).map Disassembly.text =
          (table.disassemble? raw).map Disassembly.text) := by
  obtain ⟨templates, compiled⟩ := compiled_of_compile done
  obtain ⟨kept, small, compiled'⟩ := compiled.exists_select selects nonempty
  have dropped (raw : Word) (other : ∀ i, table.decode raw = some i → i ∉ chosen) :
      small.disassemble? raw = none := by
    apply disassemble?_eq_none
    rw [Option.eq_none_iff_forall_ne_some]
    intro k decoded
    obtain ⟨i, position, also⟩ := (compiled.decode_select_iff compiled' selects).mp decoded
    exact other i also (List.mem_of_getElem? position)
  refine ⟨small, compiled'.compile, ?_, ?_, dropped, ?_⟩
  · intro k i position
    obtain ⟨program, stored, stored'⟩ := compiled.program?_select compiled' selects position
    obtain ⟨opcode, _, original⟩ := selects.item_of_chosen position
    have single := Selects.single original
    have first : [i][0]? = some i := rfl
    obtain ⟨_, alone, compiled''⟩ := compiled.exists_select single (List.cons_ne_nil _ _)
    obtain ⟨program', stored'', own⟩ := compiled.program?_select compiled'' single first
    rw [stored, Option.some.injEq] at stored''
    exact ⟨opcode, program, alone, original, stored, stored', compiled''.compile, stored'' ▸ own⟩
  · exact fun raw i => compiled.disassemble?_select compiled' selects
  · intro all raw
    cases decoded : table.decode raw with
    | none =>
      rw [disassemble?_eq_none decoded, dropped raw (by simp [decoded])]
    | some i =>
      obtain ⟨opcode, _, present, _⟩ := (compiled.decode_eq_some raw i).mp decoded
      have inside := (List.getElem?_eq_some_iff.mp present).1
      obtain ⟨whole, picked, here, there, _, _, _, _, text⟩ :=
        compiled.disassemble?_select compiled' selects decoded (all i inside)
      rw [here, there, Option.map_some, Option.map_some, text]

theorem compile_selection_reordered :
    ∃ table small, compile (additions ++ [storeWord]) = .ok table ∧
      compile (storeWord :: additions.take 1) = .ok small ∧
      (∃ whole picked, table.disassemble? 0xD7E14FFC = some whole ∧
        small.disassemble? 0xD7E14FFC = some picked ∧ whole.index = 2 ∧ picked.text = whole.text) ∧
      small.disassemble? 0xE0642800 = none := by
  obtain ⟨table, done⟩ := Traversal.exists_of_isOk
    (show (compile (additions ++ [storeWord])).isOk = true by decide +kernel)
  obtain ⟨templates, compiled⟩ := compiled_of_compile done
  have decoded (raw : Word) (index : Option Nat)
      (found : search? (additions ++ [storeWord]) raw = index) : table.decode raw = index :=
    (compiled.decode_eq_search? raw).trans found
  have selects : Selects [2, 0] (additions ++ [storeWord]) (storeWord :: additions.take 1) := by
    refine ⟨by decide, rfl, fun k i position => ?_⟩
    match k with
    | 0 => rw [← Option.some.inj position]; rfl
    | 1 => rw [← Option.some.inj position]; rfl
    | k + 2 => simp at position
  obtain ⟨small, picked, _, kept, dropped, _⟩ :=
    compile_selection done selects (List.cons_ne_nil _ _)
  obtain ⟨whole, picked', here, there, row, _, _, _, text⟩ :=
    kept 0xD7E14FFC 2 (decoded _ _ (by decide +kernel)) (by decide)
  refine ⟨table, small, done, picked, ⟨whole, picked', here, there, row, text⟩, ?_⟩
  apply dropped
  intro i found
  rw [decoded 0xE0642800 (some 1) (by decide +kernel), Option.some.injEq] at found
  subst found
  decide

end OpenRisc.Table
