import OpenRisc.Proofs.Traversal
import OpenRisc.Table

set_option autoImplicit false

namespace OpenRisc.Table

structure Compiled (opcodes : List Opcode) (templates : List Template) (table : Table) : Prop where
  parsed : parseTemplates opcodes = .ok templates
  lettered : LetterTable.build templates = .ok table.letters
  built : Automaton.build (templates.map Template.pattern) = .ok table.automaton
  rowed : (opcodes.zip templates).zipIdx.mapM (compileRow table.letters) = .ok table.rows.toList

theorem compiled_of_compile {opcodes : List Opcode} {table : Table}
    (done : compile opcodes = .ok table) : ∃ templates, Compiled opcodes templates table := by
  rw [compile] at done
  obtain ⟨templates, parsed, done⟩ := Traversal.bind_eq_ok_iff.mp done
  obtain ⟨letters, lettered, done⟩ := Traversal.bind_eq_ok_iff.mp done
  obtain ⟨automaton, built, done⟩ := Traversal.bind_eq_ok_iff.mp done
  obtain ⟨rows, rowed, done⟩ := Traversal.bind_eq_ok_iff.mp done
  cases done
  exact ⟨templates, parsed, Traversal.mapError_eq_ok_iff.mp lettered,
    Traversal.mapError_eq_ok_iff.mp built, rowed⟩

theorem parseTemplate_eq_ok_iff {opcode : Opcode} {index : Nat} {template : Template} :
    parseTemplate (opcode, index) = .ok template ↔
      Template.parse opcode.template = .ok template := by
  rw [parseTemplate]
  split
  next other parsed => simp [parsed]
  next cause failed => simp [failed]

theorem parse_of_parseTemplates {opcodes : List Opcode} {templates : List Template}
    (parsed : parseTemplates opcodes = .ok templates) {index : Nat} {opcode : Opcode}
    (present : opcodes[index]? = some opcode) :
    ∃ template, templates[index]? = some template ∧
      Template.parse opcode.template = .ok template := by
  have item : opcodes.zipIdx[index]? = some (opcode, index) := by
    rw [List.getElem?_zipIdx, present, Option.map_some, Nat.zero_add]
  obtain ⟨template, found, read⟩ := Traversal.read_of_mapM parsed item
  exact ⟨template, found, parseTemplate_eq_ok_iff.mp read⟩

theorem exists_parseTemplates {opcodes : List Opcode}
    (readable : ∀ opcode ∈ opcodes, ∃ template, Template.parse opcode.template = .ok template) :
    ∃ templates, parseTemplates opcodes = .ok templates := by
  apply Traversal.exists_of_forall_ok
  rintro ⟨opcode, index⟩ member
  obtain ⟨template, parsed⟩ := readable opcode (List.fst_mem_of_mem_zipIdx member)
  exact ⟨template, parseTemplate_eq_ok_iff.mpr parsed⟩

theorem compileRow_eq_ok {letters : LetterTable} {opcode : Opcode} {template : Template}
    {index : Nat} {row : Row} (done : compileRow letters ((opcode, template), index) = .ok row) :
    row.opcode = opcode ∧ row.template = template ∧
      Program.compile template letters opcode.signature = .ok row.program := by
  simp only [compileRow] at done
  split at done
  next program compiled =>
    cases done
    exact ⟨rfl, rfl, compiled⟩
  next => simp at done

namespace Compiled

variable {opcodes : List Opcode} {templates : List Template} {table : Table}

theorem compile (compiled : Compiled opcodes templates table) : compile opcodes = .ok table := by
  rw [Table.compile]
  refine Traversal.bind_eq_ok_iff.mpr ⟨templates, compiled.parsed, ?_⟩
  refine Traversal.bind_eq_ok_iff.mpr
    ⟨table.letters, Traversal.mapError_eq_ok_iff.mpr compiled.lettered, ?_⟩
  refine Traversal.bind_eq_ok_iff.mpr
    ⟨table.automaton, Traversal.mapError_eq_ok_iff.mpr compiled.built, ?_⟩
  exact Traversal.bind_eq_ok_iff.mpr ⟨table.rows.toList, compiled.rowed, rfl⟩

theorem length_templates (compiled : Compiled opcodes templates table) :
    templates.length = opcodes.length := by
  simpa using Traversal.length_of_mapM compiled.parsed

theorem size_rows (compiled : Compiled opcodes templates table) :
    table.rows.size = opcodes.length := by
  have length := Traversal.length_of_mapM compiled.rowed
  rwa [List.length_zipIdx, List.length_zip, compiled.length_templates, Nat.min_self,
    Array.length_toList] at length

theorem template (compiled : Compiled opcodes templates table) {index : Nat} {opcode : Opcode}
    (present : opcodes[index]? = some opcode) :
    ∃ template, templates[index]? = some template ∧
      Template.parse opcode.template = .ok template :=
  parse_of_parseTemplates compiled.parsed present

theorem row (compiled : Compiled opcodes templates table) {index : Nat} {opcode : Opcode}
    (present : opcodes[index]? = some opcode) :
    ∃ template program, templates[index]? = some template ∧
      Template.parse opcode.template = .ok template ∧
      Program.compile template table.letters opcode.signature = .ok program ∧
      table.rows[index]? = some { opcode, template, program } := by
  obtain ⟨template, found, parsed⟩ := compiled.template present
  have item : (opcodes.zip templates).zipIdx[index]? = some ((opcode, template), index) := by
    have pair : (opcodes.zip templates)[index]? = some (opcode, template) :=
      List.getElem?_zip_eq_some.mpr ⟨present, found⟩
    rw [List.getElem?_zipIdx, pair, Option.map_some, Nat.zero_add]
  obtain ⟨row, stored, done⟩ := Traversal.read_of_mapM compiled.rowed item
  obtain ⟨rfl, rfl, program⟩ := compileRow_eq_ok done
  exact ⟨row.template, row.program, found, parsed, program, by simpa using stored⟩

theorem row_of_none (compiled : Compiled opcodes templates table) {index : Nat}
    (absent : opcodes[index]? = none) : table.rows[index]? = none := by
  apply Array.getElem?_eq_none
  rw [compiled.size_rows]
  exact List.getElem?_eq_none_iff.mp absent

theorem program? (compiled : Compiled opcodes templates table) {index : Nat} {opcode : Opcode}
    (present : opcodes[index]? = some opcode) :
    ∃ template program, templates[index]? = some template ∧
      Program.compile template table.letters opcode.signature = .ok program ∧
      table.program? index = some program := by
  obtain ⟨template, program, found, _, built, stored⟩ := compiled.row present
  exact ⟨template, program, found, built, by rw [Table.program?, stored, Option.map_some]⟩

theorem opcode?_eq (compiled : Compiled opcodes templates table) (index : Nat) :
    table.opcode? index = opcodes[index]? := by
  cases present : opcodes[index]? with
  | some opcode =>
    obtain ⟨template, program, _, _, _, stored⟩ := compiled.row present
    rw [opcode?, stored, Option.map_some]
  | none =>
    rw [opcode?, compiled.row_of_none present, Option.map_none]

end Compiled

end OpenRisc.Table
