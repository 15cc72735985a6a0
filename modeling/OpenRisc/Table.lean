import OpenRisc.Automaton.Image
import OpenRisc.Opcode
import OpenRisc.Program.Compile

set_option autoImplicit false

namespace OpenRisc

structure Row where
  opcode : Opcode
  template : Template
  program : Program
  deriving DecidableEq

structure Table where
  rows : Array Row
  letters : LetterTable
  automaton : Automaton
  deriving DecidableEq

inductive TableError where
  | template (row : Nat) (cause : TemplateError)
  | letters (conflict : WidthConflict)
  | automaton (cause : AutomatonError)
  | program (row : Nat) (cause : ProgramError)
  deriving DecidableEq, Repr

namespace Table

def parseTemplate (opcode : Opcode × Nat) : Except TableError Template :=
  match Template.parse opcode.1.template with
  | .ok template => .ok template
  | .error cause => .error (.template opcode.2 cause)

def parseTemplates (opcodes : List Opcode) : Except TableError (List Template) :=
  opcodes.zipIdx.mapM parseTemplate

def compileRow (letters : LetterTable) (row : (Opcode × Template) × Nat) :
    Except TableError Row :=
  let ((opcode, template), index) := row
  match Program.compile template letters opcode.signature with
  | .ok program => .ok { opcode, template, program }
  | .error cause => .error (.program index cause)

-- The order of the stages decides which of several defects is reported.
def compile (opcodes : List Opcode) : Except TableError Table := do
  let templates ← parseTemplates opcodes
  let letters ← (LetterTable.build templates).mapError TableError.letters
  let automaton ← (Automaton.build (templates.map Template.pattern)).mapError TableError.automaton
  let rows ← (opcodes.zip templates).zipIdx.mapM (compileRow letters)
  return { rows := rows.toArray, letters, automaton }

/-- The row that `raw` encodes. A leaf is a candidate only: the walk compared some fixed bits of the
row, not all of them. -/
def decode (table : Table) (raw : Word) : Option Nat := do
  let index ← table.automaton.walk raw
  let row ← table.rows[index]?
  if row.template.pattern.accepts raw then some index else none

def extract (table : Table) (raw : Word) (index : Nat) : List Operand :=
  match table.rows[index]? with
  | some row => row.program.extract raw
  | none => []

def opcode? (table : Table) (index : Nat) : Option Opcode :=
  table.rows[index]?.map Row.opcode

def pattern? (table : Table) (index : Nat) : Option Pattern :=
  table.rows[index]?.map fun row => row.template.pattern

def program? (table : Table) (index : Nat) : Option Program :=
  table.rows[index]?.map Row.program

def operandCount? (table : Table) (index : Nat) : Option Nat :=
  (table.program? index).map Program.operandCount

def find? (table : Table) (name : String) : Option Nat :=
  table.rows.findIdx? fun row => row.opcode.name == name

def names (table : Table) : List String :=
  table.rows.toList.map fun row => row.opcode.name

end Table

def TableError.message (opcodes : List Opcode) (error : TableError) : String :=
  let name (row : Nat) : String := (opcodes[row]?.map Opcode.name).getD ""
  let signature (row : Nat) : String := (opcodes[row]?.map Opcode.signature).getD ""
  match error with
  | .template row cause => "Bad bit template for `" ++ name row ++ "`: " ++ cause.message
  | .letters conflict => conflict.message name
  | .automaton cause => cause.message name
  | .program row cause => cause.message (name row) (signature row)

end OpenRisc
