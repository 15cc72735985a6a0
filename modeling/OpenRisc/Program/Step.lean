import OpenRisc.Operands
import OpenRisc.Template.Field

set_option autoImplicit false

namespace OpenRisc

/-- Reads one run of bits into the current operand. -/
structure Step where
  -- A run of width 0 stands for an operand without a field.
  run : Run := ⟨⟨0, 0⟩, 0⟩
  slot : Nat := 0
  completesOperand : Bool := false
  isRegister : Bool := false
  isDestination : Bool := false
  isBase : Bool := false
  -- The width of a signed field that is no base, on the step that reads its highest run.
  signWidth : Option Nat := none
  terminal : Bool := false
  deriving DecidableEq, Repr

abbrev Program := List Step

namespace Step

def kind (step : Step) : OperandKind :=
  if step.isBase then .displacement
  else if step.isRegister then .register
  else if step.run.width = 0 then .synthetic
  else .immediate

def merge (raw : Word) (step : Step) (operand : Operand) : Operand :=
  { operand with
    kind := step.kind
    value := if step.isBase then operand.value else operand.value ||| step.run.fragment raw
    base := if step.isBase then operand.base ||| step.run.fragment raw else operand.base
    isDestination := operand.isDestination || step.isDestination }

-- The sign bit is known only when the last run is in place.
def extend (step : Step) (operand : Operand) : Operand :=
  match step.signWidth with
  | none => operand
  | some width =>
    { operand with value := Word.signExtend operand.value width, signed := true }

def apply (raw : Word) (step : Step) (operand : Operand) : Operand :=
  step.extend (step.merge raw operand)

end Step

structure Extraction where
  operands : Operands := {}
  current : Operand := {}
  deriving DecidableEq, Repr

def Step.advance (raw : Word) (step : Step) (state : Extraction) : Extraction :=
  let operand := step.apply raw state.current
  if step.completesOperand then { operands := state.operands.push operand }
  else { state with current := operand }

namespace Program

def extractFrom (raw : Word) (state : Extraction) : Program → Operands
  | [] => state.operands
  | step :: rest =>
    let next := step.advance raw state
    if step.terminal then next.operands else extractFrom raw next rest

def extract (program : Program) (raw : Word) : List Operand :=
  (extractFrom raw {} program).toList

def operandCount (program : Program) : Nat :=
  program.countP Step.completesOperand

end Program

end OpenRisc
