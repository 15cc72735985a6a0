import OpenRisc.LetterTable
import OpenRisc.Program.Step
import OpenRisc.Signature

set_option autoImplicit false

namespace OpenRisc

inductive ProgramError where
  | signature (offset : Nat)
  | tooManyOperands
  | unknownField (letter : Char)
  deriving DecidableEq, Repr

namespace Program

def destinationLetter : Char := 'D'

def mapLast (change : Step → Step) : Program → Program
  | [] => []
  | [step] => [change step]
  | step :: next :: rest => step :: mapLast change (next :: rest)

def fieldSteps (template : Template) (table : LetterTable) (model : Step) (letter : Char) :
    Except ProgramError Program :=
  match table.get? letter, template.runs letter with
  | some info, run :: runs =>
    let steps := (run :: runs).map fun run => { model with run }
    if info.signed && !model.isBase then
      .ok (mapLast (fun step => { step with signWidth := some info.width }) steps)
    else .ok steps
  | _, _ => .error (.unknownField letter)

def elementSteps (template : Template) (table : LetterTable) (slot : Nat) :
    Element → Except ProgramError Program
  | .register letter =>
    let isDestination := letter == destinationLetter
    fieldSteps template table { slot, isRegister := true, isDestination } letter
  | .immediate letter => fieldSteps template table { slot } letter
  | .displacement value base => do
    let values ← fieldSteps template table { slot } value
    let bases ← fieldSteps template table { slot, isRegister := true, isBase := true } base
    return values ++ bases
  | .synthetic => .ok [{ slot }]

def operandSteps (template : Template) (table : LetterTable) (element : Element × Nat) :
    Except ProgramError Program := do
  let steps ← elementSteps template table element.2 element.1
  return mapLast (fun step => { step with completesOperand := true }) steps

def ofElements (template : Template) (table : LetterTable) (elements : List Element) :
    Except ProgramError Program := do
  let operands ← elements.zipIdx.mapM (operandSteps template table)
  return mapLast (fun step => { step with terminal := true }) operands.flatten

def compile (template : Template) (table : LetterTable) (signature : String) :
    Except ProgramError Program :=
  match Signature.parse signature with
  | .error offset => .error (.signature offset)
  | .ok elements =>
    if maxOperands < elements.length then .error .tooManyOperands
    else ofElements template table elements

end Program

def ProgramError.message (name signature : String) : ProgramError → String
  | .signature offset =>
    "Bad operand syntax `" ++ signature ++ "` for `" ++ name ++ "` at offset " ++ toString offset
  | .tooManyOperands =>
    "`" ++ name ++ "` has more than " ++ toString Program.maxOperands ++ " operands"
  | .unknownField letter =>
    "Operand field `" ++ letter.toString ++ "` of `" ++ name ++
      "` does not appear in its bit template"

end OpenRisc
