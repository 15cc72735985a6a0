import OpenRisc.Program.Compile

set_option autoImplicit false

namespace OpenRisc.Program

def patchLast (kept : Nat) (change : Step → Step) (steps : Array Step) : Array Step :=
  if kept < steps.size then steps.modify (steps.size - 1) change else steps

def emitField (template : Template) (table : LetterTable) (model : Step) (letter : Char)
    (steps : Array Step) : Except ProgramError (Array Step) :=
  match table.get? letter, template.runs letter with
  | some info, run :: runs =>
    let written := steps ++ ((run :: runs).map fun run => { model with run }).toArray
    if info.signed && !model.isBase then
      .ok (patchLast steps.size (fun step => { step with signWidth := some info.width }) written)
    else .ok written
  | _, _ => .error (.unknownField letter)

def emitElement (template : Template) (table : LetterTable) (slot : Nat) (steps : Array Step) :
    Element → Except ProgramError (Array Step)
  | .register letter =>
    let isDestination := letter == destinationLetter
    emitField template table { slot, isRegister := true, isDestination } letter steps
  | .immediate letter => emitField template table { slot } letter steps
  | .displacement value base => do
    let written ← emitField template table { slot } value steps
    emitField template table { slot, isRegister := true, isBase := true } base written
  | .synthetic => .ok (steps.push { slot })

def emitOperand (template : Template) (table : LetterTable) (steps : Array Step)
    (element : Element × Nat) : Except ProgramError (Array Step) := do
  let written ← emitElement template table element.2 steps element.1
  return patchLast 0 (fun step => { step with completesOperand := true }) written

/-- Compiling into one array that grows step by step. A flag is set on what is last at the time. -/
def emit (template : Template) (table : LetterTable) (signature : String) :
    Except ProgramError (Array Step) :=
  match Signature.parse signature with
  | .error offset => .error (.signature offset)
  | .ok elements =>
    if maxOperands < elements.length then .error .tooManyOperands
    else do
      let steps ← elements.zipIdx.foldlM (emitOperand template table) #[]
      return patchLast 0 (fun step => { step with terminal := true }) steps

end OpenRisc.Program
