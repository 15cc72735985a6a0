import OpenRisc.Table

set_option autoImplicit false

namespace OpenRisc

structure Disassembly where
  raw : Word
  index : Nat
  mnemonic : String
  operands : List Operand
  deriving DecidableEq, Repr

namespace Disassembly

def text (disassembly : Disassembly) : String :=
  match disassembly.operands.filter fun operand => operand.kind != .synthetic with
  | [] => disassembly.mnemonic
  | operands =>
    disassembly.mnemonic ++ " " ++ ",".intercalate (operands.map Operand.text)

end Disassembly

def Table.disassemble? (table : Table) (raw : Word) : Option Disassembly := do
  let index ← table.decode raw
  let opcode ← table.opcode? index
  return { raw, index, mnemonic := opcode.name, operands := table.extract raw index }

end OpenRisc
