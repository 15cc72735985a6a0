import OpenRisc.Text.Hex

set_option autoImplicit false

namespace OpenRisc

inductive OperandKind where
  | register
  | immediate
  | displacement
  | synthetic
  deriving DecidableEq, Repr

structure Operand where
  kind : OperandKind := .immediate
  value : Word := 0
  base : Word := 0
  signed : Bool := false
  isDestination : Bool := false
  deriving DecidableEq, Repr

namespace Operand

-- A negative number is written as its magnitude behind a minus sign.
def number (operand : Operand) : String :=
  if operand.signed && operand.value.msb then "-" ++ Text.hex (-operand.value)
  else Text.hex operand.value

def text (operand : Operand) : String :=
  match operand.kind with
  | .register => "r" ++ toString operand.value.toNat
  | .immediate => operand.number
  | .displacement => operand.number ++ "(r" ++ toString operand.base.toNat ++ ")"
  | .synthetic => ""

def destination? (operands : List Operand) : Option Operand :=
  operands.find? isDestination

def displacement? (operands : List Operand) : Option Operand :=
  operands.find? fun operand => operand.kind == .displacement

end Operand

end OpenRisc
