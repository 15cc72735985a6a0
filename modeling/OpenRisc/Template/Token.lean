import OpenRisc.Text.Blank
import OpenRisc.Text.Hex

set_option autoImplicit false

namespace OpenRisc

inductive Bit where
  | fixed (value : Bool)
  | free
  | operand (letter : Char)
  deriving DecidableEq, Repr

def Bit.letter? : Bit → Option Char
  | .operand letter => some letter
  | _ => none

inductive TemplateError where
  | invalidNibble (word : String)
  | unexpectedChar (char : Char)
  | width (bits : Nat)
  deriving DecidableEq, Repr

def TemplateError.message : TemplateError → String
  | .invalidNibble word => "Malformed hex nibble token `" ++ word ++ "`"
  | .unexpectedChar char => "Unexpected character `" ++ char.toString ++ "` in bit template"
  | .width bits => "Template covers " ++ toString bits ++ " bits, expected 32"

inductive Token where
  | bit (single : Bit)
  | nibble (value : BitVec 4)
  deriving DecidableEq, Repr

namespace Token

def bits : Token → List Bit
  | .bit single => [single]
  | .nibble value => [3, 2, 1, 0].map fun p => .fixed (value.getLsbD p)

def width (token : Token) : Nat :=
  token.bits.length

def ofChar : Char → Except TemplateError Token
  | '0' => .ok (.bit (.fixed false))
  | '1' => .ok (.bit (.fixed true))
  | '-' => .ok (.bit .free)
  | c => if c.isAlpha then .ok (.bit (.operand c)) else .error (.unexpectedChar c)

def ofWord : List Char → Except TemplateError (List Token)
  | '0' :: 'x' :: digits =>
    match digits with
    | [digit] =>
      match Text.hexValue? digit with
      | some value => .ok [.nibble (BitVec.ofNat 4 value)]
      | none => .error (.invalidNibble (String.ofList ['0', 'x', digit]))
    | _ => .error (.invalidNibble (String.ofList ('0' :: 'x' :: digits)))
  | word => word.mapM ofChar

end Token

def tokenize (template : String) : Except TemplateError (List Token) := do
  let tokens ← (Text.words template.toList).mapM Token.ofWord
  return tokens.flatten

end OpenRisc
