import OpenRisc.Span

set_option autoImplicit false

namespace OpenRisc.Text

def hexValue? (c : Char) : Option Nat :=
  if c.isDigit then some (c.toNat - '0'.toNat)
  else if 'a' ≤ c ∧ c ≤ 'f' then some (c.toNat - 'a'.toNat + 10)
  else if 'A' ≤ c ∧ c ≤ 'F' then some (c.toNat - 'A'.toNat + 10)
  else none

def hexDigits (raw : Word) : List Char :=
  [28, 24, 20, 16, 12, 8, 4, 0].map fun start => (Span.read ⟨start, 4⟩ raw).toNat.digitChar

def hexColumn (raw : Word) : String :=
  String.ofList (hexDigits raw)

def hex (raw : Word) : String :=
  match (hexDigits raw).dropWhile (· == '0') with
  | [] => "0x0"
  | digits => "0x" ++ String.ofList digits

end OpenRisc.Text
