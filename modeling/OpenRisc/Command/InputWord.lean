import OpenRisc.Text.Hex

set_option autoImplicit false

namespace OpenRisc.Command

inductive WordError where
  | empty
  | invalidDigit
  | overflow
  deriving DecidableEq, Repr

def WordError.message : WordError → String
  | .empty => "cannot parse integer from empty string"
  | .invalidDigit => "invalid digit found in string"
  | .overflow => "number too large to fit in target type"

def withoutMarker : List Char → List Char
  | '0' :: 'x' :: rest => rest
  | '0' :: 'X' :: rest => rest
  | text => text

def withoutSign : List Char → List Char
  | '+' :: rest => rest
  | digits => digits

-- Reads hex digits on from `value`. A bad digit is reported before the overflow it would cause.
def readDigits (value : Nat) : List Char → Except WordError Nat
  | [] => .ok value
  | c :: rest =>
    match Text.hexValue? c with
    | none => .error .invalidDigit
    | some digit =>
      if 16 * value + digit < UInt32.size then readDigits (16 * value + digit) rest
      else .error .overflow

/-- Reads a word in hex: an optional `0x` or `0X`, then an optional plus sign and the digits.
Underscores count for nothing behind the marker. -/
def parseWord (text : String) : Except WordError Word :=
  match (withoutMarker text.toList).filter (· != '_') with
  | [] => .error .empty
  | ['+'] => .error .invalidDigit
  | digits => (readDigits 0 (withoutSign digits)).map (BitVec.ofNat 32)

end OpenRisc.Command
