set_option autoImplicit false

namespace OpenRisc

inductive Element where
  | register (letter : Char)
  | immediate (letter : Char)
  | displacement (value base : Char)
  | synthetic
  deriving DecidableEq, Repr

namespace Element

def print : Element → List Char
  | .register letter => ['r', letter]
  | .immediate letter => [letter]
  | .displacement value base => [value, '(', 'r', base, ')']
  | .synthetic => ['0']

def alone (place : Nat) (element : Element) (rest : List Char) : Except Nat Element :=
  if rest.isEmpty then .ok element else .error place

def displacementOf (value : Char) : List Char → Except Nat Element
  | 'r' :: base :: rest =>
    if base.isAlpha then
      match rest with
      | ')' :: rest => alone 5 (.displacement value base) rest
      | _ => .error 4
    else .error 3
  | ['r'] => .error 3
  | _ => .error 2

-- An error is the number of characters before the first one that fits no element.
def parse : List Char → Except Nat Element
  | [] => .error 0
  | '0' :: rest => alone 1 .synthetic rest
  | c :: rest =>
    if c.isAlpha then
      match rest with
      | [] => .ok (.immediate c)
      | '(' :: rest => displacementOf c rest
      | letter :: rest =>
        -- A lone `r` is a field letter like any other.
        if c = 'r' ∧ letter.isAlpha then alone 2 (.register letter) rest else .error 1
    else .error 0

def letters : Element → List Char
  | .register letter => [letter]
  | .immediate letter => [letter]
  | .displacement value base => [value, base]
  | .synthetic => []

end Element

namespace Signature

def isComma (c : Char) : Bool :=
  c == ','

def parsePieces (offset : Nat) : List (List Char) → Except Nat (List Element)
  | [] => .ok []
  | piece :: rest =>
    match Element.parse piece with
    | .error place => .error (offset + place)
    | .ok element =>
      match parsePieces (offset + piece.length + 1) rest with
      | .error place => .error place
      | .ok elements => .ok (element :: elements)

-- What comes before an error is ASCII, so its offset counts characters and bytes alike.
def parse (signature : String) : Except Nat (List Element) :=
  if signature.isEmpty then .ok [.synthetic]
  else parsePieces 0 (signature.toList.splitOnP isComma)

def print (elements : List Element) : String :=
  String.ofList ([','].intercalate (elements.map Element.print))

end Signature

end OpenRisc
