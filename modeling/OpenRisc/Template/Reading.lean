import Mathlib.Algebra.GroupWithZero.Nat
import OpenRisc.Template.Field

set_option autoImplicit false

namespace OpenRisc

structure Reading where
  next : Nat := 32
  mask : Word := 0
  value : Word := 0
  operandBits : List (Char × Nat) := []
  deriving DecidableEq, Repr

namespace Reading

def take (reading : Reading) (token : Token) : Reading :=
  let next := reading.next - token.width
  match token with
  | .bit (.fixed false) => { reading with next, mask := reading.mask ||| 1#32 <<< next }
  | .bit (.fixed true) =>
    { reading with
      next
      mask := reading.mask ||| 1#32 <<< next
      value := reading.value ||| 1#32 <<< next }
  | .bit .free => { reading with next }
  | .bit (.operand letter) =>
    { reading with next, operandBits := reading.operandBits ++ [(letter, next)] }
  | .nibble digit =>
    { reading with
      next
      mask := reading.mask ||| 0xF#32 <<< next
      value := reading.value ||| digit.setWidth 32 <<< next }

def ofText (text : String) : Except TemplateError Reading := do
  let tokens ← tokenize text
  let total := (tokens.map Token.width).sum
  if total = 32 then .ok (tokens.foldl take {}) else .error (.width total)

def letters (reading : Reading) : List Char :=
  (reading.operandBits.map Prod.fst).eraseDups

def uses (reading : Reading) (letter : Char) : Bool :=
  reading.operandBits.any fun bit => bit.1 == letter

def positions (reading : Reading) (letter : Char) : List Nat :=
  (reading.operandBits.filter fun bit => bit.1 == letter).map Prod.snd

def letterWidth (reading : Reading) (letter : Char) : Nat :=
  (reading.positions letter).length

def letterMask (reading : Reading) (letter : Char) : Word :=
  (reading.positions letter).foldl (fun mask p => mask ||| 1#32 <<< p) 0

def layRuns (offset : Nat) : List (List Nat) → List Run
  | [] => []
  | block :: rest =>
    ⟨⟨block.headD 0, block.length⟩, offset⟩ :: layRuns (offset + block.length) rest

-- Positions without a gap between them are equally far ahead of their indices.
def runs (reading : Reading) (letter : Char) : List Run :=
  let sorted := (reading.positions letter).mergeSort
  let blocks := sorted.zipIdx.splitBy fun one other => one.1 - one.2 == other.1 - other.2
  layRuns 0 (blocks.map fun block => block.map Prod.fst)

def insert (reading : Reading) (raw : Word) (letter : Char) (value : Word) : Word :=
  (reading.runs letter).foldl (fun word run => word ||| run.place value)
    (raw &&& ~~~reading.letterMask letter)

end Reading

end OpenRisc
