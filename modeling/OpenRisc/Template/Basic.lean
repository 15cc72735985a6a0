import OpenRisc.Pattern
import OpenRisc.Template.Token

set_option autoImplicit false

namespace OpenRisc

/-- A bit template: one entry for each bit of the instruction word, bit 0 first. -/
structure Template where
  bits : List Bit
  size : bits.length = 32
  deriving DecidableEq

namespace Template

-- Templates are written from bit 31 down, so the bits that were read are turned round.
def parse (text : String) : Except TemplateError Template := do
  let tokens ← tokenize text
  let bits := (tokens.flatMap Token.bits).reverse
  if size : bits.length = 32 then .ok ⟨bits, size⟩ else .error (.width bits.length)

def bit (template : Template) (position : Nat) : Bit :=
  template.bits.getD position .free

def pattern (template : Template) : Pattern where
  mask := Word.ofBits fun p => template.bit p matches .fixed _
  value := Word.ofBits fun p => template.bit p == .fixed true

def uses (template : Template) (letter : Char) : Bool :=
  template.bits.contains (.operand letter)

def letters (template : Template) : List Char :=
  (template.bits.reverse.filterMap Bit.letter?).eraseDups

def positions (template : Template) (letter : Char) : List Nat :=
  (List.range 32).filter fun p => template.bit p == .operand letter

def letterWidth (template : Template) (letter : Char) : Nat :=
  (template.positions letter).length

def letterMask (template : Template) (letter : Char) : Word :=
  Word.ofBits fun p => template.bit p == .operand letter

theorem mem_positions (template : Template) (letter : Char) (p : Nat) :
    p ∈ template.positions letter ↔ p < 32 ∧ template.bit p = .operand letter := by
  simp [positions]

theorem sorted_positions (template : Template) (letter : Char) :
    (template.positions letter).Pairwise (· < ·) :=
  List.Pairwise.filter _ List.pairwise_lt_range

theorem getLsbD_letterMask (template : Template) (letter : Char) (p : Nat) :
    (template.letterMask letter).getLsbD p = decide (p ∈ template.positions letter) := by
  simp [letterMask, mem_positions, Bool.beq_eq_decide_eq]

theorem uses_iff (template : Template) (letter : Char) :
    template.uses letter = true ↔ ∃ p, p ∈ template.positions letter := by
  rw [uses, List.contains_iff_mem, List.mem_iff_getElem]
  simp only [mem_positions]
  constructor
  · rintro ⟨p, inside, found⟩
    exact ⟨p, template.size ▸ inside, by simp [bit, inside, found]⟩
  · rintro ⟨p, inside, found⟩
    rw [← template.size] at inside
    exact ⟨p, inside, by simpa [bit, inside] using found⟩

theorem value_within_mask (template : Template) :
    template.pattern.value &&& template.pattern.mask = template.pattern.value := by
  apply BitVec.eq_of_getLsbD_eq
  intro p inside
  cases holds : template.bit p <;> simp [pattern, inside, holds]

end Template

end OpenRisc
