import OpenRisc.Template.Field

set_option autoImplicit false

namespace OpenRisc

def isSigned (letter : Char) : Bool :=
  letter == 'I' || letter == 'N'

-- `width` is taken from the first row that uses the letter.
structure LetterInfo where
  letter : Char
  signed : Bool
  width : Nat
  firstRow : Nat
  deriving DecidableEq, Repr

structure WidthConflict where
  letter : Char
  firstRow : Nat
  firstWidth : Nat
  row : Nat
  width : Nat
  deriving DecidableEq, Repr

structure LetterTable where
  entries : List LetterInfo
  deriving DecidableEq, Repr

namespace LetterTable

def firstUse? (templates : List Template) (letter : Char) : Option (Template × Nat) :=
  templates.zipIdx.find? fun use => use.1.uses letter

-- An unsigned field may change its width: no bit of its number depends on it.
def conflictAt? (templates : List Template) (use : Template × Nat) (letter : Char) :
    Option WidthConflict := do
  let (first, firstRow) ← firstUse? templates letter
  let firstWidth := first.letterWidth letter
  let width := use.1.letterWidth letter
  if isSigned letter && firstWidth != width then
    some { letter, firstRow, firstWidth, row := use.2, width }
  else none

def conflict? (templates : List Template) : Option WidthConflict :=
  templates.zipIdx.findSome? fun use => use.1.letters.findSome? (conflictAt? templates use)

def insertLetter (letter : Char) : List Char → List Char
  | [] => [letter]
  | head :: rest =>
    if letter < head then letter :: head :: rest
    else if letter = head then head :: rest
    else head :: insertLetter letter rest

def usedLetters (templates : List Template) : List Char :=
  (templates.flatMap Template.letters).foldr insertLetter []

def info? (templates : List Template) (letter : Char) : Option LetterInfo :=
  (firstUse? templates letter).map fun use =>
    { letter, signed := isSigned letter, width := use.1.letterWidth letter, firstRow := use.2 }

def build (templates : List Template) : Except WidthConflict LetterTable :=
  match conflict? templates with
  | some conflict => .error conflict
  | none => .ok ⟨(usedLetters templates).filterMap (info? templates)⟩

def get? (table : LetterTable) (letter : Char) : Option LetterInfo :=
  table.entries.find? fun info => info.letter == letter

theorem mem_insertLetter {letter other : Char} {letters : List Char} :
    other ∈ insertLetter letter letters ↔ other = letter ∨ other ∈ letters := by
  induction letters with
  | nil => simp [insertLetter]
  | cons head rest ih =>
    rw [insertLetter]
    split
    · simp
    · split
      next same => simp [same]
      next => simp [ih, or_left_comm]

theorem mem_usedLetters {letter : Char} {templates : List Template} :
    letter ∈ usedLetters templates ↔ ∃ template ∈ templates, letter ∈ template.letters := by
  rw [usedLetters, ← List.mem_flatMap]
  induction templates.flatMap Template.letters with
  | nil => simp
  | cons head rest ih => simp [mem_insertLetter, ih]

end LetterTable

def WidthConflict.message (name : Nat → String) (conflict : WidthConflict) : String :=
  "Signed field `" ++ conflict.letter.toString ++ "` spans " ++ toString conflict.width ++
    " bits in `" ++ name conflict.row ++ "` but " ++ toString conflict.firstWidth ++
    " bits in `" ++ name conflict.firstRow ++ "`"

end OpenRisc
