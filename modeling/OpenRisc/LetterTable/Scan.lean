import Mathlib.Data.List.Sort
import OpenRisc.LetterTable

set_option autoImplicit false

namespace OpenRisc.LetterTable

def useOf (row : Template × Nat) (letter : Char) : LetterInfo :=
  { letter, signed := isSigned letter, width := row.1.letterWidth letter, firstRow := row.2 }

def clash? (first use : LetterInfo) : Option WidthConflict :=
  if first.signed && first.width != use.width then
    some { letter := use.letter, firstRow := first.firstRow, firstWidth := first.width,
           row := use.firstRow, width := use.width }
  else none

def add (table : LetterTable) (entry : LetterInfo) : LetterTable :=
  ⟨table.entries.orderedInsert (fun one other => one.letter ≤ other.letter) entry⟩

def enter (table : LetterTable) (use : LetterInfo) : Except WidthConflict LetterTable :=
  match table.get? use.letter with
  | none => .ok (table.add use)
  | some first =>
    match clash? first use with
    | some conflict => .error conflict
    | none => .ok table

def enterRow (table : LetterTable) (row : Template × Nat) : Except WidthConflict LetterTable :=
  row.1.letters.foldlM (fun table letter => table.enter (useOf row letter)) table

def scan (templates : List Template) : Except WidthConflict LetterTable :=
  templates.zipIdx.foldlM enterRow ⟨[]⟩

end OpenRisc.LetterTable
