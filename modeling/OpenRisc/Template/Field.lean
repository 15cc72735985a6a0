import OpenRisc.Span
import OpenRisc.Template.Basic

set_option autoImplicit false

namespace OpenRisc

structure Run extends Span where
  offset : Nat
  deriving DecidableEq, Repr

namespace Run

def fragment (run : Run) (raw : Word) : Word :=
  run.toSpan.read raw <<< run.offset

def place (run : Run) (value : Word) : Word :=
  ((value >>> run.offset) &&& Word.lowMask run.width) <<< run.start

def group (current : Run) : List Nat → List Run
  | [] => [current]
  | p :: rest =>
    if p = current.start + current.width then
      group { current with width := current.width + 1 } rest
    else
      current :: group ⟨⟨p, 1⟩, current.offset + current.width⟩ rest

end Run

namespace Template

def runs (template : Template) (letter : Char) : List Run :=
  match template.positions letter with
  | [] => []
  | p :: rest => Run.group ⟨⟨p, 1⟩, 0⟩ rest

def read (template : Template) (raw : Word) (letter : Char) : Word :=
  (template.runs letter).foldl (fun number run => number ||| run.fragment raw) 0

def insert (template : Template) (raw : Word) (letter : Char) (value : Word) : Word :=
  (template.runs letter).foldl (fun word run => word ||| run.place value)
    (raw &&& ~~~template.letterMask letter)

theorem runs_eq_nil_iff (template : Template) (letter : Char) :
    template.runs letter = [] ↔ template.positions letter = [] := by
  have nonempty (current : Run) (positions : List Nat) : Run.group current positions ≠ [] := by
    induction positions generalizing current with
    | nil => simp [Run.group]
    | cons p rest ih =>
      rw [Run.group]
      split
      · exact ih _
      · simp
  cases found : template.positions letter <;> simp [runs, found, nonempty]

end Template

end OpenRisc
