import OpenRisc.Automaton.Choice

set_option autoImplicit false

namespace OpenRisc.Automaton

-- Only a strictly wider run takes the place of the best one so far.
def keepWider (best : Option Span) (run : Span) : Option Span :=
  match best with
  | none => some run
  | some kept => if kept.width < run.width then some run else some kept

-- The first run that is not all set ends a start: no wider one there can be.
def scanWidths (common : Word) (start : Nat) : (count width : Nat) → Option Span → Option Span
  | 0, _, best => best
  | count + 1, width, best =>
    let run : Span := ⟨start, width⟩
    if common &&& run.mask = run.mask then
      scanWidths common start count (width + 1) (keepWider best run)
    else best

def scanStart (common : Word) (best : Option Span) (start : Nat) : Option Span :=
  scanWidths common start (min maxTestWidth (32 - start)) 1 best

def scan (common : Word) : Option Span :=
  (List.range 32).foldl (scanStart common) none

end OpenRisc.Automaton
