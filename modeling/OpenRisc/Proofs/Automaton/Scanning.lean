import OpenRisc.Automaton.Scan
import OpenRisc.Proofs.Automaton.Widest

set_option autoImplicit false

namespace OpenRisc.Automaton

def Tried (start width : Nat) (run : Span) : Prop :=
  run.start < start ∨ run.start = start ∧ run.width < width

-- What the scan holds before it tries `width` at `start`.
structure Leads (common : Word) (start width : Nat) (best : Option Span) : Prop where
  held : ∀ run, best = some run → Testable common run ∧ Tried start width run
  ahead : ∀ other, Testable common other → Tried start width other → ∃ run, best = some run ∧
    (other.width < run.width ∨ other.width = run.width ∧ run.start ≤ other.start)

section

variable {common : Word} {start width : Nat} {best : Option Span}

theorem Testable.shorten {run : Span} (testable : Testable common run) (nonempty : 1 ≤ width)
    (shorter : width ≤ run.width) : Testable common ⟨run.start, width⟩ := by
  obtain ⟨_, narrow, inside, covered⟩ := testable
  constructor
  case nonempty => exact nonempty
  case narrow => exact Nat.le_trans shorter narrow
  case inside => exact Nat.le_trans (Nat.add_le_add_left shorter _) inside
  case covered => exact fun p within => covered p (Nat.lt_of_lt_of_le within shorter)

theorem and_mask_eq_mask_iff {run : Span} (inside : run.start + run.width ≤ 32) :
    common &&& run.mask = run.mask ↔ Covers common run := by
  have full := Span.and_mask_eq_iff run common (BitVec.allOnes 32)
  rw [BitVec.allOnes_and] at full
  rw [full]
  refine forall_congr' fun p => forall_congr' fun within => ?_
  have reached : run.start + p < 32 := by omega
  rw [BitVec.getLsbD_allOnes]
  simp only [reached, decide_true, forall_const]

theorem leads_none : Leads common 0 1 none := by
  constructor
  case held => simp
  case ahead =>
    intro other testable tried
    have nonempty := testable.nonempty
    simp only [Tried] at tried
    omega

theorem tried_succ {run : Span} (tried : Tried start (width + 1) run) :
    Tried start width run ∨ run = ⟨start, width⟩ := by
  cases run
  simp only [Tried, Span.mk.injEq] at tried ⊢
  omega

theorem Leads.replace (leads : Leads common start width best)
    (testable : Testable common ⟨start, width⟩)
    (narrower : ∀ kept, best = some kept → kept.width < width) :
    Leads common start (width + 1) (some ⟨start, width⟩) := by
  constructor
  case held =>
    intro run same
    obtain rfl := Option.some.inj same
    exact ⟨testable, .inr ⟨rfl, Nat.lt_succ_self width⟩⟩
  case ahead =>
    intro other testable' tried
    rcases tried_succ tried with before | rfl
    · obtain ⟨kept, same, above⟩ := leads.ahead other testable' before
      have improved := narrower kept same
      exact ⟨_, rfl, .inl (show other.width < width by omega)⟩
    · exact ⟨_, rfl, .inr ⟨rfl, Nat.le_refl start⟩⟩

theorem Leads.keep {kept : Span} (leads : Leads common start width (some kept))
    (wide : width ≤ kept.width) : Leads common start (width + 1) (some kept) := by
  obtain ⟨testable, tried⟩ := leads.held kept rfl
  constructor
  case held =>
    intro run same
    obtain rfl := Option.some.inj same
    simp only [Tried] at tried ⊢
    exact ⟨testable, by omega⟩
  case ahead =>
    intro other testable' tried'
    rcases tried_succ tried' with before | rfl
    · exact leads.ahead other testable' before
    · refine ⟨kept, rfl, ?_⟩
      show width < kept.width ∨ width = kept.width ∧ kept.start ≤ start
      simp only [Tried] at tried
      omega

theorem Leads.keepWider (leads : Leads common start width best)
    (testable : Testable common ⟨start, width⟩) :
    Leads common start (width + 1) (keepWider best ⟨start, width⟩) := by
  cases best with
  | none => exact leads.replace testable (by simp)
  | some kept =>
    rw [Automaton.keepWider]
    split
    next improves =>
      apply leads.replace testable
      intro run same
      obtain rfl := Option.some.inj same
      exact improves
    next wide => exact leads.keep (Nat.le_of_not_lt wide)

-- A start is left when no wider run begins there.
theorem Leads.next (leads : Leads common start width best)
    (exhausted : ∀ other, Testable common other → other.start = start → other.width < width) :
    Leads common (start + 1) 1 best := by
  constructor
  case held =>
    intro run kept
    obtain ⟨testable, tried⟩ := leads.held run kept
    simp only [Tried] at tried ⊢
    exact ⟨testable, by omega⟩
  case ahead =>
    intro other testable tried
    refine leads.ahead other testable ?_
    have nonempty := testable.nonempty
    have short := exhausted other testable
    simp only [Tried] at tried ⊢
    omega

theorem Leads.scanWidths {count : Nat} (leads : Leads common start width best)
    (nonempty : 1 ≤ width) (room : width + count = min maxTestWidth (32 - start) + 1) :
    Leads common (start + 1) 1 (scanWidths common start count width best) := by
  induction count generalizing width best with
  | zero =>
    apply leads.next
    rintro other ⟨_, narrow, inside, _⟩ rfl
    omega
  | succ count ih =>
    have inside : start + width ≤ 32 := by omega
    have narrow : width ≤ maxTestWidth := by omega
    rw [Automaton.scanWidths]
    split
    next set =>
      have covered := (and_mask_eq_mask_iff inside).mp set
      have tried := leads.keepWider ⟨nonempty, narrow, inside, covered⟩
      exact ih tried (by omega) (by omega)
    next broken =>
      apply leads.next
      intro other testable here
      -- A run as wide as this one would hold it, but it is not all set.
      apply Nat.lt_of_not_le
      intro wide
      have shorter := testable.shorten nonempty wide
      rw [here] at shorter
      exact broken ((and_mask_eq_mask_iff inside).mpr shorter.covered)

theorem leads_foldl_scanStart (common : Word) (count : Nat) :
    Leads common count 1 ((List.range count).foldl (scanStart common) none) := by
  induction count with
  | zero => exact leads_none
  | succ count ih =>
    rw [List.range_succ, List.foldl_append]
    exact ih.scanWidths (Nat.le_refl 1) (by omega)

theorem Testable.tried {run : Span} (testable : Testable common run) : Tried 32 1 run := by
  have nonempty := testable.nonempty
  have inside := testable.inside
  exact .inl (by omega)

theorem scan_eq_some_iff {run : Span} : scan common = some run ↔ Widest common run := by
  have leads : Leads common 32 1 (scan common) := leads_foldl_scanStart common 32
  have widest (kept : Span) (same : scan common = some kept) : Widest common kept := by
    refine widest_iff.mpr ⟨(leads.held kept same).1, fun other testable => ?_⟩
    obtain ⟨_, same', ahead⟩ := leads.ahead other testable testable.tried
    obtain rfl := Option.some.inj (same.symm.trans same')
    exact ahead
  constructor
  · exact widest run
  · intro above
    obtain ⟨kept, same, _⟩ := leads.ahead run above.testable above.testable.tried
    rw [same, (widest kept same).unique above]

end

/-- The run chosen for a test is the widest run of at most eight ones, the lowest on ties. -/
theorem choice_is_widest (common : Word) :
    (widestRun? common = none ↔ common = 0) ∧
      (∀ best, widestRun? common = some best ↔ Widest common best) ∧
      scan common = widestRun? common := by
  refine ⟨widestRun?_eq_none_iff common, fun best => widestRun?_eq_some_iff, ?_⟩
  apply Option.ext
  intro best
  rw [scan_eq_some_iff, widestRun?_eq_some_iff]

example : scan 0b01110111 = some ⟨0, 3⟩ := by decide

end OpenRisc.Automaton
