import OpenRisc.Automaton.Choice

set_option autoImplicit false

namespace OpenRisc.Automaton

structure Testable (common : Word) (run : Span) : Prop where
  nonempty : 1 ≤ run.width
  narrow : run.width ≤ maxTestWidth
  inside : run.start + run.width ≤ 32
  covered : Covers common run

/-- A run that a test may take and that is above all others: wider, or as wide and lower. -/
structure Widest (common : Word) (best : Span) : Prop where
  testable : Testable common best
  above : ∀ other, Testable common other → other ≠ best →
    other.width < best.width ∨ other.width = best.width ∧ best.start < other.start

section

variable {common : Word}

theorem Testable.of_covers {run : Span} (nonempty : 1 ≤ run.width)
    (narrow : run.width ≤ maxTestWidth) (covered : Covers common run) : Testable common run := by
  have last := BitVec.lt_of_getLsbD (covered (run.width - 1) (by omega))
  exact ⟨nonempty, narrow, by omega, covered⟩

theorem Testable.ne_zero {run : Span} (testable : Testable common run) : common ≠ 0 := by
  intro zero
  have first := testable.covered 0 testable.nonempty
  simp [zero] at first

theorem widest_iff {best : Span} : Widest common best ↔ Testable common best ∧
    ∀ other, Testable common other →
      other.width < best.width ∨ other.width = best.width ∧ best.start ≤ other.start := by
  have apart (other : Span) (below : other.start = best.start) (wide : other.width = best.width) :
      other = best := by
    cases other
    cases best
    simp only [Span.mk.injEq]
    exact ⟨below, wide⟩
  constructor
  · rintro ⟨testable, above⟩
    refine ⟨testable, fun other testable' => ?_⟩
    by_cases same : other = best
    · simp [same]
    · have higher := above other testable' same
      omega
  · rintro ⟨testable, above⟩
    refine ⟨testable, fun other testable' different => ?_⟩
    have higher := above other testable'
    have moved : other.start = best.start → other.width ≠ best.width :=
      fun below wide => different (apart other below wide)
    omega

theorem Widest.unique {left right : Span} (one : Widest common left) (two : Widest common right) :
    left = right := by
  by_cases same : left = right
  · exact same
  · have lower := one.above right two.testable (Ne.symm same)
    have higher := two.above left one.testable same
    omega

end

theorem le_onesFrom {common : Word} {start width limit : Nat} (short : width ≤ limit)
    (set : ∀ p < width, common.getLsbD (start + p) = true) :
    width ≤ onesFrom common start limit := by
  induction limit generalizing start width with
  | zero => simpa [onesFrom] using short
  | succ limit ih =>
    cases width with
    | zero => simp
    | succ width =>
      have first : common.getLsbD start = true := by simpa using set 0 (by omega)
      have later : width ≤ onesFrom common (start + 1) limit := by
        apply ih (by omega)
        intro p within
        simpa [Nat.add_assoc, Nat.add_comm 1] using set (p + 1) (by omega)
      simpa [onesFrom, first] using later

def Outdoes (common : Word) (best : Span) (start : Nat) : Prop :=
  onesFrom common start maxTestWidth < best.width ∨
    onesFrom common start maxTestWidth = best.width ∧ best.start ≤ start

theorem wider_outdoes {common : Word} {best : Span} {start : Nat} (above : best.start ≤ start)
    (scanned : ∀ earlier < start, Outdoes common best earlier) :
    (wider common best start).start ≤ start ∧
      ∀ earlier < start + 1, Outdoes common (wider common best start) earlier := by
  by_cases improves : best.width < onesFrom common start maxTestWidth
  · have next : wider common best start = ⟨start, onesFrom common start maxTestWidth⟩ := by
      simp [wider, improves]
    rw [next]
    constructor
    · exact Nat.le_refl start
    · intro earlier before
      by_cases here : earlier = start
      · simp [Outdoes, here]
      · have old := scanned earlier (by omega)
        simp only [Outdoes] at old ⊢
        omega
  · have next : wider common best start = best := by simp [wider, improves]
    rw [next]
    constructor
    · exact above
    · intro earlier before
      by_cases here : earlier = start
      · simp only [Outdoes, here]
        omega
      · exact scanned earlier (by omega)

theorem foldl_wider_outdoes (common : Word) (count : Nat) :
    ((List.range count).foldl (wider common) ⟨0, 0⟩).start ≤ count ∧
      ∀ earlier < count, Outdoes common ((List.range count).foldl (wider common) ⟨0, 0⟩) earlier := by
  induction count with
  | zero => simp
  | succ count ih =>
    have step := wider_outdoes ih.1 ih.2
    simp only [List.range_succ, List.foldl_append, List.foldl_cons, List.foldl_nil]
    exact ⟨by omega, step.2⟩

theorem widest_of_widestRun? {common : Word} {span : Span}
    (chosen : widestRun? common = some span) : Widest common span := by
  have testable : Testable common span :=
    .of_covers (width_pos_of_widestRun? chosen) (width_le_of_widestRun? chosen)
      (widestRun?_covers chosen)
  refine widest_iff.mpr ⟨testable, fun other ⟨nonempty, narrow, inside, covered⟩ => ?_⟩
  have long := le_onesFrom narrow covered
  have scanned := (foldl_wider_outdoes common 32).2 other.start (by omega)
  rw [widestRun?] at chosen
  split at chosen
  next empty => simp at chosen
  next nonzero =>
    rw [Option.some.inj chosen] at scanned
    simp only [Outdoes] at scanned
    omega

theorem widestRun?_eq_some_iff {common : Word} {best : Span} :
    widestRun? common = some best ↔ Widest common best := by
  constructor
  · exact widest_of_widestRun?
  · intro widest
    cases chosen : widestRun? common with
    | none => exact absurd ((widestRun?_eq_none_iff common).mp chosen) widest.testable.ne_zero
    | some span => rw [(widest_of_widestRun? chosen).unique widest]

end OpenRisc.Automaton
