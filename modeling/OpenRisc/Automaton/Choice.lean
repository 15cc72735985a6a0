import OpenRisc.Span

set_option autoImplicit false

namespace OpenRisc.Automaton

def maxTestWidth : Nat := 8

def onesFrom (common : Word) (start : Nat) : (limit : Nat) → Nat
  | 0 => 0
  | limit + 1 => if common.getLsbD start then onesFrom common (start + 1) limit + 1 else 0

def wider (common : Word) (best : Span) (start : Nat) : Span :=
  let width := onesFrom common start maxTestWidth
  if best.width < width then ⟨start, width⟩ else best

def widestRun? (common : Word) : Option Span :=
  if common = 0 then none
  else some ((List.range 32).foldl (wider common) ⟨0, 0⟩)

theorem onesFrom_le (common : Word) (start limit : Nat) : onesFrom common start limit ≤ limit := by
  induction limit generalizing start with
  | zero => simp [onesFrom]
  | succ limit ih =>
    have rest := ih (start + 1)
    rw [onesFrom]
    split <;> omega

theorem getLsbD_of_lt_onesFrom {common : Word} {start limit p : Nat}
    (within : p < onesFrom common start limit) : common.getLsbD (start + p) = true := by
  induction limit generalizing start p with
  | zero => simp [onesFrom] at within
  | succ limit ih =>
    rw [onesFrom] at within
    split at within
    next set =>
      cases p with
      | zero => simpa using set
      | succ p =>
        have next : common.getLsbD (start + 1 + p) = true := ih (by omega)
        rwa [show start + (p + 1) = start + 1 + p by omega]
    next => omega

theorem onesFrom_pos {common : Word} {start limit : Nat} (set : common.getLsbD start = true) :
    0 < onesFrom common start (limit + 1) := by
  simp [onesFrom, set]

def Covers (common : Word) (span : Span) : Prop :=
  ∀ p < span.width, common.getLsbD (span.start + p) = true

theorem wider_covers {common : Word} {best : Span} (covered : Covers common best) (start : Nat) :
    Covers common (wider common best start) := by
  rw [wider]
  split
  · exact fun _ within => getLsbD_of_lt_onesFrom within
  · exact covered

theorem foldl_wider_covers {common : Word} (starts : List Nat) {best : Span}
    (covered : Covers common best) : Covers common (starts.foldl (wider common) best) := by
  induction starts generalizing best with
  | nil => exact covered
  | cons start rest ih => exact ih (wider_covers covered start)

theorem width_le_wider (common : Word) (best : Span) (start : Nat) :
    best.width ≤ (wider common best start).width := by
  simp only [wider]
  split
  next narrower => exact Nat.le_of_lt narrower
  next => exact Nat.le_refl _

theorem width_le_foldl_wider (common : Word) (starts : List Nat) (best : Span) :
    best.width ≤ (starts.foldl (wider common) best).width := by
  induction starts generalizing best with
  | nil => exact Nat.le_refl _
  | cons start rest ih => exact Nat.le_trans (width_le_wider common best start) (ih _)

theorem onesFrom_le_foldl_wider {common : Word} {starts : List Nat} {start : Nat}
    (scanned : start ∈ starts) (best : Span) :
    onesFrom common start maxTestWidth ≤ (starts.foldl (wider common) best).width := by
  induction starts generalizing best with
  | nil => simp at scanned
  | cons head rest ih =>
    rcases List.mem_cons.mp scanned with rfl | later
    · refine Nat.le_trans ?_ (width_le_foldl_wider common rest _)
      simp only [wider]
      split
      · exact Nat.le_refl _
      · omega
    · exact ih later _

theorem exists_getLsbD {common : Word} (nonzero : common ≠ 0) :
    ∃ p < 32, common.getLsbD p = true := by
  apply Classical.byContradiction
  intro absent
  apply nonzero
  apply BitVec.eq_of_getLsbD_eq
  intro p inside
  cases bit : common.getLsbD p
  · simp
  · exact absurd ⟨p, inside, bit⟩ absent

theorem widestRun?_covers {common : Word} {span : Span} (chosen : widestRun? common = some span) :
    Covers common span := by
  rw [widestRun?] at chosen
  split at chosen
  · simp at chosen
  · rw [← Option.some.inj chosen]
    exact foldl_wider_covers _ (by simp [Covers])

theorem width_pos_of_widestRun? {common : Word} {span : Span}
    (chosen : widestRun? common = some span) : 0 < span.width := by
  rw [widestRun?] at chosen
  split at chosen
  · simp at chosen
  next nonzero =>
    obtain ⟨p, inside, set⟩ := exists_getLsbD nonzero
    rw [← Option.some.inj chosen]
    exact Nat.lt_of_lt_of_le (onesFrom_pos set)
      (onesFrom_le_foldl_wider (List.mem_range.mpr inside) _)

theorem width_wider_le {best : Span} (narrow : best.width ≤ maxTestWidth) (common : Word)
    (start : Nat) : (wider common best start).width ≤ maxTestWidth := by
  simp only [wider]
  split
  · exact onesFrom_le common start maxTestWidth
  · exact narrow

theorem width_foldl_wider_le (common : Word) (starts : List Nat) {best : Span}
    (narrow : best.width ≤ maxTestWidth) :
    (starts.foldl (wider common) best).width ≤ maxTestWidth := by
  induction starts generalizing best with
  | nil => exact narrow
  | cons start rest ih => exact ih (width_wider_le narrow common start)

theorem widestRun?_eq_none_iff (common : Word) : widestRun? common = none ↔ common = 0 := by
  rw [widestRun?]
  split <;> simp_all

theorem width_le_of_widestRun? {common : Word} {span : Span}
    (chosen : widestRun? common = some span) : span.width ≤ maxTestWidth := by
  rw [widestRun?] at chosen
  split at chosen
  · simp at chosen
  · rw [← Option.some.inj chosen]
    exact width_foldl_wider_le common _ (Nat.zero_le _)

end OpenRisc.Automaton
