import OpenRisc.Automaton.Basic

set_option autoImplicit false

namespace OpenRisc

theorem Pattern.overlaps_iff (left right : Pattern) :
    left.overlaps right = true ↔
      ∀ p, left.mask.getLsbD p = true → right.mask.getLsbD p = true →
        left.value.getLsbD p = right.value.getLsbD p := by
  simp only [Pattern.overlaps, beq_iff_eq]
  constructor
  · intro clear p fixed also
    have bit := congrArg (fun word => word.getLsbD p) clear
    simpa [fixed, also] using bit
  · intro same
    apply BitVec.eq_of_getLsbD_eq
    intro p _
    cases fixed : left.mask.getLsbD p
    · simp [fixed]
    · cases also : right.mask.getLsbD p
      · simp [also]
      · simp [same p fixed also]

-- Where the right value sets a bit that the left mask fixes, both fix it, so they agree on it.
theorem Pattern.accepts_or_left {left right : Pattern} (overlap : left.overlaps right = true)
    (within : left.value &&& left.mask = left.value)
    (within' : right.value &&& right.mask = right.value) :
    left.accepts (left.value ||| right.value) = true := by
  rw [accepts_iff]
  apply BitVec.eq_of_getLsbD_eq
  intro p _
  have bit := congrArg (fun word => word.getLsbD p) within
  have bit' := congrArg (fun word => word.getLsbD p) within'
  have agree := (overlaps_iff _ _).mp overlap p
  simp only [BitVec.getLsbD_and] at bit bit'
  rw [BitVec.getLsbD_and, BitVec.getLsbD_or]
  cases fixed : left.mask.getLsbD p
  · simpa [fixed] using bit
  · cases set : right.value.getLsbD p
    · simp
    · simp_all

theorem Pattern.overlaps_iff_exists {left right : Pattern}
    (within : left.value &&& left.mask = left.value)
    (within' : right.value &&& right.mask = right.value) :
    left.overlaps right = true ↔ ∃ raw, left.accepts raw = true ∧ right.accepts raw = true := by
  constructor
  · intro overlap
    refine ⟨left.value ||| right.value, accepts_or_left overlap within within', ?_⟩
    rw [BitVec.or_comm]
    exact accepts_or_left (right.overlaps_comm left ▸ overlap) within' within
  · rintro ⟨raw, here, there⟩
    rw [accepts_iff] at here there
    rw [overlaps_iff, ← here, ← there]
    intro p fixed also
    rw [BitVec.getLsbD_and, BitVec.getLsbD_and, fixed, also]

namespace Automaton

def Overlapping (patterns : List Pattern) (i j : Nat) : Prop :=
  i < j ∧ ∃ left right, patterns[i]? = some left ∧ patterns[j]? = some right ∧
    left.overlaps right = true

structure FirstOverlap (patterns : List Pattern) (i j : Nat) : Prop where
  overlapping : Overlapping patterns i j
  least : ∀ k l, Overlapping patterns k l → i < k ∨ i = k ∧ j ≤ l

theorem overlapping_cons_zero {pattern : Pattern} {rest : List Pattern} {distance : Nat} :
    Overlapping (pattern :: rest) 0 (distance + 1) ↔
      ∃ right, rest[distance]? = some right ∧ pattern.overlaps right = true := by
  simp [Overlapping]

theorem overlapping_cons_succ {pattern : Pattern} {rest : List Pattern} {i j : Nat} :
    Overlapping (pattern :: rest) (i + 1) (j + 1) ↔ Overlapping rest i j := by
  simp [Overlapping]

theorem FirstOverlap.head {pattern : Pattern} {rest : List Pattern} {distance : Nat}
    (hit : rest.findIdx? pattern.overlaps = some distance) :
    FirstOverlap (pattern :: rest) 0 (distance + 1) := by
  obtain ⟨inside, overlap, before⟩ := List.findIdx?_eq_some_iff_getElem.mp hit
  constructor
  case overlapping =>
    exact overlapping_cons_zero.mpr ⟨_, List.getElem?_eq_getElem inside, overlap⟩
  case least =>
    intro k l other
    have ordered := other.1
    match k, l with
    | k + 1, l => exact .inl (by omega)
    | 0, l + 1 =>
      obtain ⟨right, present, also⟩ := overlapping_cons_zero.mp other
      obtain ⟨within, rfl⟩ := List.getElem?_eq_some_iff.mp present
      have reached : distance ≤ l := Nat.le_of_not_lt fun earlier => before l earlier also
      exact .inr ⟨rfl, by omega⟩

theorem FirstOverlap.tail {pattern : Pattern} {rest : List Pattern} {i j : Nat}
    (first : FirstOverlap rest i j) (miss : rest.findIdx? pattern.overlaps = none) :
    FirstOverlap (pattern :: rest) (i + 1) (j + 1) := by
  constructor
  case overlapping => exact overlapping_cons_succ.mpr first.overlapping
  case least =>
    intro k l other
    have ordered := other.1
    match k, l with
    | 0, l + 1 =>
      obtain ⟨right, present, also⟩ := overlapping_cons_zero.mp other
      have apart := List.findIdx?_eq_none_iff.mp miss right (List.mem_of_getElem? present)
      simp [apart] at also
    | k + 1, l + 1 =>
      have later := first.least k l (overlapping_cons_succ.mp other)
      omega

theorem firstOverlapFrom?_eq_some {first i j : Nat} {patterns : List Pattern}
    (found : firstOverlapFrom? first patterns = some (i, j)) :
    ∃ k l, i = first + k ∧ j = first + l ∧ FirstOverlap patterns k l := by
  induction patterns generalizing first with
  | nil => simp [firstOverlapFrom?] at found
  | cons pattern rest ih =>
    rw [firstOverlapFrom?] at found
    split at found
    next distance hit =>
      simp only [Option.some.injEq, Prod.mk.injEq] at found
      exact ⟨0, distance + 1, by omega, by omega, .head hit⟩
    next miss =>
      obtain ⟨k, l, here, there, later⟩ := ih found
      exact ⟨k + 1, l + 1, by omega, by omega, later.tail miss⟩

theorem firstOverlapFrom?_eq_none_iff {first : Nat} {patterns : List Pattern} :
    firstOverlapFrom? first patterns = none ↔
      patterns.Pairwise fun left right => left.overlaps right = false := by
  induction patterns generalizing first with
  | nil => simp [firstOverlapFrom?]
  | cons pattern rest ih =>
    rw [firstOverlapFrom?, List.pairwise_cons]
    split
    next distance hit =>
      have found : ¬ rest.findIdx? pattern.overlaps = none := by simp [hit]
      simp [← List.findIdx?_eq_none_iff, found]
    next miss =>
      have apart := List.findIdx?_eq_none_iff.mp miss
      rw [ih]
      exact ⟨fun later => ⟨apart, later⟩, And.right⟩

theorem firstOverlap?_eq_none_iff {patterns : List Pattern} :
    firstOverlap? patterns = none ↔
      patterns.Pairwise fun left right => left.overlaps right = false :=
  firstOverlapFrom?_eq_none_iff

theorem disjoint_of_firstOverlap? {patterns : List Pattern} (disjoint : firstOverlap? patterns = none)
    {i j : Nat} {left right : Pattern} (different : i ≠ j) (here : patterns[i]? = some left)
    (there : patterns[j]? = some right) : left.overlaps right = false := by
  have pairs := List.pairwise_iff_getElem.mp (firstOverlap?_eq_none_iff.mp disjoint)
  obtain ⟨inside, rfl⟩ := List.getElem?_eq_some_iff.mp here
  obtain ⟨also, rfl⟩ := List.getElem?_eq_some_iff.mp there
  rcases Nat.lt_or_gt_of_ne different with ordered | ordered
  · exact pairs i j inside also ordered
  · rw [Pattern.overlaps_comm]
    exact pairs j i also inside ordered

theorem exists_firstOverlap? {patterns : List Pattern} {i j : Nat}
    (overlapping : Overlapping patterns i j) :
    ∃ k l, firstOverlap? patterns = some (k, l) := by
  obtain ⟨ordered, left, right, here, there, overlap⟩ := overlapping
  cases found : firstOverlap? patterns with
  | some pair => exact ⟨pair.1, pair.2, rfl⟩
  | none =>
    have apart := disjoint_of_firstOverlap? found (Nat.ne_of_lt ordered) here there
    simp [apart] at overlap

theorem firstOverlap_of_found {patterns : List Pattern} {i j : Nat}
    (found : firstOverlap? patterns = some (i, j)) : FirstOverlap patterns i j := by
  obtain ⟨k, l, rfl, rfl, first⟩ := firstOverlapFrom?_eq_some found
  simpa using first

theorem firstOverlap?_eq_some_iff {patterns : List Pattern} {i j : Nat} :
    firstOverlap? patterns = some (i, j) ↔ FirstOverlap patterns i j := by
  constructor
  · exact firstOverlap_of_found
  · intro first
    obtain ⟨k, l, found⟩ := exists_firstOverlap? first.overlapping
    have other := firstOverlap_of_found found
    have before := first.least k l other.overlapping
    have after := other.least i j first.overlapping
    rw [found, Option.some.injEq, Prod.mk.injEq]
    omega

theorem build_eq_overlapping_iff {patterns : List Pattern} {i j : Nat} :
    build patterns = .error (.overlapping i j) ↔ FirstOverlap patterns i j := by
  rw [← firstOverlap?_eq_some_iff, build]
  split
  next empty => simp [List.isEmpty_iff.mp empty, firstOverlap?, firstOverlapFrom?]
  next nonempty =>
    split
    next found => simp [found]
    next disjoint => split <;> simp [disjoint]

end Automaton

end OpenRisc
