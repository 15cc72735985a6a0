import OpenRisc.Proofs.Signature.Grammar

set_option autoImplicit false

namespace OpenRisc

namespace Element

def Starts (front : List Char) : Prop :=
  ∃ element : Element, element.Lettered ∧ front <+: element.print

structure Stuck (piece : List Char) (place : Nat) : Prop where
  inside : place ≤ piece.length
  starts : Starts (piece.take place)
  hopeless : ∀ next, piece[place]? = some next → ¬ Starts (piece.take place ++ [next])

theorem starts_iff {front : List Char} :
    Starts front ↔
      front <+: ['0'] ∨
      (∃ letter : Char, letter.isAlpha = true ∧ (front <+: [letter] ∨ front <+: ['r', letter])) ∨
      ∃ value base : Char, value.isAlpha = true ∧ base.isAlpha = true ∧
        front <+: [value, '(', 'r', base, ')'] := by
  constructor
  · rintro ⟨element, lettered, printed⟩
    cases element with
    | register letter => exact .inr (.inl ⟨letter, lettered letter (by simp [letters]), .inr printed⟩)
    | immediate letter =>
      exact .inr (.inl ⟨letter, lettered letter (by simp [letters]), .inl printed⟩)
    | displacement value base =>
      exact .inr (.inr ⟨value, base, lettered value (by simp [letters]),
        lettered base (by simp [letters]), printed⟩)
    | synthetic => exact .inl printed
  · rintro (printed | ⟨letter, alphabetic, printed | printed⟩ | ⟨value, base, first, second, printed⟩)
    · exact ⟨.synthetic, by simp [Lettered, letters], printed⟩
    · exact ⟨.immediate letter, by simp [Lettered, letters, alphabetic], printed⟩
    · exact ⟨.register letter, by simp [Lettered, letters, alphabetic], printed⟩
    · exact ⟨.displacement value base, by simp [Lettered, letters, first, second], printed⟩

theorem stuck_append (front : List Char) {rest : List Char} (starts : Starts front)
    (hopeless : ∀ next ∈ rest.head?, ¬ Starts (front ++ [next])) :
    Stuck (front ++ rest) front.length := by
  refine ⟨by simp, by simpa using starts, fun next present => ?_⟩
  rw [List.getElem?_append_right (Nat.le_refl _), Nat.sub_self, ← List.head?_eq_getElem?] at present
  simpa using hopeless next present

theorem stuck_of_alone {element other : Element} (lettered : element.Lettered)
    (whole : ∀ next, ¬ Starts (element.print ++ [next])) {rest : List Char} {place : Nat}
    (failed : alone element.print.length other rest = .error place) :
    Stuck (element.print ++ rest) place := by
  rw [alone] at failed
  split at failed
  next => simp at failed
  next =>
    cases failed
    exact stuck_append _ ⟨element, lettered, List.prefix_refl _⟩ fun next _ => whole next

theorem first_of_starts {first : Char} (starts : Starts [first]) :
    first = '0' ∨ first.isAlpha = true := by
  simp only [starts_iff, List.cons_prefix_cons, List.nil_prefix, and_true] at starts
  rcases starts with zero | ⟨letter, alphabetic, rfl | rfl⟩ | ⟨value, _, alphabetic, _, rfl⟩
  · exact .inl zero
  · exact .inr alphabetic
  · exact .inr (by decide)
  · exact .inr alphabetic

theorem second_of_starts {first second : Char} (starts : Starts [first, second]) :
    (first.isAlpha = true ∧ second = '(') ∨ (first = 'r' ∧ second.isAlpha = true) := by
  simp only [starts_iff, List.cons_prefix_cons, List.nil_prefix, List.prefix_nil] at starts
  grind

theorem third_of_starts {first second third : Char} (starts : Starts [first, second, third]) :
    second = '(' ∧ third = 'r' := by
  simp only [starts_iff, List.cons_prefix_cons, List.nil_prefix, List.prefix_nil] at starts
  grind

theorem base_of_starts {value base : Char} (starts : Starts [value, '(', 'r', base]) :
    base.isAlpha = true := by
  simp only [starts_iff, List.cons_prefix_cons, List.nil_prefix, List.prefix_nil] at starts
  grind

theorem close_of_starts {value base close : Char} (starts : Starts [value, '(', 'r', base, close]) :
    close = ')' := by
  simp only [starts_iff, List.cons_prefix_cons, List.prefix_nil] at starts
  grind

theorem stuck_of_displacementOf {value : Char} (alphabetic : value.isAlpha = true)
    {rest : List Char} {place : Nat} (failed : displacementOf value rest = .error place) :
    Stuck (value :: '(' :: rest) place := by
  have starts {base : Char} (also : base.isAlpha = true) {front : List Char}
      (printed : front <+: [value, '(', 'r', base, ')']) : Starts front :=
    starts_iff.mpr (.inr (.inr ⟨value, base, alphabetic, also, printed⟩))
  have someBase : 'A'.isAlpha = true := by decide
  unfold displacementOf at failed
  split at failed
  next base rest =>
    split at failed
    next also =>
      split at failed
      next rest =>
        have lettered : (displacement value base).Lettered := by
          simp [Lettered, letters, alphabetic, also]
        exact stuck_of_alone lettered (by simp [print, starts_iff]) failed
      next unclosed =>
        cases failed
        refine stuck_append [value, '(', 'r', base] (starts also (by simp)) ?_
        intro next following onward
        obtain ⟨tail, rfl⟩ := List.head?_eq_some_iff.mp following
        exact unclosed tail (close_of_starts onward ▸ rfl)
    next other =>
      cases failed
      refine stuck_append [value, '(', 'r'] (starts someBase (by simp)) ?_
      intro next following onward
      cases following
      exact other (base_of_starts onward)
  next =>
    cases failed
    exact stuck_append [value, '(', 'r'] (starts someBase (by simp)) (by simp)
  next based unbased =>
    cases failed
    refine stuck_append [value, '('] (starts someBase (by simp)) ?_
    intro next following onward
    obtain ⟨tail, rfl⟩ := List.head?_eq_some_iff.mp following
    cases (third_of_starts onward).2
    cases tail with
    | nil => exact unbased rfl
    | cons base tail => exact based base tail rfl

theorem stuck_of_parse {piece : List Char} {place : Nat} (failed : parse piece = .error place) :
    Stuck piece place := by
  have synthetic : Element.synthetic.Lettered := by simp [Lettered, letters]
  have nothing : Starts [] := ⟨_, synthetic, List.nil_prefix⟩
  unfold parse at failed
  split at failed
  next =>
    cases failed
    exact stuck_append [] nothing (by simp)
  next rest =>
    refine stuck_of_alone synthetic (fun next onward => ?_) failed
    rcases second_of_starts onward with ⟨alphabetic, _⟩ | ⟨sigil, _⟩
    · simp at alphabetic
    · simp at sigil
  next c rest digit =>
    split at failed
    next alphabetic =>
      have immediate : (immediate c).Lettered := by simp [Lettered, letters, alphabetic]
      split at failed
      next => simp at failed
      next rest => exact stuck_of_displacementOf alphabetic failed
      next letter rest other =>
        split at failed
        next both =>
          obtain ⟨rfl, also⟩ := both
          have register : (register letter).Lettered := by simp [Lettered, letters, also]
          refine stuck_of_alone register (fun next onward => ?_) failed
          exact Text.ne_of_isAlpha also (by decide) (third_of_starts onward).1
        next neither =>
          cases failed
          refine stuck_append [c] ⟨_, immediate, List.prefix_refl _⟩ ?_
          intro next following onward
          cases following
          rcases second_of_starts onward with ⟨_, rfl⟩ | both
          · exact other rfl
          · exact neither both
    next other =>
      cases failed
      refine stuck_append [] nothing ?_
      intro next following onward
      cases following
      rcases first_of_starts onward with rfl | alphabetic
      · exact digit rfl
      · exact other alphabetic

theorem mem_print {element : Element} {c : Char} (member : c ∈ element.print) :
    c ∈ ['0', 'r', '(', ')'] ∨ c ∈ element.letters := by
  cases element <;> grind [print, letters]

theorem utf8Size_of_mem_print {element : Element} (lettered : element.Lettered) {c : Char}
    (member : c ∈ element.print) : c.utf8Size = 1 := by
  have marks : ∀ mark ∈ ['0', 'r', '(', ')'], mark.utf8Size = 1 := by
    simp [Char.utf8Size]
  rcases mem_print member with mark | letter
  · exact marks c mark
  · exact Text.utf8Size_of_isAlpha (lettered c letter)

end Element

end OpenRisc
