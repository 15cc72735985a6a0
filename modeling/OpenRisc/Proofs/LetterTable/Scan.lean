import Mathlib.Data.Char
import OpenRisc.LetterTable.Scan
import OpenRisc.Proofs.LetterTable.Contents

set_option autoImplicit false

namespace OpenRisc.LetterTable

def uses (templates : List Template) : List LetterInfo :=
  templates.zipIdx.flatMap fun row => row.1.letters.map (useOf row)

def firstOf? (seen : List LetterInfo) (letter : Char) : Option LetterInfo :=
  seen.find? fun use => use.letter == letter

structure Collects (seen : List LetterInfo) (table : LetterTable) : Prop where
  sorted : (table.entries.map LetterInfo.letter).Pairwise (· < ·)
  entries : ∀ info, info ∈ table.entries ↔ firstOf? seen info.letter = some info

section

variable {seen : List LetterInfo} {table : LetterTable}

theorem letter_of_firstOf? {letter : Char} {use : LetterInfo}
    (found : firstOf? seen letter = some use) : use.letter = letter := by
  have named := List.find?_some found
  simpa using named

theorem firstOf?_append (front back : List LetterInfo) (letter : Char) :
    firstOf? (front ++ back) letter = (firstOf? front letter).or (firstOf? back letter) :=
  List.find?_append

theorem Collects.get?_eq (collects : Collects seen table) (letter : Char) :
    table.get? letter = firstOf? seen letter := by
  cases found : table.get? letter with
  | some info =>
    have member := (collects.entries info).mp (List.mem_of_find?_eq_some found)
    have named : info.letter = letter := by simpa using List.find?_some found
    rw [← named, member]
  | none =>
    cases first : firstOf? seen letter with
    | none => rfl
    | some info =>
      have named := letter_of_firstOf? first
      have member := (collects.entries info).mpr (named ▸ first)
      have other := List.find?_eq_none.mp found info member
      simp [named] at other

theorem Collects.unique {other : LetterTable} (collects : Collects seen table)
    (also : Collects seen other) : table = other := by
  have irreflexive : Std.Irrefl fun one other : LetterInfo => one.letter < other.letter :=
    ⟨fun info => Char.lt_irrefl info.letter⟩
  have same : table.entries = other.entries := by
    apply List.Pairwise.eq_of_mem_iff (List.pairwise_map.mp collects.sorted)
      (List.pairwise_map.mp also.sorted)
    intro info
    rw [collects.entries, also.entries]
  cases table
  exact congrArg LetterTable.mk same

theorem sorted_orderedInsert {letter : Char} {letters : List Char}
    (sorted : letters.Pairwise (· < ·)) (fresh : letter ∉ letters) :
    (letters.orderedInsert (· ≤ ·) letter).Pairwise (· < ·) := by
  have ordered := List.Pairwise.orderedInsert letter letters (sorted.imp le_of_lt)
  have distinct : (letters.orderedInsert (· ≤ ·) letter).Nodup :=
    (List.perm_orderedInsert _ _ _).nodup_iff.mpr (List.nodup_cons.mpr ⟨fresh, sorted.imp ne_of_lt⟩)
  exact (ordered.and distinct).imp fun both => lt_of_le_of_ne both.1 both.2

theorem Collects.add (collects : Collects seen table) {use : LetterInfo}
    (fresh : firstOf? seen use.letter = none) : Collects (seen ++ [use]) (table.add use) where
  sorted := by
    rw [LetterTable.add, List.map_orderedInsert _ (· ≤ ·) _ _ _ (fun _ _ => Iff.rfl) fun _ _ => Iff.rfl]
    apply sorted_orderedInsert collects.sorted
    intro member
    obtain ⟨info, present, same⟩ := List.mem_map.mp member
    have known := (collects.entries info).mp present
    simp [same, fresh] at known
  entries info := by
    rw [LetterTable.add, List.mem_orderedInsert, collects.entries, firstOf?_append]
    by_cases same : use.letter = info.letter
    next =>
      have alone : firstOf? [use] info.letter = some use := by simp [firstOf?, same]
      rw [alone, ← same, fresh]
      simp [eq_comm]
    next =>
      have other : info ≠ use := fun equal => same (equal ▸ rfl)
      simp [other, firstOf?, same]

theorem Collects.keep (collects : Collects seen table) {use first : LetterInfo}
    (known : firstOf? seen use.letter = some first) : Collects (seen ++ [use]) table where
  sorted := collects.sorted
  entries info := by
    rw [collects.entries, firstOf?_append]
    by_cases same : use.letter = info.letter
    next => simp [← same, known]
    next => simp [firstOf?, same]

theorem enter_of_collects (collects : Collects seen table) (use : LetterInfo) :
    (∃ first conflict, firstOf? seen use.letter = some first ∧ clash? first use = some conflict ∧
        table.enter use = .error conflict) ∨
      (∀ first, firstOf? seen use.letter = some first → clash? first use = none) ∧
        ∃ after, table.enter use = .ok after ∧ Collects (seen ++ [use]) after := by
  rw [enter, collects.get?_eq]
  cases known : firstOf? seen use.letter with
  | none => exact .inr ⟨nofun, _, rfl, collects.add known⟩
  | some first =>
    cases clash : clash? first use with
    | some conflict => exact .inl ⟨first, conflict, rfl, clash, by simp [clash]⟩
    | none =>
      refine .inr ⟨?_, table, by simp [clash], collects.keep known⟩
      intro other same
      rwa [← Option.some.inj same]

theorem clash?_self (use : LetterInfo) : clash? use use = none := by
  simp [clash?]

theorem foldlM_enter (collects : Collects seen table) (rest : List LetterInfo) :
    match rest.findSome? fun use =>
        (firstOf? (seen ++ rest) use.letter).bind fun first => clash? first use with
    | some conflict => rest.foldlM enter table = .error conflict
    | none => ∃ after, rest.foldlM enter table = .ok after ∧ Collects (seen ++ rest) after := by
  induction rest generalizing seen table with
  | nil => exact ⟨table, rfl, by simpa using collects⟩
  | cons use rest ih =>
    rw [List.findSome?_cons, List.foldlM_cons]
    rcases enter_of_collects collects use with failed | ⟨harmless, after, entered, later⟩
    next =>
      obtain ⟨first, conflict, known, clash, failed⟩ := failed
      simp [firstOf?_append, known, clash, failed, bind, Except.bind]
    next =>
      have here : ((firstOf? (seen ++ use :: rest) use.letter).bind fun first =>
          clash? first use) = none := by
        rw [firstOf?_append]
        cases known : firstOf? seen use.letter with
        | none => simp [firstOf?, clash?_self]
        | some first => simp [harmless first known]
      have next := ih later
      rw [List.append_assoc, List.singleton_append] at next
      rw [here, entered]
      exact next

end

theorem foldlM_enterRow (rows : List (Template × Nat)) (table : LetterTable) :
    rows.foldlM enterRow table =
      (rows.flatMap fun row => row.1.letters.map (useOf row)).foldlM enter table := by
  induction rows generalizing table with
  | nil => rfl
  | cons row rest ih =>
    rw [List.foldlM_cons, List.flatMap_cons, List.foldlM_append, List.foldlM_map]
    exact bind_congr fun after => ih after

theorem firstOf?_map_useOf (row : Template × Nat) (letter : Char) :
    firstOf? (row.1.letters.map (useOf row)) letter =
      if row.1.uses letter then some (useOf row letter) else none := by
  rw [firstOf?, List.find?_map]
  cases found : row.1.letters.find? ((fun use => use.letter == letter) ∘ useOf row) with
  | some other =>
    have named : other = letter := by simpa [useOf] using List.find?_some found
    have used := Template.mem_letters.mp (List.mem_of_find?_eq_some found)
    rw [named] at used
    rw [used, if_pos rfl, Option.map_some, named]
  | none =>
    have unused : row.1.uses letter ≠ true := by
      intro used
      have other := List.find?_eq_none.mp found letter (Template.mem_letters.mpr used)
      simp [useOf] at other
    rw [if_neg unused, Option.map_none]

theorem firstOf?_uses (templates : List Template) (letter : Char) :
    firstOf? (uses templates) letter = info? templates letter := by
  rw [info?, firstUse?, uses]
  induction templates.zipIdx with
  | nil => rfl
  | cons row rest ih =>
    rw [List.flatMap_cons, firstOf?_append, firstOf?_map_useOf, ih, List.find?_cons]
    cases row.1.uses letter with
    | true => rfl
    | false => rfl

theorem conflictAt?_eq (templates : List Template) (row : Template × Nat) :
    conflictAt? templates row = fun letter =>
      (firstOf? (uses templates) letter).bind fun first => clash? first (useOf row letter) := by
  funext letter
  rw [firstOf?_uses, conflictAt?, info?]
  cases firstUse? templates letter with
  | none => rfl
  | some first => rfl

theorem findSome?_uses {Value : Type} (find : LetterInfo → Option Value)
    (templates : List Template) :
    (uses templates).findSome? find =
      templates.zipIdx.findSome? fun row =>
        row.1.letters.findSome? fun letter => find (useOf row letter) := by
  rw [uses]
  induction templates.zipIdx with
  | nil => rfl
  | cons row rest ih =>
    rw [List.flatMap_cons, List.findSome?_append, ih, List.findSome?_map, List.findSome?_cons]
    simp only [Function.comp_def]
    cases row.1.letters.findSome? fun letter => find (useOf row letter) with
    | none => rfl
    | some value => rfl

theorem conflict?_eq (templates : List Template) :
    conflict? templates = (uses templates).findSome? fun use =>
      (firstOf? (uses templates) use.letter).bind fun first => clash? first use := by
  rw [findSome?_uses, conflict?]
  simp only [conflictAt?_eq]
  rfl

theorem collects_of_build {templates : List Template} {table : LetterTable}
    (built : build templates = .ok table) : Collects (uses templates) table where
  sorted := sorted_of_build built
  entries info := by rw [mem_entries_of_build built, firstOf?_uses]

theorem scan_eq_build (templates : List Template) : scan templates = build templates := by
  have empty : Collects [] ⟨[]⟩ := ⟨List.Pairwise.nil, fun info => by simp [firstOf?]⟩
  have run := foldlM_enter empty (uses templates)
  rw [List.nil_append, ← conflict?_eq] at run
  rw [scan, foldlM_enterRow, ← uses]
  cases built : build templates with
  | error conflict =>
    rw [conflict?_of_build built] at run
    exact run
  | ok table =>
    rw [(build_eq_ok_iff.mp built).1] at run
    obtain ⟨after, done, collects⟩ := run
    rw [done, collects.unique (collects_of_build built)]

/-- A table is built if each signed letter has one width; if not, the first conflict is named. -/
theorem build_settles_letters (templates : List Template) :
    ((∃ table, build templates = .ok table) ↔ Uniform templates) ∧
      (∀ table, build templates = .ok table → table.Describes templates) ∧
      (∀ conflict, build templates = .error conflict ↔ FirstConflict templates conflict) ∧
      scan templates = build templates := by
  refine ⟨?_, fun _ => describes_of_build, fun _ => build_eq_error_iff, scan_eq_build templates⟩
  constructor
  next => exact fun ⟨_, built⟩ => uniform_of_build built
  next => exact build_of_uniform

def narrowed : List String :=
  ["00 ---- ---- ---- IIII IIII IIII IIII --", "01 ---- NNNN NNNN NNNN NNNN NNNN NNNN NN",
    "11 NNNN NNNN ---- ---- ---- ---- IIII II"]

theorem build_settles_letters_narrowed :
    ∃ templates, narrowed.mapM Template.parse = .ok templates ∧ ¬ Uniform templates ∧
      FirstConflict templates
        { letter := 'N', firstRow := 1, firstWidth := 26, row := 2, width := 8 } ∧
      scan templates =
        .error { letter := 'N', firstRow := 1, firstWidth := 26, row := 2, width := 8 } := by
  obtain ⟨templates, parsed⟩ := Traversal.exists_of_isOk
    (show (narrowed.mapM Template.parse).isOk = true by decide +kernel)
  have failed : build templates =
      .error { letter := 'N', firstRow := 1, firstWidth := 26, row := 2, width := 8 } := by
    have built : (narrowed.mapM Template.parse).map build = .ok (.error
        { letter := 'N', firstRow := 1, firstWidth := 26, row := 2, width := 8 }) := by
      decide +kernel
    rw [parsed] at built
    exact Except.ok.inj built
  obtain ⟨succeeds, _, names, scanned⟩ := build_settles_letters templates
  refine ⟨templates, parsed, ?_, (names _).mp failed, scanned.trans failed⟩
  intro uniform
  obtain ⟨table, built⟩ := succeeds.mpr uniform
  simp [failed] at built

end OpenRisc.LetterTable
