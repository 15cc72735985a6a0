import OpenRisc.Command.Decode
import OpenRisc.Proofs.Text.Spelling

set_option autoImplicit false

namespace OpenRisc.Command

def wordBody (text : String) : List Char :=
  (if "0x".toList <+: text.toList ∨ "0X".toList <+: text.toList then text.toList.drop 2
    else text.toList).filter (· != '_')

def wordDigits (text : String) : List Char :=
  if (wordBody text).head? = some '+' then (wordBody text).tail else wordBody text

theorem readDigits_of_other {c : Char} (other : Text.hexValue? c = none) (value : Nat)
    (rest : List Char) : readDigits value (c :: rest) = .error .invalidDigit := by
  rw [readDigits, other]

theorem readDigits_of_fits {c : Char} {value digit : Nat} (read : Text.hexValue? c = some digit)
    (fits : Text.shiftIn value digit < 2 ^ 32) (rest : List Char) :
    readDigits value (c :: rest) = readDigits (Text.shiftIn value digit) rest := by
  rw [readDigits, read]
  exact if_pos fits

theorem readDigits_of_large {c : Char} {value digit : Nat} (read : Text.hexValue? c = some digit)
    (large : 2 ^ 32 ≤ Text.shiftIn value digit) (rest : List Char) :
    readDigits value (c :: rest) = .error .overflow := by
  rw [readDigits, read]
  exact if_neg (Nat.not_lt.mpr large)

theorem readDigits_eq_ok_iff {value : Nat} (small : value < 2 ^ 32) (digits : List Char)
    (number : Nat) :
    readDigits value digits = .ok number ↔ Text.Continues value digits number ∧ number < 2 ^ 32 := by
  induction digits generalizing value with
  | nil =>
    rw [readDigits, Text.continues_nil, Except.ok.injEq]
    exact ⟨fun same => ⟨same, same ▸ small⟩, And.left⟩
  | cons c rest ih =>
    rw [Text.continues_cons]
    cases read : Text.hexValue? c with
    | none => simp [readDigits_of_other read]
    | some digit =>
      rcases Nat.lt_or_ge (Text.shiftIn value digit) (2 ^ 32) with fits | large
      · simp only [readDigits_of_fits read fits, ih fits, Option.some.injEq, exists_eq_left']
      · simp only [readDigits_of_large read large, Option.some.injEq, exists_eq_left', reduceCtorEq,
          false_iff, not_and, Nat.not_lt]
        exact fun continues => large.trans continues.le

theorem readDigits_eq_overflow_iff {value : Nat} (small : value < 2 ^ 32) (digits : List Char) :
    readDigits value digits = .error .overflow ↔ Text.Overruns value digits := by
  induction digits generalizing value with
  | nil => simp [readDigits, Text.not_overruns_nil small]
  | cons c rest ih =>
    rw [Text.overruns_cons small]
    cases read : Text.hexValue? c with
    | none => simp [readDigits_of_other read]
    | some digit =>
      rcases Nat.lt_or_ge (Text.shiftIn value digit) (2 ^ 32) with fits | large
      · simp only [readDigits_of_fits read fits, ih fits, Option.some.injEq, exists_eq_left']
      · simp only [readDigits_of_large read large, Option.some.injEq, exists_eq_left', true_iff]
        exact Text.overruns_of_le large rest

theorem readDigits_ne_empty (value : Nat) (digits : List Char) :
    readDigits value digits ≠ .error .empty := by
  induction digits generalizing value with
  | nil => simp [readDigits]
  | cons c rest ih =>
    cases read : Text.hexValue? c with
    | none => simp [readDigits_of_other read]
    | some digit =>
      rcases Nat.lt_or_ge (Text.shiftIn value digit) (2 ^ 32) with fits | large
      · rw [readDigits_of_fits read fits]
        exact ih _
      · simp [readDigits_of_large read large]

theorem withoutMarker_eq (text : List Char) :
    withoutMarker text =
      if "0x".toList <+: text ∨ "0X".toList <+: text then text.drop 2 else text := by
  fun_cases withoutMarker text with
  | case1 rest => simp
  | case2 rest => simp
  | case3 other lower upper =>
    rw [if_neg]
    rintro (⟨rest, rfl⟩ | ⟨rest, rfl⟩)
    · exact lower rest rfl
    · exact upper rest rfl

theorem withoutSign_eq (text : List Char) :
    withoutSign text = if text.head? = some '+' then text.tail else text := by
  fun_cases withoutSign text with
  | case1 rest => rfl
  | case2 other unsigned =>
    rw [if_neg]
    intro plus
    obtain ⟨rest, rfl⟩ := List.head?_eq_some_iff.mp plus
    exact unsigned rest rfl

theorem parseWord_eq (text : String) :
    parseWord text =
      if wordBody text = [] then .error .empty
      else if wordDigits text = [] then .error .invalidDigit
      else (readDigits 0 (wordDigits text)).map (BitVec.ofNat 32) := by
  have bare : (withoutMarker text.toList).filter (· != '_') = wordBody text := by
    rw [withoutMarker_eq, wordBody]
  have unsigned : withoutSign (wordBody text) = wordDigits text := withoutSign_eq (wordBody text)
  rw [parseWord, bare, ← unsigned]
  split
  next empty => rw [if_pos empty]
  next plus => rw [plus, if_neg (List.cons_ne_nil _ _), withoutSign, if_pos rfl]
  next some alone =>
    have shown : withoutSign (wordBody text) ≠ [] := by
      intro none
      rw [withoutSign_eq] at none
      split at none
      next plus =>
        obtain ⟨rest, starts⟩ := List.head?_eq_some_iff.mp plus
        rw [starts, List.tail_cons] at none
        exact alone (starts.trans (by rw [none]))
      next => exact some none
    rw [if_neg some, if_neg shown]

theorem wordDigits_of_empty {text : String} (empty : wordBody text = []) : wordDigits text = [] := by
  simp [wordDigits, empty]

theorem parseWord_of_some {text : String} (some : wordDigits text ≠ []) :
    parseWord text = (readDigits 0 (wordDigits text)).map (BitVec.ofNat 32) := by
  rw [parseWord_eq, if_neg (mt wordDigits_of_empty some), if_neg some]

theorem parseWord_eq_ok_iff {text : String} {raw : Word} :
    parseWord text = .ok raw ↔ wordDigits text ≠ [] ∧ Text.Spells (wordDigits text) raw.toNat := by
  by_cases none : wordDigits text = []
  · rw [parseWord_eq, if_pos none]
    split <;> simp [none]
  · rw [parseWord_of_some none, and_iff_right none, Text.spells_iff]
    constructor
    · intro done
      cases read : readDigits 0 (wordDigits text) with
      | error cause => simp [read, Except.map] at done
      | ok number =>
        obtain ⟨continues, small⟩ := (readDigits_eq_ok_iff (by decide) _ _).mp read
        simp only [read, Except.map, Except.ok.injEq] at done
        have same : raw.toNat = number := by
          rw [← done, BitVec.toNat_ofNat, Nat.mod_eq_of_lt small]
        rw [same]
        exact continues
    · intro continues
      rw [(readDigits_eq_ok_iff (by decide) _ _).mpr ⟨continues, raw.isLt⟩, Except.map,
        BitVec.ofNat_toNat, BitVec.setWidth_eq]

theorem parseWord_eq_empty_iff {text : String} :
    parseWord text = .error .empty ↔ wordBody text = [] := by
  by_cases empty : wordBody text = []
  · simp [parseWord_eq, empty]
  · by_cases none : wordDigits text = []
    · simp [parseWord_eq, empty, none]
    · have filled := readDigits_ne_empty 0 (wordDigits text)
      rw [parseWord_of_some none]
      cases same : readDigits 0 (wordDigits text) <;> simp_all [Except.map]

theorem parseWord_eq_overflow_iff {text : String} :
    parseWord text = .error .overflow ↔ Text.Overflows (wordDigits text) := by
  rw [Text.overflows_iff]
  by_cases none : wordDigits text = []
  · have short := Text.not_overruns_nil (show 0 < 2 ^ 32 by decide)
    rw [parseWord_eq, if_pos none, none]
    split <;> simp [short]
  · rw [← readDigits_eq_overflow_iff (by decide), parseWord_of_some none]
    cases readDigits 0 (wordDigits text) <;> simp [Except.map]

theorem hexDigits_prefix_render (table : Table) (format : Format) (raw : Word) :
    Text.hexDigits raw <+: (render table format raw).toList := by
  rw [render]
  split
  · simp only [Text.hexColumn, String.toList_append, String.toList_ofList]
    exact List.prefix_append _ _
  · split <;>
      simp only [Text.hexColumn, String.toList_append, String.toList_ofList, List.append_assoc] <;>
      exact List.prefix_append _ _

/-- The ways to write down digits: behind a marker or none, with or without a plus sign, and with
underscores anywhere behind the marker. -/
inductive Written (digits : List Char) : String → Prop where
  | intro {marker sign : String} {rest : List Char} (marked : marker ∈ ["", "0x", "0X"])
      (signed : sign ∈ ["", "+"]) (spaced : rest.filter (· != '_') = sign.toList ++ digits) :
      Written digits (marker ++ String.ofList rest)

theorem wordBody_of_marked {rest : List Char} {marker : String} (marked : marker ∈ ["", "0x", "0X"])
    (lower : 'x' ∉ rest) (upper : 'X' ∉ rest) :
    wordBody (marker ++ String.ofList rest) = rest.filter (· != '_') := by
  have chars : (marker ++ String.ofList rest).toList = marker.toList ++ rest := by
    rw [String.toList_append, String.toList_ofList]
  rw [wordBody, chars]
  congr 1
  simp only [List.mem_cons, List.not_mem_nil, or_false] at marked
  rcases marked with rfl | rfl | rfl
  · rw [if_neg]
    · rfl
    · rintro (⟨after, starts⟩ | ⟨after, starts⟩)
      · exact lower (by simp [← show _ = rest from starts])
      · exact upper (by simp [← show _ = rest from starts])
  · rw [if_pos (.inl (List.prefix_append _ _))]
    rfl
  · rw [if_pos (.inr (List.prefix_append _ _))]
    rfl

theorem wordDigits_of_written {number : List Char} {text : String} (written : Written number text)
    (hex : ∀ c ∈ number, ∃ digit, Text.IsHexDigit c digit) : wordDigits text = number := by
  cases written with
  | @intro marker sign rest marked signed spaced =>
    simp only [List.mem_cons, List.not_mem_nil, or_false] at signed
    -- A letter that is no digit would show in the body, so no second marker is taken for one.
    have outside (c : Char) (other : Text.hexValue? c = none) (unsigned : c ≠ '+')
        (shown : c ≠ '_') : c ∉ rest := by
      intro member
      have kept : c ∈ rest.filter (· != '_') := List.mem_filter.mpr ⟨member, by simpa using shown⟩
      rw [spaced, List.mem_append] at kept
      rcases kept with here | there
      · rcases signed with rfl | rfl
        · simp at here
        · exact unsigned (by simpa using here)
      · exact Text.not_mem_of_other hex other there
    have lower := outside 'x' rfl (by decide) (by decide)
    have upper := outside 'X' rfl (by decide) (by decide)
    rw [wordDigits, wordBody_of_marked marked lower upper, spaced]
    rcases signed with rfl | rfl
    · exact if_neg fun plus => Text.not_mem_of_other hex rfl (List.mem_of_head? plus)
    · exact if_pos rfl

theorem exists_marker (text : String) :
    ∃ marker rest, marker ∈ ["", "0x", "0X"] ∧ text = marker ++ String.ofList rest ∧
      wordBody text = rest.filter (· != '_') := by
  have whole {marker : String} {rest : List Char} (starts : marker.toList ++ rest = text.toList) :
      text = marker ++ String.ofList rest := by
    apply String.toList_injective
    rw [← starts, String.toList_append, String.toList_ofList]
  rw [wordBody]
  split
  next marked =>
    rcases marked with ⟨rest, starts⟩ | ⟨rest, starts⟩
    · exact ⟨"0x", rest, by decide, whole starts, by rw [← starts]; rfl⟩
    · exact ⟨"0X", rest, by decide, whole starts, by rw [← starts]; rfl⟩
  next => exact ⟨"", text.toList, by decide, whole rfl, rfl⟩

theorem written_wordDigits (text : String) : Written (wordDigits text) text := by
  obtain ⟨marker, rest, marked, whole, bare⟩ := exists_marker text
  have written : Written (wordDigits text) (marker ++ String.ofList rest) := by
    rw [wordDigits]
    split
    next plus =>
      obtain ⟨later, starts⟩ := List.head?_eq_some_iff.mp plus
      have signed : "+" ∈ ["", "+"] := by decide
      refine .intro marked signed ?_
      rw [← bare, starts]
      rfl
    next =>
      have unsigned : "" ∈ ["", "+"] := by decide
      exact .intro marked unsigned bare.symm
  rwa [← whole] at written

theorem parseWord_eq_ok_iff_written {text : String} {raw : Word} :
    parseWord text = .ok raw ↔
      ∃ number, number ≠ [] ∧ Text.Spells number raw.toNat ∧ Written number text := by
  rw [parseWord_eq_ok_iff]
  constructor
  · intro spelled
    exact ⟨wordDigits text, spelled.1, spelled.2, written_wordDigits text⟩
  · intro written
    obtain ⟨number, some, spelled, written⟩ := written
    rw [wordDigits_of_written written spelled.hex]
    exact ⟨some, spelled⟩

theorem parseWord_hexDigits (raw : Word) :
    parseWord (String.ofList (Text.hexDigits raw)) = .ok raw := by
  have spelled := Text.spells_hexDigits raw
  have gapless : (Text.hexDigits raw).filter (· != '_') = Text.hexDigits raw := by
    refine List.filter_eq_self.mpr fun c member => ?_
    simpa using ne_of_mem_of_not_mem member (Text.not_mem_of_other spelled.hex rfl)
  have written : Written (Text.hexDigits raw) ("" ++ String.ofList (Text.hexDigits raw)) :=
    .intro (List.mem_cons_self) (List.mem_cons_self) gapless
  rw [String.empty_append] at written
  exact parseWord_eq_ok_iff_written.mpr ⟨_, List.cons_ne_nil _ _, spelled, written⟩

/-- A text is read as the number that its digits spell, however they are written down. -/
theorem parseWord_settles :
    (∀ text raw, parseWord text = .ok raw ↔
      wordDigits text ≠ [] ∧ Text.Spells (wordDigits text) raw.toNat) ∧
    (∀ text, parseWord text = .error .empty ↔ wordBody text = []) ∧
    (∀ text, parseWord text = .error .overflow ↔ Text.Overflows (wordDigits text)) ∧
    (∀ text, parseWord text = .error .invalidDigit ↔
      wordBody text ≠ [] ∧ ¬ Text.Overflows (wordDigits text) ∧
        ∀ raw : Word, ¬ (wordDigits text ≠ [] ∧ Text.Spells (wordDigits text) raw.toNat)) ∧
    (∀ text raw, parseWord text = .ok raw ↔
      ∃ number, number ≠ [] ∧ Text.Spells number raw.toNat ∧ Written number text) ∧
    ∀ table format raw,
      parseWord (String.ofList ((render table format raw).toList.take 8)) = .ok raw := by
  refine ⟨fun _ _ => parseWord_eq_ok_iff, fun _ => parseWord_eq_empty_iff,
    fun _ => parseWord_eq_overflow_iff, ?_, fun _ _ => parseWord_eq_ok_iff_written, ?_⟩
  · intro text
    rw [← parseWord_eq_overflow_iff, Ne, ← parseWord_eq_empty_iff]
    simp only [← parseWord_eq_ok_iff]
    cases outcome : parseWord text with
    | ok raw => simp
    | error cause => cases cause <;> simp
  · intro table format raw
    have column : (render table format raw).toList.take 8 = Text.hexDigits raw :=
      (List.prefix_iff_eq_take.mp (hexDigits_prefix_render table format raw)).symm
    rw [column, parseWord_hexDigits]

theorem parseWord_settles_gaps :
    parseWord "0X_+_09C64_0010" = .ok 0x9C640010 ∧
      parseWord "0x1_0000_0000g" = .error .overflow := by
  obtain ⟨ok, _, overflow, _⟩ := parseWord_settles
  constructor
  · refine (ok _ _).mpr ⟨by decide, [0, 9, 12, 6, 4, 0, 0, 1, 0], ?_, by decide⟩
    decide
  · refine (overflow _).mpr ⟨"100000000".toList, 2 ^ 32, by decide, ?_, by decide⟩
    exact ⟨[1, 0, 0, 0, 0, 0, 0, 0, 0], by decide, by decide⟩

end OpenRisc.Command
