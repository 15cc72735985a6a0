import Mathlib.Data.List.Forall2
import OpenRisc.Command.Decode
import OpenRisc.Proofs.Traversal
import OpenRisc.Proofs.Table.Decoding
import OpenRisc.Proofs.Text.Encoded

set_option autoImplicit false

namespace OpenRisc.Command

variable {table : Table} {format : Format}

namespace Output

theorem andThen_assoc (first second third : Output) :
    (first.andThen second).andThen third = first.andThen (second.andThen third) := by
  rcases first with ⟨lines, _ | failure⟩
  · rcases second with ⟨more, _ | failure⟩ <;> simp [andThen]
  · rfl

theorem andThen_empty (output : Output) : output.andThen { lines := [] } = output := by
  rcases output with ⟨lines, _ | failure⟩ <;> simp [andThen]

end Output

def rejection? (word : String) : Option Failure :=
  match parseWord word with
  | .error cause => some (.invalidWord word cause)
  | .ok _ => none

/-- Every word up to the first that cannot be read has its line. That word ends the run; without one
the run ends as `ending` says. -/
structure Prints (table : Table) (format : Format) (words : List String) (ending : Option Failure)
    (output : Output) : Prop where
  lines : List.Forall₂
    (fun word line => ∃ raw, parseWord word = .ok raw ∧ line = render table format raw)
    (words.takeWhile fun word => (parseWord word).isOk) output.lines
  failure : output.failure? = (words.findSome? rejection?).or ending

theorem decodeWords_of_refused {word : String} {cause : WordError}
    (refused : parseWord word = .error cause) (rest : List String) :
    decodeWords table format (word :: rest) =
      { lines := [], failure? := some (.invalidWord word cause) } := by
  simp [decodeWords, refused]

theorem decodeWords_of_read {word : String} {raw : Word} (read : parseWord word = .ok raw)
    (rest : List String) :
    decodeWords table format (word :: rest) =
      Output.andThen { lines := [render table format raw] } (decodeWords table format rest) := by
  simp [decodeWords, read]

theorem prints_decodeWords (words : List String) (ending : Option Failure) :
    Prints table format words ending
      ((decodeWords table format words).andThen { lines := [], failure? := ending }) := by
  induction words with
  | nil => exact ⟨.nil, rfl⟩
  | cons word rest ih =>
    cases read : parseWord word with
    | error cause =>
      rw [decodeWords_of_refused read]
      constructor <;> simp [Output.andThen, rejection?, read, Except.isOk, Except.toBool]
    | ok raw =>
      rw [decodeWords_of_read read, Output.andThen_assoc]
      constructor
      · rw [List.takeWhile_cons_of_pos (by simp [read, Except.isOk, Except.toBool])]
        exact .cons ⟨raw, read, rfl⟩ ih.lines
      · rw [List.findSome?_cons_of_isNone (by simp [rejection?, read])]
        exact ih.failure

theorem decodeWords_append (front back : List String) :
    decodeWords table format (front ++ back) =
      (decodeWords table format front).andThen (decodeWords table format back) := by
  induction front with
  | nil => rfl
  | cons word rest ih =>
    rw [List.cons_append]
    cases read : parseWord word with
    | error cause =>
      rw [decodeWords_of_refused read, decodeWords_of_refused read]
      rfl
    | ok raw => rw [decodeWords_of_read read, decodeWords_of_read read, ih, Output.andThen_assoc]

def withoutReturn (line : List UInt8) : List UInt8 :=
  if line.getLast? = some 13 then line.dropLast else line

-- Nothing behind the last line feed is no line.
def closeLines : List (List UInt8) → List (List UInt8)
  | [] => []
  | [rest] => if rest.isEmpty then [] else [rest]
  | line :: next :: rest => withoutReturn line :: closeLines (next :: rest)

def inputLines (input : ByteArray) : List (List UInt8) :=
  closeLines (input.data.toList.splitOnP isLineFeed)

example : inputLines "0\r\n\n1\r".toByteArray = [[48], [], [49, 13]] := by decide

theorem withoutReturn_cases (line : List UInt8) :
    withoutReturn line = line ∨ line = withoutReturn line ++ [13] := by
  rw [withoutReturn]
  split
  next ends =>
    obtain ⟨front, rfl⟩ := List.getLast?_eq_some_iff.mp ends
    exact .inr (by rw [List.dropLast_concat])
  next => exact .inl rfl

theorem isValidUTF8_withoutReturn (line : List UInt8) :
    (withoutReturn line).toByteArray.IsValidUTF8 ↔ line.toByteArray.IsValidUTF8 := by
  rcases withoutReturn_cases line with same | ends
  · rw [same]
  · conv_rhs => rw [ends, Text.isValidUTF8_append_return]

theorem forall_closeLines (pieces : List (List UInt8)) :
    (∀ line ∈ closeLines pieces, line.toByteArray.IsValidUTF8) ↔
      ∀ piece ∈ pieces, piece.toByteArray.IsValidUTF8 := by
  fun_induction closeLines pieces with
  | case1 => rfl
  | case2 rest nothing =>
    rw [List.isEmpty_iff.mp nothing]
    simp
  | case3 rest something => rfl
  | case4 line next rest ih =>
    rw [List.forall_mem_cons, isValidUTF8_withoutReturn, ih]
    simp only [List.forall_mem_cons]

theorem decodeLine_encode (text : List Char) :
    decodeLine table format (Text.encode text) =
      decodeWords table format ((Text.words text).map String.ofList) := by
  rw [decodeLine, Text.fromUTF8?_encode]
  simp

theorem decodeLine_nil : decodeLine table format [] = { lines := [] } :=
  decodeLine_encode []

theorem decodeLine_of_invalid {line : List UInt8} (invalid : ¬ line.toByteArray.IsValidUTF8) :
    decodeLine table format line = { lines := [], failure? := some .unreadableInput } := by
  rw [decodeLine, String.fromUTF8?, dif_neg invalid]

theorem decodeLine_append_return (line : List UInt8) :
    decodeLine table format (line ++ [13]) = decodeLine table format line := by
  by_cases valid : line.toByteArray.IsValidUTF8
  · obtain ⟨text, rfl⟩ := Text.isValidUTF8_iff.mp valid
    rw [← Text.encode_append_return, decodeLine_encode, decodeLine_encode,
      Text.words_append_singleton text rfl]
  · rw [decodeLine_of_invalid valid,
      decodeLine_of_invalid (mt Text.isValidUTF8_append_return.mp valid)]

theorem decodeLine_withoutReturn (line : List UInt8) :
    decodeLine table format (withoutReturn line) = decodeLine table format line := by
  rcases withoutReturn_cases line with same | ends
  · rw [same]
  · conv_rhs => rw [ends, decodeLine_append_return]

theorem decodeLines_closeLines (pieces : List (List UInt8)) :
    decodeLines table format (closeLines pieces) = decodeLines table format pieces := by
  fun_induction closeLines pieces with
  | case1 => rfl
  | case2 rest nothing =>
    rw [List.isEmpty_iff.mp nothing, decodeLines, decodeLines, decodeLine_nil]
    rfl
  | case3 rest something => rfl
  | case4 line next rest ih =>
    rw [decodeLines, decodeLine_withoutReturn, ih]
    rfl

theorem decodeLines_append (front back : List (List UInt8)) :
    decodeLines table format (front ++ back) =
      (decodeLines table format front).andThen (decodeLines table format back) := by
  induction front with
  | nil => rfl
  | cons line rest ih => rw [List.cons_append, decodeLines, decodeLines, ih, Output.andThen_assoc]

theorem decodeLines_encode (texts : List (List Char)) :
    decodeLines table format (texts.map Text.encode) =
      decodeWords table format ((texts.flatMap Text.words).map String.ofList) := by
  induction texts with
  | nil => rfl
  | cons text rest ih =>
    rw [List.map_cons, decodeLines, ih, decodeLine_encode, List.flatMap_cons, List.map_append,
      decodeWords_append]

theorem decode_text (text : String) :
    decode table [] format text.toByteArray =
      decodeWords table format ((Text.words text.toList).map String.ofList) := by
  have pieces : text.toByteArray.data.toList.splitOnP isLineFeed =
      (text.toList.splitOn '\n').map Text.encode := by
    rw [Text.bytes_eq_encode]
    exact Text.splitOn_encode text.toList
  calc decode table [] format text.toByteArray
      = decodeLines table format ((text.toList.splitOn '\n').map Text.encode) := by
        rw [← pieces]
        rfl
    _ = decodeWords table format ((Text.words text.toList).map String.ofList) := by
        rw [decodeLines_encode, Text.flatMap_words_splitOn rfl]

theorem exists_unreadable {input : ByteArray} (invalid : ¬ input.IsValidUTF8) :
    ∃ (front : List (List Char)) (line : List UInt8) (back : List (List UInt8)),
      inputLines input = front.map Text.encode ++ line :: back ∧ ¬ line.toByteArray.IsValidUTF8 := by
  have broken : ¬ ∀ line ∈ inputLines input, line.toByteArray.IsValidUTF8 := by
    intro valid
    have whole := Text.isValidUTF8_of_splitOn ((forall_closeLines _).mp valid)
    rw [Text.toByteArray_toList] at whole
    exact invalid whole
  obtain ⟨before, line, back, lines, valid, refused⟩ := Traversal.exists_first broken
  obtain ⟨front, rfl⟩ := Text.exists_texts valid
  exact ⟨front, line, back, lines, refused⟩

theorem decode_unreadable {input : ByteArray} {front : List (List Char)} {line : List UInt8}
    {back : List (List UInt8)} (lines : inputLines input = front.map Text.encode ++ line :: back)
    (invalid : ¬ line.toByteArray.IsValidUTF8) :
    decode table [] format input =
      (decodeWords table format ((front.flatMap Text.words).map String.ofList)).andThen
        { lines := [], failure? := some .unreadableInput } := by
  calc decode table [] format input
      = decodeLines table format (inputLines input) := (decodeLines_closeLines _).symm
    _ = (decodeWords table format ((front.flatMap Text.words).map String.ofList)).andThen
          ((decodeLine table format line).andThen (decodeLines table format back)) := by
        rw [lines, decodeLines_append, decodeLines_encode, decodeLines]
    _ = (decodeWords table format ((front.flatMap Text.words).map String.ofList)).andThen
          { lines := [], failure? := some .unreadableInput } := by
        rw [decodeLine_of_invalid invalid]
        rfl

/-- Words are decoded alike as arguments and on the input, however the input lays them out. -/
theorem decode_prints (table : Table) (format : Format) :
    (∀ (words : List String) (unread : ByteArray), words ≠ [] →
      Prints table format words none (decode table words format unread)) ∧
    (∀ (words : List String) (unread : ByteArray) (text : String), words ≠ [] →
      (Text.words text.toList).map String.ofList = words →
      decode table [] format text.toByteArray = decode table words format unread) ∧
    (∀ input : ByteArray, ¬ input.IsValidUTF8 →
      ∃ (front : List (List Char)) (line : List UInt8) (back : List (List UInt8)),
        inputLines input = front.map Text.encode ++ line :: back ∧
        ¬ line.toByteArray.IsValidUTF8 ∧
        Prints table format ((front.flatMap Text.words).map String.ofList) (some .unreadableInput)
          (decode table [] format input)) := by
  have arguments (words : List String) (unread : ByteArray) (present : words ≠ []) :
      decode table words format unread = decodeWords table format words := by
    rw [decode, if_neg (by simpa using present)]
  refine ⟨?_, ?_, ?_⟩
  · intro words unread present
    rw [arguments words unread present, ← Output.andThen_empty (decodeWords table format words)]
    exact prints_decodeWords words none
  · intro words unread text present split
    rw [arguments words unread present, decode_text, split]
  · intro input invalid
    obtain ⟨front, line, back, lines, refused⟩ := exists_unreadable invalid
    refine ⟨front, line, back, lines, refused, ?_⟩
    rw [decode_unreadable lines refused]
    exact prints_decodeWords _ (some .unreadableInput)

theorem decode_prints_stray_words :
    ∃ table, Table.compile Table.additions = .ok table ∧
      (decode table ["9C640010", "zz", "0"] .text .empty).failure? =
        some (.invalidWord "zz" .invalidDigit) ∧
      decode table [] .text "9C640010 \r\n\n\u2003zz\t0\r".toByteArray =
        decode table ["9C640010", "zz", "0"] .text .empty ∧
      ¬ ByteArray.IsValidUTF8 ⟨#[48, 13, 10, 255]⟩ ∧
      (decode table [] .text ⟨#[48, 13, 10, 255]⟩).failure?.isSome = true := by
  obtain ⟨table, done⟩ := Traversal.exists_of_isOk
    (show (Table.compile Table.additions).isOk = true by decide +kernel)
  obtain ⟨arguments, layouts, unreadable⟩ := decode_prints table .text
  have broken : ¬ ByteArray.IsValidUTF8 ⟨#[48, 13, 10, 255]⟩ := by decide
  obtain ⟨front, line, back, _, _, prints⟩ := unreadable _ broken
  refine ⟨table, done, ?_, ?_, broken, ?_⟩
  · exact (arguments _ _ (by decide)).failure
  · exact layouts _ _ _ (by decide) (by decide)
  · rw [prints.failure]
    simp

end OpenRisc.Command
