import OpenRisc.Proofs.Text.Pieces

set_option autoImplicit false

namespace OpenRisc.Text

def encode (text : List Char) : List UInt8 :=
  text.flatMap String.utf8EncodeChar

theorem encode_append (front back : List Char) :
    encode (front ++ back) = encode front ++ encode back :=
  List.flatMap_append

theorem encode_append_return (text : List Char) : encode (text ++ ['\r']) = encode text ++ [13] :=
  encode_append text ['\r']

theorem encode_singleton (c : Char) : encode [c] = String.utf8EncodeChar c :=
  List.append_nil _

theorem encode_intercalate (mark : Char) (pieces : List (List Char)) :
    encode ([mark].intercalate pieces) = (encode [mark]).intercalate (pieces.map encode) := by
  induction pieces with
  | nil => rfl
  | cons piece rest ih =>
    cases rest with
    | nil => simp
    | cons other rest =>
      simp only [List.intercalate_cons_cons, encode_append, ih, List.map_cons]

theorem bytes_eq_encode (text : String) : text.toByteArray.data.toList = encode text.toList := by
  rw [← String.ofList_toList (s := text), String.toByteArray_ofList, List.utf8Encode,
    String.toList_ofList, encode, List.toList_data_toByteArray]

theorem fromUTF8?_encode (text : List Char) :
    String.fromUTF8? (encode text).toByteArray = some (String.ofList text) := by
  have valid : (encode text).toByteArray.IsValidUTF8 := .intro text rfl
  rw [String.fromUTF8?, dif_pos valid]
  rfl

theorem isValidUTF8_iff {bytes : List UInt8} :
    bytes.toByteArray.IsValidUTF8 ↔ ∃ text, bytes = encode text := by
  constructor
  · rintro ⟨text, same⟩
    exact ⟨text, by simpa [List.utf8Encode, encode] using congrArg (·.data.toList) same⟩
  · rintro ⟨text, rfl⟩
    exact ⟨text, rfl⟩

theorem toNat_of_mem_encodeChar {c : Char} {byte : UInt8} (ascii : byte.toNat < 128)
    (member : byte ∈ String.utf8EncodeChar c) : c.toNat = byte.toNat := by
  have high (n : Nat) (marked : 128 ≤ n) (small : n < 256) : byte ≠ UInt8.ofNat n := by
    rintro rfl
    rw [UInt8.toNat_ofNat'] at ascii
    omega
  revert member
  fun_cases String.utf8EncodeChar <;> simp only [List.mem_cons, List.not_mem_nil, or_false]
  next code single =>
    rintro rfl
    rw [UInt8.toNat_ofNat']
    exact (Nat.mod_eq_of_lt (show code < 256 by omega)).symm
  next =>
    rintro (lead | rest)
    · exact absurd lead (high _ (by omega) (by omega))
    · exact absurd rest (high _ (by omega) (by omega))
  next =>
    rintro (lead | second | rest)
    · exact absurd lead (high _ (by omega) (by omega))
    · exact absurd second (high _ (by omega) (by omega))
    · exact absurd rest (high _ (by omega) (by omega))
  next =>
    rintro (lead | second | third | rest)
    · exact absurd lead (high _ (by omega) (by omega))
    · exact absurd second (high _ (by omega) (by omega))
    · exact absurd third (high _ (by omega) (by omega))
    · exact absurd rest (high _ (by omega) (by omega))

theorem mem_of_lineFeed_mem_encode {text : List Char} (member : 10 ∈ encode text) :
    '\n' ∈ text := by
  obtain ⟨c, held, byte⟩ := List.mem_flatMap.mp member
  have feed : c = '\n' := Char.toNat_inj.mp (toNat_of_mem_encodeChar (by decide) byte)
  exact feed ▸ held

theorem exists_encode_of_append_return {text : List Char} {line : List UInt8}
    (ends : line ++ [13] = encode text) : ∃ front, line = encode front := by
  rcases text.eq_nil_or_concat with rfl | ⟨front, c, rfl⟩
  · simp [encode] at ends
  · rw [List.concat_eq_append, encode_append] at ends
    have last : 13 = (String.utf8EncodeChar c).getLast String.utf8EncodeChar_ne_nil := by
      simpa [encode_singleton, List.getLast?_eq_some_getLast String.utf8EncodeChar_ne_nil]
        using congrArg List.getLast? ends
    have byte : 13 ∈ String.utf8EncodeChar c := last ▸ List.getLast_mem _
    have mark : c = '\r' := Char.toNat_inj.mp (toNat_of_mem_encodeChar (by decide) byte)
    rw [mark] at ends
    exact ⟨front, List.append_cancel_right ends⟩

theorem isValidUTF8_append_return {line : List UInt8} :
    (line ++ [13]).toByteArray.IsValidUTF8 ↔ line.toByteArray.IsValidUTF8 := by
  rw [isValidUTF8_iff, isValidUTF8_iff]
  constructor
  · rintro ⟨text, ends⟩
    exact exists_encode_of_append_return ends
  · rintro ⟨text, rfl⟩
    exact ⟨text ++ ['\r'], (encode_append_return text).symm⟩

theorem splitOn_encode (text : List Char) :
    (encode text).splitOn 10 = (text.splitOn '\n').map encode := by
  have solid : ∀ line ∈ (text.splitOn '\n').map encode, 10 ∉ line := by
    intro line member feed
    obtain ⟨piece, held, rfl⟩ := List.mem_map.mp member
    have kept := not_separates_of_mem held (mem_of_lineFeed_mem_encode feed)
    simp at kept
  have lines : encode text = [10].intercalate ((text.splitOn '\n').map encode) :=
    calc encode text
        = encode (['\n'].intercalate (text.splitOn '\n')) := by rw [List.intercalate_splitOn]
      _ = [10].intercalate ((text.splitOn '\n').map encode) := encode_intercalate '\n' _
  rw [lines]
  exact List.splitOn_intercalate 10 solid (by simp)

theorem exists_texts {lines : List (List UInt8)}
    (valid : ∀ line ∈ lines, line.toByteArray.IsValidUTF8) :
    ∃ texts, lines = List.map encode texts := by
  induction lines with
  | nil => exact ⟨[], rfl⟩
  | cons line rest ih =>
    obtain ⟨here, later⟩ := List.forall_mem_cons.mp valid
    obtain ⟨text, rfl⟩ := isValidUTF8_iff.mp here
    obtain ⟨texts, rfl⟩ := ih later
    exact ⟨text :: texts, rfl⟩

theorem isValidUTF8_of_splitOn {bytes : List UInt8}
    (valid : ∀ line ∈ bytes.splitOn 10, line.toByteArray.IsValidUTF8) :
    bytes.toByteArray.IsValidUTF8 := by
  obtain ⟨texts, lines⟩ := exists_texts valid
  refine isValidUTF8_iff.mpr ⟨['\n'].intercalate texts, ?_⟩
  rw [encode_intercalate, ← lines]
  exact (List.intercalate_splitOn 10).symm

theorem toByteArray_toList (bytes : ByteArray) : bytes.data.toList.toByteArray = bytes := by
  apply ByteArray.ext
  rw [List.data_toByteArray]

end OpenRisc.Text
