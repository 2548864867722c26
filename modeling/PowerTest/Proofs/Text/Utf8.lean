import PowerTest.Proofs.Text.Lines
import PowerTest.Text.Encoding

/-!
# Lines of encoded texts

In the bytes of a text a newline or a carriage return stands only where the text has one, so the
lines of the bytes are the bytes of the lines.
-/

namespace PowerTest.Text

/-- The bytes of characters. -/
def encodeChars (characters : List Char) : Bytes :=
  characters.flatMap String.utf8EncodeChar

theorem encode_eq (text : String) : encode text = encodeChars text.toList := by
  rw [encode, String.toUTF8_eq_toByteArray, ← String.utf8Encode_toList, List.utf8Encode]
  simp [encodeChars]

theorem encodeChars_append (first second : List Char) :
    encodeChars (first ++ second) = encodeChars first ++ encodeChars second :=
  List.flatMap_append

theorem utf8ByteSize_of_single {text : String}
    (single : ∀ character ∈ text.toList, character.utf8Size = 1) :
    text.utf8ByteSize = text.toList.length := by
  have sizes : text.utf8ByteSize = (text.toList.map Char.utf8Size).sum := by
    change text.toByteArray.size = _
    rw [← String.utf8Encode_toList, List.utf8Encode]
    simp [List.length_flatMap]
  rw [sizes, List.map_congr_left single, List.map_const', List.sum_replicate_nat, Nat.mul_one]

theorem ne_ofNat_of_small {byte : UInt8} {value : Nat} (small : byte.toNat < 128)
    (large : 128 ≤ value) (bounded : value < 256) : byte ≠ UInt8.ofNat value := by
  rintro rfl
  rw [UInt8.toNat_ofNat', Nat.mod_eq_of_lt bounded] at small
  omega

/-- A byte below 128 stands for a character of its own. -/
theorem utf8EncodeChar_of_mem {character : Char} {byte : UInt8} (small : byte.toNat < 128)
    (member : byte ∈ String.utf8EncodeChar character) :
    character.toNat = byte.toNat ∧ String.utf8EncodeChar character = [byte] := by
  have large {value : Nat} (least : 128 ≤ value) (greatest : value < 256) :
      byte ≠ UInt8.ofNat value := ne_ofNat_of_small small least greatest
  simp only [String.utf8EncodeChar] at member ⊢
  split at member
  · rename_i single
    rw [if_pos single]
    obtain rfl := List.mem_singleton.mp member
    refine ⟨?_, rfl⟩
    rw [UInt8.toNat_ofNat', Nat.mod_eq_of_lt (by omega)]
    rfl
  · exfalso
    split at member <;> (try split at member) <;>
      simp only [List.mem_cons, List.not_mem_nil, or_false] at member
    · rcases member with found | found <;> exact large (by omega) (by omega) found
    · rcases member with found | found | found <;> exact large (by omega) (by omega) found
    · rcases member with found | found | found | found <;> exact large (by omega) (by omega) found

/-- A byte below 128 stands in encoded characters where its character stands. -/
theorem mem_encodeChars_iff {characters : List Char} {byte : UInt8} {character : Char}
    (small : byte.toNat < 128) (same : character.toNat = byte.toNat)
    (alone : String.utf8EncodeChar character = [byte]) :
    byte ∈ encodeChars characters ↔ character ∈ characters := by
  rw [encodeChars, List.mem_flatMap]
  constructor
  · rintro ⟨other, member, within⟩
    obtain ⟨value, _⟩ := utf8EncodeChar_of_mem small within
    rwa [Char.toNat_inj.mp (same.trans value.symm)]
  · intro member
    exact ⟨character, member, by rw [alone]; exact List.mem_singleton_self byte⟩

/-- Encoded characters lose a byte below 128 where the characters lose its character. -/
theorem filter_encodeChars {byte : UInt8} {character : Char} (small : byte.toNat < 128)
    (same : character.toNat = byte.toNat) (alone : String.utf8EncodeChar character = [byte])
    (characters : List Char) :
    (encodeChars characters).filter (· ≠ byte) = encodeChars (characters.filter (· ≠ character)) := by
  induction characters with
  | nil => rfl
  | cons first rest ih =>
    have split : encodeChars (first :: rest) = String.utf8EncodeChar first ++ encodeChars rest :=
      List.flatMap_cons
    rw [split, List.filter_append, ih]
    by_cases lost : first = character
    · subst lost
      rw [alone]
      simp
    · have kept : ∀ other ∈ String.utf8EncodeChar first, decide (other ≠ byte) = true := by
        intro other member
        refine decide_eq_true ?_
        rintro rfl
        obtain ⟨value, _⟩ := utf8EncodeChar_of_mem small member
        exact lost (Char.toNat_inj.mp (value.trans same.symm))
      have stays : (first :: rest).filter (· ≠ character) =
          first :: rest.filter (· ≠ character) := List.filter_cons_of_pos (decide_eq_true lost)
      rw [List.filter_eq_self.mpr kept, stays]
      rfl

theorem newline_mem_encodeChars {characters : List Char} :
    10 ∈ encodeChars characters ↔ '\n' ∈ characters :=
  mem_encodeChars_iff (by decide) rfl rfl

theorem encodeChars_ne_nil {characters : List Char} (some : characters ≠ []) :
    encodeChars characters ≠ [] := by
  obtain ⟨first, rest, rfl⟩ := List.exists_cons_of_ne_nil some
  exact List.append_ne_nil_of_left_ne_nil String.utf8EncodeChar_ne_nil _

/-- Encoded characters lose the byte of a carriage return where the characters lose one. -/
theorem dropEnd_encodeChars (characters : List Char) :
    dropEnd 13 (encodeChars characters) = encodeChars (dropEnd '\r' characters) := by
  by_cases ended : characters.getLast? = some '\r'
  · obtain ⟨front, rfl⟩ := List.getLast?_eq_some_iff.mp ended
    rw [encodeChars_append, dropEnd_concat]
    exact dropEnd_concat _ _
  · rw [dropEnd_of_getLast?_ne ended, dropEnd_of_getLast?_ne]
    intro final
    rcases List.eq_nil_or_concat characters with rfl | ⟨front, last, rfl⟩
    · cases final
    · have tail : String.utf8EncodeChar last ≠ [] := String.utf8EncodeChar_ne_nil
      rw [List.concat_eq_append, encodeChars_append, List.getLast?_append,
        show encodeChars [last] = String.utf8EncodeChar last from List.append_nil _,
        Option.or_of_isSome (List.getLast?_isSome.mpr tail)] at final
      obtain ⟨value, _⟩ := utf8EncodeChar_of_mem (by decide) (List.mem_of_getLast? final)
      have same : last = '\r' := Char.toNat_inj.mp value
      exact ended (by rw [same, List.concat_eq_append, List.getLast?_concat])

theorem isLines_encodeChars {characters : List Char} {found : List (List Char)}
    (isLines : IsLines '\n' '\r' characters found) :
    IsLines 10 13 (encodeChars characters) (found.map encodeChars) := by
  induction isLines with
  | none => exact .none
  | unended some whole =>
    exact .unended (encodeChars_ne_nil some) (mt newline_mem_encodeChars.mp whole)
  | ended whole _ ih =>
    rw [encodeChars_append, List.map_cons, ← dropEnd_encodeChars]
    exact .ended (mt newline_mem_encodeChars.mp whole) ih

/-- The lines of an encoded text are its encoded lines. -/
theorem lines_encode (text : String) :
    lines 10 13 (encode text) = (textLines text).map encode := by
  rw [encode_eq, (isLines_encodeChars (isLines_lines '\n' '\r' text.toList)).eq_lines, textLines,
    List.map_map]
  refine List.map_congr_left fun line _ => ?_
  rw [Function.comp_apply, encode_eq, String.toList_ofList]

end PowerTest.Text
