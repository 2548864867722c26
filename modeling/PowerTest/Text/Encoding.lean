/-!
# Text and its bytes

Files hold bytes, rules speak of text. Text is written as UTF-8, and bytes are read as text only
when the whole sequence is UTF-8: `decode?_eq_some_iff` says that reading accepts exactly what
writing produces.
-/

namespace PowerTest

/-- The content of a file. -/
abbrev Bytes := List UInt8

namespace Text

/-- The bytes that spell a text. -/
def encode (text : String) : Bytes :=
  text.toUTF8.data.toList

/-- The text that bytes spell, if they spell one. -/
def decode? (bytes : Bytes) : Option String :=
  String.fromUTF8? ⟨bytes.toArray⟩

/-- Reading accepts exactly what writing produces. -/
theorem decode?_eq_some_iff {bytes : Bytes} {text : String} :
    decode? bytes = some text ↔ bytes = encode text := by
  unfold decode? encode String.fromUTF8?
  constructor
  · intro read
    split at read
    · rename_i valid
      have same : String.fromUTF8 ⟨bytes.toArray⟩ valid = text := Option.some.inj read
      have content : text.toUTF8 = ⟨bytes.toArray⟩ := by rw [← same]; rfl
      rw [content]
    · exact absurd read (by simp)
  · intro written
    have content : (⟨bytes.toArray⟩ : ByteArray) = text.toByteArray := by
      rw [written]; rfl
    rw [content]
    simp [text.isValidUTF8, String.fromUTF8]

@[simp] theorem decode?_encode (text : String) : decode? (encode text) = some text :=
  decode?_eq_some_iff.mpr rfl

@[simp] theorem encode_append (first second : String) :
    encode (first ++ second) = encode first ++ encode second := by
  simp [encode, String.toUTF8, String.toByteArray_append]

@[simp] theorem encode_empty : encode "" = [] := rfl

end Text

end PowerTest
