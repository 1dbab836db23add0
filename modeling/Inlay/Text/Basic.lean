/-
This file fixes what a text is, how many bytes it takes and how a file stores it.

A text is a list of Unicode scalar values, so that every rule about lines, markers and quotes is a
rule about lists. A file holds bytes; `encode` and `decode?` are the two directions of UTF-8
between the two, and what the former stores the latter reads back. Nothing else in the library looks
at bytes of text.
-/

namespace Inlay

/-- A text is the sequence of its Unicode scalar values. -/
abbrev Text := List Char

namespace Text

/-- The bytes of a text in UTF-8. -/
def encode (text : Text) : ByteArray := (String.ofList text).toUTF8

/-- The number of bytes that a text takes in UTF-8. -/
def byteLength (text : Text) : Nat := (encode text).size

/-- The text that the bytes spell in UTF-8; none when they spell no text. -/
def decode? (bytes : ByteArray) : Option Text := (String.fromUTF8? bytes).map String.toList

/-! ### Storing a text and reading it back -/

theorem decode?_encode (text : Text) : decode? (encode text) = some text := by
  have valid : (encode text).IsValidUTF8 := (String.ofList text).isValidUTF8
  have reads : String.fromUTF8? (encode text) = some (String.ofList text) := dif_pos valid
  rw [decode?, reads, Option.map_some, String.toList_ofList]

/-! ### The length in bytes -/

theorem byteLength_cons (character : Char) (text : Text) :
    byteLength (character :: text) = character.utf8Size + byteLength text := by
  simp only [byteLength, encode, String.toUTF8_eq_toByteArray, String.size_toByteArray,
    String.ofList_cons, String.utf8ByteSize_append, String.utf8ByteSize_singleton]

theorem byteLength_append (front back : Text) :
    byteLength (front ++ back) = byteLength front + byteLength back := by
  simp only [byteLength, encode, String.toUTF8_eq_toByteArray, String.size_toByteArray,
    String.ofList_append, String.utf8ByteSize_append]

/-- A text takes at least one byte for each of its characters. -/
theorem length_le_byteLength (text : Text) : text.length ≤ byteLength text := by
  induction text with
  | nil => exact Nat.zero_le _
  | cons character text inductionHypothesis =>
    have positive : 0 < character.utf8Size := Char.utf8Size_pos character
    rw [List.length_cons, byteLength_cons]
    omega

end Text

end Inlay
