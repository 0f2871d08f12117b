/-!
# Lines

Input is read in lines. A line goes up to its line feed, which belongs to it; what comes after the
last line feed is a line too, unless it is empty. Lines are cut before they are decoded, as bytes.

## Definitions

- `lines`: the lines of an input
- `decode`: the text that some bytes hold in UTF-8, if they do
- `encode`: the bytes of a text in UTF-8

## Main statements

- `flatten_lines`: the lines one after the other are the input
- `decode_encode`, `eq_encode_of_decode`: the bytes of a text hold that text, and no other bytes do
-/

namespace Macaque

/-! ## Lines -/

/-- The byte that ends a line -/
def lineFeed : UInt8 := 10

/-- The lines of an input, each with the line feed that ends it -/
def lines : List UInt8 → List (List UInt8)
  | [] => []
  | byte :: rest =>
    if byte = lineFeed then [byte] :: lines rest
    else
      match lines rest with
      | [] => [[byte]]
      | line :: later => (byte :: line) :: later

/-- Nothing is lost by cutting an input into lines. -/
theorem flatten_lines (bytes : List UInt8) : (lines bytes).flatten = bytes := by
  induction bytes with
  | nil => rfl
  | cons byte rest ih =>
    unfold lines
    split
    · simp [ih]
    · split
      · next h => simpa [h] using ih
      · next h => simpa [h] using ih

/-! ## Bytes and text -/

/-- The text that some bytes hold in UTF-8, if they do -/
def decode (bytes : List UInt8) : Option String :=
  String.fromUTF8? ⟨bytes.toArray⟩

/-- The bytes of a text in UTF-8 -/
def encode (text : String) : List UInt8 :=
  text.toUTF8.data.toList

theorem decode_encode (text : String) : decode (encode text) = some text := by
  have hbytes : (⟨(encode text).toArray⟩ : ByteArray) = text.toByteArray := by
    simp [encode]
  rw [decode, hbytes, String.fromUTF8?, dif_pos text.isValidUTF8]
  rfl

theorem eq_encode_of_decode {bytes : List UInt8} {text : String} (h : decode bytes = some text) :
    bytes = encode text := by
  unfold decode String.fromUTF8? at h
  split at h
  · obtain rfl := Option.some.inj h
    -- the text was built from the very bytes
    simp [encode, String.fromUTF8]
  · simp at h

end Macaque
