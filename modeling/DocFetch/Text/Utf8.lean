/-! # UTF-8

Decoding accepts exactly the encodings of texts.
-/

namespace DocFetch.Text

def encodeUtf8 (s : String) : ByteArray := s.toUTF8

def decodeUtf8? (b : ByteArray) : Option String := String.fromUTF8? b

theorem decodeUtf8?_encodeUtf8 (s : String) : decodeUtf8? (encodeUtf8 s) = some s := by
  have h : s.toByteArray.IsValidUTF8 := s.isValidUTF8
  simp [decodeUtf8?, encodeUtf8, String.fromUTF8?, h, String.fromUTF8]

theorem encodeUtf8_of_decodeUtf8? {b : ByteArray} {s : String} (h : decodeUtf8? b = some s) :
    encodeUtf8 s = b := by
  unfold decodeUtf8? String.fromUTF8? at h
  split at h
  · cases h
    rfl
  · cases h

theorem decodeUtf8?_eq_some_iff {b : ByteArray} {s : String} : decodeUtf8? b = some s ↔ encodeUtf8 s = b := by
  constructor
  · exact encodeUtf8_of_decodeUtf8?
  · intro h
    rw [← h]
    exact decodeUtf8?_encodeUtf8 s

theorem encodeUtf8_inj {s t : String} : encodeUtf8 s = encodeUtf8 t ↔ s = t := by
  rw [← decodeUtf8?_eq_some_iff, decodeUtf8?_encodeUtf8, Option.some_inj, eq_comm]

example : decodeUtf8? ⟨#[0xed, 0xa0, 0x80]⟩ = none := by decide +kernel

end DocFetch.Text
