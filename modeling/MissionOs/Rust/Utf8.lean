import MissionOs.Rust.Text

/-!
# Texts as bytes

`str::as_bytes` and `str::from_utf8` by the characters of a text, and the chunks of two bytes
in which hexadecimal text is decoded.
-/

namespace MissionOs.Rust

/-- `str::as_bytes`. -/
def asBytes (text : List Char) : Bytes := text.flatMap String.utf8EncodeChar

/-- `str::from_utf8`. -/
def fromUtf8 (bytes : Bytes) : Option (List Char) :=
  (String.fromUTF8? bytes.toByteArray).map String.toList

/-- `slice::chunks(2)`. -/
def chunksOfTwo : Bytes → List Bytes
  | [] => []
  | [a] => [[a]]
  | a :: b :: rest => [a, b] :: chunksOfTwo rest

section Encode

variable {text rest : List Char} {bytes : Bytes} {c : Char}

theorem asBytes_cons (c : Char) (text : List Char) :
    asBytes (c :: text) = String.utf8EncodeChar c ++ asBytes text := List.flatMap_cons

theorem asBytes_append (text rest : List Char) :
    asBytes (text ++ rest) = asBytes text ++ asBytes rest := List.flatMap_append

theorem length_asBytes (text : List Char) :
    (asBytes text).length = (text.map Char.utf8Size).sum := by
  induction text with
  | nil => rfl
  | cons c text ih =>
      rw [asBytes_cons, List.length_append, String.length_utf8EncodeChar, ih, List.map_cons,
        List.sum_cons]

theorem toByteArray_asBytes (text : List Char) :
    (asBytes text).toByteArray = text.utf8Encode := rfl

/-- The bytes of a text are those of no other. -/
theorem asBytes_inj (h : asBytes text = asBytes rest) : text = rest := by
  have hlists : String.ofList text = String.ofList rest := by
    rw [← String.toByteArray_inj]
    show text.utf8Encode = rest.utf8Encode
    rw [← toByteArray_asBytes, ← toByteArray_asBytes, h]
  exact String.ofList_injective hlists

/-- Bytes are a text exactly if they are the bytes of that text. -/
theorem fromUtf8_eq_some_iff : fromUtf8 bytes = some text ↔ asBytes text = bytes := by
  rw [← List.toByteArray_inj, toByteArray_asBytes, fromUtf8, String.fromUTF8?]
  constructor
  · intro h
    split at h
    · rename_i hvalid
      rw [Option.map_some, Option.some.injEq] at h
      rw [← h, String.utf8Encode_toList]
      rfl
    · cases h
  · intro h
    have hvalid : bytes.toByteArray.IsValidUTF8 := ⟨text, h.symm⟩
    have htext : String.fromUTF8 bytes.toByteArray hvalid = String.ofList text := by
      rw [← String.toByteArray_inj]
      exact h.symm
    rw [dif_pos hvalid, htext, Option.map_some, String.toList_ofList]

/-- A text whose bytes begin with those of a character begins with it. -/
theorem exists_cons_of_asBytes (h : asBytes text = String.utf8EncodeChar c ++ bytes) :
    ∃ rest, text = c :: rest ∧ asBytes rest = bytes := by
  cases text with
  | nil => exact absurd (List.append_eq_nil_iff.mp h.symm).1 String.utf8EncodeChar_ne_nil
  | cons d rest =>
      rw [asBytes_cons] at h
      have hfirst : ByteArray.utf8DecodeChar?
          (String.utf8EncodeChar d ++ asBytes rest).toByteArray 0 = some d := by
        rw [List.toByteArray_append]
        exact ByteArray.utf8DecodeChar?_utf8EncodeChar_append
      rw [h, List.toByteArray_append, ByteArray.utf8DecodeChar?_utf8EncodeChar_append,
        Option.some.injEq] at hfirst
      subst hfirst
      exact ⟨rest, rfl, List.append_cancel_left h⟩

end Encode

end MissionOs.Rust
