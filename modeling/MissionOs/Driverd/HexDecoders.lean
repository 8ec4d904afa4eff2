import MissionOs.Driverd.SignatureText
import MissionOs.Rust.Utf8

/-!
# The decoders of hexadecimal text

Besides `hex_decode` of `repository.rs` there is one in `verification.rs`, one in `metadata.rs`
and one in the module `hex_serde`.  These three take the bytes of a text in chunks of two and
read each as a number, so they take a `+` for a digit, too; and two of them read a chunk that
is no text as `00`.  `decodersAgree_iff` says for which texts this is seen.
-/

namespace MissionOs.Driverd

open MissionOs.Rust

/-! ## The decoders -/

/-- The digit loop of `u8::from_str_radix` for the radix 16. -/
def u8OfDigits : Nat → List Char → Option UInt8
  | acc, [] => some (UInt8.ofNat acc)
  | acc, c :: cs =>
    match hexValue c with
    | none => none
    | some d => if 256 ≤ 16 * acc + d then none else u8OfDigits (16 * acc + d) cs

/-- `u8::from_str_radix` for the radix 16. -/
def u8FromStrRadix16 : List Char → Option UInt8
  | [] => none
  | ['+'] => none
  | '+' :: digits => u8OfDigits 0 digits
  | digits => u8OfDigits 0 digits

/-- A chunk that is a text, as a number. -/
def readChunk (chunk : Bytes) : Option UInt8 := (fromUtf8 chunk).bind u8FromStrRadix16

/-- A chunk as a number, by `unwrap_or("00")` if it is no text. -/
def readChunkOrZeros (chunk : Bytes) : Option UInt8 :=
  u8FromStrRadix16 ((fromUtf8 chunk).getD ['0', '0'])

/-- `hex_decode` of `verification.rs`. -/
def Verification.hexDecode (input : String) : Option Bytes :=
  let input := asBytes (trim input.toList)
  if input.length % 2 ≠ 0 then none
  else
    let bytes := (chunksOfTwo input).filterMap readChunk
    if bytes.length = input.length / 2 then some bytes else none

/-- `hex_decode` of `metadata.rs`. -/
def Metadata.hexDecode (input : String) : ServiceResult Bytes :=
  let input := asBytes (trim input.toList)
  if input.length % 2 ≠ 0 then .error (.invalidArgument "hex string must have even length")
  else
    match (chunksOfTwo input).mapM readChunkOrZeros with
    | some bytes => .ok bytes
    | none => .error (.invalidArgument "invalid hex string")

namespace HexSerde

/-- `serialize` of `hex_serde`: the string that it hands to the serializer. -/
def serialize (bytes : Bytes) : String :=
  String.ofList (bytes.flatMap fun b =>
    [Nat.digitChar (b.toNat / 16), Nat.digitChar (b.toNat % 16)])

/-- `deserialize` of `hex_serde`, with the text of its error. -/
def deserialize (hex : String) : Except String Bytes :=
  let bytes := asBytes hex.toList
  if bytes.length % 2 ≠ 0 then .error "hex string must have even length"
  else
    match (chunksOfTwo bytes).mapM readChunkOrZeros with
    | some bytes => .ok bytes
    | none => .error "invalid hex character"

end HexSerde

/-! ## Chunks -/

/-- The chunk is two hexadecimal digits. -/
def HexPair (chunk : Bytes) : Prop :=
  ∃ a b, isHexDigit a = true ∧ isHexDigit b = true ∧ chunk = asBytes [a, b]

/-- The chunk is a `+` and a hexadecimal digit. -/
def SignedDigit (chunk : Bytes) : Prop :=
  ∃ b, isHexDigit b = true ∧ chunk = asBytes ['+', b]

/-- The chunk is no text: it begins or ends inside a character. -/
def NoText (chunk : Bytes) : Prop := fromUtf8 chunk = none

section Chunks

variable {a b c : Char} {byte : UInt8} {chunk : Bytes}

theorem isHexDigit_iff : isHexDigit c = true ↔ ∃ n, hexValue c = some n := by
  rw [isHexDigit, hexValue]
  split_ifs with hdigit hlower hupper
  · simp [hdigit]
  · simp only [Bool.and_eq_true, decide_eq_true_eq] at hlower
    simp [hlower]
  · simp only [Bool.and_eq_true, decide_eq_true_eq] at hupper
    simp [hupper]
  · simp_all

theorem hexValue_lt {n : Nat} (h : hexValue c = some n) : n < 16 := by
  rw [hexValue] at h
  split_ifs at h with hdigit hlower hupper
  · simp only [Char.isDigit, Bool.and_eq_true, decide_eq_true_eq] at hdigit
    have hle : c.toNat ≤ 57 := hdigit.2
    have hzero : '0'.toNat = 48 := rfl
    cases h
    omega
  · simp only [Bool.and_eq_true, decide_eq_true_eq] at hlower
    have hle : c.toNat ≤ 102 := hlower.2
    have ha : 'a'.toNat = 97 := rfl
    cases h
    omega
  · simp only [Bool.and_eq_true, decide_eq_true_eq] at hupper
    have hle : c.toNat ≤ 70 := hupper.2
    have ha : 'A'.toNat = 65 := rfl
    cases h
    omega

/-- Of two characters the number is read as in the other decoder. -/
theorem u8FromStrRadix16_pair (a b : Char) : u8FromStrRadix16 [a, b] = byteOfHex a b := by
  have hdigits : ∀ {d : Char}, hexValue d = none ∨ ∃ n, hexValue d = some n ∧ n < 16 := by
    intro d
    cases hd : hexValue d with
    | none => exact Or.inl rfl
    | some n => exact Or.inr ⟨n, rfl, hexValue_lt hd⟩
  rw [byteOfHex]
  split_ifs with hplus
  · subst hplus
    rw [u8FromStrRadix16]
    · rcases hdigits (d := b) with hb | ⟨n, hb, hlt⟩
      · simp [u8OfDigits, hb]
      · have hle : ¬256 ≤ n := by omega
        simp [u8OfDigits, hb, hle]
    · simp
  · rw [u8FromStrRadix16]
    · rcases hdigits (d := a) with ha | ⟨hi, ha, hlt⟩
      · simp [u8OfDigits, ha]
      · have hle : ¬256 ≤ hi := by omega
        rcases hdigits (d := b) with hb | ⟨lo, hb, hlt'⟩
        · simp [u8OfDigits, ha, hb, hle]
        · have hle' : ¬256 ≤ 16 * hi + lo := by omega
          simp [u8OfDigits, ha, hb, hle, hle']
    · simp
    · simp
    · simp [hplus]

theorem hexValue_of_singleton (h : u8FromStrRadix16 [c] = some byte) :
    ∃ n, hexValue c = some n := by
  by_cases hplus : c = '+'
  · subst hplus
    cases h
  · rw [u8FromStrRadix16] at h
    · cases hc : hexValue c with
      | none => simp [u8OfDigits, hc] at h
      | some n => exact ⟨n, rfl⟩
    · simp
    · simp [hplus]
    · simp [hplus]

/-- A chunk of two bytes that is read as a text is two characters. -/
theorem readChunk_eq_some_iff (hlength : chunk.length = 2) :
    readChunk chunk = some byte ↔ ∃ a b, byteOfHex a b = some byte ∧ chunk = asBytes [a, b] := by
  rw [readChunk, Option.bind_eq_some_iff]
  constructor
  · intro h
    obtain ⟨text, htext, hread⟩ := h
    rw [fromUtf8_eq_some_iff] at htext
    subst htext
    rw [length_asBytes] at hlength
    rcases text with _ | ⟨a, _ | ⟨b, _ | ⟨c, text⟩⟩⟩
    · cases hread
    · obtain ⟨n, hn⟩ := hexValue_of_singleton hread
      simp [utf8Size_of_hexValue hn] at hlength
    · rw [u8FromStrRadix16_pair] at hread
      exact ⟨a, b, hread, rfl⟩
    · have ha := a.utf8Size_pos
      have hb := b.utf8Size_pos
      have hc := c.utf8Size_pos
      simp only [List.map_cons, List.sum_cons] at hlength
      omega
  · intro h
    obtain ⟨a, b, hread, rfl⟩ := h
    exact ⟨[a, b], fromUtf8_eq_some_iff.mpr rfl, by rw [u8FromStrRadix16_pair, hread]⟩

theorem readChunkOrZeros_of_readChunk (h : readChunk chunk = some byte) :
    readChunkOrZeros chunk = some byte := by
  obtain ⟨text, htext, hread⟩ := Option.bind_eq_some_iff.mp h
  rw [readChunkOrZeros, htext]
  exact hread

/-- What is no text is read as zero, and every text as in the other decoder. -/
theorem readChunkOrZeros_cases (h : readChunkOrZeros chunk = some byte) :
    readChunk chunk = some byte ∨ NoText chunk := by
  cases htext : fromUtf8 chunk with
  | none => exact Or.inr htext
  | some text =>
      rw [readChunkOrZeros, htext] at h
      rw [readChunk, htext]
      exact Or.inl h

theorem readChunkOrZeros_of_noText (h : NoText chunk) : readChunkOrZeros chunk = some 0 := by
  rw [readChunkOrZeros, h]
  decide

/-- A pair that is read as a number is two digits, or a `+` and a digit. -/
theorem exists_byteOfHex_iff : (∃ byte, byteOfHex a b = some byte) ↔
    (a = '+' ∨ isHexDigit a = true) ∧ isHexDigit b = true := by
  have hplus : isHexDigit '+' = false := by decide
  rw [byteOfHex]
  split_ifs with ha
  · rw [isHexDigit_iff, isHexDigit_iff]
    cases hexValue b with
    | none => simp
    | some lo => simp [ha]
  · rw [isHexDigit_iff, isHexDigit_iff]
    cases hexValue a with
    | none => simp [ha]
    | some hi =>
        cases hexValue b with
        | none => simp
        | some lo => simp

theorem exists_readChunk_iff (hlength : chunk.length = 2) :
    (∃ byte, readChunk chunk = some byte) ↔ HexPair chunk ∨ SignedDigit chunk := by
  simp only [readChunk_eq_some_iff hlength]
  constructor
  · intro h
    obtain ⟨byte, a, b, hread, rfl⟩ := h
    obtain ⟨rfl | ha, hb⟩ := exists_byteOfHex_iff.mp ⟨byte, hread⟩
    · exact Or.inr ⟨b, hb, rfl⟩
    · exact Or.inl ⟨a, b, ha, hb, rfl⟩
  · intro h
    rcases h with ⟨a, b, ha, hb, rfl⟩ | ⟨b, hb, rfl⟩
    · obtain ⟨byte, hread⟩ := exists_byteOfHex_iff.mpr ⟨Or.inr ha, hb⟩
      exact ⟨byte, a, b, hread, rfl⟩
    · obtain ⟨byte, hread⟩ := exists_byteOfHex_iff.mpr ⟨Or.inl rfl, hb⟩
      exact ⟨byte, '+', b, hread, rfl⟩

theorem exists_readChunkOrZeros_iff (hlength : chunk.length = 2) :
    (∃ byte, readChunkOrZeros chunk = some byte) ↔
      HexPair chunk ∨ SignedDigit chunk ∨ NoText chunk := by
  rw [← or_assoc, ← exists_readChunk_iff hlength]
  constructor
  · intro h
    obtain ⟨byte, h⟩ := h
    exact (readChunkOrZeros_cases h).imp_left fun h => ⟨byte, h⟩
  · intro h
    rcases h with ⟨byte, h⟩ | h
    · exact ⟨byte, readChunkOrZeros_of_readChunk h⟩
    · exact ⟨0, readChunkOrZeros_of_noText h⟩

end Chunks

/-! ## Texts in chunks -/

section Texts

variable {text : List Char} {bytes : Bytes}

/-- In bytes of even number every chunk has two. -/
theorem length_of_mem_chunksOfTwo (heven : bytes.length % 2 = 0) :
    ∀ chunk ∈ chunksOfTwo bytes, chunk.length = 2 := by
  fun_induction chunksOfTwo bytes with
  | case1 => simp
  | case2 a => simp at heven
  | case3 a b rest ih =>
      rw [List.forall_mem_cons]
      refine ⟨rfl, ih ?_⟩
      rw [List.length_cons, List.length_cons] at heven
      omega

theorem length_chunksOfTwo (heven : bytes.length % 2 = 0) :
    (chunksOfTwo bytes).length = bytes.length / 2 := by
  fun_induction chunksOfTwo bytes with
  | case1 => rfl
  | case2 a => simp at heven
  | case3 a b rest ih =>
      rw [List.length_cons, List.length_cons] at heven
      rw [List.length_cons, ih (by omega), List.length_cons, List.length_cons]
      omega

/-- The bytes of two characters of one byte each are the first chunk. -/
theorem chunksOfTwo_asBytes {a b : Char} (ha : a.utf8Size = 1) (hb : b.utf8Size = 1)
    (text : List Char) :
    chunksOfTwo (asBytes (a :: b :: text)) = asBytes [a, b] :: chunksOfTwo (asBytes text) := by
  have hsplit : asBytes (a :: b :: text) = asBytes [a, b] ++ asBytes text :=
    asBytes_append [a, b] text
  have hlength : (asBytes [a, b]).length = 2 := by
    rw [length_asBytes]
    simp [ha, hb]
  obtain ⟨x, y, hpair⟩ := List.length_eq_two.mp hlength
  rw [hsplit, hpair]
  rfl

theorem even_asBytes_of_readsAs (h : ReadsAs text bytes) :
    (asBytes text).length % 2 = 0 := by
  rw [length_asBytes]
  exact even_of_readsAs h

theorem length_asBytes_of_byteOfHex {a b : Char} {byte : UInt8}
    (h : byteOfHex a b = some byte) : (asBytes [a, b]).length = 2 := by
  obtain ⟨ha, hb⟩ := utf8Size_of_byteOfHex h
  rw [length_asBytes]
  simp [ha, hb]

/-- The chunks of a text that is read are read one by one. -/
theorem mapM_readChunk_of_readsAs (h : ReadsAs text bytes) :
    (chunksOfTwo (asBytes text)).mapM readChunk = some bytes := by
  induction h with
  | nil => rfl
  | cons hpair _ ih =>
      obtain ⟨ha, hb⟩ := utf8Size_of_byteOfHex hpair
      have hread := (readChunk_eq_some_iff (length_asBytes_of_byteOfHex hpair)).mpr
        ⟨_, _, hpair, rfl⟩
      rw [chunksOfTwo_asBytes ha hb, List.mapM_cons, hread, ih]
      rfl

theorem readsAs_of_mapM_readChunk (heven : (asBytes text).length % 2 = 0)
    (h : (chunksOfTwo (asBytes text)).mapM readChunk = some bytes) : ReadsAs text bytes := by
  generalize hwhole : asBytes text = whole at heven h
  fun_induction chunksOfTwo whole generalizing text bytes with
  | case1 =>
      have htext : text = [] := asBytes_inj hwhole
      subst htext
      cases h
      exact .nil
  | case2 a => simp at heven
  | case3 x y rest ih =>
      rw [List.mapM_cons] at h
      obtain ⟨byte, hread, h⟩ := Option.bind_eq_some_iff.mp h
      obtain ⟨tail, htail, h⟩ := Option.bind_eq_some_iff.mp h
      cases h
      obtain ⟨a, b, hpair, hchunk⟩ := (readChunk_eq_some_iff rfl).mp hread
      -- The first two characters are those of the first chunk.
      have hfront : asBytes text =
          String.utf8EncodeChar a ++ (String.utf8EncodeChar b ++ rest) := by
        rw [hwhole, ← List.append_assoc]
        show [x, y] ++ rest = _
        rw [hchunk, asBytes_cons, asBytes_cons]
        simp [asBytes]
      obtain ⟨rest₁, htext, hrest₁⟩ := exists_cons_of_asBytes hfront
      obtain ⟨rest₂, hrest, hrest₂⟩ := exists_cons_of_asBytes hrest₁
      rw [List.length_cons, List.length_cons] at heven
      rw [htext, hrest]
      exact .cons hpair (ih hrest₂ (by omega) htail)

/-- What has a hexadecimal form is pairs of digits. -/
theorem hexPair_of_isHex (h : IsHex text bytes) :
    ∀ chunk ∈ chunksOfTwo (asBytes text), HexPair chunk := by
  induction h with
  | nil => simp [asBytes, chunksOfTwo]
  | cons ha hb _ ih =>
      rw [chunksOfTwo_asBytes (utf8Size_of_hexValue ha) (utf8Size_of_hexValue hb),
        List.forall_mem_cons]
      exact ⟨⟨_, _, isHexDigit_iff.mpr ⟨_, ha⟩, isHexDigit_iff.mpr ⟨_, hb⟩, rfl⟩, ih⟩

theorem isHex_of_readsAs (h : ReadsAs text bytes)
    (hpairs : ∀ chunk ∈ chunksOfTwo (asBytes text), HexPair chunk) : IsHex text bytes := by
  apply h.isHex
  induction h with
  | nil => simp
  | cons hpair _ ih =>
      obtain ⟨ha, hb⟩ := utf8Size_of_byteOfHex hpair
      rw [chunksOfTwo_asBytes ha hb, List.forall_mem_cons] at hpairs
      obtain ⟨⟨c, d, hc, hd, hsame⟩, hpairs⟩ := hpairs
      cases asBytes_inj hsame
      have hplus : isHexDigit '+' = false := by decide
      simp only [List.mem_cons, not_or]
      refine ⟨?_, ?_, ih hpairs⟩
      · intro heq
        subst heq
        rw [hplus] at hc
        cases hc
      · intro heq
        subst heq
        rw [hplus] at hd
        cases hd

end Texts

/-! ## What the decoders accept -/

/-- A text with an even number of bytes in which every chunk is read by `readChunkOrZeros`, but
some chunk is not two hexadecimal digits. -/
def Misread (text : List Char) : Prop :=
  (asBytes text).length % 2 = 0 ∧
    (∀ chunk ∈ chunksOfTwo (asBytes text),
      HexPair chunk ∨ SignedDigit chunk ∨ NoText chunk) ∧
    ∃ chunk ∈ chunksOfTwo (asBytes text), ¬HexPair chunk

section Decoders

variable {text : List Char} {s : String} {bytes : Bytes}

/-- A list is mapped by a partial function exactly if that is defined on each element. -/
theorem exists_mapM_iff {α β : Type} {f : α → Option β} {l : List α} :
    (∃ bs, l.mapM f = some bs) ↔ ∀ a ∈ l, ∃ b, f a = some b := by
  induction l with
  | nil => simp
  | cons a l ih =>
      rw [List.forall_mem_cons, ← ih]
      cases hfa : f a with
      | none => simp [List.mapM_cons, hfa]
      | some b =>
          cases hl : l.mapM f with
          | none => simp [List.mapM_cons, hfa, hl]
          | some bs => simp [List.mapM_cons, hfa, hl]

/-- Where a partial function has values, one that extends it has the same. -/
theorem mapM_eq_some_of_extends {α β : Type} {f g : α → Option β} {l : List α} {bs : List β}
    (hext : ∀ a ∈ l, ∀ b, f a = some b → g a = some b) (h : l.mapM f = some bs) :
    l.mapM g = some bs := by
  induction l generalizing bs with
  | nil => exact h
  | cons a l ih =>
      rw [List.forall_mem_cons] at hext
      rw [List.mapM_cons] at h
      obtain ⟨b, hb, h⟩ := Option.bind_eq_some_iff.mp h
      obtain ⟨tail, htail, h⟩ := Option.bind_eq_some_iff.mp h
      cases h
      rw [List.mapM_cons, hext.1 b hb, ih hext.2 htail]
      rfl

/-- Nothing is filtered out exactly if everything is mapped. -/
theorem filterMap_length_eq_iff {α β : Type} {f : α → Option β} {l : List α} {bs : List β} :
    (l.filterMap f).length = l.length ∧ l.filterMap f = bs ↔ l.mapM f = some bs := by
  induction l generalizing bs with
  | nil => simp
  | cons a l ih =>
      rw [List.mapM_cons]
      cases hfa : f a with
      | none =>
          have hle := List.length_filterMap_le f l
          rw [List.filterMap_cons_none hfa, List.length_cons]
          refine iff_of_false ?_ (by simp)
          omega
      | some b =>
          rw [List.filterMap_cons_some hfa, List.length_cons, List.length_cons,
            Nat.add_right_cancel_iff]
          constructor
          · intro h
            obtain ⟨hlength, rfl⟩ := h
            rw [ih.mp ⟨hlength, rfl⟩]
            rfl
          · intro h
            obtain ⟨b', hb, h⟩ := Option.bind_eq_some_iff.mp h
            obtain ⟨tail, htail, h⟩ := Option.bind_eq_some_iff.mp h
            cases hb
            cases h
            obtain ⟨hlength, hfilter⟩ := ih.mpr htail
            exact ⟨hlength, by rw [hfilter]⟩

/-- The chunks of a text that is read are read with zeros for what is no text, too. -/
theorem mapM_readChunkOrZeros_of_readsAs (h : ReadsAs text bytes) :
    (asBytes text).length % 2 = 0 ∧
      (chunksOfTwo (asBytes text)).mapM readChunkOrZeros = some bytes :=
  ⟨even_asBytes_of_readsAs h, mapM_eq_some_of_extends
    (fun _ _ _ hread => readChunkOrZeros_of_readChunk hread) (mapM_readChunk_of_readsAs h)⟩

/-- Reading chunk by chunk, with zeros for what is no text, gives what the text is the
hexadecimal form of exactly if the text is not misread. -/
theorem mapM_readChunkOrZeros_iff :
    (∀ bytes, (asBytes text).length % 2 = 0 ∧
        (chunksOfTwo (asBytes text)).mapM readChunkOrZeros = some bytes ↔ IsHex text bytes) ↔
      ¬Misread text := by
  constructor
  · intro h h'
    obtain ⟨heven, hread, chunk, hchunk, hnot⟩ := h'
    obtain ⟨bytes, hbytes⟩ := exists_mapM_iff.mpr fun chunk hchunk =>
      (exists_readChunkOrZeros_iff (length_of_mem_chunksOfTwo heven chunk hchunk)).mpr
        (hread chunk hchunk)
    exact hnot (hexPair_of_isHex ((h bytes).mp ⟨heven, hbytes⟩) chunk hchunk)
  · intro h bytes
    constructor
    · intro h
      obtain ⟨heven, hbytes⟩ := h
      have hlength := length_of_mem_chunksOfTwo heven
      have hpairs : ∀ chunk ∈ chunksOfTwo (asBytes text), HexPair chunk := by
        by_contra hnot
        simp only [not_forall] at hnot
        obtain ⟨chunk, hchunk, hnot⟩ := hnot
        refine h ⟨heven, fun chunk hchunk => ?_, chunk, hchunk, hnot⟩
        exact (exists_readChunkOrZeros_iff (hlength chunk hchunk)).mp
          (exists_mapM_iff.mp ⟨bytes, hbytes⟩ chunk hchunk)
      obtain ⟨bytes', hbytes'⟩ := exists_mapM_iff.mpr fun chunk hchunk =>
        (exists_readChunk_iff (hlength chunk hchunk)).mpr (Or.inl (hpairs chunk hchunk))
      have hsame := mapM_eq_some_of_extends
        (fun _ _ _ h => readChunkOrZeros_of_readChunk h) hbytes'
      rw [hbytes] at hsame
      cases hsame
      exact isHex_of_readsAs (readsAs_of_mapM_readChunk heven hbytes') hpairs
    · intro hhex
      exact mapM_readChunkOrZeros_of_readsAs hhex.readsAs

theorem metadata_hexDecode_eq_ok_iff : Metadata.hexDecode s = .ok bytes ↔
    (asBytes (trim s.toList)).length % 2 = 0 ∧
      (chunksOfTwo (asBytes (trim s.toList))).mapM readChunkOrZeros = some bytes := by
  rw [Metadata.hexDecode]
  split_ifs with hodd
  · simp [hodd]
  · rw [and_iff_right (not_not.mp hodd)]
    cases (chunksOfTwo (asBytes (trim s.toList))).mapM readChunkOrZeros with
    | none => simp
    | some decoded => simp

theorem deserialize_eq_ok_iff : HexSerde.deserialize s = .ok bytes ↔
    (asBytes s.toList).length % 2 = 0 ∧
      (chunksOfTwo (asBytes s.toList)).mapM readChunkOrZeros = some bytes := by
  rw [HexSerde.deserialize]
  split_ifs with hodd
  · simp [hodd]
  · rw [and_iff_right (not_not.mp hodd)]
    cases (chunksOfTwo (asBytes s.toList)).mapM readChunkOrZeros with
    | none => simp
    | some decoded => simp

theorem verification_hexDecode_eq_some_iff : Verification.hexDecode s = some bytes ↔
    (asBytes (trim s.toList)).length % 2 = 0 ∧ ReadsAs (trim s.toList) bytes := by
  rw [Verification.hexDecode]
  dsimp only
  split_ifs with hodd hall
  · simp [hodd]
  · have heven := not_not.mp hodd
    rw [← length_chunksOfTwo heven] at hall
    have hiff : ReadsAs (trim s.toList) bytes ↔
        (chunksOfTwo (asBytes (trim s.toList))).mapM readChunk = some bytes :=
      ⟨mapM_readChunk_of_readsAs, readsAs_of_mapM_readChunk heven⟩
    rw [and_iff_right heven, hiff, ← filterMap_length_eq_iff, and_iff_right hall,
      Option.some.injEq]
  · have heven := not_not.mp hodd
    rw [← length_chunksOfTwo heven] at hall
    refine iff_of_false (by simp) ?_
    intro h
    obtain ⟨-, hreads⟩ := h
    exact hall (filterMap_length_eq_iff.mpr (mapM_readChunk_of_readsAs hreads)).1

/-- A text that is not misread is read only if it is the hexadecimal form of something. -/
theorem readsAs_iff_isHex (h : ¬Misread text) : ReadsAs text bytes ↔ IsHex text bytes := by
  constructor
  · intro hreads
    exact (mapM_readChunkOrZeros_iff.mpr h bytes).mp (mapM_readChunkOrZeros_of_readsAs hreads)
  · exact IsHex.readsAs

end Decoders

/-- The decoders accept what is the hexadecimal form of some bytes, and nothing else, and return
these bytes; and the first one does not panic. -/
structure DecodersAgree (s : String) : Prop where
  no_panic : ∀ e, hexDecode s ≠ .error e
  repository : ∀ bytes, hexDecode s = .ok (some bytes) ↔ IsHex (trim s.toList) bytes
  verification : ∀ bytes, Verification.hexDecode s = some bytes ↔ IsHex (trim s.toList) bytes
  metadata : ∀ bytes, Metadata.hexDecode s = .ok bytes ↔ IsHex (trim s.toList) bytes
  serde : ∀ bytes, HexSerde.deserialize s = .ok bytes ↔ IsHex s.toList bytes

/-- A text is the hexadecimal form of some bytes exactly if it is an even number of hexadecimal
digits. -/
theorem exists_isHex_iff {text : List Char} : (∃ bytes, IsHex text bytes) ↔
    text.length % 2 = 0 ∧ ∀ c ∈ text, isHexDigit c = true := by
  constructor
  · intro h
    obtain ⟨bytes, h⟩ := h
    induction h with
    | nil => simp
    | cons ha hb _ ih =>
        rw [List.length_cons, List.length_cons, List.forall_mem_cons, List.forall_mem_cons]
        exact ⟨by omega, isHexDigit_iff.mpr ⟨_, ha⟩, isHexDigit_iff.mpr ⟨_, hb⟩, ih.2⟩
  · intro h
    obtain ⟨heven, hdigits⟩ := h
    obtain ⟨n, hn⟩ : ∃ n, text.length = 2 * n := ⟨text.length / 2, by omega⟩
    clear heven
    induction n generalizing text with
    | zero =>
        rw [List.length_eq_zero_iff.mp hn]
        exact ⟨[], .nil⟩
    | succ n ih =>
        rcases text with _ | ⟨a, _ | ⟨b, text⟩⟩
        · simp at hn
        · simp at hn
          omega
        · rw [List.forall_mem_cons, List.forall_mem_cons] at hdigits
          obtain ⟨hi, ha⟩ := isHexDigit_iff.mp hdigits.1
          obtain ⟨lo, hb⟩ := isHexDigit_iff.mp hdigits.2.1
          rw [List.length_cons, List.length_cons] at hn
          obtain ⟨bytes, h⟩ := ih hdigits.2.2 (by omega)
          exact ⟨_, .cons ha hb h⟩

/-- The decoders agree on a text exactly if it is misread neither trimmed nor as it is, and no
slice of it ends inside a character. -/
theorem decodersAgree_iff (s : String) : DecodersAgree s ↔
    ¬CutsCharacter (trim s.toList) ∧ ¬Misread (trim s.toList) ∧ ¬Misread s.toList := by
  constructor
  · intro h
    refine ⟨?_, ?_, ?_⟩
    · intro hcut
      exact h.no_panic .charBoundary (hexDecode_eq_error_iff.mpr hcut)
    · rw [← mapM_readChunkOrZeros_iff]
      intro bytes
      rw [← metadata_hexDecode_eq_ok_iff]
      exact h.metadata bytes
    · rw [← mapM_readChunkOrZeros_iff]
      intro bytes
      rw [← deserialize_eq_ok_iff]
      exact h.serde bytes
  · intro h
    obtain ⟨hcut, htrimmed, hwhole⟩ := h
    refine ⟨?_, ?_, ?_, ?_, ?_⟩
    · intro e he
      exact hcut (hexDecode_eq_error_iff.mp he)
    · intro bytes
      rw [hexDecode_eq_some_iff, readsAs_iff_isHex htrimmed]
    · intro bytes
      rw [verification_hexDecode_eq_some_iff, readsAs_iff_isHex htrimmed]
      exact and_iff_right_of_imp fun hhex => even_asBytes_of_readsAs hhex.readsAs
    · intro bytes
      rw [metadata_hexDecode_eq_ok_iff]
      exact mapM_readChunkOrZeros_iff.mpr htrimmed bytes
    · intro bytes
      rw [deserialize_eq_ok_iff]
      exact mapM_readChunkOrZeros_iff.mpr hwhole bytes

/-- A sign is taken for a digit. -/
theorem signed_digit_accepted : ¬ ∀ s : String, DecodersAgree s := by
  intro h
  have hhex := ((h "+5").repository [5]).mp (by decide)
  have hplus := hhex.not_mem_plus
  revert hplus
  decide

end MissionOs.Driverd
