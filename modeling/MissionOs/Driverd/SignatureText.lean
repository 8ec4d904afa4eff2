import MissionOs.Driverd.ManifestBinding

/-!
# The texts of a signature and of its keys

A manifest comes with its signature as text, and a key of the configuration is text, too.
`IsHex` says which bytes a text stands for.  The decoder slices the text at every second byte,
so a slice may end inside a character, and it reads each slice as a number, so it also takes
a `+` for a digit (`ReadsAs`).  The audit event shows the first sixteen bytes of a key.

`checksFaithfully_iff` says for which texts none of this is seen.
-/

namespace MissionOs.Driverd

open MissionOs.Rust

/-! ## Hexadecimal texts -/

/-- The text is the hexadecimal form of the bytes. -/
inductive IsHex : List Char → Bytes → Prop
  | nil : IsHex [] []
  | cons {a b : Char} {hi lo : Nat} {text : List Char} {bytes : Bytes}
      (ha : hexValue a = some hi) (hb : hexValue b = some lo) (h : IsHex text bytes) :
      IsHex (a :: b :: text) (UInt8.ofNat (16 * hi + lo) :: bytes)

/-- The text in slices of two characters, each of which `u8::from_str_radix` reads. -/
inductive ReadsAs : List Char → Bytes → Prop
  | nil : ReadsAs [] []
  | cons {a b : Char} {byte : UInt8} {text : List Char} {bytes : Bytes}
      (hpair : byteOfHex a b = some byte) (h : ReadsAs text bytes) :
      ReadsAs (a :: b :: text) (byte :: bytes)

/-- The first two bytes of a text end inside a character. -/
def SliceCuts : List Char → Prop
  | [] => False
  | [c] => 2 < c.utf8Size
  | c :: d :: _ => 2 < c.utf8Size ∨ c.utf8Size = 1 ∧ 1 < d.utf8Size

/-- Some slice of a text ends inside a character, and every slice before it is read. -/
inductive ReachesCut : List Char → Prop
  | here {text : List Char} (h : SliceCuts text) : ReachesCut text
  | later {a b : Char} {byte : UInt8} {text : List Char} (hpair : byteOfHex a b = some byte)
      (h : ReachesCut text) : ReachesCut (a :: b :: text)

/-- A text with an even number of bytes, of which a slice ends inside a character. -/
def CutsCharacter (text : List Char) : Prop :=
  (text.map Char.utf8Size).sum % 2 = 0 ∧ ReachesCut text

section Texts

variable {a b c : Char} {byte : UInt8} {n : Nat} {text : List Char} {bytes : Bytes}

/-- A hexadecimal digit is one byte. -/
theorem utf8Size_of_hexValue (h : hexValue c = some n) : c.utf8Size = 1 := by
  have hle : c.val ≤ 'f'.val := by
    rw [hexValue] at h
    split_ifs at h with hdigit hlower hupper
    · simp only [Char.isDigit, Bool.and_eq_true, decide_eq_true_eq] at hdigit
      exact UInt32.le_trans hdigit.2 (by decide)
    · simp only [Bool.and_eq_true, decide_eq_true_eq] at hlower
      exact hlower.2
    · simp only [Bool.and_eq_true, decide_eq_true_eq] at hupper
      exact UInt32.le_trans hupper.2 (by decide)
  rw [Char.utf8Size_eq_one_iff]
  exact UInt32.le_trans hle (by decide)

theorem hexValue_plus : hexValue '+' = none := by decide

theorem utf8Size_of_byteOfHex (h : byteOfHex a b = some byte) :
    a.utf8Size = 1 ∧ b.utf8Size = 1 := by
  rw [byteOfHex] at h
  split_ifs at h with hplus
  · obtain ⟨lo, hlo, -⟩ := Option.map_eq_some_iff.mp h
    subst hplus
    exact ⟨by decide, utf8Size_of_hexValue hlo⟩
  · cases hhi : hexValue a with
    | none =>
        rw [hhi] at h
        cases h
    | some hi =>
        cases hlo : hexValue b with
        | none =>
            rw [hhi, hlo] at h
            cases h
        | some lo => exact ⟨utf8Size_of_hexValue hhi, utf8Size_of_hexValue hlo⟩

/-- What has a hexadecimal form is read from it. -/
theorem IsHex.readsAs (h : IsHex text bytes) : ReadsAs text bytes := by
  induction h with
  | nil => exact .nil
  | @cons a b hi lo text bytes ha hb _ ih =>
      have hne : a ≠ '+' := by
        intro heq
        subst heq
        rw [hexValue_plus] at ha
        cases ha
      refine .cons ?_ ih
      rw [byteOfHex, if_neg hne, ha, hb]
      rfl

theorem IsHex.not_mem_plus (h : IsHex text bytes) : '+' ∉ text := by
  induction h with
  | nil => simp
  | cons ha hb _ ih =>
      simp only [List.mem_cons, not_or]
      refine ⟨?_, ?_, ih⟩
      · intro heq
        subst heq
        rw [hexValue_plus] at ha
        cases ha
      · intro heq
        subst heq
        rw [hexValue_plus] at hb
        cases hb

/-- A text that is read and has no `+` is a hexadecimal form. -/
theorem ReadsAs.isHex (h : ReadsAs text bytes) (hplus : '+' ∉ text) : IsHex text bytes := by
  induction h with
  | nil => exact .nil
  | @cons a b byte text bytes hpair _ ih =>
      simp only [List.mem_cons, not_or] at hplus
      rw [byteOfHex, if_neg (Ne.symm hplus.1)] at hpair
      cases ha : hexValue a with
      | none =>
          rw [ha] at hpair
          cases hpair
      | some hi =>
          cases hb : hexValue b with
          | none =>
              rw [ha, hb] at hpair
              cases hpair
          | some lo =>
              rw [ha, hb] at hpair
              cases hpair
              exact .cons ha hb (ih hplus.2.2)

theorem ReadsAs.unique {bytes' : Bytes} (h : ReadsAs text bytes) (h' : ReadsAs text bytes') :
    bytes = bytes' := by
  induction h generalizing bytes' with
  | nil =>
      cases h'
      rfl
  | cons hpair _ ih =>
      cases h' with
      | cons hpair' h' =>
          rw [hpair] at hpair'
          cases hpair'
          rw [ih h']

/-- A text that is read has an even number of bytes. -/
theorem even_of_readsAs (h : ReadsAs text bytes) : (text.map Char.utf8Size).sum % 2 = 0 := by
  induction h with
  | nil => rfl
  | cons hpair _ ih =>
      obtain ⟨ha, hb⟩ := utf8Size_of_byteOfHex hpair
      rw [List.map_cons, List.map_cons, List.sum_cons, List.sum_cons, ha, hb]
      omega

/-! ## The decoder -/

theorem decodePairs_eq_some_iff :
    decodePairs text = .ok (some bytes) ↔ ReadsAs text bytes := by
  fun_induction decodePairs text generalizing bytes with
  | case1 =>
      constructor
      · intro h
        cases h
        exact .nil
      · intro h
        cases h
        rfl
  | case2 c => exact iff_of_false (fun h => nomatch h) (fun h => nomatch h)
  | case3 c => exact iff_of_false (fun h => nomatch h) (fun h => nomatch h)
  | case4 a b rest hsize =>
      refine iff_of_false (fun h => nomatch h) ?_
      intro hright
      rcases hright with _ | ⟨hpair, -⟩
      rw [(utf8Size_of_byteOfHex hpair).1] at hsize
      omega
  | case5 a b rest hsize hsizes =>
      refine iff_of_false (fun h => nomatch h) ?_
      intro hright
      rcases hright with _ | ⟨hpair, -⟩
      simp [utf8Size_of_byteOfHex hpair] at hsizes
  | case6 a b rest hsize hsizes hpair =>
      refine iff_of_false (fun h => nomatch h) ?_
      intro hright
      rcases hright with _ | ⟨hpair', -⟩
      rw [hpair] at hpair'
      cases hpair'
  | case7 a b rest hsize hsizes byte hpair ih =>
      constructor
      · intro h
        cases hrest : decodePairs rest with
        | error e =>
            rw [hrest] at h
            cases h
        | ok decoded =>
            cases decoded with
            | none =>
                rw [hrest] at h
                cases h
            | some tail =>
                rw [hrest] at h
                cases h
                exact .cons hpair (ih.mp hrest)
      · intro hright
        rcases hright with _ | ⟨hpair', h⟩
        rw [hpair] at hpair'
        cases hpair'
        rw [ih.mpr h]
        rfl

theorem utf8Size_cases (c : Char) :
    c.utf8Size = 1 ∨ c.utf8Size = 2 ∨ c.utf8Size = 3 ∨ c.utf8Size = 4 := by
  have hpos := c.utf8Size_pos
  have hle := c.utf8Size_le_four
  omega

theorem decodePairs_eq_error_iff {e : Panic} (heven : (text.map Char.utf8Size).sum % 2 = 0) :
    decodePairs text = .error e ↔ ReachesCut text := by
  cases e
  fun_induction decodePairs text with
  | case1 =>
      refine iff_of_false (fun h => nomatch h) ?_
      intro hright
      obtain ⟨h⟩ := hright
      exact h
  | case2 c hsize =>
      refine iff_of_false (fun h => nomatch h) ?_
      intro hright
      obtain ⟨h⟩ := hright
      have hcut : 2 < c.utf8Size := h
      omega
  | case3 c hsize =>
      refine iff_of_true rfl (.here ?_)
      have hsum : c.utf8Size % 2 = 0 := by simpa using heven
      have hpos := c.utf8Size_pos
      show 2 < c.utf8Size
      omega
  | case4 a b rest hsize =>
      refine iff_of_false (fun h => nomatch h) ?_
      intro hright
      rcases hright with hcut | ⟨hpair, -⟩
      · rcases hcut with hcut | ⟨hcut, -⟩ <;> omega
      · rw [(utf8Size_of_byteOfHex hpair).1] at hsize
        omega
  | case5 a b rest hsize hsizes =>
      refine iff_of_true rfl (.here ?_)
      have ha := utf8Size_cases a
      have hb := utf8Size_cases b
      simp only [ne_eq, Bool.or_eq_true, decide_eq_true_eq] at hsizes
      show 2 < a.utf8Size ∨ a.utf8Size = 1 ∧ 1 < b.utf8Size
      omega
  | case6 a b rest hsize hsizes hpair =>
      refine iff_of_false (fun h => nomatch h) ?_
      simp only [ne_eq, Bool.or_eq_true, decide_eq_true_eq, not_or, not_not] at hsizes
      intro hright
      rcases hright with hcut | ⟨hpair', -⟩
      · rcases hcut with hcut | ⟨-, hcut⟩ <;> omega
      · rw [hpair] at hpair'
        cases hpair'
  | case7 a b rest hsize hsizes byte hpair ih =>
      obtain ⟨ha, hb⟩ := utf8Size_of_byteOfHex hpair
      rw [List.map_cons, List.map_cons, List.sum_cons, List.sum_cons, ha, hb] at heven
      constructor
      · intro h
        refine .later hpair ((ih (by omega)).mp ?_)
        cases hrest : decodePairs rest with
        | error e => rfl
        | ok decoded =>
            rw [hrest] at h
            cases h
      · intro hright
        rcases hright with hcut | ⟨-, h⟩
        · rcases hcut with hcut | ⟨-, hcut⟩ <;> omega
        · rw [(ih (by omega)).mpr h]
          rfl

theorem hexDecode_eq_some_iff {s : String} :
    hexDecode s = .ok (some bytes) ↔ ReadsAs (trim s.toList) bytes := by
  rw [hexDecode, ← decodePairs_eq_some_iff]
  split_ifs with hodd
  · refine iff_of_false (fun h => nomatch h) fun h => hodd ?_
    exact even_of_readsAs (decodePairs_eq_some_iff.mp h)
  · rfl

theorem hexDecode_eq_error_iff {s : String} {e : Panic} :
    hexDecode s = .error e ↔ CutsCharacter (trim s.toList) := by
  rw [hexDecode, CutsCharacter]
  split_ifs with hodd
  · exact iff_of_false (fun h => nomatch h) fun h => hodd h.1
  · rw [decodePairs_eq_error_iff (not_not.mp hodd)]
    exact ⟨fun h => ⟨not_not.mp hodd, h⟩, And.right⟩

end Texts

/-! ## The text in the audit event -/

/-- The byte before which a text is cut stands inside a character. -/
def CutsAt (n : Nat) (text : List Char) : Prop :=
  ∃ pre c post, text = pre ++ c :: post ∧ (pre.map Char.utf8Size).sum < n ∧
    n < (pre.map Char.utf8Size).sum + c.utf8Size

theorem firstBytes_eq_error_iff {n : Nat} {text : List Char} {e : Panic} :
    firstBytes n text = .error e ↔ CutsAt n text := by
  cases e
  induction text generalizing n with
  | nil =>
      refine iff_of_false (fun h => nomatch h) ?_
      intro hright
      obtain ⟨pre, c, post, h, -⟩ := hright
      simp at h
  | cons c text ih =>
      have hhere : CutsAt n (c :: text) ↔
          0 < n ∧ n < c.utf8Size ∨ c.utf8Size < n ∧ CutsAt (n - c.utf8Size) text := by
        constructor
        · intro hright
          obtain ⟨pre, d, post, heq, hlow, hhigh⟩ := hright
          cases pre with
          | nil =>
              cases heq
              exact Or.inl ⟨hlow, by simpa using hhigh⟩
          | cons d' pre =>
              cases heq
              rw [List.map_cons, List.sum_cons] at hlow hhigh
              exact Or.inr ⟨by omega, pre, d, post, rfl, by omega, by omega⟩
        · intro hright
          rcases hright with ⟨hpos, hlt⟩ | ⟨hlt, pre, d, post, rfl, hlow, hhigh⟩
          · exact ⟨[], c, text, rfl, hpos, by simpa using hlt⟩
          · refine ⟨c :: pre, d, post, rfl, ?_, ?_⟩
            · rw [List.map_cons, List.sum_cons]
              omega
            · rw [List.map_cons, List.sum_cons]
              omega
      have hpos := c.utf8Size_pos
      rw [hhere, firstBytes]
      by_cases hzero : n = 0
      · rw [if_pos hzero]
        refine iff_of_false (fun h => nomatch h) ?_
        omega
      · rw [if_neg hzero]
        by_cases hcut : n < c.utf8Size
        · rw [if_pos hcut]
          exact iff_of_true rfl (Or.inl ⟨by omega, hcut⟩)
        · rw [if_neg hcut]
          have hmap : (firstBytes (n - c.utf8Size) text).map (c :: ·) = .error .charBoundary ↔
              firstBytes (n - c.utf8Size) text = .error .charBoundary := by
            cases firstBytes (n - c.utf8Size) text with
            | error e =>
                cases e
                exact iff_of_true rfl rfl
            | ok shown => exact iff_of_false (fun h => nomatch h) (fun h => nomatch h)
          rw [hmap, ih]
          constructor
          · intro h
            obtain ⟨pre, d, post, heq, hlow, hhigh⟩ := h
            exact Or.inr ⟨by omega, pre, d, post, heq, hlow, hhigh⟩
          · intro hright
            rcases hright with ⟨-, hlt⟩ | ⟨-, h⟩
            · exact absurd hlt hcut
            · exact h

/-! ## What is verified -/

/-- An element is the first of a list to have a property. -/
def IsFirst {α : Type} (P : α → Prop) (l : List α) (a : α) : Prop :=
  ∃ pre post, l = pre ++ a :: post ∧ (∀ b ∈ pre, ¬P b) ∧ P a

theorem exists_isFirst {α : Type} {P : α → Prop} {l : List α} {a : α} (hmem : a ∈ l)
    (ha : P a) : ∃ b, IsFirst P l b := by
  induction l with
  | nil => cases hmem
  | cons c l ih =>
      by_cases hc : P c
      · exact ⟨c, [], l, rfl, by simp, hc⟩
      · have hrest : a ∈ l := by
          rcases List.mem_cons.mp hmem with rfl | hrest
          · exact absurd ha hc
          · exact hrest
        obtain ⟨b, pre, post, rfl, hpre, hb⟩ := ih hrest
        exact ⟨b, c :: pre, post, rfl, List.forall_mem_cons.mpr ⟨hc, hpre⟩, hb⟩

theorem IsFirst.mem {α : Type} {P : α → Prop} {l : List α} {a : α} (h : IsFirst P l a) :
    a ∈ l := by
  obtain ⟨pre, post, rfl, -⟩ := h
  simp

theorem IsFirst.holds {α : Type} {P : α → Prop} {l : List α} {a : α} (h : IsFirst P l a) :
    P a := by
  obtain ⟨_, _, _, _, ha⟩ := h
  exact ha

theorem IsFirst.unique {α : Type} {P : α → Prop} {l : List α} {a b : α} (ha : IsFirst P l a)
    (hb : IsFirst P l b) : a = b := by
  obtain ⟨pre, post, rfl, hpre, hP⟩ := ha
  obtain ⟨pre', post', heq, hpre', hP'⟩ := hb
  induction pre generalizing pre' with
  | nil =>
      cases pre' with
      | nil => exact (List.cons.inj heq).1
      | cons c pre' =>
          rw [(List.cons.inj heq).1] at hP
          exact absurd hP (hpre' c List.mem_cons_self)
  | cons c pre ih =>
      cases pre' with
      | nil =>
          rw [← (List.cons.inj heq).1] at hP'
          exact absurd hP' (hpre c List.mem_cons_self)
      | cons c' pre' =>
          exact ih (fun b hb => hpre b (List.mem_cons_of_mem c hb)) pre' (List.cons.inj heq).2
            fun b hb => hpre' b (List.mem_cons_of_mem c' hb)

/-- Bytes are an Ed25519 key under which a signature of a message is good. -/
structure GoodKey (env : Env) (message signature key : Bytes) : Prop where
  length : key.length = 32
  isVerifyingKey : env.isVerifyingKey key = true
  good : env.ed25519Verify key message signature = true

/-- A trusted key is the hexadecimal form of a good key. -/
def Genuine (env : Env) (message signature : Bytes) (keyHex : String) : Prop :=
  ∃ key, IsHex (trim keyHex.toList) key ∧ GoodKey env message signature key

/-- A trusted key is the first that is genuine, and the signature is the hexadecimal form of
64 bytes. -/
def VerifiedBy (env : Env) (message : Bytes) (signatureHex : String) (trustedKeys : List String)
    (keyHex : String) : Prop :=
  ∃ signature, IsHex (trim signatureHex.toList) signature ∧ signature.length = 64 ∧
    IsFirst (Genuine env message signature) trustedKeys keyHex

/-- Both functions return, and find the manifest verified by a key exactly if it is. -/
def ChecksFaithfully (env : Env) (message : Bytes) (signatureHex : String)
    (trustedKeys : List String) : Prop :=
  ∃ result, verifyManifestSignature env message signatureHex trustedKeys = .ok result ∧
    (∀ subject repositoryId, ∃ events, verifyManifestSignatureAudited env message signatureHex
      trustedKeys subject repositoryId = .ok (result, events)) ∧
    ∀ keyHex, result = .verified keyHex ↔
      VerifiedBy env message signatureHex trustedKeys keyHex

/-- A trusted key is read as a good key. -/
def TakenAsGenuine (env : Env) (message signature : Bytes) (keyHex : String) : Prop :=
  ∃ key, ReadsAs (trim keyHex.toList) key ∧ GoodKey env message signature key

/-- No text that is looked at is cut inside a character, and the key that is found and the
signature have no `+`. -/
def PlainTexts (env : Env) (message : Bytes) (signatureHex : String)
    (trustedKeys : List String) : Prop :=
  ¬CutsCharacter (trim signatureHex.toList) ∧
    ∀ signature, ReadsAs (trim signatureHex.toList) signature → signature.length = 64 →
      ∀ pre keyHex post, trustedKeys = pre ++ keyHex :: post →
        (∀ other ∈ pre, ¬TakenAsGenuine env message signature other) →
        ¬CutsCharacter (trim keyHex.toList) ∧
          (TakenAsGenuine env message signature keyHex →
            '+' ∉ trim signatureHex.toList ∧ '+' ∉ trim keyHex.toList ∧
              ¬CutsAt 16 keyHex.toList)

section Verification

variable {env : Env} {message signature : Bytes} {signatureHex keyHex : String}
  {trustedKeys : List String}

theorem verify_eq_valid_iff {key : Bytes} (hlength : signature.length = 64) :
    (key.length = 32 ∧ verify env key message signature = .ok .valid) ↔
      GoodKey env message signature key := by
  constructor
  · intro h
    obtain ⟨hkey, hverify⟩ := h
    rw [verify, if_neg (not_not.mpr hkey), if_neg (not_not.mpr hlength)] at hverify
    split_ifs at hverify with hvalid hgood
    · exact ⟨hkey, by simpa using hvalid, hgood⟩
    · cases hverify
  · intro h
    obtain ⟨hkey, hvalid, hgood⟩ := h
    refine ⟨hkey, ?_⟩
    rw [verify, if_neg (not_not.mpr hkey), if_neg (not_not.mpr hlength), hvalid, hgood]
    rfl

theorem keyVerifies_iff (hlength : signature.length = 64) :
    KeyVerifies env message signature keyHex ↔ TakenAsGenuine env message signature keyHex := by
  simp only [KeyVerifies, TakenAsGenuine, hexDecode_eq_some_iff, verify_eq_valid_iff hlength]

theorem Genuine.taken (h : Genuine env message signature keyHex) :
    TakenAsGenuine env message signature keyHex := by
  obtain ⟨key, hhex, hgood⟩ := h
  exact ⟨key, hhex.readsAs, hgood⟩

theorem TakenAsGenuine.genuine (h : TakenAsGenuine env message signature keyHex)
    (hplus : '+' ∉ trim keyHex.toList) : Genuine env message signature keyHex := by
  obtain ⟨key, hread, hgood⟩ := h
  exact ⟨key, hread.isHex hplus, hgood⟩

/-- Keys that are not taken are passed over, or end the search in a panic. -/
theorem tryKeys_append (hlength : signature.length = 64) {pre rest : List String}
    (hpre : ∀ other ∈ pre, ¬TakenAsGenuine env message signature other) :
    (∃ e, tryKeys env message signature (pre ++ rest) = .error e) ∨
      tryKeys env message signature (pre ++ rest) = tryKeys env message signature rest := by
  induction pre with
  | nil => exact Or.inr rfl
  | cons other pre ih =>
      rw [List.forall_mem_cons, ← keyVerifies_iff hlength] at hpre
      cases hdecoded : hexDecode other with
      | error e =>
          left
          refine ⟨e, ?_⟩
          rw [List.cons_append, tryKeys, hdecoded]
          rfl
      | ok decoded =>
          rw [List.cons_append, tryKeys_cons_of_not_verifies hpre.1 hdecoded]
          exact ih hpre.2

/-- The search ends in a panic only at a key that is cut. -/
theorem tryKeys_ok (hlength : signature.length = 64)
    (hcuts : ∀ pre keyHex post, trustedKeys = pre ++ keyHex :: post →
      (∀ other ∈ pre, ¬TakenAsGenuine env message signature other) →
      ¬CutsCharacter (trim keyHex.toList)) :
    ∃ found, tryKeys env message signature trustedKeys = .ok found ∧
      ∀ keyHex, found = some keyHex ↔
        IsFirst (TakenAsGenuine env message signature) trustedKeys keyHex := by
  induction trustedKeys with
  | nil =>
      refine ⟨none, rfl, fun keyHex => iff_of_false (Option.some_ne_none keyHex).symm ?_⟩
      intro h
      obtain ⟨pre, post, hkeys, -⟩ := h
      simp at hkeys
  | cons key rest ih =>
      by_cases hkey : TakenAsGenuine env message signature key
      · refine ⟨some key, tryKeys_cons_of_verifies ((keyVerifies_iff hlength).mpr hkey), ?_⟩
        have hfirst : IsFirst (TakenAsGenuine env message signature) (key :: rest) key :=
          ⟨[], rest, rfl, by simp, hkey⟩
        intro keyHex
        constructor
        · intro h
          cases h
          exact hfirst
        · intro h
          rw [hfirst.unique h]
      · obtain ⟨decoded, hdecoded⟩ : ∃ decoded, hexDecode key = .ok decoded := by
          cases hdecoded : hexDecode key with
          | error e =>
              exact absurd (hexDecode_eq_error_iff.mp hdecoded) (hcuts [] key rest rfl (by simp))
          | ok decoded => exact ⟨decoded, rfl⟩
        obtain ⟨found, hfound, hiff⟩ := ih fun pre keyHex post hrest hpre =>
          hcuts (key :: pre) keyHex post (by rw [hrest]; rfl)
            (List.forall_mem_cons.mpr ⟨hkey, hpre⟩)
        refine ⟨found, ?_, fun keyHex => ?_⟩
        · rw [tryKeys_cons_of_not_verifies (mt (keyVerifies_iff hlength).mp hkey) hdecoded]
          exact hfound
        · rw [hiff]
          constructor
          · intro hright
            obtain ⟨pre, post, hrest, hpre, hgood⟩ := hright
            exact ⟨key :: pre, post, by rw [hrest]; rfl,
              List.forall_mem_cons.mpr ⟨hkey, hpre⟩, hgood⟩
          · intro hright
            obtain ⟨pre, post, hkeys, hpre, hgood⟩ := hright
            cases pre with
            | nil =>
                rw [← (List.cons.inj hkeys).1] at hgood
                exact absurd hgood hkey
            | cons other pre =>
                exact ⟨pre, post, (List.cons.inj hkeys).2,
                  fun b hb => hpre b (List.mem_cons_of_mem other hb), hgood⟩

/-- The audit event of a result can be written unless it cuts the key. -/
theorem audited_iff {result : ManifestVerification}
    (hresult : verifyManifestSignature env message signatureHex trustedKeys = .ok result) :
    (∀ subject repositoryId, ∃ events, verifyManifestSignatureAudited env message signatureHex
        trustedKeys subject repositoryId = .ok (result, events)) ↔
      ∀ keyHex, result = .verified keyHex → ¬CutsAt 16 keyHex.toList := by
  simp only [verifyManifestSignatureAudited, hresult, bind, Except.bind]
  cases result with
  | verified key =>
      cases hshown : firstBytes 16 key.toList with
      | error e =>
          refine iff_of_false (fun h => ?_) fun h => ?_
          · obtain ⟨events, hevents⟩ := h "" ""
            simp only [hshown] at hevents
            cases hevents
          · exact h key rfl (firstBytes_eq_error_iff.mp hshown)
      | ok shown =>
          refine iff_of_true (fun _ _ => ?_) ?_
          · simp only [hshown]
            exact ⟨_, rfl⟩
          · intro keyHex hresult hcuts
            cases hresult
            have herror := (firstBytes_eq_error_iff (e := .charBoundary)).mpr hcuts
            rw [hshown] at herror
            cases herror
  | invalidSignature msg =>
      refine iff_of_true (fun _ _ => ⟨_, rfl⟩) fun keyHex h => ?_
      cases h
  | unknownKey msg =>
      refine iff_of_true (fun _ _ => ⟨_, rfl⟩) fun keyHex h => ?_
      cases h
  | unverified =>
      refine iff_of_true (fun _ _ => ⟨_, rfl⟩) fun keyHex h => ?_
      cases h

/-- A signature that is not read as 64 bytes is refused. -/
theorem verify_of_no_signature {decoded : Option Bytes}
    (hdecoded : hexDecode signatureHex = .ok decoded)
    (hlength : ∀ signature, decoded = some signature → signature.length ≠ 64) :
    ∃ msg, verifyManifestSignature env message signatureHex trustedKeys =
      .ok (.invalidSignature msg) := by
  cases decoded with
  | none =>
      simp only [verifyManifestSignature, hdecoded, bind, Except.bind]
      exact ⟨_, rfl⟩
  | some signature =>
      simp only [verifyManifestSignature, hdecoded, bind, Except.bind]
      rw [if_pos (hlength signature rfl)]
      exact ⟨_, rfl⟩

/-- A signature of 64 bytes is tried with the keys. -/
theorem verify_of_found (hdecoded : hexDecode signatureHex = .ok (some signature))
    (hlength : signature.length = 64) {found : Option String}
    (hfound : tryKeys env message signature trustedKeys = .ok found) :
    ∃ result, verifyManifestSignature env message signatureHex trustedKeys = .ok result ∧
      ∀ keyHex, result = .verified keyHex ↔ found = some keyHex := by
  simp only [verifyManifestSignature, hdecoded, hfound, bind, Except.bind, pure, Except.pure]
  rw [if_neg (not_not.mpr hlength)]
  cases found with
  | none =>
      dsimp only
      split_ifs
      · refine ⟨_, rfl, fun keyHex => ?_⟩
        simp only [reduceCtorEq]
      · refine ⟨_, rfl, fun keyHex => ?_⟩
        simp only [reduceCtorEq]
  | some key =>
      refine ⟨_, rfl, fun keyHex => ?_⟩
      rw [ManifestVerification.verified.injEq, Option.some.injEq]

theorem verify_of_error {e : Panic} (hdecoded : hexDecode signatureHex = .ok (some signature))
    (hlength : signature.length = 64)
    (hfound : tryKeys env message signature trustedKeys = .error e) :
    verifyManifestSignature env message signatureHex trustedKeys = .error e := by
  simp only [verifyManifestSignature, hdecoded, hfound, bind, Except.bind, pure, Except.pure]
  rw [if_neg (not_not.mpr hlength)]

theorem checksFaithfully_of_plain (h : PlainTexts env message signatureHex trustedKeys) :
    ChecksFaithfully env message signatureHex trustedKeys := by
  obtain ⟨hcut, hkeys⟩ := h
  have hno : ∀ {msg : String},
      verifyManifestSignature env message signatureHex trustedKeys =
        .ok (.invalidSignature msg) →
      (∀ signature, IsHex (trim signatureHex.toList) signature → signature.length ≠ 64) →
      ChecksFaithfully env message signatureHex trustedKeys := by
    intro msg hresult hlength
    refine ⟨_, hresult, (audited_iff hresult).mpr fun keyHex h => ?_, fun keyHex => ?_⟩
    · cases h
    · rw [iff_false_left ManifestVerification.noConfusion]
      intro hright
      obtain ⟨signature, hhex, h64, -⟩ := hright
      exact hlength signature hhex h64
  cases hdecoded : hexDecode signatureHex with
  | error e => exact absurd (hexDecode_eq_error_iff.mp hdecoded) hcut
  | ok decoded =>
      by_cases hlength : ∃ signature, decoded = some signature ∧ signature.length = 64
      · obtain ⟨signature, rfl, hlength⟩ := hlength
        have hreads := hexDecode_eq_some_iff.mp hdecoded
        have hplain := hkeys signature hreads hlength
        obtain ⟨found, hfound, hfirst⟩ := tryKeys_ok hlength fun pre keyHex post heq hpre =>
          (hplain pre keyHex post heq hpre).1
        obtain ⟨result, hresult, hverified⟩ := verify_of_found hdecoded hlength hfound
        have hiff : ∀ keyHex, result = .verified keyHex ↔
            IsFirst (TakenAsGenuine env message signature) trustedKeys keyHex := fun keyHex =>
          (hverified keyHex).trans (hfirst keyHex)
        refine ⟨result, hresult, (audited_iff hresult).mpr ?_, fun keyHex => ?_⟩
        · intro keyHex hkey
          obtain ⟨pre, post, heq, hpre, htaken⟩ := (hiff keyHex).mp hkey
          exact ((hplain pre keyHex post heq hpre).2 htaken).2.2
        · rw [hiff]
          constructor
          · intro hright
            obtain ⟨pre, post, heq, hpre, htaken⟩ := hright
            obtain ⟨hsignature, hkey, -⟩ := (hplain pre keyHex post heq hpre).2 htaken
            exact ⟨signature, hreads.isHex hsignature, hlength, pre, post, heq,
              fun other hother hgenuine => hpre other hother hgenuine.taken,
              htaken.genuine hkey⟩
          · intro hright
            obtain ⟨signature', hhex, -, hfirst⟩ := hright
            cases hreads.unique hhex.readsAs
            -- the first key that is taken is genuine, so it is the first genuine key
            obtain ⟨key, htaken⟩ := exists_isFirst hfirst.mem hfirst.holds.taken
            obtain ⟨pre, post, heq, hpre, hkey⟩ := htaken
            have hgenuine := hkey.genuine ((hplain pre key post heq hpre).2 hkey).2.1
            have hsame : keyHex = key := hfirst.unique ⟨pre, post, heq,
              fun other hother h => hpre other hother h.taken, hgenuine⟩
            exact hsame ▸ ⟨pre, post, heq, hpre, hkey⟩
      · obtain ⟨msg, hresult⟩ : ∃ msg, verifyManifestSignature env message signatureHex
            trustedKeys = .ok (.invalidSignature msg) :=
          verify_of_no_signature hdecoded fun signature hsome h64 =>
            hlength ⟨signature, hsome, h64⟩
        refine hno hresult fun signature hhex h64 => hlength ⟨signature, ?_, h64⟩
        have hsome := hexDecode_eq_some_iff.mpr hhex.readsAs
        rw [hdecoded] at hsome
        exact Except.ok.inj hsome

theorem plain_of_checksFaithfully (h : ChecksFaithfully env message signatureHex trustedKeys) :
    PlainTexts env message signatureHex trustedKeys := by
  obtain ⟨result, hresult, haudited, hiff⟩ := h
  have hreturns : ∀ e, verifyManifestSignature env message signatureHex trustedKeys ≠
      .error e := by
    intro e herror
    rw [hresult] at herror
    cases herror
  constructor
  · intro hcut
    have hdecoded := (hexDecode_eq_error_iff (e := .charBoundary)).mpr hcut
    refine hreturns .charBoundary ?_
    simp only [verifyManifestSignature, hdecoded, bind, Except.bind]
  · intro signature hreads hlength pre keyHex post heq hpre
    subst heq
    have hdecoded := hexDecode_eq_some_iff.mpr hreads
    have hsearch : tryKeys env message signature (pre ++ keyHex :: post) =
        tryKeys env message signature (keyHex :: post) := by
      rcases tryKeys_append hlength hpre with ⟨e, herror⟩ | hsearch
      · exact absurd (verify_of_error hdecoded hlength herror) (hreturns e)
      · exact hsearch
    constructor
    · intro hcut
      have hkey := (hexDecode_eq_error_iff (e := .charBoundary)).mpr hcut
      refine hreturns .charBoundary (verify_of_error hdecoded hlength ?_)
      rw [hsearch, tryKeys, hkey]
      rfl
    · intro htaken
      have hfound : tryKeys env message signature (keyHex :: post) = .ok (some keyHex) :=
        tryKeys_cons_of_verifies ((keyVerifies_iff hlength).mpr htaken)
      obtain ⟨result', hresult', hverified⟩ := verify_of_found hdecoded hlength
        (hsearch.trans hfound)
      cases hresult.symm.trans hresult'
      have hresultKey : result = .verified keyHex := (hverified keyHex).mpr rfl
      obtain ⟨signature', hhex, -, hfirst⟩ := (hiff keyHex).mp hresultKey
      obtain ⟨key, hkeyHex, -⟩ := hfirst.holds
      exact ⟨hhex.not_mem_plus, hkeyHex.not_mem_plus,
        (audited_iff hresult).mp haudited keyHex hresultKey⟩

end Verification

/-- Both functions return and judge a manifest by its signature exactly if the texts that they
look at are plain. -/
theorem checksFaithfully_iff (env : Env) (message : Bytes) (signatureHex : String)
    (trustedKeys : List String) :
    ChecksFaithfully env message signatureHex trustedKeys ↔
      PlainTexts env message signatureHex trustedKeys := by
  constructor
  · exact plain_of_checksFaithfully
  · exact checksFaithfully_of_plain

/-- A signature of one digit and a character of three bytes is sliced inside the character. -/
theorem euro_signature_panics :
    ¬∀ env message signatureHex trustedKeys,
      ChecksFaithfully env message signatureHex trustedKeys := by
  intro h
  obtain ⟨hcut, -⟩ := plain_of_checksFaithfully (h .smooth [] "1€" [])
  exact hcut ⟨by decide, .here (Or.inr ⟨by decide, by decide⟩)⟩

end MissionOs.Driverd
