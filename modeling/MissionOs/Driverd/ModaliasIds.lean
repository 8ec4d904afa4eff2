import MissionOs.Driverd.Hwdetect
import MissionOs.Driverd.SignatureText

/-!
# The ids in a modalias

The extractors look for a short pattern, and take the four bytes behind the place where it
first stands.  The patterns are those of a PCI modalias, and after them those of a USB
modalias; in the device release of a USB modalias, however, the PCI pattern `d0000` can stand
too.

`extractsIds_iff` says which texts both extractors read without a panic and, if they are
modaliases, to the ids in them.
-/

namespace MissionOs.Driverd

open MissionOs.Rust

/-! ## The modaliases of the kernel -/

/-- A digit of `%X`. -/
def upperHexDigit (n : Nat) : Char := (Nat.digitChar (n % 16)).toUpper

/-- A number in hexadecimal, as `%0wX` prints the numbers below 16^w. -/
def hexField : Nat → Nat → List Char
  | 0, _ => []
  | width + 1, n => hexField width (n / 16) ++ [upperHexDigit n]

/-- The fields of a PCI modalias. -/
structure PciModalias where
  vendor : UInt16
  device : UInt16
  subvendor : UInt32
  subdevice : UInt32
  baseClass : UInt8
  subClass : UInt8
  interface : UInt8
deriving DecidableEq, Repr

/-- The text `pci:v0000VVVVd0000DDDDsv…sd…bc…sc…i…`. -/
def PciModalias.text (m : PciModalias) : List Char :=
  "pci:".toList ++ ("v0000".toList ++ (hexField 4 m.vendor.toNat ++
    ("d0000".toList ++ (hexField 4 m.device.toNat ++
      ("sv".toList ++ hexField 8 m.subvendor.toNat ++
        "sd".toList ++ hexField 8 m.subdevice.toNat ++
        "bc".toList ++ hexField 2 m.baseClass.toNat ++
        "sc".toList ++ hexField 2 m.subClass.toNat ++
        "i".toList ++ hexField 2 m.interface.toNat)))))

/-- The fields of a USB modalias. -/
structure UsbModalias where
  vendor : UInt16
  product : UInt16
  bcdDevice : UInt16
  deviceClass : UInt8
  deviceSubClass : UInt8
  deviceProtocol : UInt8
  interfaceClass : UInt8
  interfaceSubClass : UInt8
  interfaceProtocol : UInt8
  interfaceNumber : UInt8
deriving DecidableEq, Repr

/-- The text of a USB modalias behind the device release. -/
def UsbModalias.classes (m : UsbModalias) : List Char :=
  "dc".toList ++ hexField 2 m.deviceClass.toNat ++
    "dsc".toList ++ hexField 2 m.deviceSubClass.toNat ++
    "dp".toList ++ hexField 2 m.deviceProtocol.toNat ++
    "ic".toList ++ hexField 2 m.interfaceClass.toNat ++
    "isc".toList ++ hexField 2 m.interfaceSubClass.toNat ++
    "ip".toList ++ hexField 2 m.interfaceProtocol.toNat ++
    "in".toList ++ hexField 2 m.interfaceNumber.toNat

/-- The text `usb:vVVVVpPPPPd<bcdDevice>dc…`. -/
def UsbModalias.text (m : UsbModalias) : List Char :=
  "usb:".toList ++ ('v' :: (hexField 4 m.vendor.toNat ++
    ('p' :: (hexField 4 m.product.toNat ++
      ('d' :: (hexField 4 m.bcdDevice.toNat ++ m.classes))))))

/-- The form in which the extractors return an id. -/
def idText (id : UInt16) : String := "0x" ++ String.ofList (hexField 4 id.toNat)

/-! ## Hexadecimal fields -/

/-- What holds of the sixteen digits holds of every character of a field. -/
theorem forall_mem_hexField {P : Char → Prop} (h : ∀ n < 16, P (upperHexDigit n)) (width n : Nat) :
    ∀ c ∈ hexField width n, P c := by
  induction width generalizing n with
  | zero => simp [hexField]
  | succ width ih =>
      intro c hc
      rcases List.mem_append.mp hc with hc | hc
      · exact ih (n / 16) c hc
      · rw [List.mem_singleton.mp hc]
        have hdigit := h (n % 16) (Nat.mod_lt n (by decide))
        rwa [upperHexDigit, Nat.mod_mod] at hdigit

@[simp] theorem length_hexField (width n : Nat) : (hexField width n).length = width := by
  induction width generalizing n with
  | zero => rfl
  | succ width ih => rw [hexField, List.length_append, ih, List.length_singleton]

theorem utf8Size_of_mem_hexField {width n : Nat} :
    ∀ c ∈ hexField width n, c.utf8Size = 1 :=
  forall_mem_hexField (by decide) width n

theorem isAsciiHexdigit_of_mem_hexField {width n : Nat} :
    ∀ c ∈ hexField width n, isAsciiHexdigit c = true :=
  forall_mem_hexField (by decide) width n

/-- A small letter does not stand in a field. -/
theorem not_mem_hexField {width n : Nat} {c : Char} (h : c ∈ "vdps".toList) :
    c ∉ hexField width n := by
  intro hmem
  have hne : ∀ d ∈ hexField width n, d ∉ "vdps".toList :=
    forall_mem_hexField (by decide) width n
  exact hne c hmem h

/-- Only zero is printed with zeros alone. -/
theorem eq_zero_of_hexField {width n : Nat} (hlt : n < 16 ^ width)
    (h : hexField width n = List.replicate width '0') : n = 0 := by
  induction width generalizing n with
  | zero =>
      rw [Nat.pow_zero] at hlt
      omega
  | succ width ih =>
      rw [hexField, List.replicate_succ'] at h
      obtain ⟨hhigh, hlow⟩ := List.append_inj h (by simp)
      have hdigit : ∀ k < 16, upperHexDigit k = '0' → k = 0 := by decide
      have hmod : n % 16 = 0 := by
        apply hdigit (n % 16) (Nat.mod_lt n (by decide))
        rw [upperHexDigit, Nat.mod_mod]
        exact (List.cons.inj hlow).1
      have hdiv : n / 16 = 0 := by
        apply ih _ hhigh
        rw [Nat.pow_succ] at hlt
        exact Nat.div_lt_of_lt_mul (by omega)
      omega

/-! ## Where a pattern first stands -/

section FromFirst

variable {c : Char} {pattern pre s : List Char}

theorem fromFirst_append (pattern post : List Char) :
    fromFirst pattern (pattern ++ post) = some (pattern ++ post) := by
  have hbegin : pattern.isPrefixOf (pattern ++ post) = true :=
    List.isPrefixOf_iff_prefix.mpr (List.prefix_append _ _)
  rw [fromFirst]
  cases hs : pattern ++ post with
  | nil =>
      rw [hs] at hbegin
      show [[]].find? pattern.isPrefixOf = some []
      rw [List.find?_cons, hbegin]
  | cons c rest =>
      rw [hs] at hbegin
      rw [List.tails_cons, List.find?_cons, hbegin]

/-- What is found begins with the pattern. -/
theorem exists_of_fromFirst {rest : List Char} (h : fromFirst pattern s = some rest) :
    ∃ post, rest = pattern ++ post := by
  obtain ⟨post, hpost⟩ := List.isPrefixOf_iff_prefix.mp (List.find?_some h)
  exact ⟨post, hpost.symm⟩

theorem fromFirst_cons_of_ne (h : ¬ pattern <+: c :: s) :
    fromFirst pattern (c :: s) = fromFirst pattern s := by
  have hnot : pattern.isPrefixOf (c :: s) = false := by
    rw [Bool.eq_false_iff, ne_eq, List.isPrefixOf_iff_prefix]
    exact h
  rw [fromFirst, List.tails_cons, List.find?_cons, hnot]
  rfl

/-- A pattern does not begin where its first character does not stand. -/
theorem fromFirst_append_of_not_mem (h : c ∉ pre) :
    fromFirst (c :: pattern) (pre ++ s) = fromFirst (c :: pattern) s := by
  induction pre with
  | nil => rfl
  | cons d pre ih =>
      rw [List.mem_cons, not_or] at h
      obtain ⟨hd, hpre⟩ := h
      rw [List.cons_append, fromFirst_cons_of_ne, ih hpre]
      intro hbegin
      exact hd (List.cons_prefix_cons.mp hbegin).1

theorem fromFirst_eq_none_of_not_mem (h : c ∉ s) : fromFirst (c :: pattern) s = none := by
  have hskip := @fromFirst_append_of_not_mem c pattern s [] h
  rw [List.append_nil] at hskip
  rw [hskip]
  rfl

end FromFirst

/-! ## Four bytes of a text -/

/-- The number of bytes of a text. -/
def textBytes (s : List Char) : Nat := (s.map Char.utf8Size).sum

theorem byteLen_ofList (s : List Char) : byteLen (String.ofList s) = textBytes s := by
  rw [byteLen, String.toList_ofList, textBytes]

theorem lt_textBytes_of_cutsAt {n : Nat} {s : List Char} (h : CutsAt n s) : n < textBytes s := by
  obtain ⟨pre, c, post, rfl, -, hlt⟩ := h
  rw [textBytes, List.map_append, List.sum_append, List.map_cons, List.sum_cons]
  omega

/-- The first bytes of a text whose first characters are one byte each. -/
theorem firstBytes_append {word : List Char} (hword : ∀ c ∈ word, c.utf8Size = 1)
    (rest : List Char) : firstBytes word.length (word ++ rest) = .ok word := by
  induction word with
  | nil => cases rest <;> rfl
  | cons c word ih =>
      obtain ⟨hc, hword⟩ := List.forall_mem_cons.mp hword
      rw [List.cons_append, List.length_cons, firstBytes, hc, if_neg (by omega),
        if_neg (by omega), Nat.add_sub_cancel, ih hword]
      rfl

theorem textBytes_append {word : List Char} (hword : ∀ c ∈ word, c.utf8Size = 1)
    (rest : List Char) : textBytes (word ++ rest) = word.length + textBytes rest := by
  induction word with
  | nil => simp [textBytes]
  | cons c word ih =>
      obtain ⟨hc, hword⟩ := List.forall_mem_cons.mp hword
      have hcons : textBytes (c :: word ++ rest) = c.utf8Size + textBytes (word ++ rest) := by
        rw [textBytes, List.cons_append, List.map_cons, List.sum_cons, textBytes]
      rw [hcons, ih hword, hc, List.length_cons]
      omega

theorem firstBytes_hexField (n : Nat) (rest : List Char) :
    firstBytes 4 (hexField 4 n ++ rest) = .ok (hexField 4 n) := by
  have h := firstBytes_append (@utf8Size_of_mem_hexField 4 n) rest
  rwa [length_hexField] at h

theorem hexId_hexField (n : Nat) (rest : List Char) :
    hexId (hexField 4 n ++ rest) = .ok (some ("0x" ++ String.ofList (hexField 4 n))) := by
  have hall : (hexField 4 n).all isAsciiHexdigit = true :=
    List.all_eq_true.mpr isAsciiHexdigit_of_mem_hexField
  rw [hexId, firstBytes_hexField]
  show Except.ok (if (hexField 4 n).all isAsciiHexdigit then _ else _) = _
  rw [hall, if_pos rfl]

theorem four_le_textBytes_hexField (n : Nat) (rest : List Char) :
    4 ≤ textBytes (hexField 4 n ++ rest) := by
  rw [textBytes_append utf8Size_of_mem_hexField, length_hexField]
  omega

theorem hexId_eq_error_iff {s : List Char} {e : Panic} :
    hexId s = .error e ↔ CutsAt 4 s := by
  rw [hexId, ← firstBytes_eq_error_iff (e := e)]
  cases firstBytes 4 s with
  | error e' =>
      cases e
      cases e'
      exact iff_of_true rfl rfl
  | ok id => exact iff_of_false (fun h => nomatch h) (fun h => nomatch h)

/-! ## The extractors -/

/-- The id behind a letter, for which both extractors look if the PCI pattern is not there. -/
def shortId (letter : Char) (modalias : List Char) : Panics (Option String) :=
  match fromFirst [letter] modalias with
  | some rest =>
    if 4 ≤ byteLen (String.ofList (rest.drop 1)) then hexId (rest.drop 1) else return none
  | none => return none

section Extract

variable {s post : List Char}

theorem extractVendor_of_none (h : fromFirst "v0000".toList s = none) :
    extractVendorFromModalias s = shortId 'v' s := by
  rw [extractVendorFromModalias, h]
  rfl

theorem extractDevice_of_none (h : fromFirst "d0000".toList s = none) :
    extractDeviceFromModalias s = shortId 'p' s := by
  rw [extractDeviceFromModalias, h]
  rfl

theorem nine_le_byteLen_iff {long : List Char} (hlong : ∀ c ∈ long, c.utf8Size = 1)
    (hlength : long.length = 5) :
    9 ≤ byteLen (String.ofList (long ++ post)) ↔ 4 ≤ textBytes post := by
  rw [byteLen_ofList, textBytes_append hlong, hlength]
  omega

theorem extractVendor_of_long (h : fromFirst "v0000".toList s = some ("v0000".toList ++ post)) :
    extractVendorFromModalias s =
      if 4 ≤ textBytes post then do
        let vendor ← hexId post
        return some (vendor.getD "0x0000")
      else .ok (some "0x0000") := by
  have hbytes : 9 ≤ byteLen (String.ofList ("v0000".toList ++ post)) ↔ 4 ≤ textBytes post :=
    nine_le_byteLen_iff (by simp; decide) rfl
  rw [extractVendorFromModalias, h]
  show (if 9 ≤ byteLen (String.ofList ("v0000".toList ++ post)) then _ else _) = _
  by_cases hlong : 4 ≤ textBytes post
  · rw [if_pos (hbytes.mpr hlong), if_pos hlong]
    rfl
  · rw [if_neg (mt hbytes.mp hlong), if_neg hlong]
    rfl

theorem extractDevice_of_long (h : fromFirst "d0000".toList s = some ("d0000".toList ++ post)) :
    extractDeviceFromModalias s =
      if 4 ≤ textBytes post then do
        let device ← firstBytes 4 post
        return some ("0x" ++ String.ofList device)
      else .ok none := by
  have hbytes : 9 ≤ byteLen (String.ofList ("d0000".toList ++ post)) ↔ 4 ≤ textBytes post :=
    nine_le_byteLen_iff (by simp; decide) rfl
  rw [extractDeviceFromModalias, h]
  show (if 9 ≤ byteLen (String.ofList ("d0000".toList ++ post)) then _ else _) = _
  by_cases hlong : 4 ≤ textBytes post
  · rw [if_pos (hbytes.mpr hlong), if_pos hlong]
    rfl
  · rw [if_neg (mt hbytes.mp hlong), if_neg hlong]
    rfl

theorem shortId_of_some {letter : Char} (h : fromFirst [letter] s = some ([letter] ++ post)) :
    shortId letter s = if 4 ≤ textBytes post then hexId post else .ok none := by
  rw [shortId, h]
  show (if 4 ≤ byteLen (String.ofList post) then hexId post else _) = _
  rw [byteLen_ofList]
  rfl

/-! ## Panics -/

/-- The fourth byte behind the place where an extractor looks stands inside a character. -/
def CutsId (long short s : List Char) : Prop :=
  ∃ post, CutsAt 4 post ∧
    (fromFirst long s = some (long ++ post) ∨
      fromFirst long s = none ∧ fromFirst short s = some (short ++ post))

theorem if_textBytes_eq_error_iff {α : Type} {x : Panics α} {e : Panic} {a : α}
    (hx : x = .error e ↔ CutsAt 4 post) :
    (if 4 ≤ textBytes post then x else .ok a) = .error e ↔ CutsAt 4 post := by
  by_cases hlong : 4 ≤ textBytes post
  · rw [if_pos hlong, hx]
  · rw [if_neg hlong]
    refine iff_of_false (fun h => nomatch h) ?_
    intro hcuts
    have hlt := lt_textBytes_of_cutsAt hcuts
    omega

theorem bind_pure_eq_error_iff {α β : Type} {x : Panics α} {f : α → β} {e : Panic} :
    (do let a ← x; return f a) = .error e ↔ x = .error e := by
  cases x with
  | error e' =>
      cases e
      cases e'
      exact iff_of_true rfl rfl
  | ok a => exact iff_of_false (fun h => nomatch h) (fun h => nomatch h)

theorem shortId_eq_error_iff {letter : Char} {e : Panic} :
    shortId letter s = .error e ↔
      ∃ post, CutsAt 4 post ∧ fromFirst [letter] s = some ([letter] ++ post) := by
  cases hfind : fromFirst [letter] s with
  | none =>
      rw [shortId, hfind]
      refine iff_of_false (fun h => nomatch h) ?_
      intro h
      obtain ⟨post, -, h⟩ := h
      cases h
  | some rest =>
      obtain ⟨post, rfl⟩ := exists_of_fromFirst hfind
      rw [shortId_of_some hfind, if_textBytes_eq_error_iff hexId_eq_error_iff]
      constructor
      · intro h
        exact ⟨post, h, rfl⟩
      · intro h
        obtain ⟨post', hcuts, heq⟩ := h
        rwa [List.append_cancel_left (Option.some.inj heq)]

/-- An extractor panics exactly if it cuts a character, whatever it does with the four bytes. -/
theorem eq_error_iff_cutsId {long : List Char} {letter : Char} {e : Panic}
    {result : Panics (Option String)}
    (hlong : ∀ post, fromFirst long s = some (long ++ post) →
      (result = .error e ↔ CutsAt 4 post))
    (hshort : fromFirst long s = none → result = shortId letter s) :
    result = .error e ↔ CutsId long [letter] s := by
  cases hfind : fromFirst long s with
  | none =>
      rw [hshort hfind, shortId_eq_error_iff]
      constructor
      · intro h
        obtain ⟨post, hcuts, hpost⟩ := h
        exact ⟨post, hcuts, Or.inr ⟨hfind, hpost⟩⟩
      · intro h
        obtain ⟨post, hcuts, hpost | ⟨-, hpost⟩⟩ := h
        · rw [hfind] at hpost
          cases hpost
        · exact ⟨post, hcuts, hpost⟩
  | some rest =>
      obtain ⟨post, rfl⟩ := exists_of_fromFirst hfind
      rw [hlong post hfind]
      constructor
      · intro h
        exact ⟨post, h, Or.inl hfind⟩
      · intro h
        obtain ⟨post', hcuts, hpost | ⟨hpost, -⟩⟩ := h
        · rw [hfind] at hpost
          rwa [List.append_cancel_left (Option.some.inj hpost)]
        · rw [hfind] at hpost
          cases hpost

theorem extractVendor_eq_error_iff {e : Panic} :
    extractVendorFromModalias s = .error e ↔ CutsId "v0000".toList ['v'] s := by
  apply eq_error_iff_cutsId
  · intro post h
    rw [extractVendor_of_long h]
    apply if_textBytes_eq_error_iff
    rw [bind_pure_eq_error_iff, hexId_eq_error_iff]
  · exact extractVendor_of_none

theorem extractDevice_eq_error_iff {e : Panic} :
    extractDeviceFromModalias s = .error e ↔ CutsId "d0000".toList ['p'] s := by
  apply eq_error_iff_cutsId
  · intro post h
    rw [extractDevice_of_long h]
    apply if_textBytes_eq_error_iff
    rw [bind_pure_eq_error_iff, firstBytes_eq_error_iff]
  · exact extractDevice_of_none

end Extract

/-! ## The ids in a text -/

section Fields

variable {pre : List Char} {letter : Char}

/-- The form of an id in four digits. -/
abbrev idOf (n : Nat) : String := "0x" ++ String.ofList (hexField 4 n)

theorem extractVendor_of_pattern (hpre : 'v' ∉ pre) (n : Nat) (rest : List Char) :
    extractVendorFromModalias (pre ++ ("v0000".toList ++ (hexField 4 n ++ rest))) =
      .ok (some (idOf n)) := by
  have hfind := (@fromFirst_append_of_not_mem 'v' "0000".toList pre
    ("v0000".toList ++ (hexField 4 n ++ rest)) hpre).trans (fromFirst_append _ _)
  rw [extractVendor_of_long hfind, if_pos (four_le_textBytes_hexField n rest),
    hexId_hexField]
  rfl

theorem extractDevice_of_pattern (hpre : 'd' ∉ pre) (n : Nat) (rest : List Char) :
    extractDeviceFromModalias (pre ++ ("d0000".toList ++ (hexField 4 n ++ rest))) =
      .ok (some (idOf n)) := by
  have hfind := (@fromFirst_append_of_not_mem 'd' "0000".toList pre
    ("d0000".toList ++ (hexField 4 n ++ rest)) hpre).trans (fromFirst_append _ _)
  rw [extractDevice_of_long hfind, if_pos (four_le_textBytes_hexField n rest),
    firstBytes_hexField]
  rfl

theorem shortId_of_letter (hpre : letter ∉ pre) (n : Nat) (rest : List Char) :
    shortId letter (pre ++ letter :: (hexField 4 n ++ rest)) = .ok (some (idOf n)) := by
  have hfind := (@fromFirst_append_of_not_mem letter [] pre
    ([letter] ++ (hexField 4 n ++ rest)) hpre).trans (fromFirst_append _ _)
  have hshort := shortId_of_some hfind
  rw [if_pos (four_le_textBytes_hexField n rest), hexId_hexField] at hshort
  exact hshort

/-- A letter before a field is no PCI pattern unless the field is zero. -/
theorem not_prefix_hexField {n : Nat} (hne : n ≠ 0) (hlt : n < 16 ^ 4) (rest : List Char) :
    ¬ letter :: "0000".toList <+: letter :: (hexField 4 n ++ rest) := by
  intro h
  have hzeros := (List.cons_prefix_cons.mp h).2
  have hfield : "0000".toList = hexField 4 n := by
    have htake := List.prefix_iff_eq_take.mp hzeros
    rw [htake, List.take_append_of_le_length (by simp), List.take_of_length_le (by simp)]
  exact hne (eq_zero_of_hexField hlt hfield.symm)

theorem fromFirst_eq_none_of_field (hpre : letter ∉ pre) (hletter : letter ∈ "vdps".toList)
    {n : Nat} (hne : n ≠ 0) (hlt : n < 16 ^ 4) {rest : List Char}
    (hrest : fromFirst (letter :: "0000".toList) rest = none) :
    fromFirst (letter :: "0000".toList) (pre ++ letter :: (hexField 4 n ++ rest)) = none := by
  rw [fromFirst_append_of_not_mem hpre,
    fromFirst_cons_of_ne (not_prefix_hexField hne hlt rest),
    fromFirst_append_of_not_mem (not_mem_hexField hletter), hrest]

end Fields

theorem PciModalias.extract_text (m : PciModalias) :
    extractVendorFromModalias m.text = .ok (some (idText m.vendor)) ∧
      extractDeviceFromModalias m.text = .ok (some (idText m.device)) := by
  have hbefore : 'd' ∉ "pci:".toList ++ ("v0000".toList ++ hexField 4 m.vendor.toNat) := by
    have hfield : 'd' ∉ hexField 4 m.vendor.toNat := not_mem_hexField (by decide)
    simp [hfield]
  constructor
  · exact extractVendor_of_pattern (by decide) m.vendor.toNat _
  · have hdevice := extractDevice_of_pattern hbefore m.device.toNat
    simp only [List.append_assoc] at hdevice
    exact hdevice _

namespace UsbModalias

variable (m : UsbModalias)

/-- The text behind the vendor. -/
def behindVendor : List Char :=
  'p' :: (hexField 4 m.product.toNat ++ ('d' :: (hexField 4 m.bcdDevice.toNat ++ m.classes)))

/-- The text before the product. -/
def beforeProduct : List Char := "usb:".toList ++ ('v' :: hexField 4 m.vendor.toNat)

/-- The text before the device release. -/
def beforeRelease : List Char := m.beforeProduct ++ ('p' :: hexField 4 m.product.toNat)

theorem text_eq_vendor :
    m.text = "usb:".toList ++ 'v' :: (hexField 4 m.vendor.toNat ++ m.behindVendor) := rfl

theorem text_eq_product :
    m.text = m.beforeProduct ++ 'p' :: (hexField 4 m.product.toNat ++
      ('d' :: (hexField 4 m.bcdDevice.toNat ++ m.classes))) := by
  simp only [text, beforeProduct, List.append_assoc, List.cons_append]

theorem text_eq_release :
    m.text = m.beforeRelease ++ 'd' :: (hexField 4 m.bcdDevice.toNat ++ m.classes) := by
  simp only [text, beforeRelease, beforeProduct, List.append_assoc, List.cons_append]

theorem not_mem_behindVendor : 'v' ∉ m.behindVendor := by
  have hfield : ∀ width n, 'v' ∉ hexField width n := fun _ _ => not_mem_hexField (by decide)
  have hclasses : 'v' ∉ m.classes := by
    unfold classes
    simp [hfield]
  unfold behindVendor
  simp [hfield, hclasses]

theorem not_mem_beforeProduct : 'p' ∉ m.beforeProduct := by
  have hfield : ∀ width n, 'p' ∉ hexField width n := fun _ _ => not_mem_hexField (by decide)
  simp [beforeProduct, hfield]

theorem not_mem_beforeRelease : 'd' ∉ m.beforeRelease := by
  have hfield : ∀ width n, 'd' ∉ hexField width n := fun _ _ => not_mem_hexField (by decide)
  simp [beforeRelease, beforeProduct, hfield]

/-- Behind a vendor that is zero stands no id, so the extractor falls back on zero. -/
theorem hexId_behindVendor : hexId m.behindVendor = .ok none := by
  have hword : ∀ c ∈ 'p' :: hexField 3 (m.product.toNat / 16), c.utf8Size = 1 :=
    List.forall_mem_cons.mpr ⟨rfl, utf8Size_of_mem_hexField⟩
  have hbehind : m.behindVendor = ('p' :: hexField 3 (m.product.toNat / 16)) ++
      ([upperHexDigit m.product.toNat] ++
        ('d' :: (hexField 4 m.bcdDevice.toNat ++ m.classes))) := by
    rw [behindVendor, hexField, List.cons_append, List.append_assoc]
  have hfirst := firstBytes_append hword
    ([upperHexDigit m.product.toNat] ++ ('d' :: (hexField 4 m.bcdDevice.toNat ++ m.classes)))
  rw [List.length_cons, length_hexField, ← hbehind] at hfirst
  rw [hexId, hfirst]
  rfl

theorem extractVendor_text : extractVendorFromModalias m.text = .ok (some (idText m.vendor)) := by
  rw [text_eq_vendor]
  by_cases hzero : m.vendor.toNat = 0
  · have hfind := (@fromFirst_append_of_not_mem 'v' "0000".toList "usb:".toList
      ("v0000".toList ++ m.behindVendor) (by decide)).trans (fromFirst_append _ _)
    have hvendor := extractVendor_of_long hfind
    rw [hexId_behindVendor] at hvendor
    have hid : idText m.vendor = "0x0000" := by
      rw [idText, hzero]
      decide
    rw [hid, hzero]
    refine hvendor.trans ?_
    split_ifs <;> rfl
  · have hnone := @fromFirst_eq_none_of_field "usb:".toList 'v' (by decide) (by decide) _ hzero
      m.vendor.toNat_lt _ (fromFirst_eq_none_of_not_mem m.not_mem_behindVendor)
    rw [extractVendor_of_none hnone]
    exact shortId_of_letter (by decide) m.vendor.toNat m.behindVendor

/-- In the text behind the device release, no `d` stands before a zero. -/
theorem fromFirst_classes : fromFirst "d0000".toList m.classes = none := by
  have hfield : ∀ n rest, fromFirst "d0000".toList (hexField 2 n ++ rest) =
      fromFirst "d0000".toList rest :=
    fun n rest => fromFirst_append_of_not_mem (not_mem_hexField (by decide))
  have hletter : ∀ {c : Char} (rest), c ≠ 'd' →
      fromFirst "d0000".toList (c :: rest) = fromFirst "d0000".toList rest := by
    intro c rest hc
    apply fromFirst_cons_of_ne
    intro h
    exact hc (List.cons_prefix_cons.mp h).1.symm
  have hd : ∀ {c : Char} (rest), c ≠ '0' →
      fromFirst "d0000".toList ('d' :: c :: rest) = fromFirst "d0000".toList (c :: rest) := by
    intro c rest hc
    apply fromFirst_cons_of_ne
    intro h
    exact hc (List.cons_prefix_cons.mp (List.cons_prefix_cons.mp h).2).1.symm
  have htail : 'd' ∉ "ic".toList ++ hexField 2 m.interfaceClass.toNat ++
      "isc".toList ++ hexField 2 m.interfaceSubClass.toNat ++
      "ip".toList ++ hexField 2 m.interfaceProtocol.toNat ++
      "in".toList ++ hexField 2 m.interfaceNumber.toNat := by
    have hfield : ∀ width n, 'd' ∉ hexField width n := fun _ _ => not_mem_hexField (by decide)
    simp [hfield]
  have hend := @fromFirst_eq_none_of_not_mem 'd' "0000".toList _ htail
  have htext : m.classes = 'd' :: 'c' :: (hexField 2 m.deviceClass.toNat ++
      ('d' :: 's' :: 'c' :: (hexField 2 m.deviceSubClass.toNat ++
        ('d' :: 'p' :: (hexField 2 m.deviceProtocol.toNat ++
          ("ic".toList ++ hexField 2 m.interfaceClass.toNat ++
            "isc".toList ++ hexField 2 m.interfaceSubClass.toNat ++
            "ip".toList ++ hexField 2 m.interfaceProtocol.toNat ++
            "in".toList ++ hexField 2 m.interfaceNumber.toNat)))))) := by
    unfold classes
    simp
  rw [htext, hd _ (by decide), hletter _ (by decide), hfield, hd _ (by decide),
    hletter _ (by decide), hletter _ (by decide), hfield, hd _ (by decide),
    hletter _ (by decide), hfield]
  exact hend

/-- The product is read if the device release is not zero. -/
theorem extractDevice_text (h : m.bcdDevice ≠ 0) :
    extractDeviceFromModalias m.text = .ok (some (idText m.product)) := by
  have hrelease : m.bcdDevice.toNat ≠ 0 := by
    intro hzero
    exact h (UInt16.toNat.inj hzero)
  have hnone : fromFirst "d0000".toList m.text = none := by
    rw [text_eq_release]
    exact fromFirst_eq_none_of_field m.not_mem_beforeRelease (by decide) hrelease
      m.bcdDevice.toNat_lt m.fromFirst_classes
  rw [extractDevice_of_none hnone, text_eq_product]
  exact shortId_of_letter m.not_mem_beforeProduct m.product.toNat _

/-- If it is zero, it is taken for the pattern before a PCI device. -/
theorem extractDevice_text_zero (h : m.bcdDevice = 0) :
    ∃ class_text, extractDeviceFromModalias m.text = .ok (some ("0xdc" ++ class_text)) := by
  have hzeros : hexField 4 m.bcdDevice.toNat = "0000".toList := by
    rw [h]
    decide
  have hfind := (@fromFirst_append_of_not_mem 'd' "0000".toList m.beforeRelease
    ("d0000".toList ++ m.classes) m.not_mem_beforeRelease).trans (fromFirst_append _ _)
  have hword : ∀ c ∈ 'd' :: 'c' :: hexField 2 m.deviceClass.toNat, c.utf8Size = 1 :=
    List.forall_mem_cons.mpr ⟨rfl, List.forall_mem_cons.mpr ⟨rfl, utf8Size_of_mem_hexField⟩⟩
  obtain ⟨rest, hrest⟩ : ∃ rest,
      m.classes = ('d' :: 'c' :: hexField 2 m.deviceClass.toNat) ++ rest := by
    unfold classes
    exact ⟨_, by simp only [List.append_assoc]; rfl⟩
  have hfirst := firstBytes_append hword rest
  have hlength : ('d' :: 'c' :: hexField 2 m.deviceClass.toNat).length = 4 := by simp
  rw [hlength] at hfirst
  have hsize : 4 ≤ textBytes m.classes := by
    rw [hrest, textBytes_append hword]
    simp
  have hdevice := extractDevice_of_long hfind
  rw [if_pos hsize, hrest, hfirst] at hdevice
  refine ⟨String.ofList (hexField 2 m.deviceClass.toNat), ?_⟩
  rw [text_eq_release, hzeros, hrest]
  refine hdevice.trans ?_
  show Except.ok (some _) = _
  congr 2
  apply String.toList_injective
  simp

/-- That is no id, since the digits of an id are not small letters. -/
theorem idText_ne (id : UInt16) (text : String) : idText id ≠ "0xdc" ++ text := by
  intro h
  have hlist := congrArg String.toList h
  rw [idText, String.toList_append, String.toList_append, String.toList_ofList] at hlist
  have hdrop : hexField 4 id.toNat = 'd' :: 'c' :: text.toList := by simpa using hlist
  have hmem : 'd' ∉ hexField 4 id.toNat := not_mem_hexField (by decide)
  rw [hdrop] at hmem
  exact hmem List.mem_cons_self

end UsbModalias

/-! ## What is extracted -/

/-- Both extractors read the text without a panic and, if it is a modalias, to the ids in
it. -/
structure ExtractsIds (modalias : List Char) : Prop where
  vendor_total : ∃ id, extractVendorFromModalias modalias = .ok id
  device_total : ∃ id, extractDeviceFromModalias modalias = .ok id
  pci : ∀ m : PciModalias, m.text = modalias →
    extractVendorFromModalias modalias = .ok (some (idText m.vendor)) ∧
      extractDeviceFromModalias modalias = .ok (some (idText m.device))
  usb : ∀ m : UsbModalias, m.text = modalias →
    extractVendorFromModalias modalias = .ok (some (idText m.vendor)) ∧
      extractDeviceFromModalias modalias = .ok (some (idText m.product))

theorem exists_ok_iff {α : Type} {x : Panics α} :
    (∃ a, x = .ok a) ↔ ¬ x = .error .charBoundary := by
  cases x with
  | error e =>
      cases e
      refine iff_of_false ?_ (fun h => h rfl)
      intro h
      obtain ⟨a, ha⟩ := h
      cases ha
  | ok a =>
      refine iff_of_true ⟨a, rfl⟩ ?_
      intro h
      cases h

theorem vendor_total_iff {modalias : List Char} :
    (∃ id, extractVendorFromModalias modalias = .ok id) ↔
      ¬ CutsId "v0000".toList ['v'] modalias := by
  rw [exists_ok_iff, extractVendor_eq_error_iff]

theorem device_total_iff {modalias : List Char} :
    (∃ id, extractDeviceFromModalias modalias = .ok id) ↔
      ¬ CutsId "d0000".toList ['p'] modalias := by
  rw [exists_ok_iff, extractDevice_eq_error_iff]

/-- The ids are extracted exactly if no character is cut and the text is no USB modalias with
the device release zero. -/
theorem extractsIds_iff (modalias : List Char) :
    ExtractsIds modalias ↔
      ¬ CutsId "v0000".toList ['v'] modalias ∧ ¬ CutsId "d0000".toList ['p'] modalias ∧
        ∀ m : UsbModalias, m.text = modalias → m.bcdDevice ≠ 0 := by
  constructor
  · intro h
    refine ⟨vendor_total_iff.mp h.vendor_total, device_total_iff.mp h.device_total, ?_⟩
    intro m hm hzero
    obtain ⟨text, htext⟩ := m.extractDevice_text_zero hzero
    have hproduct := (h.usb m hm).2
    rw [← hm, htext] at hproduct
    exact UsbModalias.idText_ne _ _ (Option.some.inj (Except.ok.inj hproduct)).symm
  · intro h
    obtain ⟨hvendor, hdevice, husb⟩ := h
    refine ⟨vendor_total_iff.mpr hvendor, device_total_iff.mpr hdevice, ?_, ?_⟩
    · intro m hm
      rw [← hm]
      exact m.extract_text
    · intro m hm
      have hrelease := husb m hm
      rw [← hm]
      exact ⟨m.extractVendor_text, m.extractDevice_text hrelease⟩

/-- A receiver whose device release is zero. -/
def receiverModalias : UsbModalias where
  vendor := 0x046D
  product := 0xC52B
  bcdDevice := 0
  deviceClass := 0
  deviceSubClass := 0
  deviceProtocol := 0
  interfaceClass := 3
  interfaceSubClass := 1
  interfaceProtocol := 2
  interfaceNumber := 0

/-- Its product is read as the device class, and a text with an accent panics. -/
theorem not_extractsIds_receiver :
    receiverModalias.text = "usb:v046DpC52Bd0000dc00dsc00dp00ic03isc01ip02in00".toList ∧
      extractDeviceFromModalias receiverModalias.text = .ok (some "0xdc00") ∧
      ¬ ExtractsIds receiverModalias.text ∧
      extractVendorFromModalias "v0000123é".toList = .error .charBoundary ∧
      ¬ ExtractsIds "v0000123é".toList := by
  have hdevice : extractDeviceFromModalias receiverModalias.text = .ok (some "0xdc00") := by
    decide +kernel
  have hvendor : extractVendorFromModalias "v0000123é".toList = .error .charBoundary := by
    decide +kernel
  refine ⟨by decide +kernel, hdevice, ?_, hvendor, ?_⟩
  · intro h
    have hproduct := (h.usb receiverModalias rfl).2
    rw [hdevice] at hproduct
    exact absurd hproduct (by decide +kernel)
  · intro h
    obtain ⟨id, hid⟩ := h.vendor_total
    rw [hvendor] at hid
    cases hid

end MissionOs.Driverd
