import Mathlib.Algebra.GroupWithZero.Nat
import Mathlib.Data.List.Basic

/-!
# The string functions of the Rust standard library

A Rust `String` is a Lean `String`; the functions that look inside one work on
its list of characters.  Only the functions that the services call are here,
each with the behaviour that the standard library documents for it.

`str::to_lowercase` maps every character by the Unicode tables.  Those tables
are not part of the sources, so `toLowercase` takes the mapping of the strings
that are not ASCII as an argument and computes the ASCII strings itself.
-/

namespace MissionOs.Rust

/-- A byte string, `Vec<u8>`. -/
abbrev Bytes := List UInt8

/-- `char::is_whitespace`: the characters with the Unicode property
`White_Space`. -/
def isWhitespace (c : Char) : Bool :=
  (9 ≤ c.toNat && c.toNat ≤ 13) || c.toNat == 0x20 || c.toNat == 0x85 ||
    c.toNat == 0xA0 || c.toNat == 0x1680 ||
    (0x2000 ≤ c.toNat && c.toNat ≤ 0x200A) || c.toNat == 0x2028 ||
    c.toNat == 0x2029 || c.toNat == 0x202F || c.toNat == 0x205F ||
    c.toNat == 0x3000

/-- `char::is_ascii_hexdigit`. -/
def isHexDigit (c : Char) : Bool :=
  c.isDigit || ('a' ≤ c && c ≤ 'f') || ('A' ≤ c && c ≤ 'F')

/-- `str::trim`. -/
def trim (s : List Char) : List Char :=
  ((s.dropWhile isWhitespace).reverse.dropWhile isWhitespace).reverse

/-- `s.trim().is_empty()`. -/
def trimIsEmpty (s : String) : Bool :=
  (trim s.toList).isEmpty

/-- The bytes `A` to `Z` lowered, every other character kept, as
`char::to_ascii_lowercase`. -/
def toAsciiLowercase (s : List Char) : List Char :=
  s.map Char.toLower

/-- `str::eq_ignore_ascii_case`. -/
def eqIgnoreAsciiCase (a b : String) : Bool :=
  toAsciiLowercase a.toList == toAsciiLowercase b.toList

theorem eqIgnoreAsciiCase_iff {a b : String} :
    eqIgnoreAsciiCase a b = true ↔
      toAsciiLowercase a.toList = toAsciiLowercase b.toList := by
  rw [eqIgnoreAsciiCase, beq_iff_eq]

@[simp] theorem eqIgnoreAsciiCase_refl (a : String) : eqIgnoreAsciiCase a a = true := by
  rw [eqIgnoreAsciiCase_iff]

/-- `str::to_lowercase`, with `unicode` the mapping of the strings that are not
ASCII. -/
def toLowercase (unicode : String → String) (s : String) : String :=
  if s.toList.all (fun c => c.toNat < 128) then
    String.ofList (toAsciiLowercase s.toList)
  else
    unicode s

/-- Whether `needle` is a part of `haystack`, as `str::contains`. -/
def containsText (haystack needle : String) : Bool :=
  haystack.toList.tails.any fun t => needle.toList.isPrefixOf t

/-- `str::trim_start_matches` of a pattern that is not empty: it is removed from the
start as often as it stands there, `n` times at most. -/
def dropPrefixes (pattern : List Char) : Nat → List Char → List Char
  | 0, s => s
  | n + 1, s =>
      if pattern.isPrefixOf s then dropPrefixes pattern n (s.drop pattern.length) else s

/-- `str::trim_start_matches`. -/
def trimStartMatches (s pattern : String) : String :=
  String.ofList (dropPrefixes pattern.toList s.length s.toList)

/-- `str::split_whitespace`. -/
def splitWhitespace (s : List Char) : List (List Char) :=
  (s.splitOnP isWhitespace).filter (fun w => !w.isEmpty)

/-- A line without the `\r` of its ending. -/
def stripReturn (line : List Char) : List Char :=
  if line.getLast? = some '\r' then line.dropLast else line

/-- `str::lines`: a line ends at `\n` or `\r\n`, and the end of the text ends the
last line, as it is, only when it is not empty. -/
def lines (s : List Char) : List (List Char) :=
  let parts := s.splitOn '\n'
  parts.dropLast.map stripReturn ++ (parts.getLast?.filter fun l => l ≠ []).toList

/-- `core::num::ParseIntError`, as far as parsing an unsigned integer can fail. -/
inductive ParseIntError where
  | empty
  | invalidDigit
  | posOverflow
deriving DecidableEq, Repr

/-- The `Display` text of a `ParseIntError`. -/
def ParseIntError.display : ParseIntError → String
  | .empty => "cannot parse integer from empty string"
  | .invalidDigit => "invalid digit found in string"
  | .posOverflow => "number too large to fit in target type"

/-- The digit loop of `from_str_radix` for an unsigned type with the values
below `bound`. -/
def parseDigits (bound : Nat) : Nat → List Char → Except ParseIntError Nat
  | acc, [] => .ok acc
  | acc, c :: cs =>
      if !c.isDigit then .error .invalidDigit
      else if bound ≤ 10 * acc + (c.toNat - '0'.toNat) then .error .posOverflow
      else parseDigits bound (10 * acc + (c.toNat - '0'.toNat)) cs

/-- `str::parse` into an unsigned integer below `bound`: an optional `+`, then
at least one digit, and no overflow. -/
def parseUnsigned (bound : Nat) : List Char → Except ParseIntError Nat
  | [] => .error .empty
  | ['+'] => .error .invalidDigit
  | '+' :: digits => parseDigits bound 0 digits
  | digits => parseDigits bound 0 digits

/-- `str::parse::<u64>`. -/
def parseU64 (s : List Char) : Except ParseIntError UInt64 :=
  (parseUnsigned (2 ^ 64) s).map UInt64.ofNat

/-- `str::parse::<u32>`. -/
def parseU32 (s : List Char) : Except ParseIntError UInt32 :=
  (parseUnsigned (2 ^ 32) s).map UInt32.ofNat

/-- `str::cmp`.  The byte order of UTF-8 is the order of the code points. -/
def strCmp : List Char → List Char → Ordering
  | [], [] => .eq
  | [], _ :: _ => .lt
  | _ :: _, [] => .gt
  | a :: as, b :: bs => (compare a.toNat b.toNat).then (strCmp as bs)

/-- The order of strings is the lexicographic order of their code points. -/
theorem strCmp_eq : strCmp = List.compareLex (compareOn Char.toNat) := by
  funext a b
  induction a generalizing b with
  | nil => cases b <;> rfl
  | cons x a ih =>
      cases b with
      | nil => rfl
      | cons y b =>
          rw [strCmp, ih, List.compareLex_cons_cons]
          rfl

instance : Std.TransCmp strCmp := by
  rw [strCmp_eq]
  infer_instance

theorem strCmp_eq_iff {a b : List Char} : strCmp a b = .eq ↔ a = b := by
  induction a generalizing b with
  | nil => cases b <;> simp [strCmp]
  | cons x a ih =>
      cases b with
      | nil => simp [strCmp]
      | cons y b =>
          rw [strCmp, Ordering.then_eq_eq, ih, Nat.compare_eq_eq, List.cons.injEq,
            Char.toNat_inj]

theorem strCmp_eq_lt_iff {a b : List Char} : strCmp a b = .lt ↔ a < b := by
  induction a generalizing b with
  | nil => cases b <;> simp [strCmp]
  | cons x a ih =>
      cases b with
      | nil => simp [strCmp]
      | cons y b =>
          rw [strCmp, Ordering.then_eq_lt, ih, Nat.compare_eq_lt, Nat.compare_eq_eq,
            List.cons_lt_cons_iff, Char.toNat_inj]
          rfl

/-- The bytes of a string, as `str::as_bytes` gives them. -/
def utf8 (s : String) : Bytes := s.toUTF8.data.toList

/-- `str::len`: the number of bytes. -/
def byteLen (s : String) : Nat := (s.toList.map Char.utf8Size).sum

/-- How a slice of a string fails: an end of it is not at the boundary of a character. -/
inductive Panic where
  | charBoundary
deriving DecidableEq, Repr

/-- A program that may panic. -/
abbrev Panics (α : Type) := Except Panic α

/-- A `?` passes on the value of a program that succeeds. -/
theorem bind_eq_ok_iff {ε α β : Type} {x : Except ε α} {f : α → Except ε β} {b : β} :
    (x >>= f) = .ok b ↔ ∃ a, x = .ok a ∧ f a = .ok b := by
  cases x with
  | error e =>
      constructor
      · intro h
        cases h
      · intro hright
        obtain ⟨a, ha, -⟩ := hright
        cases ha
  | ok a =>
      constructor
      · intro h
        exact ⟨a, rfl, h⟩
      · intro hright
        obtain ⟨a', ha, h⟩ := hright
        cases ha
        exact h

theorem mapError_eq_ok_iff {ε ε' α : Type} {x : Except ε α} {f : ε → ε'} {a : α} :
    x.mapError f = .ok a ↔ x = .ok a := by
  cases x with
  | ok b => simp [Except.mapError]
  | error e => simp [Except.mapError]

/-- Every value of a list of programs is the value of one of them. -/
theorem exists_of_mem_mapM {ε α β : Type} {f : α → Except ε β} {as : List α} {bs : List β}
    (h : as.mapM f = .ok bs) {b : β} (hb : b ∈ bs) : ∃ a ∈ as, f a = .ok b := by
  induction as generalizing bs with
  | nil =>
      cases h
      cases hb
  | cons a as ih =>
      rw [List.mapM_cons] at h
      obtain ⟨b', hb', h⟩ := bind_eq_ok_iff.mp h
      obtain ⟨bs', hbs', h⟩ := bind_eq_ok_iff.mp h
      cases h
      rcases List.mem_cons.mp hb with rfl | hb
      · exact ⟨a, List.mem_cons_self, hb'⟩
      · obtain ⟨a', ha', hf⟩ := ih hbs' hb
        exact ⟨a', List.mem_cons_of_mem a ha', hf⟩

/-- Between two places where a text is split, nothing splits it. -/
theorem not_of_mem_splitOnP {α : Type} {p : α → Bool} {s part : List α}
    (h : part ∈ s.splitOnP p) : ∀ c ∈ part, p c = false := by
  induction s generalizing part with
  | nil =>
      rw [List.splitOnP_nil, List.mem_singleton] at h
      simp [h]
  | cons c s ih =>
      rw [List.splitOnP_cons_eq_if_modifyHead] at h
      split_ifs at h with hc
      · rcases List.mem_cons.mp h with rfl | h
        · simp
        · exact ih h
      · obtain ⟨first, others, hsplit⟩ :=
          List.exists_cons_of_ne_nil (List.splitOnP_ne_nil p s)
        rw [hsplit] at h ih
        rcases List.mem_cons.mp h with rfl | h
        · exact List.forall_mem_cons.mpr ⟨Bool.eq_false_iff.mpr hc, ih List.mem_cons_self⟩
        · exact ih (List.mem_cons_of_mem first h)

/-- A text is split in two exactly at the only separator in it. -/
theorem splitOn_eq_pair_iff {sep : Char} {s a b : List Char} :
    s.splitOn sep = [a, b] ↔ s = a ++ sep :: b ∧ sep ∉ a ∧ sep ∉ b := by
  constructor
  · intro h
    have hparts : ∀ part ∈ s.splitOn sep, sep ∉ part := by
      intro part hpart hmem
      rw [List.splitOn_eq_splitOnP] at hpart
      exact absurd rfl (beq_eq_false_iff_ne.mp (not_of_mem_splitOnP hpart sep hmem))
    have hjoin := @List.intercalate_splitOn Char s _ _ sep
    rw [h] at hjoin hparts
    have hsum : [sep].intercalate [a, b] = a ++ sep :: b := by simp [List.intercalate]
    exact ⟨by rw [← hjoin, hsum], hparts a (by simp), hparts b (by simp)⟩
  · intro h
    obtain ⟨rfl, ha, hb⟩ := h
    rw [List.splitOn_append_cons_self_of_not_mem ha, List.splitOn_eq_singleton hb]

/-- The first `n` bytes of a text, as `&s[..n]`, or all of it if it has not so many. -/
def firstBytes : Nat → List Char → Panics (List Char)
  | _, [] => .ok []
  | n, c :: cs =>
      if n = 0 then .ok []
      else if n < c.utf8Size then .error .charBoundary
      else (firstBytes (n - c.utf8Size) cs).map (c :: ·)

/-- `[a, b].join(sep)`. -/
def join (sep : String) (parts : List String) : String :=
  String.intercalate sep parts

example : splitWhitespace "e1000e 245760 0 -\tLive".toList =
    ["e1000e".toList, "245760".toList, "0".toList, "-".toList, "Live".toList] := by
  decide

end MissionOs.Rust
