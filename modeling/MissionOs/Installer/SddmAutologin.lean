import MissionOs.Lib.EndedLines
import MissionOs.Lib.Sections
import MissionOs.Rust.Text
import Mathlib.Data.List.Induction

/-!
# Taking the autologin out of the login manager's configuration

`_strip_sddm_autologin` of the installer's clean-up step, which goes through the configuration
files of SDDM in the installed system and removes the sections `[Autologin]` from them.  The
reads and writes succeed here, and a file is a text.

A file is read line by line, with one bit for whether the line is in such a section.
`scan_spec` says what the bit and the lines that are kept mean after any number of lines, in
the words of `Sections`.
-/

namespace MissionOs.Installer

open MissionOs.Lib MissionOs.Rust

/-! ## Python's texts -/

/-- `str.isspace`, of one character. -/
def isSpace (c : Char) : Bool :=
  (9 ≤ c.toNat && c.toNat ≤ 13) || (0x1c ≤ c.toNat && c.toNat ≤ 0x20) || c.toNat == 0x85 ||
    c.toNat == 0xA0 || c.toNat == 0x1680 || (0x2000 ≤ c.toNat && c.toNat ≤ 0x200A) ||
    c.toNat == 0x2028 || c.toNat == 0x2029 || c.toNat == 0x202F || c.toNat == 0x205F ||
    c.toNat == 0x3000

/-- `str.strip`. -/
def strip (s : List Char) : List Char :=
  ((s.dropWhile isSpace).reverse.dropWhile isSpace).reverse

/-- What the text mode of a file makes of the ends of lines. -/
def universalNewlines : List Char → List Char
  | [] => []
  | '\r' :: '\n' :: cs => '\n' :: universalNewlines cs
  | '\r' :: cs => '\n' :: universalNewlines cs
  | c :: cs => c :: universalNewlines cs

/-- `f.readlines()`. -/
def readlines (text : List Char) : List (List Char) := endedLines '\n' (universalNewlines text)

/-- Whether a character matches a lowercase letter of a pattern under `re.IGNORECASE`.  Two
letters outside ASCII are an `i` as well. -/
def matchesLetter (letter c : Char) : Bool :=
  c.toLower == letter || (letter == 'i' && (c == 'İ' || c == 'ı'))

/-- `re.match` of a pattern of such letters. -/
def matchesAtStart : List Char → List Char → Bool
  | [], _ => true
  | _ :: _, [] => false
  | letter :: pattern, c :: cs => matchesLetter letter c && matchesAtStart pattern cs

/-! ## The function -/

/-- A header of the section, on a line that is stripped already. -/
def isAutologinHeader (stripped : List Char) : Bool :=
  matchesAtStart "[autologin]".toList stripped

/-- What the loop over the lines keeps track of. -/
structure Scan where
  kept : List (List Char)
  inAutologin : Bool
  changed : Bool
deriving DecidableEq, Repr

/-- One round of the loop. -/
def scanLine (s : Scan) (line : List Char) : Scan :=
  let stripped := strip line
  if isAutologinHeader stripped then { s with inAutologin := true, changed := true }
  else if s.inAutologin then
    if stripped.head? = some '[' then { s with inAutologin := false, kept := s.kept ++ [line] }
    else s
  else { s with kept := s.kept ++ [line] }

/-- The loop. -/
def scan (lines : List (List Char)) : Scan := lines.foldl scanLine ⟨[], false, false⟩

/-- The target system, as far as it is looked at: the texts of its regular files, by their
paths below the root, and the names in `etc/sddm.conf.d`, if that is a directory. -/
structure Target where
  files : String → Option (List Char)
  confd : Option (List String)

/-- Which of the files in `etc/sddm.conf.d` are looked at, in their order. -/
def confdNames (names : List String) : List String :=
  (names.mergeSort fun a b => (strCmp a.toList b.toList).isLE).filter fun name =>
    ".conf".toList.isSuffixOf name.toList

/-- The files that are looked at. -/
def candidates (t : Target) : List String :=
  "etc/sddm.conf" ::
    match t.confd with
    | some names => (confdNames names).map ("etc/sddm.conf.d/" ++ ·)
    | none => []

/-- The files after some of the candidates, and which of them were written. -/
structure Cleaned where
  files : String → Option (List Char)
  written : List String

/-- What is done with one candidate. -/
def stripFile (c : Cleaned) (rel : String) : Cleaned :=
  match c.files rel with
  | none => c
  | some text =>
      let s := scan (readlines text)
      if s.changed then
        { files := fun path => if path = rel then some s.kept.flatten else c.files path
          written := c.written ++ [rel] }
      else c

/-- `_strip_sddm_autologin`. -/
def stripSddmAutologin (t : Target) : Cleaned := (candidates t).foldl stripFile ⟨t.files, []⟩

/-! ## The loop -/

/-- A line that is a header of the section. -/
def isHeader (line : List Char) : Bool := isAutologinHeader (strip line)

/-- A line that opens a section. -/
def opensSection (line : List Char) : Bool := (strip line).head? = some '['

/-- A line that is no header adds none. -/
theorem exists_header_concat {lines : List (List Char)} {line : List Char}
    (h : isHeader line = false) :
    (∃ l ∈ lines ++ [line], isHeader l = true) ↔ ∃ l ∈ lines, isHeader l = true := by
  simp [or_and_right, exists_or, h]

/-- What the loop knows after some lines: those that are outside are kept, the bit says
whether the section is open, and something has changed if there was a header. -/
structure Scanned (lines : List (List Char)) (s : Scan) : Prop where
  kept : s.kept = outsideSections isHeader opensSection lines
  inAutologin : s.inAutologin = true ↔ OpenAfter isHeader opensSection lines
  changed : s.changed = true ↔ ∃ line ∈ lines, isHeader line = true

theorem scanned_nil : Scanned [] ⟨[], false, false⟩ where
  kept := rfl
  inAutologin := iff_of_false Bool.false_ne_true not_openAfter_nil
  changed := iff_of_false Bool.false_ne_true (by simp)

/-- A header is dropped, and opens the section. -/
theorem Scanned.header {lines : List (List Char)} {s : Scan} (h : Scanned lines s)
    {line : List Char} (hheader : isHeader line = true) :
    Scanned (lines ++ [line]) { s with inAutologin := true, changed := true } where
  kept := by
    rw [outsideSections_concat, if_pos (openAfter_concat.mpr (Or.inl hheader)), List.append_nil]
    exact h.kept
  inAutologin := iff_of_true rfl (openAfter_concat.mpr (Or.inl hheader))
  changed := iff_of_true rfl ⟨line, by simp, hheader⟩

/-- Another line of the section is dropped. -/
theorem Scanned.dropped {lines : List (List Char)} {s : Scan} (h : Scanned lines s)
    {line : List Char} (hheader : isHeader line = false) (hin : s.inAutologin = true)
    (hopens : opensSection line = false) : Scanned (lines ++ [line]) s where
  kept := by
    have hopen := openAfter_concat.mpr (Or.inr ⟨hopens, h.inAutologin.mp hin⟩)
    rw [outsideSections_concat, if_pos hopen, List.append_nil]
    exact h.kept
  inAutologin := iff_of_true hin (openAfter_concat.mpr (Or.inr ⟨hopens, h.inAutologin.mp hin⟩))
  changed := h.changed.trans (exists_header_concat hheader).symm

/-- Any other line is kept, and the section is not open behind it. -/
theorem Scanned.keep {lines : List (List Char)} {s : Scan} (h : Scanned lines s)
    {line : List Char} (hheader : isHeader line = false)
    (hout : s.inAutologin = false ∨ opensSection line = true) :
    Scanned (lines ++ [line]) { s with inAutologin := false, kept := s.kept ++ [line] } := by
  have hclosed : ¬ OpenAfter isHeader opensSection (lines ++ [line]) := by
    rw [openAfter_concat]
    rintro (hnow | ⟨hopens, hbefore⟩)
    · rw [hheader] at hnow
      cases hnow
    · rcases hout with hout | hout
      · rw [h.inAutologin.mpr hbefore] at hout
        cases hout
      · rw [hopens] at hout
        cases hout
  constructor
  · show s.kept ++ [line] = _
    rw [outsideSections_concat, if_neg hclosed, h.kept]
  · exact iff_of_false Bool.false_ne_true hclosed
  · exact h.changed.trans (exists_header_concat hheader).symm

/-- One round keeps this up. -/
theorem Scanned.scanLine {lines : List (List Char)} {s : Scan} (h : Scanned lines s)
    (line : List Char) : Scanned (lines ++ [line]) (scanLine s line) := by
  show Scanned (lines ++ [line])
    (if isHeader line then { s with inAutologin := true, changed := true }
     else if s.inAutologin then
      if (strip line).head? = some '[' then
        { s with inAutologin := false, kept := s.kept ++ [line] }
      else s
     else { s with kept := s.kept ++ [line] })
  split_ifs with hheader hin hopens
  · exact h.header hheader
  · exact h.keep (Bool.eq_false_iff.mpr hheader) (Or.inr (decide_eq_true hopens))
  · exact h.dropped (Bool.eq_false_iff.mpr hheader) hin (decide_eq_false hopens)
  · have hout : s.inAutologin = false := Bool.eq_false_iff.mpr hin
    have hkeep := h.keep (Bool.eq_false_iff.mpr hheader) (Or.inl hout)
    rwa [← hout] at hkeep

/-- So does the whole loop. -/
theorem scanned_scan (lines : List (List Char)) : Scanned lines (scan lines) := by
  induction lines using List.reverseRecOn with
  | nil => exact scanned_nil
  | append_singleton lines line ih =>
      have hlast : scan (lines ++ [line]) = scanLine (scan lines) line := List.foldl_concat _ _ _ _
      rw [hlast]
      exact ih.scanLine line

/-! ## A file -/

/-- What becomes of the text of a file. -/
def stripText (text : List Char) : List Char :=
  let s := scan (readlines text)
  if s.changed then s.kept.flatten else text

theorem not_mem_universalNewlines (cs : List Char) : '\r' ∉ universalNewlines cs := by
  fun_induction universalNewlines cs with
  | case1 => exact List.not_mem_nil
  | case2 cs ih => simpa using ih
  | case3 cs _ ih => simpa using ih
  | case4 c cs hpair hreturn ih =>
      intro hmem
      rcases List.mem_cons.mp hmem with heq | hmem
      · exact hreturn heq.symm
      · exact ih hmem

theorem universalNewlines_of_not_mem {cs : List Char} (h : '\r' ∉ cs) :
    universalNewlines cs = cs := by
  fun_induction universalNewlines cs with
  | case1 => rfl
  | case2 cs ih => exact absurd List.mem_cons_self h
  | case3 cs _ ih => exact absurd List.mem_cons_self h
  | case4 c cs hpair hreturn ih => rw [ih fun hmem => h (List.mem_cons_of_mem c hmem)]

/-- Lines of a file put together are read as these lines. -/
theorem readlines_flatten {text : List Char} {lines : List (List Char)}
    (h : lines.Sublist (readlines text)) : readlines lines.flatten = lines := by
  have hreturn : '\r' ∉ lines.flatten := by
    intro hmem
    obtain ⟨line, hline, hchar⟩ := List.mem_flatten.mp hmem
    have hall := List.mem_flatten_of_mem (h.subset hline) hchar
    rw [readlines, flatten_endedLines] at hall
    exact not_mem_universalNewlines text hall
  rw [readlines, universalNewlines_of_not_mem hreturn]
  exact ((areLines_endedLines _).sublist h).endedLines_flatten

/-- A text has a header. -/
def HasHeader (text : List Char) : Prop := ∃ line ∈ readlines text, isHeader line = true

theorem isHeader_eq_false {text : List Char} (h : ¬ HasHeader text) :
    ∀ line ∈ readlines text, isHeader line = false := by
  intro line hline
  by_contra hheader
  exact h ⟨line, hline, by simpa using hheader⟩

theorem scan_changed_iff {text : List Char} :
    (scan (readlines text)).changed = true ↔ HasHeader text :=
  (scanned_scan (readlines text)).changed

/-- A file with a header is put together from the lines outside. -/
theorem stripText_of_header {text : List Char} (h : HasHeader text) :
    stripText text = (outsideSections isHeader opensSection (readlines text)).flatten := by
  rw [← (scanned_scan (readlines text)).kept]
  exact if_pos (scan_changed_iff.mpr h)

/-- A file without one is left as it is. -/
theorem stripText_of_not_header {text : List Char} (h : ¬ HasHeader text) :
    stripText text = text :=
  if_neg (mt scan_changed_iff.mp h)

/-- The lines of a file afterwards are those outside. -/
theorem readlines_stripText (text : List Char) :
    readlines (stripText text) = outsideSections isHeader opensSection (readlines text) := by
  by_cases hheader : HasHeader text
  · rw [stripText_of_header hheader]
    exact readlines_flatten (outsideSections_sublist _)
  · have hnone := isHeader_eq_false hheader
    rw [stripText_of_not_header hheader, outsideSections_of_forall hnone]

/-- No header is left. -/
theorem isHeader_of_mem_stripText {text line : List Char}
    (h : line ∈ readlines (stripText text)) : isHeader line = false := by
  rw [readlines_stripText] at h
  exact header_of_mem_outsideSections h

theorem not_hasHeader_stripText (text : List Char) : ¬ HasHeader (stripText text) := by
  rintro ⟨line, hline, hheader⟩
  rw [isHeader_of_mem_stripText hline] at hheader
  cases hheader

theorem stripText_stripText (text : List Char) : stripText (stripText text) = stripText text :=
  stripText_of_not_header (not_hasHeader_stripText text)

/-- The text of a file with the line ends of the system is that of the lines outside, whether
it is written or not. -/
theorem stripText_eq_flatten {text : List Char} (h : '\r' ∉ text) :
    stripText text = (outsideSections isHeader opensSection (readlines text)).flatten := by
  by_cases hheader : HasHeader text
  · exact stripText_of_header hheader
  · have hnone := isHeader_eq_false hheader
    rw [stripText_of_not_header hheader, outsideSections_of_forall hnone, readlines,
      flatten_endedLines, universalNewlines_of_not_mem h]

/-! ## All files -/

/-- One candidate: its text is stripped, and no other file is touched. -/
theorem files_stripFile (c : Cleaned) (rel path : String) :
    (stripFile c rel).files path =
      if path = rel then (c.files path).map stripText else c.files path := by
  by_cases hpath : path = rel
  · subst hpath
    rw [if_pos rfl, stripFile]
    cases hfile : c.files path with
    | none => exact hfile
    | some text =>
        show (if (scan (readlines text)).changed then _ else _ : Cleaned).files path =
          some (if (scan (readlines text)).changed then _ else _)
        split_ifs with hchanged
        · exact if_pos rfl
        · exact hfile
  · rw [if_neg hpath, stripFile]
    split
    · rfl
    · show (if _ then _ else _ : Cleaned).files path = _
      split_ifs
      · exact if_neg hpath
      · rfl

/-- It is written if it has a header. -/
theorem mem_written_stripFile {c : Cleaned} {rel path : String} :
    path ∈ (stripFile c rel).written ↔
      path ∈ c.written ∨ (path = rel ∧ ∃ text, c.files path = some text ∧ HasHeader text) := by
  rw [stripFile]
  cases hfile : c.files rel with
  | none =>
      constructor
      · exact Or.inl
      · rintro (h | ⟨rfl, text, htext, -⟩)
        · exact h
        · rw [hfile] at htext
          cases htext
  | some text =>
      show path ∈ (if (scan (readlines text)).changed then _ else _ : Cleaned).written ↔ _
      split_ifs with hchanged
      · rw [scan_changed_iff] at hchanged
        show path ∈ c.written ++ [rel] ↔ _
        rw [List.mem_append, List.mem_singleton]
        constructor
        · rintro (h | rfl)
          · exact Or.inl h
          · exact Or.inr ⟨rfl, text, hfile, hchanged⟩
        · rintro (h | ⟨rfl, -⟩)
          · exact Or.inl h
          · exact Or.inr rfl
      · rw [scan_changed_iff] at hchanged
        constructor
        · exact Or.inl
        · rintro (h | ⟨rfl, text', htext, hheader⟩)
          · exact h
          · rw [hfile] at htext
            cases htext
            exact absurd hheader hchanged

/-- Any number of candidates, one after the other. -/
theorem files_foldl_stripFile (rels : List String) (c : Cleaned) (path : String) :
    (rels.foldl stripFile c).files path =
      if path ∈ rels then (c.files path).map stripText else c.files path := by
  induction rels generalizing c with
  | nil => rfl
  | cons rel rels ih =>
      rw [List.foldl_cons, ih, files_stripFile]
      by_cases hpath : path = rel
      · subst hpath
        rw [if_pos rfl, if_pos List.mem_cons_self, Option.map_map]
        -- a file that is looked at again is not changed again
        have htwice : stripText ∘ stripText = stripText := funext stripText_stripText
        rw [htwice, ite_self]
      · rw [if_neg hpath]
        simp [hpath]

theorem mem_written_foldl_stripFile {rels : List String} {c : Cleaned} {path : String} :
    path ∈ (rels.foldl stripFile c).written ↔
      path ∈ c.written ∨ (path ∈ rels ∧ ∃ text, c.files path = some text ∧ HasHeader text) := by
  induction rels generalizing c with
  | nil => simp
  | cons rel rels ih =>
      rw [List.foldl_cons, ih, mem_written_stripFile, files_stripFile, or_assoc]
      by_cases hpath : path = rel
      · subst hpath
        rw [if_pos rfl]
        simp [not_hasHeader_stripText]
      · rw [if_neg hpath]
        simp [hpath]

theorem mem_written {t : Target} {path : String} :
    path ∈ (stripSddmAutologin t).written ↔
      path ∈ candidates t ∧ ∃ text, t.files path = some text ∧ HasHeader text := by
  rw [stripSddmAutologin, mem_written_foldl_stripFile]
  simp

/-- A second run writes nothing. -/
theorem written_again (t : Target) :
    (stripSddmAutologin { t with files := (stripSddmAutologin t).files }).written = [] := by
  apply List.eq_nil_iff_forall_not_mem.mpr
  intro path hpath
  obtain ⟨hcandidate, text, htext, hheader⟩ := mem_written.mp hpath
  have hcandidate' : path ∈ candidates t := hcandidate
  have hstripped : (stripSddmAutologin t).files path = some text := htext
  rw [stripSddmAutologin, files_foldl_stripFile, if_pos hcandidate'] at hstripped
  obtain ⟨old, -, rfl⟩ := Option.map_eq_some_iff.mp hstripped
  exact not_hasHeader_stripText old hheader

/-- After the function has run, the lines of every file that it looks at are those that belong
to no section `[Autologin]`, in their order, and no line belongs to one any more; the other
files are what they were.  The files that had a header are written, and no others, and a
second run writes none. -/
theorem autologin_stripped (t : Target) :
    (∀ path, (stripSddmAutologin t).files path =
      if path ∈ candidates t then (t.files path).map stripText else t.files path) ∧
    (∀ path, path ∈ (stripSddmAutologin t).written ↔
      path ∈ candidates t ∧ ∃ text, t.files path = some text ∧ HasHeader text) ∧
    (stripSddmAutologin { t with files := (stripSddmAutologin t).files }).written = [] ∧
    ∀ text,
      readlines (stripText text) = outsideSections isHeader opensSection (readlines text) ∧
      ('\r' ∈ text ∨
        stripText text = (outsideSections isHeader opensSection (readlines text)).flatten) ∧
      (HasHeader text ∨ stripText text = text) ∧
      stripText (stripText text) = stripText text ∧
      ∀ i, ¬ InSection isHeader opensSection (readlines (stripText text)) i := by
  refine ⟨?_, ?_, written_again t, ?_⟩
  · intro path
    exact files_foldl_stripFile (candidates t) ⟨t.files, []⟩ path
  · intro path
    exact mem_written
  · intro text
    refine ⟨readlines_stripText text, ?_, ?_, stripText_stripText text, ?_⟩
    · by_cases hreturn : '\r' ∈ text
      · exact Or.inl hreturn
      · exact Or.inr (stripText_eq_flatten hreturn)
    · by_cases hheader : HasHeader text
      · exact Or.inl hheader
      · exact Or.inr (stripText_of_not_header hheader)
    · exact not_inSection_of_forall fun line hline => isHeader_of_mem_stripText hline

/-- Two sections next to each other, and one at the end. -/
example :
    stripText "[Autologin]\nUser=a\n[autologin]\n[Theme]\nFont=x\n [AUTOLOGIN] #\nUser=b".toList =
      "[Theme]\nFont=x\n".toList := by
  decide

end MissionOs.Installer
