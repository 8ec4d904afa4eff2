import MissionOs.Driverd.Kmod
import MissionOs.Rust.Words

/-!
# The table of loaded modules

The kernel writes `/proc/modules` with one line for each module.  The modules that use it are
written with a comma after each, and `list_modules` splits them at every comma, so that the
last one is followed by a module without a name.

`columns_ofText` says what is read back of every table, and `readsBack_iff` of which tables
that is the table itself.
-/

namespace MissionOs.Driverd

open MissionOs.Rust

/-! ## The text of the kernel -/

/-- A text that can stand in a column: not empty, and without white space and commas. -/
def isColumn (s : String) : Bool :=
  s ≠ "" && s.toList.all fun c => !isWhitespace c && c ≠ ','

/-- The name of a module, an address, or a list of taint flags. -/
structure Column where
  text : String
  valid : isColumn text = true
deriving DecidableEq, Repr

namespace Column

theorem isWord (column : Column) : IsWord column.text.toList := by
  have hvalid := column.valid
  rw [isColumn, Bool.and_eq_true, List.all_eq_true] at hvalid
  constructor
  · intro hnil
    have hempty : column.text = "" := String.toList_eq_nil_iff.mp hnil
    simp [hempty] at hvalid
  · intro c hc
    have hchar := hvalid.2 c hc
    rw [Bool.and_eq_true, Bool.not_eq_true'] at hchar
    exact hchar.1

theorem not_comma (column : Column) : ',' ∉ column.text.toList := by
  intro hmem
  have hvalid := column.valid
  rw [isColumn, Bool.and_eq_true, List.all_eq_true] at hvalid
  have hchar := hvalid.2 ',' hmem
  simp at hchar

end Column

/-- A line of the table: a module that is loaded, with the modules that use it. -/
structure ProcEntry where
  name : Column
  size : UInt64
  refCount : UInt32
  usedBy : List Column
  liveness : Liveness
  address : Column
  taints : Option Column
deriving DecidableEq, Repr

namespace ProcEntry

/-- The fourth column: `-`, or the modules with a comma after each. -/
def usersText (usedBy : List Column) : List Char :=
  if usedBy.isEmpty then ['-'] else usedBy.flatMap fun user => user.text.toList ++ [',']

/-- The columns of a line. -/
def columns (entry : ProcEntry) : List (List Char) :=
  [entry.name.text.toList, Nat.toDigits 10 entry.size.toNat,
    Nat.toDigits 10 entry.refCount.toNat, usersText entry.usedBy,
    entry.liveness.word.toList, entry.address.text.toList] ++
  entry.taints.toList.map fun taints => taints.text.toList

/-- A line of `/proc/modules`, without the line feed. -/
def line (entry : ProcEntry) : List Char := [' '].intercalate entry.columns

end ProcEntry

/-- The text of `/proc/modules` for a table. -/
def procText (table : List ProcEntry) : String :=
  String.ofList (textOfLines (table.map ProcEntry.line))

/-! ## Reading it -/

/-- What `list_modules` makes of the text of `/proc/modules`. -/
def ModuleInfo.ofText (content : String) : List ModuleInfo :=
  (lines content.toList).filterMap ModuleInfo.ofLine

theorem listModules_eq (env : Env) (w : World) (h : env.procModulesFault = none) :
    (listModules env w).1 = .ok (ModuleInfo.ofText w.kernel.procModules) := by
  rw [listModules]
  simp only [bind, StateT.bind, h]
  rfl

namespace ProcEntry

/-- The names in the fourth column as `list_modules` reads them. -/
def readUsers (usedBy : List Column) : List String :=
  if usedBy.isEmpty then [] else usedBy.map (·.text) ++ [""]

/-- The module that is read from a line. -/
def read (entry : ProcEntry) : ModuleInfo where
  name := entry.name.text
  state := .fromProcModulesState entry.liveness.word.toList
  sizeBytes := entry.size
  usedByCount := entry.refCount
  usedBy := readUsers entry.usedBy
  isBuiltin := false
  path := none

theorem isWord_usersText (usedBy : List Column) : IsWord (usersText usedBy) := by
  unfold usersText
  cases usedBy with
  | nil => exact isWord_of_all (List.cons_ne_nil _ _) (by decide)
  | cons user rest =>
      constructor
      · simp
      · intro c hc
        obtain ⟨user', -, hc⟩ := List.mem_flatMap.mp hc
        rcases List.mem_append.mp hc with hc | hc
        · exact user'.isWord.not_space c hc
        · rw [List.mem_singleton.mp hc]
          rfl

theorem isWord_of_mem_columns (entry : ProcEntry) :
    ∀ column ∈ entry.columns, IsWord column := by
  intro column hcolumn
  rcases List.mem_append.mp hcolumn with hcolumn | hcolumn
  · simp only [List.mem_cons, List.not_mem_nil, or_false] at hcolumn
    rcases hcolumn with rfl | rfl | rfl | rfl | rfl | rfl
    · exact entry.name.isWord
    · exact isWord_of_isDecimal (isDecimal_toDigits _)
    · exact isWord_of_isDecimal (isDecimal_toDigits _)
    · exact isWord_usersText entry.usedBy
    · cases entry.liveness <;> exact isWord_of_all (by decide) (by decide)
    · exact entry.address.isWord
  · obtain ⟨taints, -, rfl⟩ := List.mem_map.mp hcolumn
    exact taints.isWord

/-- The names in the fourth column, taken apart at the commas. -/
theorem splitOn_usersText {usedBy : List Column} (h : usedBy ≠ []) :
    (usersText usedBy).splitOn ',' = (usedBy.map fun user => user.text.toList) ++ [[]] := by
  have hjoin : usersText usedBy =
      [','].intercalate ((usedBy.map fun user => user.text.toList) ++ [[]]) := by
    rw [usersText, if_neg (by simpa using h)]
    clear h
    induction usedBy with
    | nil => rfl
    | cons user rest ih =>
        rw [List.flatMap_cons, ih, List.map_cons, List.cons_append,
          List.intercalate_cons_of_ne_nil (by simp)]
  rw [hjoin]
  apply List.splitOn_intercalate
  · intro part hpart
    rcases List.mem_append.mp hpart with hpart | hpart
    · obtain ⟨user, -, rfl⟩ := List.mem_map.mp hpart
      exact user.not_comma
    · rw [List.mem_singleton.mp hpart]
      exact List.not_mem_nil
  · simp

theorem usersText_eq_dash_iff {usedBy : List Column} :
    usersText usedBy = ['-'] ↔ usedBy = [] := by
  constructor
  · intro h
    by_contra hne
    have hsplit := splitOn_usersText hne
    rw [h, List.splitOn_eq_singleton (by decide)] at hsplit
    have hlength := congrArg List.length hsplit
    simp only [List.length_append, List.length_map, List.length_singleton] at hlength
    exact hne (List.length_eq_zero_iff.mp (by omega))
  · intro h
    rw [h]
    rfl

/-- The fourth column is read with a nameless module behind the last. -/
theorem readUsers_eq (usedBy : List Column) :
    (if usersText usedBy = ['-'] then []
      else ((usersText usedBy).splitOn ',').map fun s => String.ofList (trim s)) =
        readUsers usedBy := by
  by_cases h : usedBy = []
  · rw [if_pos (usersText_eq_dash_iff.mpr h), readUsers, if_pos (by simpa using h)]
  · rw [if_neg (mt usersText_eq_dash_iff.mp h), readUsers, if_neg (by simpa using h),
      splitOn_usersText h, List.map_append, List.map_map]
    congr 1
    apply List.map_congr_left
    intro user _
    show String.ofList (trim user.text.toList) = user.text
    rw [trim_eq_self_of_forall user.isWord.not_space, String.ofList_toList]

/-- Every line is read. -/
theorem ofLine_line (entry : ProcEntry) : ModuleInfo.ofLine entry.line = some entry.read := by
  have hwords := entry.isWord_of_mem_columns
  have hne : entry.columns ≠ [] := List.cons_ne_nil _ _
  rw [ModuleInfo.ofLine, line, trim_intercalate hwords, splitWhitespace_intercalate hwords hne]
  show some _ = _
  simp only [parseU64_toDigits, parseU32_toDigits, readUsers_eq, String.ofList_toList]
  rfl

theorem line_endsLine (entry : ProcEntry) :
    '\n' ∉ entry.line ∧ entry.line.getLast? ≠ some '\r' := by
  constructor
  · exact not_mem_intercalate entry.isWord_of_mem_columns rfl (by decide)
  · intro hlast
    have hspace := not_isWhitespace_getLast entry.isWord_of_mem_columns hlast
    exact absurd hspace (by decide)

/-- What is read of a table. -/
theorem ofText_procText (table : List ProcEntry) :
    ModuleInfo.ofText (procText table) = table.map read := by
  have hlines : ∀ l ∈ table.map line, '\n' ∉ l ∧ l.getLast? ≠ some '\r' := by
    intro l hl
    obtain ⟨entry, -, rfl⟩ := List.mem_map.mp hl
    exact entry.line_endsLine
  rw [ModuleInfo.ofText, procText, String.toList_ofList, lines_textOfLines hlines]
  induction table with
  | nil => rfl
  | cons entry table ih =>
      rw [List.map_cons, List.filterMap_cons, ofLine_line, List.map_cons]
      rw [ih fun l hl => hlines l (List.mem_cons_of_mem _ hl)]

end ProcEntry

/-! ## Tables that are read back -/

/-- What a line says of a module: its name, size, count and users. -/
abbrev ModuleRow := String × UInt64 × UInt32 × List String

def ProcEntry.row (entry : ProcEntry) : ModuleRow :=
  (entry.name.text, entry.size, entry.refCount, entry.usedBy.map (·.text))

def ModuleInfo.row (info : ModuleInfo) : ModuleRow :=
  (info.name, info.sizeBytes, info.usedByCount, info.usedBy)

/-- The table is read back: each module in its place, with its size, its count and its
users. -/
def ReadsBack (table : List ProcEntry) : Prop :=
  (ModuleInfo.ofText (procText table)).map ModuleInfo.row = table.map ProcEntry.row

theorem ProcEntry.row_read_iff (entry : ProcEntry) :
    entry.read.row = entry.row ↔ entry.usedBy = [] := by
  constructor
  · intro h
    have husers : readUsers entry.usedBy = entry.usedBy.map (·.text) :=
      congrArg (fun row => row.2.2.2) h
    by_contra hne
    rw [readUsers, if_neg (by simpa using hne)] at husers
    have hlength := congrArg List.length husers
    simp at hlength
  · intro h
    simp [ProcEntry.row, ModuleInfo.row, ProcEntry.read, readUsers, h]

/-- A table is read back exactly if no module in it is used by another. -/
theorem readsBack_iff (table : List ProcEntry) :
    ReadsBack table ↔ ∀ entry ∈ table, entry.usedBy = [] := by
  rw [ReadsBack, ProcEntry.ofText_procText, List.map_map, List.map_inj_left]
  constructor
  · intro h entry hentry
    exact entry.row_read_iff.mp (h entry hentry)
  · intro h entry hentry
    exact entry.row_read_iff.mpr (h entry hentry)

/-- `usbcore`, used by `xhci_hcd`. -/
def usbcoreEntry : ProcEntry where
  name := ⟨"usbcore", by decide⟩
  size := 348160
  refCount := 1
  usedBy := [⟨"xhci_hcd", by decide⟩]
  liveness := .live
  address := ⟨"0x0000000000000000", by decide⟩
  taints := none

/-- `xhci_hcd` is read with a second module after it. -/
theorem not_readsBack_usbcore :
    procText [usbcoreEntry] = "usbcore 348160 1 xhci_hcd, Live 0x0000000000000000\n" ∧
      (ModuleInfo.ofText (procText [usbcoreEntry])).map (·.usedBy) = [["xhci_hcd", ""]] ∧
      ¬ ReadsBack [usbcoreEntry] := by
  unfold ReadsBack
  decide +kernel

end MissionOs.Driverd
