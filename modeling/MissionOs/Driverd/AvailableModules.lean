import MissionOs.Driverd.Operations
import MissionOs.Lib.SortDedup
import MissionOs.Rust.Suffix

/-!
# The modules on disk

`list_available_modules` and `module_available` walk the module directories with their own
ideas of what the file of a module is called.  The list has the files under `kernel/` that end
with `.ko`, named without any of the extensions at their end; the test looks for one name with
one of four extensions in three directories.

Both are read off the lists of the files in the directories.  `listsAvailable_iff` says for
which directories they agree.
-/

namespace MissionOs.Driverd

open MissionOs.Rust MissionOs.Lib

/-! ## The two walks -/

/-- The name that `collect_kernel_modules` makes of a file name, if it is that of a module. -/
def collectedName (fileName : String) : Option String :=
  if ".ko".toList.isSuffixOf fileName.toList then
    let name := trimEndMatches ".ko".toList fileName.toList
    let name := trimEndMatches ".xz".toList name
    let name := trimEndMatches ".gz".toList name
    let name := trimEndMatches ".zst".toList name
    if name.isEmpty then none else some (String.ofList name)
  else
    none

mutual

/-- `collect_kernel_modules`, at one entry of a directory. -/
def DirTree.collectKernelModules : DirTree → List String
  | .file f => (collectedName f).toList
  | .dir _ entries => DirTree.collectAllKernelModules entries

/-- `collect_kernel_modules`, over the entries of a directory. -/
def DirTree.collectAllKernelModules : List DirTree → List String
  | [] => []
  | entry :: rest => entry.collectKernelModules ++ DirTree.collectAllKernelModules rest

end

/-- The order of strings. -/
def stringLe (a b : String) : Bool := (strCmp a.toList b.toList).isLE

/-- `KmodManager::list_available_modules`. -/
def listAvailableModules (w : World) : ServiceResult (List String) :=
  let moduleNames :=
    match w.moduleDirs.kernel with
    | none => []
    | some entries => DirTree.collectAllKernelModules entries
  .ok (sortDedup stringLe moduleNames)

/-! ## The files of the directories -/

mutual

/-- The names of the files in a tree. -/
def DirTree.fileNames : DirTree → List String
  | .file f => [f]
  | .dir _ entries => DirTree.allFileNames entries

/-- The names of the files under the entries of a directory. -/
def DirTree.allFileNames : List DirTree → List String
  | [] => []
  | entry :: rest => entry.fileNames ++ DirTree.allFileNames rest

end

namespace DirTree

mutual

theorem collectKernelModules_eq :
    ∀ t : DirTree, t.collectKernelModules = t.fileNames.filterMap collectedName
  | .file f => by
      rw [collectKernelModules, fileNames]
      cases h : collectedName f with
      | none => simp [h]
      | some name => simp [h]
  | .dir _ entries => by
      rw [collectKernelModules, fileNames, collectAllKernelModules_eq entries]

theorem collectAllKernelModules_eq :
    ∀ entries : List DirTree,
      collectAllKernelModules entries = (allFileNames entries).filterMap collectedName
  | [] => rfl
  | entry :: rest => by
      rw [collectAllKernelModules, allFileNames, List.filterMap_append,
        collectKernelModules_eq entry, collectAllKernelModules_eq rest]

end

mutual

theorem hasModule_iff (name : String) (extensions : List String) :
    ∀ t : DirTree, t.hasModule name extensions = true ↔
      ∃ f ∈ t.fileNames, ∃ ext ∈ extensions, f = name ++ ext
  | .file f => by
      rw [hasModule, fileNames, List.any_eq_true]
      simp only [List.mem_singleton, exists_eq_left, beq_iff_eq]
  | .dir _ entries => by
      rw [hasModule, fileNames, anyHasModule_iff name extensions entries]

theorem anyHasModule_iff (name : String) (extensions : List String) :
    ∀ entries : List DirTree, anyHasModule name extensions entries = true ↔
      ∃ f ∈ allFileNames entries, ∃ ext ∈ extensions, f = name ++ ext
  | [] => by
      rw [anyHasModule, allFileNames]
      simp
  | entry :: rest => by
      rw [anyHasModule, allFileNames, Bool.or_eq_true, hasModule_iff name extensions entry,
        anyHasModule_iff name extensions rest]
      constructor
      · intro h
        rcases h with ⟨f, hf, hext⟩ | ⟨f, hf, hext⟩
        · exact ⟨f, List.mem_append_left _ hf, hext⟩
        · exact ⟨f, List.mem_append_right _ hf, hext⟩
      · intro h
        obtain ⟨f, hf, hext⟩ := h
        rcases List.mem_append.mp hf with hf | hf
        · exact Or.inl ⟨f, hf, hext⟩
        · exact Or.inr ⟨f, hf, hext⟩

end

end DirTree

/-! ## Names and files -/

/-- The files in a directory, which may not exist. -/
def filesIn (dir : Option (List DirTree)) : List String :=
  DirTree.allFileNames (dir.getD [])

/-- The files under `kernel/`, `updates/` and `extra/`. -/
def ModuleDirs.fileNames (dirs : ModuleDirs) : List String :=
  filesIn dirs.kernel ++ (filesIn dirs.updates ++ filesIn dirs.extra)

/-- The extensions that `module_available` tries. -/
def moduleExtensions : List String := [".ko", ".ko.xz", ".ko.gz", ".ko.zst"]

/-- The extensions that `collect_kernel_modules` takes off a name, in this order. -/
def trimmedExtensions : List (List Char) :=
  [".ko".toList, ".xz".toList, ".gz".toList, ".zst".toList]

/-- A module is available if a file is its name with one of the extensions. -/
theorem moduleAvailable_iff {w : World} {name : String} :
    moduleAvailable w name = true ↔
      ∃ f ∈ w.moduleDirs.fileNames, ∃ ext ∈ moduleExtensions, f = name ++ ext := by
  have hany : moduleAvailable w name =
      [w.moduleDirs.kernel, w.moduleDirs.updates, w.moduleDirs.extra].any
        fun dir => DirTree.anyHasModule name moduleExtensions (dir.getD []) := by
    rw [moduleAvailable]
    congr 1
    funext dir
    cases dir with
    | none => rfl
    | some entries => rfl
  simp only [hany, List.any_cons, List.any_nil, Bool.or_false, Bool.or_eq_true,
    DirTree.anyHasModule_iff, ModuleDirs.fileNames, List.mem_append, or_and_right, exists_or,
    filesIn]

/-- The name is made of the file name without `.ko`. -/
theorem collectedName_eq_some_iff {f name : String} :
    collectedName f = some name ↔
      ∃ stem : String, f = stem ++ ".ko" ∧
        name.toList = trimEndEach trimmedExtensions stem.toList ∧ name ≠ "" := by
  unfold collectedName
  by_cases hko : ".ko".toList.isSuffixOf f.toList = true
  · obtain ⟨chars, hchars⟩ := List.isSuffixOf_iff_suffix.mp hko
    obtain ⟨stem, rfl⟩ : ∃ stem : String, stem.toList = chars :=
      ⟨String.ofList chars, String.toList_ofList⟩
    obtain rfl : stem ++ ".ko" = f :=
      String.toList_injective (String.toList_append.trans hchars)
    have htrim : trimEndMatches ".zst".toList (trimEndMatches ".gz".toList
        (trimEndMatches ".xz".toList (trimEndMatches ".ko".toList (stem ++ ".ko").toList))) =
        trimEndEach trimmedExtensions stem.toList := by
      rw [String.toList_append, trimEndMatches_append (by decide), trimEndEach,
        trimmedExtensions, List.foldl_cons, List.foldl_cons, List.foldl_cons, List.foldl_cons,
        List.foldl_nil]
    rw [if_pos hko]
    simp only [htrim]
    constructor
    · intro h
      split_ifs at h with hempty
      have hname := Option.some.inj h
      refine ⟨stem, rfl, by rw [← hname, String.toList_ofList], ?_⟩
      intro hnil
      rw [hnil] at hname
      have htext := congrArg String.toList hname
      rw [String.toList_ofList] at htext
      rw [htext] at hempty
      exact hempty rfl
    · intro h
      obtain ⟨stem', hsame, hname, hne⟩ := h
      obtain rfl : stem = stem' := String.append_left_inj ".ko" |>.mp hsame
      have hempty : ¬ (trimEndEach trimmedExtensions stem.toList).isEmpty = true := by
        rw [← hname, List.isEmpty_iff, String.toList_eq_nil_iff]
        exact hne
      rw [if_neg hempty, ← hname, String.ofList_toList]
  · rw [if_neg hko]
    refine iff_of_false (fun h => nomatch h) ?_
    intro h
    obtain ⟨stem, rfl, -⟩ := h
    exact hko (List.isSuffixOf_iff_suffix.mpr ⟨stem.toList, String.toList_append.symm⟩)

theorem mem_listAvailableModules {w : World} {names : List String}
    (h : listAvailableModules w = .ok names) {name : String} :
    name ∈ names ↔ ∃ f ∈ filesIn w.moduleDirs.kernel, collectedName f = some name := by
  have hnames : names = sortDedup stringLe
      ((filesIn w.moduleDirs.kernel).filterMap collectedName) := by
    rw [← Except.ok.inj h, filesIn]
    cases w.moduleDirs.kernel with
    | none => rfl
    | some entries =>
        rw [Option.getD_some, ← DirTree.collectAllKernelModules_eq]
  rw [hnames, mem_sortDedup, List.mem_filterMap]

/-! ## When the two agree -/

/-- The list has, in increasing order, exactly the modules that are available. -/
def ListsAvailable (w : World) : Prop :=
  ∃ names, listAvailableModules w = .ok names ∧
    (names.Pairwise fun a b => strCmp a.toList b.toList = .lt) ∧
    ∀ name, name ∈ names ↔ moduleAvailable w name = true

/-- Every file that can be taken for a module has a name that is not empty and does not end
with an extension, and a file with the extension `.ko` under `kernel/`. -/
def PlainModuleFiles (dirs : ModuleDirs) : Prop :=
  ∀ f ∈ dirs.fileNames, ∀ ext ∈ moduleExtensions, ∀ name, f = name ++ ext →
    name ≠ "" ∧ (∀ ext ∈ trimmedExtensions, ¬ ext <:+ name.toList) ∧
      name ++ ".ko" ∈ filesIn dirs.kernel

theorem stringLe_trans (a b c : String) (hab : stringLe a b = true) (hbc : stringLe b c = true) :
    stringLe a c = true :=
  Std.TransCmp.isLE_trans hab hbc

theorem stringLe_total (a b : String) : (stringLe a b || stringLe b a) = true := by
  have hswap : strCmp b.toList a.toList = (strCmp a.toList b.toList).swap :=
    Std.OrientedCmp.eq_swap
  unfold stringLe
  rw [hswap]
  cases strCmp a.toList b.toList <;> rfl

theorem stringLe_antisymm (a b : String) (hab : stringLe a b = true)
    (hba : stringLe b a = true) : a = b :=
  String.toList_injective (strCmp_eq_iff.mp (Std.OrientedCmp.isLE_antisymm hab hba))

/-- The list is sorted, and no name stands in it twice. -/
theorem pairwise_listAvailableModules {w : World} {names : List String}
    (h : listAvailableModules w = .ok names) :
    names.Pairwise fun a b => strCmp a.toList b.toList = .lt := by
  rw [← Except.ok.inj h]
  apply (pairwise_sortDedup stringLe_trans stringLe_total stringLe_antisymm).imp
  intro a b hbelow
  obtain ⟨hle, hne⟩ := hbelow
  unfold stringLe at hle
  cases hcmp : strCmp a.toList b.toList with
  | lt => rfl
  | eq => exact absurd (String.toList_injective (strCmp_eq_iff.mp hcmp)) hne
  | gt =>
      rw [hcmp] at hle
      cases hle

theorem trimmedExtensions_ne_nil : ∀ ext ∈ trimmedExtensions, ext ≠ [] := by
  intro ext hext
  simp only [trimmedExtensions, List.mem_cons, List.not_mem_nil, or_false] at hext
  rcases hext with rfl | rfl | rfl | rfl <;> decide

/-- A name that is not empty and ends with no extension is made of its own file. -/
theorem collectedName_append_ko {name : String} (hne : name ≠ "")
    (hplain : ∀ ext ∈ trimmedExtensions, ¬ ext <:+ name.toList) :
    collectedName (name ++ ".ko") = some name := by
  rw [collectedName_eq_some_iff]
  refine ⟨name, rfl, ?_, hne⟩
  exact ((trimEndEach_eq_self_iff trimmedExtensions_ne_nil).mpr hplain).symm

/-- It is the only name made of that file. -/
theorem eq_of_trimEndEach {name stem : String}
    (hname : name.toList = trimEndEach trimmedExtensions stem.toList)
    (hplain : ∀ ext ∈ trimmedExtensions, ¬ ext <:+ stem.toList) : name = stem := by
  rw [(trimEndEach_eq_self_iff trimmedExtensions_ne_nil).mpr hplain] at hname
  exact String.toList_injective hname

/-- The file of a listed name is one that the test takes for a module as well. -/
theorem moduleAvailable_of_file {w : World} {stem : String}
    (h : stem ++ ".ko" ∈ filesIn w.moduleDirs.kernel) : moduleAvailable w stem = true :=
  moduleAvailable_iff.mpr
    ⟨stem ++ ".ko", List.mem_append_left _ h, ".ko", List.mem_cons_self, rfl⟩

section Agree

variable {w : World}
    (hall : ∀ name, (∃ f ∈ filesIn w.moduleDirs.kernel, collectedName f = some name) ↔
      moduleAvailable w name = true)

include hall

/-- Where the list and the test agree, a name that ends with an extension is taken from the
file of a longer name that does. -/
theorem exists_longer {name : String} (havailable : moduleAvailable w name = true)
    (hext : ∃ ext ∈ trimmedExtensions, ext <:+ name.toList) :
    ∃ longer, moduleAvailable w longer = true ∧
      (∃ ext ∈ trimmedExtensions, ext <:+ longer.toList) ∧
      name.toList.length < longer.toList.length := by
  obtain ⟨f, hf, hcollected⟩ := (hall name).mpr havailable
  obtain ⟨stem, rfl, hname, -⟩ := collectedName_eq_some_iff.mp hcollected
  have hne : name ≠ stem := by
    intro heq
    obtain ⟨ext, hmem, hsuffix⟩ := hext
    rw [heq] at hname hsuffix
    exact (trimEndEach_eq_self_iff trimmedExtensions_ne_nil).mp hname.symm ext hmem hsuffix
  refine ⟨stem, moduleAvailable_of_file hf, ?_, ?_⟩
  · by_contra hplain
    apply hne
    apply eq_of_trimEndEach hname
    intro ext hmem hsuffix
    exact hplain ⟨ext, hmem, hsuffix⟩
  · by_contra hle
    have hbegin := trimEndEach_isPrefix trimmedExtensions stem.toList
    rw [← hname] at hbegin
    exact hne (String.toList_injective (hbegin.eq_of_length_le (by omega)))

/-- So no name ends with an extension, since the names of the files are not arbitrarily
long. -/
theorem plain_of_available {name : String} (havailable : moduleAvailable w name = true) :
    ∀ ext ∈ trimmedExtensions, ¬ ext <:+ name.toList := by
  intro ext hext hsuffix
  have hlong : ∀ k, ∃ longer, moduleAvailable w longer = true ∧
      (∃ ext ∈ trimmedExtensions, ext <:+ longer.toList) ∧ k ≤ longer.toList.length := by
    intro k
    induction k with
    | zero => exact ⟨name, havailable, ⟨ext, hext, hsuffix⟩, Nat.zero_le _⟩
    | succ k ih =>
        obtain ⟨longer, hlonger, hends, hle⟩ := ih
        obtain ⟨next, hnext, hends, hlt⟩ := exists_longer hall hlonger hends
        exact ⟨next, hnext, hends, by omega⟩
  obtain ⟨bound, hbound⟩ : ∃ bound, ∀ f ∈ w.moduleDirs.fileNames, f.toList.length ≤ bound := by
    generalize w.moduleDirs.fileNames = files
    induction files with
    | nil => exact ⟨0, by simp⟩
    | cons f files ih =>
        obtain ⟨bound, hbound⟩ := ih
        refine ⟨f.toList.length + bound, List.forall_mem_cons.mpr ⟨by omega, ?_⟩⟩
        intro f' hf'
        have hle := hbound f' hf'
        omega
  obtain ⟨longer, hlonger, -, hle⟩ := hlong (bound + 1)
  obtain ⟨f, hf, ext, -, rfl⟩ := moduleAvailable_iff.mp hlonger
  have hfile := hbound _ hf
  rw [String.toList_append, List.length_append] at hfile
  omega

end Agree

/-- The list has exactly the available modules if and only if every file that can be taken for
a module is plainly named and has its uncompressed file under `kernel/`. -/
theorem listsAvailable_iff (w : World) :
    ListsAvailable w ↔ PlainModuleFiles w.moduleDirs := by
  obtain ⟨names, hnames⟩ : ∃ names, listAvailableModules w = .ok names := ⟨_, rfl⟩
  constructor
  · intro h
    obtain ⟨names', hnames', -, hall⟩ := h
    simp only [mem_listAvailableModules hnames'] at hall
    intro f hf ext hext name hfile
    have havailable := moduleAvailable_iff.mpr ⟨f, hf, ext, hext, hfile⟩
    obtain ⟨f', hf', hcollected⟩ := (hall name).mpr havailable
    obtain ⟨stem, rfl, hname, hne⟩ := collectedName_eq_some_iff.mp hcollected
    -- The file that the name was taken from is a module file itself, so its stem is plain.
    have hstem := plain_of_available hall (moduleAvailable_of_file hf')
    obtain rfl := eq_of_trimEndEach hname hstem
    exact ⟨hne, hstem, hf'⟩
  · intro hplain
    refine ⟨names, hnames, pairwise_listAvailableModules hnames, ?_⟩
    intro name
    rw [mem_listAvailableModules hnames]
    constructor
    · intro h
      obtain ⟨f, hf, hcollected⟩ := h
      obtain ⟨stem, rfl, hname, -⟩ := collectedName_eq_some_iff.mp hcollected
      obtain ⟨-, hstem, -⟩ :=
        hplain _ (List.mem_append_left _ hf) ".ko" List.mem_cons_self stem rfl
      rw [eq_of_trimEndEach hname hstem]
      exact moduleAvailable_of_file hf
    · intro h
      obtain ⟨f, hf, ext, hext, hfile⟩ := moduleAvailable_iff.mp h
      obtain ⟨hne, hname, hko⟩ := hplain f hf ext hext name hfile
      exact ⟨name ++ ".ko", hko, collectedName_append_ko hne hname⟩

/-- A machine on which `e1000e` is installed as a compressed module. -/
def compressedMachine : World :=
  .boot ⟨[], [], 0⟩ 0 ⟨[]⟩ inTreeModules .empty

/-- The compressed module is available, and is not listed. -/
theorem not_listsAvailable_compressed :
    moduleAvailable compressedMachine "e1000e" = true ∧
      listAvailableModules compressedMachine = .ok [] ∧ ¬ ListsAvailable compressedMachine := by
  have havailable : moduleAvailable compressedMachine "e1000e" = true := by decide
  have hlist : listAvailableModules compressedMachine = .ok [] := by
    show Except.ok (dropRepeats (List.mergeSort [] stringLe)) = _
    rw [List.mergeSort_nil]
    rfl
  refine ⟨havailable, hlist, ?_⟩
  intro h
  obtain ⟨names, hnames, -, hall⟩ := h
  rw [hlist] at hnames
  obtain rfl := Except.ok.inj hnames
  exact absurd ((hall "e1000e").mpr havailable) List.not_mem_nil

end MissionOs.Driverd
