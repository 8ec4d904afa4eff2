import MissionOs.Driverd.CacheLimits

/-!
# Eviction from a cache of packages

In a cache directory that holds packages, their metadata and partial files, `enforce_limits`
removes the oldest packages, as few of them as possible, and nothing else
(`enforceLimits_evicts`).  The number that its first check counts is there that of the
entries that its loop goes through.
-/

namespace MissionOs.Driverd.CacheManager

open MissionOs.Rust MissionOs.Lib

/-- The name of a package, such as `pkg-` and a hexadecimal number: there is no extension. -/
structure IsPackageName (name : String) : Prop where
  begins : isPackageName name = true
  no_dot : '.' ∉ name.toList

/-- The directory of the cache holds only regular files, which are packages, metadata and
partial files. -/
def HoldsPackages (manager : CacheManager) (fs : FileSystem) : Prop :=
  ∀ name, hasEntry fs manager.config.cachePath name = true →
    (fs.get? (manager.config.cachePath.entry name)).isSome = true ∧
      (IsPackageName name ∨ Path.extension name = some metaExtension ∨
        Path.extension name = some partialExtension)

/-- The path is that of a package in the directory. -/
def IsPackageIn (manager : CacheManager) (fs : FileSystem) (path : Path) : Prop :=
  ∃ name, IsPackageName name ∧ hasEntry fs manager.config.cachePath name = true ∧
    path = manager.config.cachePath.entry name

/-- The packages were modified at different times. -/
def DistinctTimes (manager : CacheManager) (env : CacheEnv) (fs : FileSystem) : Prop :=
  ∀ path path', manager.IsPackageIn fs path → manager.IsPackageIn fs path' →
    timeOf env path = timeOf env path' → path = path'

/-- The packages in the order of their times. -/
structure InOrder (manager : CacheManager) (env : CacheEnv) (fs : FileSystem)
    (order : List Path) : Prop where
  mem_iff : ∀ path, path ∈ order ↔ manager.IsPackageIn fs path
  older : order.Pairwise fun path path' => timeOf env path < timeOf env path'

/-- Of the packages in order, `gone` is the shortest part without which the rest fits. -/
structure ShortestPart (manager : CacheManager) (env : CacheEnv) (fs : FileSystem)
    (order gone rest : List Path) : Prop where
  split : order = gone ++ rest
  fits : manager.bounds.Fits (sizeOf env fs) rest
  shortest : ∀ pre post, order = pre ++ post → manager.bounds.Fits (sizeOf env fs) post →
    gone.length ≤ pre.length

/-- From `fs` to `fs'` the packages `gone` were removed with their metadata, and nothing
else. -/
structure RemovedExactly (gone : List Path) (fs fs' : FileSystem) : Prop where
  removed : ∀ q path : Path, path ∈ gone →
    q.resolve = path.resolve ∨ q.resolve = (path.withExtension metaExtension).resolve →
    fs'.get? q = none
  kept : ∀ q : Path, (∀ path ∈ gone, q.resolve ≠ path.resolve ∧
    q.resolve ≠ (path.withExtension metaExtension).resolve) → fs'.get? q = fs.get? q
  dirs : fs'.dirs = fs.dirs

section Packages

variable {manager : CacheManager} {env : CacheEnv} {fs : FileSystem} {host : CacheHost}

theorem isAuxiliary_entry_iff (dir : Path) {name : String} (hdots : name ≠ "..") :
    isAuxiliary (dir.entry name) = true ↔ Path.extension name = some partialExtension ∨
      Path.extension name = some metaExtension := by
  rw [isAuxiliary, extensionOf, Path.fileName_entry dir hdots, Option.bind_some,
    Bool.or_eq_true, decide_eq_true_iff, decide_eq_true_iff]

theorem IsPackageName.not_auxiliary {name : String} (h : IsPackageName name)
    (hdots : name ≠ "..") (dir : Path) : isAuxiliary (dir.entry name) = false := by
  rw [← Bool.not_eq_true, isAuxiliary_entry_iff dir hdots, Path.extension_of_no_dot h.no_dot]
  rintro (hext | hext) <;> cases hext

/-- What is counted in such a directory are the packages. -/
theorem mem_shown_iff_isPackageIn (h : manager.Readable env fs)
    (honly : manager.HoldsPackages fs) {n : Nat} {path : Path} :
    path ∈ manager.shown env fs n ↔ manager.IsPackageIn fs path := by
  rw [mem_shown_iff h]
  constructor
  · rintro ⟨name, hname, rfl, haux⟩
    have hdots := ne_dots_of_hasEntry hname
    rw [← Bool.not_eq_true, isAuxiliary_entry_iff _ hdots, not_or] at haux
    rcases (honly name hname).2 with hpkg | hext | hext
    · exact ⟨name, hpkg, hname, rfl⟩
    · exact absurd hext haux.2
    · exact absurd hext haux.1
  · rintro ⟨name, hpkg, hname, rfl⟩
    exact ⟨name, hname, rfl, hpkg.not_auxiliary (ne_dots_of_hasEntry hname) _⟩

/-- The first check counts the entries that the loop goes through. -/
theorem isWithin_iff (h : manager.Readable env fs) (honly : manager.HoldsPackages fs) :
    manager.IsWithin env fs ↔
      manager.bounds.Fits (sizeOf env fs) (manager.oldestFirst env fs) := by
  have hpackages : ∀ n, (manager.shown env fs n).filter isPackage = manager.shown env fs n := by
    intro n
    refine List.filter_eq_self.mpr fun path hpath => ?_
    obtain ⟨name, hpkg, hname, rfl⟩ := (mem_shown_iff_isPackageIn h honly).mp hpath
    rw [isPackage, Path.fileName_entry _ (ne_dots_of_hasEntry hname)]
    exact hpkg.begins
  have hcount : manager.packageCount env fs (manager.sizedAfter env fs) =
      (manager.oldestFirst env fs).length := by
    rw [packageCount, hpackages, oldestFirst_perm.length_eq]
    exact (shown_perm h _ _).length_eq
  rw [IsWithin, totalBytes_eq h, hcount]
  rfl

theorem givenUp_eq (h : manager.Readable env fs) (honly : manager.HoldsPackages fs) :
    manager.givenUp env fs =
      manager.bounds.evicted (sizeOf env fs) (manager.oldestFirst env fs) := by
  unfold givenUp
  split_ifs with hwithin
  · exact (Bounds.evicted_of_fits ((isWithin_iff h honly).mp hwithin)).symm
  · rfl

/-- The sort puts the packages in order. -/
theorem oldestFirst_inOrder (h : manager.Readable env fs) (honly : manager.HoldsPackages fs)
    (htimes : manager.DistinctTimes env fs) :
    manager.InOrder env fs (manager.oldestFirst env fs) where
  mem_iff path := oldestFirst_perm.mem_iff.trans (mem_shown_iff_isPackageIn h honly)
  older := by
    have hmem : ∀ path ∈ manager.oldestFirst env fs, manager.IsPackageIn fs path :=
      fun path hpath => (mem_shown_iff_isPackageIn h honly).mp (oldestFirst_perm.mem_iff.mp hpath)
    have hnodup : (manager.oldestFirst env fs).Nodup :=
      oldestFirst_perm.nodup_iff.mpr (nodup_shown _)
    have hsorted : (manager.oldestFirst env fs).Pairwise fun path path' =>
        timeOf env path ≤ timeOf env path' := by
      have hmerged := @List.pairwise_mergeSort (Path × Nat) (fun a b => a.2 ≤ b.2)
        (fun a b c hab hbc => by simp_all; omega) (fun a b => by simp; omega)
        ((manager.shown env fs (manager.collectedAfter env fs)).map fun path =>
          (path, timeOf env path))
      refine List.pairwise_map.mpr (hmerged.imp_of_mem fun {a b} ha hb hle => ?_)
      obtain ⟨path, -, rfl⟩ := List.mem_map.mp (List.mem_mergeSort.mp ha)
      obtain ⟨path', -, rfl⟩ := List.mem_map.mp (List.mem_mergeSort.mp hb)
      exact of_decide_eq_true hle
    refine (hsorted.and hnodup).imp_of_mem fun {path path'} hpath hpath' hboth => ?_
    refine lt_of_le_of_ne hboth.1 fun hsame => hboth.2 ?_
    exact htimes path path' (hmem path hpath) (hmem path' hpath') hsame

/-- `enforce_limits` on a directory of packages that were modified at different times, where
every removal succeeds. -/
theorem enforceLimits_evicts (host : CacheHost) (h : manager.Readable env fs)
    (honly : manager.HoldsPackages fs) (htimes : manager.DistinctTimes env fs)
    (hremoves : ∀ path, env.Removes path) :
    (env.run host manager.enforceLimits fs).1 = .ok () ∧
      ∃ order gone rest, manager.InOrder env fs order ∧
        manager.ShortestPart env fs order gone rest ∧
        RemovedExactly gone fs (env.run host manager.enforceLimits fs).2 := by
  obtain ⟨_, hok, hremoved⟩ := run_of_ensures (@enforceLimits_removes manager env fs host h)
  rw [givenUp_eq h honly] at hremoved
  refine ⟨hok, manager.oldestFirst env fs,
    manager.bounds.evicted (sizeOf env fs) (manager.oldestFirst env fs),
    manager.bounds.kept (sizeOf env fs) (manager.oldestFirst env fs),
    oldestFirst_inOrder h honly htimes, ?_, ?_⟩
  · exact ⟨(Bounds.evicted_append_kept _).symm, Bounds.fits_kept _,
      fun pre post hsplit hpost => Bounds.length_evicted_le hsplit hpost⟩
  · refine ⟨fun q path hpath hq => ?_, fun q hq => ?_, hremoved.dirs⟩
    · rcases hq with hq | hq
      · refine hremoved.gone path ?_ (hremoves path) q hq
        exact List.mem_flatMap.mpr ⟨path, hpath, List.mem_cons_self⟩
      · refine hremoved.gone (path.withExtension metaExtension) ?_ (hremoves _) q hq
        exact List.mem_flatMap.mpr ⟨path, hpath,
          List.mem_cons_of_mem _ (List.mem_singleton_self _)⟩
    · refine hremoved.kept q fun p hp _ => ?_
      obtain ⟨path, hpath, hp⟩ := List.mem_flatMap.mp hp
      rcases List.mem_cons.mp hp with rfl | hp
      · exact (hq p hpath).1
      · rw [List.mem_singleton.mp hp]
        exact (hq path hpath).2

end Packages

/-! ## Two packages, one too many -/

/-- A cache of four bytes. -/
def small : CacheManager := ⟨⟨Path.new "/var/cache/mission/drivers", 4, 50⟩⟩

/-- The names in its directory. -/
def twoNames : List String := ["pkg-0a", "pkg-0a.meta", "pkg-1b", "pkg-1b.meta", "pkg-2c.part"]

/-- Two packages of three bytes, with their metadata, and a partial file. -/
def twoPackages : FileSystem :=
  twoNames.foldl (fun fs name => fs.write (small.config.cachePath.entry name) (utf8 "abc"))
    (FileSystem.empty.makeDirs small.config.cachePath)

/-- The second package is the older one. -/
def twoTimes (name : String) : Nat := if name = "pkg-1b" then 1 else 2

theorem name_of_hasEntry {name : String}
    (h : hasEntry twoPackages small.config.cachePath name = true) : name ∈ twoNames := by
  simpa using of_hasEntry (p := fun name => twoNames.contains name) (by decide +kernel) h

theorem readable_twoPackages : small.Readable (showing twoNames twoTimes) twoPackages where
  no_fault _ := rfl
  isDir := by decide +kernel
  shows _ _ h := name_of_hasEntry h
  named _ h := by
    rintro rfl
    exact absurd (name_of_hasEntry h) (by decide)
  timed _ _ _ := ⟨_, rfl⟩

theorem holdsPackages_twoPackages : small.HoldsPackages twoPackages := by
  have hall : twoNames.all (fun name =>
      (twoPackages.get? (small.config.cachePath.entry name)).isSome &&
        (isPackageName name && !name.toList.contains '.' ||
          (Path.extension name = some metaExtension ||
            Path.extension name = some partialExtension))) = true := by decide +kernel
  intro name hname
  have hgood := List.all_eq_true.mp hall name (name_of_hasEntry hname)
  simp only [Bool.and_eq_true, Bool.or_eq_true, Bool.not_eq_true', decide_eq_true_eq,
    List.contains_eq_mem, decide_eq_false_iff_not] at hgood
  obtain ⟨hfile, hkind⟩ := hgood
  refine ⟨hfile, hkind.imp_left fun hpkg => ?_⟩
  exact ⟨hpkg.1, hpkg.2⟩

theorem distinctTimes_twoPackages :
    small.DistinctTimes (showing twoNames twoTimes) twoPackages := by
  have hall : twoNames.all (fun name => twoNames.all fun name' =>
      name.toList.contains '.' || name'.toList.contains '.' || twoTimes name ≠ twoTimes name' ||
        name = name') = true := by decide +kernel
  rintro - - ⟨name, hpkg, hname, rfl⟩ ⟨name', hpkg', hname', rfl⟩ hsame
  have htime : ∀ {name : String}, hasEntry twoPackages small.config.cachePath name = true →
      timeOf (showing twoNames twoTimes) (small.config.cachePath.entry name) =
        twoTimes name := by
    intro name hname
    show (((small.config.cachePath.entry name).fileName.elim 0 twoTimes)) = twoTimes name
    rw [Path.fileName_entry _ (ne_dots_of_hasEntry hname)]
    rfl
  rw [htime hname, htime hname'] at hsame
  have hgood := List.all_eq_true.mp (List.all_eq_true.mp hall name (name_of_hasEntry hname))
    name' (name_of_hasEntry hname')
  simp only [Bool.or_eq_true, decide_eq_true_eq, List.contains_eq_mem, hpkg.no_dot,
    hpkg'.no_dot, hsame, ne_eq, not_true_eq_false, false_or] at hgood
  rw [hgood]

theorem enforceLimits_evicts_twoPackages :
    ((showing twoNames twoTimes).run .plain small.enforceLimits twoPackages).1 = .ok () ∧
      ∃ order gone rest, small.InOrder (showing twoNames twoTimes) twoPackages order ∧
        small.ShortestPart (showing twoNames twoTimes) twoPackages order gone rest ∧
        RemovedExactly gone twoPackages
          ((showing twoNames twoTimes).run .plain small.enforceLimits twoPackages).2 :=
  enforceLimits_evicts .plain readable_twoPackages holdsPackages_twoPackages
    distinctTimes_twoPackages fun _ => rfl

end MissionOs.Driverd.CacheManager
