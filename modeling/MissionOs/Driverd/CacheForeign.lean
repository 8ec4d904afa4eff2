import MissionOs.Driverd.CacheLimits

/-!
# Limits of a cache that holds other things

The directory of the cache may hold files and directories that the cache did not make, and a
removal may fail.  The loops of `enforce_limits` do not agree on what an entry is, and do not
look at whether a removal succeeds.  `limitsEnforced_iff` says in which directories it removes
packages only and leaves the cache within its limits all the same.
-/

namespace MissionOs.Rust

/-- No place holds both a file and a directory. -/
def FileSystem.Unmixed (fs : FileSystem) : Prop :=
  ∀ p, (fs.get? p).isSome = true → fs.isDir p = false

end MissionOs.Rust

namespace MissionOs.Driverd.CacheManager

open MissionOs.Rust MissionOs.Lib

/-- The path is that of a package in the directory of the cache, by the beginning of its name. -/
def IsCachePackage (manager : CacheManager) (fs : FileSystem) (path : Path) : Prop :=
  ∃ name, hasEntry fs manager.config.cachePath name = true ∧ isPackageName name = true ∧
    path = manager.config.cachePath.entry name ∧ isAuxiliary path = false

/-- `enforce_limits` removes packages and their metadata only, and if it returns without an
error, the cache is within its limits. -/
structure LimitsEnforced (manager : CacheManager) (env : CacheEnv) (host : CacheHost)
    (fs : FileSystem) : Prop where
  removes_only : ∀ q, (env.run host manager.enforceLimits fs).2.get? q ≠ fs.get? q →
    ∃ path, manager.IsCachePackage fs path ∧ ∃ p ∈ removedWith path, q.resolve = p.resolve
  dirs : (env.run host manager.enforceLimits fs).2.dirs = fs.dirs
  size_le : (env.run host manager.enforceLimits fs).1 = .ok () → ∃ size,
    (env.run host manager.currentCacheSize (env.run host manager.enforceLimits fs).2).1 =
      .ok size ∧ size ≤ manager.config.maxSizeBytes.toNat
  count_le : (env.run host manager.enforceLimits fs).1 = .ok () → ∃ count,
    (env.run host manager.cacheEntryCount (env.run host manager.enforceLimits fs).2).1 =
      .ok count ∧ count ≤ manager.config.maxEntries

/-- An attempt to remove the file at a path changes nothing: it fails, or there is no file. -/
def Stays (env : CacheEnv) (fs : FileSystem) (path : Path) : Prop :=
  env.Removes path → fs.get? path = none

instance (env : CacheEnv) (fs : FileSystem) (path : Path) : Decidable (Stays env fs path) :=
  inferInstanceAs (Decidable (_ → _))

/-- The entries without those that are given up and can be removed. -/
def leftover (manager : CacheManager) (env : CacheEnv) (fs : FileSystem) : List Path :=
  (manager.oldestFirst env fs).filter fun path =>
    path ∉ manager.givenUp env fs ∨ Stays env fs path

/-- What is given up are packages, or is not removed; and what is left is within the limits. -/
structure Enforceable (manager : CacheManager) (env : CacheEnv) (fs : FileSystem) : Prop where
  foreign : ∀ path ∈ manager.givenUp env fs,
    isPackage path = true ∨ ∀ p ∈ removedWith path, Stays env fs p
  size_le : ((manager.leftover env fs).map (sizeOf env fs)).sum ≤
    manager.config.maxSizeBytes.toNat
  count_le : ((manager.leftover env fs).filter isPackage).length ≤ manager.config.maxEntries

section Foreign

variable {manager : CacheManager} {env : CacheEnv} {fs fs' : FileSystem} {host : CacheHost}

/-! ## Packages and other entries -/

theorem mem_oldestFirst_iff (h : manager.Readable env fs) {path : Path} :
    path ∈ manager.oldestFirst env fs ↔ ∃ name,
      hasEntry fs manager.config.cachePath name = true ∧
        path = manager.config.cachePath.entry name ∧ isAuxiliary path = false :=
  oldestFirst_perm.mem_iff.trans (mem_shown_iff h)

theorem mem_oldestFirst_of_givenUp {path : Path} (hpath : path ∈ manager.givenUp env fs) :
    path ∈ manager.oldestFirst env fs := by
  unfold givenUp at hpath
  split_ifs at hpath with hwithin
  · cases hpath
  · rw [← @Bounds.evicted_append_kept Path manager.bounds (sizeOf env fs)
      (manager.oldestFirst env fs)]
    exact List.mem_append_left _ hpath

theorem IsEntry.of_mem_oldestFirst (h : manager.Readable env fs) {path : Path}
    (hpath : path ∈ manager.oldestFirst env fs) : IsEntry manager.config.cachePath fs path :=
  .of_mem_shown h (oldestFirst_perm.mem_iff.mp hpath)

/-- The packages are the entries that are counted. -/
theorem isCachePackage_iff (h : manager.Readable env fs) {path : Path} :
    manager.IsCachePackage fs path ↔
      path ∈ manager.oldestFirst env fs ∧ isPackage path = true := by
  rw [mem_oldestFirst_iff h]
  constructor
  · rintro ⟨name, hname, hpkg, rfl, haux⟩
    refine ⟨⟨name, hname, rfl, haux⟩, ?_⟩
    rw [isPackage, Path.fileName_entry _ (ne_dots_of_hasEntry hname)]
    exact hpkg
  · rintro ⟨⟨name, hname, rfl, haux⟩, hpkg⟩
    rw [isPackage, Path.fileName_entry _ (ne_dots_of_hasEntry hname)] at hpkg
    exact ⟨name, hname, hpkg, rfl, haux⟩

/-- Entries with the same metadata are both packages, or neither is. -/
theorem IsEntry.isPackage_congr {dir path other : Path} (h : IsEntry dir fs path)
    (hother : IsEntry dir fs other) (hsame : (other.withExtension metaExtension).resolve =
      (path.withExtension metaExtension).resolve) : isPackage other = isPackage path := by
  obtain ⟨⟨name, -, hdots, rfl⟩, -, -⟩ := h
  obtain ⟨⟨name', -, hdots', rfl⟩, -, -⟩ := hother
  rw [resolve_metadata dir hdots', resolve_metadata dir hdots] at hsame
  have hnames := List.append_cancel_left hsame
  simp only [List.cons.injEq, and_true, String.append_assoc, String.append_left_inj] at hnames
  have hbegins : ∀ base, isPackageName (Path.stem base) = isPackageName base :=
    fun base => Path.isPrefixOf_stem (by decide) base
  rw [isPackage, isPackage, Path.fileName_entry dir hdots', Path.fileName_entry dir hdots,
    Option.any_some, Option.any_some, ← hbegins name', ← hbegins name, hnames]

/-! ## What is removed -/

section Removed

/-- What is given up and can be removed is gone. -/
theorem get?_of_givenUp
    (hremoved : RemovedFrom env ((manager.givenUp env fs).flatMap removedWith) fs fs')
    {path p : Path} (hpath : path ∈ manager.givenUp env fs) (hp : p ∈ removedWith path)
    (hremoves : env.Removes p) : fs'.get? p = none :=
  hremoved.gone p (List.mem_flatMap.mpr ⟨path, hpath, hp⟩) hremoves p rfl

/-- Nothing new is listed. -/
theorem hasEntry_of_removed {attempted : List Path}
    (hremoved : RemovedFrom env attempted fs fs') {dir : Path} {name : String}
    (hname : hasEntry fs' dir name = true) : hasEntry fs dir name = true := by
  refine hasEntry_of_pathExists (ne_dots_of_hasEntry hname) ?_
  have hthere := pathExists_entry hname
  rw [FileSystem.pathExists, hremoved.isDir] at hthere
  rw [FileSystem.pathExists]
  rcases hremoved.same_or_none (dir.entry name) with hsame | hnone
  · rwa [hsame] at hthere
  · rw [hnone, Option.isSome_none, Bool.false_or] at hthere
    rw [hthere, Bool.or_true]

variable (h : manager.Readable env fs)
  (hremoved : RemovedFrom env ((manager.givenUp env fs).flatMap removedWith) fs fs')

include h hremoved

/-- The other entries are as they were. -/
theorem get?_of_kept {path : Path} (hpath : path ∈ manager.oldestFirst env fs)
    (hkept : ¬ (path ∈ manager.givenUp env fs ∧ env.Removes path)) :
    fs'.get? path = fs.get? path := by
  have hentry := IsEntry.of_mem_oldestFirst h hpath
  refine hremoved.kept path fun p hp hremoves => ?_
  obtain ⟨gone, hgone, hp⟩ := List.mem_flatMap.mp hp
  have hgoneEntry := IsEntry.of_mem_oldestFirst h (mem_oldestFirst_of_givenUp hgone)
  rcases List.mem_cons.mp hp with rfl | hp
  · intro hsame
    have heq := hgoneEntry.eq_of_resolve hentry hsame
    exact hkept ⟨heq ▸ hgone, heq ▸ hremoves⟩
  · rw [List.mem_singleton.mp hp]
    exact hgoneEntry.ne_metadata hentry

theorem pathExists_iff (hmixed : fs.Unmixed) {path : Path}
    (hpath : path ∈ manager.oldestFirst env fs) :
    fs'.pathExists path = true ↔ path ∉ manager.givenUp env fs ∨ Stays env fs path := by
  have hthere := (IsEntry.of_mem_oldestFirst h hpath).there
  by_cases hgone : path ∈ manager.givenUp env fs ∧ env.Removes path
  · have hnone := get?_of_givenUp hremoved hgone.1 List.mem_cons_self hgone.2
    rw [FileSystem.pathExists, hnone, hremoved.isDir, Option.isSome_none, Bool.false_or]
    constructor
    · intro hdir
      refine Or.inr fun _ => Option.not_isSome_iff_eq_none.mp fun hfile => ?_
      rw [hmixed path hfile] at hdir
      cases hdir
    · rintro (hnot | hstays)
      · exact absurd hgone.1 hnot
      · rwa [FileSystem.pathExists, hstays hgone.2, Option.isSome_none, Bool.false_or] at hthere
  · rw [FileSystem.pathExists, get?_of_kept h hremoved hpath hgone, hremoved.isDir]
    refine iff_of_true hthere ?_
    by_cases hmem : path ∈ manager.givenUp env fs
    · exact Or.inr fun hremoves => absurd ⟨hmem, hremoves⟩ hgone
    · exact Or.inl hmem

/-- What is left is as it was. -/
theorem get?_of_mem_leftover {path : Path} (hpath : path ∈ manager.leftover env fs) :
    fs'.get? path = fs.get? path := by
  obtain ⟨hmem, hleft⟩ := List.mem_filter.mp hpath
  have hleft := of_decide_eq_true hleft
  by_cases hgone : path ∈ manager.givenUp env fs ∧ env.Removes path
  · rcases hleft with hnot | hstays
    · exact absurd hgone.1 hnot
    · rw [get?_of_givenUp hremoved hgone.1 List.mem_cons_self hgone.2, hstays hgone.2]
  · exact get?_of_kept h hremoved hmem hgone

theorem Readable.of_removed : manager.Readable env fs' where
  no_fault := h.no_fault
  isDir := (hremoved.isDir _).trans h.isDir
  shows n name hname := h.shows n name (hasEntry_of_removed hremoved hname)
  named name hname := h.named name (hasEntry_of_removed hremoved hname)
  timed name hname := h.timed name (hasEntry_of_removed hremoved hname)

theorem shown_perm_leftover (hmixed : fs.Unmixed) (n : Nat) :
    (manager.shown env fs' n).Perm (manager.leftover env fs) := by
  have hnodup : (manager.leftover env fs).Nodup :=
    (oldestFirst_perm.nodup_iff.mpr (nodup_shown _)).filter _
  refine (List.perm_ext_iff_of_nodup (nodup_shown n) hnodup).mpr fun path => ?_
  rw [mem_shown_iff (Readable.of_removed h hremoved), leftover, List.mem_filter,
    decide_eq_true_iff]
  constructor
  · rintro ⟨name, hname, rfl, haux⟩
    have hmem := (mem_oldestFirst_iff h).mpr ⟨name, hasEntry_of_removed hremoved hname, rfl, haux⟩
    exact ⟨hmem, (pathExists_iff h hremoved hmixed hmem).mp (pathExists_entry hname)⟩
  · rintro ⟨hmem, hleft⟩
    have hthere := (pathExists_iff h hremoved hmixed hmem).mpr hleft
    obtain ⟨name, hname, rfl, haux⟩ := (mem_oldestFirst_iff h).mp hmem
    exact ⟨name, hasEntry_of_pathExists (ne_dots_of_hasEntry hname) hthere, rfl, haux⟩

/-- The size of the cache is that of what is left. -/
theorem totalBytes_of_removed (hmixed : fs.Unmixed) :
    manager.totalBytes env fs' = ((manager.leftover env fs).map (sizeOf env fs)).sum := by
  have hsizes : ∀ path ∈ manager.leftover env fs, sizeOf env fs' path = sizeOf env fs path :=
    fun path hpath => sizeOf_congr (get?_of_mem_leftover h hremoved hpath)
  rw [← List.map_congr_left hsizes]
  exact ((shown_perm_leftover h hremoved hmixed 0).map _).sum_eq

theorem packageCount_of_removed (hmixed : fs.Unmixed) (n : Nat) :
    manager.packageCount env fs' n = ((manager.leftover env fs).filter isPackage).length :=
  ((shown_perm_leftover h hremoved hmixed n).filter _).length_eq

end Removed

/-! ## When the limits are enforced -/

theorem currentCacheSize_run (host : CacheHost) (h : manager.Readable env fs) :
    (env.run host manager.currentCacheSize fs).1 = .ok (manager.totalBytes env fs) := by
  obtain ⟨size, hrun, rfl⟩ := run_of_ensures (Q := fun size _ => size = manager.totalBytes env fs)
    (Fallible.ensures_mono (@currentCacheSize_ensures manager env fs host h)
      (fun _ _ hsize => hsize.1) fun _ _ hfalse => hfalse)
  exact hrun

theorem cacheEntryCount_run (host : CacheHost) (h : manager.Readable env fs) :
    (env.run host manager.cacheEntryCount fs).1 = .ok (manager.packageCount env fs 0) := by
  obtain ⟨count, hrun, rfl⟩ := run_of_ensures
    (Q := fun count _ => count = manager.packageCount env fs 0)
    (Fallible.ensures_mono (@cacheEntryCount_ensures manager env fs host h 0)
      (fun _ _ hcount => hcount.1) fun _ _ hfalse => hfalse)
  exact hrun

/-- Only packages and their metadata change exactly if nothing else that is given up can be
removed. -/
theorem removes_only_iff (h : manager.Readable env fs)
    (hremoved : RemovedFrom env ((manager.givenUp env fs).flatMap removedWith) fs fs') :
    (∀ q, fs'.get? q ≠ fs.get? q → ∃ path, manager.IsCachePackage fs path ∧
        ∃ p ∈ removedWith path, q.resolve = p.resolve) ↔
      ∀ path ∈ manager.givenUp env fs,
        isPackage path = true ∨ ∀ p ∈ removedWith path, Stays env fs p := by
  constructor
  · intro honly path hpath
    by_cases hpkg : isPackage path = true
    · exact Or.inl hpkg
    · refine Or.inr fun p hp hremoves => by_contra fun hfile => ?_
      have hentry := IsEntry.of_mem_oldestFirst h (mem_oldestFirst_of_givenUp hpath)
      have hchanged : fs'.get? p ≠ fs.get? p := by
        rw [get?_of_givenUp hremoved hpath hp hremoves]
        exact fun hnone => hfile hnone.symm
      obtain ⟨package, hpackage, p', hp', hsame⟩ := honly p hchanged
      obtain ⟨hmem, hbegins⟩ := (isCachePackage_iff h).mp hpackage
      have hpackageEntry := IsEntry.of_mem_oldestFirst h hmem
      have hne : path ≠ package := by
        rintro rfl
        exact hpkg hbegins
      rcases List.mem_cons.mp hp with rfl | hp
      · exact hpackageEntry.apart hentry hne p' hp' hsame
      · rw [List.mem_singleton.mp hp] at hsame
        rcases List.mem_cons.mp hp' with rfl | hp'
        · exact hentry.ne_metadata hpackageEntry hsame.symm
        · rw [List.mem_singleton.mp hp'] at hsame
          exact hpkg ((hpackageEntry.isPackage_congr hentry hsame).trans hbegins)
  · intro hforeign q hchanged
    by_contra hnone
    refine hchanged (hremoved.kept q fun p hp hremoves hsame => ?_)
    obtain ⟨path, hpath, hp⟩ := List.mem_flatMap.mp hp
    rcases hforeign path hpath with hpkg | hstays
    · refine hnone ⟨path, ?_, p, hp, hsame⟩
      exact (isCachePackage_iff h).mpr ⟨mem_oldestFirst_of_givenUp hpath, hpkg⟩
    · -- There was no file at `p`, so none can have gone.
      have habsent : fs.get? q = none := by
        rw [fs.get?_congr hsame]
        exact hstays p hp hremoves
      refine hchanged ?_
      rcases hremoved.same_or_none q with hq | hq
      · exact hq
      · rw [hq, habsent]

/-- `enforce_limits` on a directory with any content, where any removals may fail. -/
theorem limitsEnforced_iff (host : CacheHost) (h : manager.Readable env fs)
    (hmixed : fs.Unmixed) :
    manager.LimitsEnforced env host fs ↔ manager.Enforceable env fs := by
  obtain ⟨_, hok, hremoved⟩ := run_of_ensures (@enforceLimits_removes manager env fs host h)
  have hafter := Readable.of_removed h hremoved
  have hsize := currentCacheSize_run host hafter
  have hcount := cacheEntryCount_run host hafter
  rw [totalBytes_of_removed h hremoved hmixed] at hsize
  rw [packageCount_of_removed h hremoved hmixed] at hcount
  constructor
  · rintro ⟨honly, -, hsizes, hcounts⟩
    obtain ⟨size, hrun, hle⟩ := hsizes hok
    rw [hsize, Except.ok.injEq] at hrun
    obtain ⟨count, hrun', hle'⟩ := hcounts hok
    rw [hcount, Except.ok.injEq] at hrun'
    exact ⟨(removes_only_iff h hremoved).mp honly, hrun.trans_le hle, hrun'.trans_le hle'⟩
  · rintro ⟨hforeign, hle, hle'⟩
    exact ⟨(removes_only_iff h hremoved).mpr hforeign, hremoved.dirs,
      fun _ => ⟨_, hsize, hle⟩, fun _ => ⟨_, hcount, hle'⟩⟩

end Foreign

/-! ## The directory of the partial files -/

/-- A cache of 4096 bytes. -/
def page : CacheManager := ⟨⟨Path.new "/var/cache/mission/drivers", 4096, 50⟩⟩

/-- A package of three bytes, beside the directory `partials` of the downloads. -/
def withPartials : FileSystem :=
  (FileSystem.empty.makeDirs (page.config.cachePath.entry "partials")).write
    (page.config.cachePath.entry "pkg-0a") (utf8 "abc")

/-- The names in its directory. -/
def partialsNames : List String := ["partials", "pkg-0a"]

/-- The directory `partials` is the older one. -/
def partialsTimes (name : String) : Nat := if name = "partials" then 1 else 2

theorem name_of_hasEntry_withPartials {name : String}
    (h : hasEntry withPartials page.config.cachePath name = true) : name ∈ partialsNames := by
  simpa using of_hasEntry (p := fun name => partialsNames.contains name) (by decide +kernel) h

theorem readable_withPartials :
    page.Readable (showing partialsNames partialsTimes) withPartials where
  no_fault _ := rfl
  isDir := by decide +kernel
  shows _ _ h := name_of_hasEntry_withPartials h
  named _ h := by
    rintro rfl
    exact absurd (name_of_hasEntry_withPartials h) (by decide)
  timed _ _ _ := ⟨_, rfl⟩

theorem unmixed_withPartials : withPartials.Unmixed := by
  have hall : withPartials.files.keys.all (fun place => place ∉ withPartials.dirs) = true := by
    decide +kernel
  intro p hfile
  have hplace := List.all_eq_true.mp hall _ (AList.lookup_isSome.mp hfile)
  exact decide_eq_false (of_decide_eq_true hplace)

theorem limitsEnforced_iff_withPartials :
    page.LimitsEnforced (showing partialsNames partialsTimes) .plain withPartials ↔
      page.Enforceable (showing partialsNames partialsTimes) withPartials :=
  limitsEnforced_iff .plain readable_withPartials unmixed_withPartials

theorem oldestFirst_withPartials :
    page.oldestFirst (showing partialsNames partialsTimes) withPartials =
      partialsNames.map page.config.cachePath.entry := by
  have hshown : ∀ n, page.shown (showing partialsNames partialsTimes) withPartials n =
      partialsNames.map page.config.cachePath.entry := by
    intro n
    show page.shown (showing partialsNames partialsTimes) withPartials 0 = _
    decide +kernel
  unfold oldestFirst
  rw [hshown, List.mergeSort_of_pairwise]
  · rfl
  · decide +kernel

/-- The directory counts as 4096 bytes that are freed, and is still there. -/
theorem not_limitsEnforced_withPartials :
    ¬ page.LimitsEnforced (showing partialsNames partialsTimes) .plain withPartials := by
  intro h
  obtain ⟨_, hok, hremoved⟩ := run_of_ensures
    (@enforceLimits_removes page _ _ .plain readable_withPartials)
  have hsize := currentCacheSize_run .plain (Readable.of_removed readable_withPartials hremoved)
  rw [totalBytes_of_removed readable_withPartials hremoved unmixed_withPartials] at hsize
  obtain ⟨size, hrun, hle⟩ := h.size_le hok
  rw [hsize, Except.ok.injEq] at hrun
  have htotal : ((page.leftover (showing partialsNames partialsTimes) withPartials).map
      (sizeOf (showing partialsNames partialsTimes) withPartials)).sum = 4099 := by
    simp only [leftover, givenUp, oldestFirst_withPartials]
    decide +kernel
  rw [← hrun, htotal] at hle
  exact absurd hle (by decide)

end MissionOs.Driverd.CacheManager
