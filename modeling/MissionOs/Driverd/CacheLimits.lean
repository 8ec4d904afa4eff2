import MissionOs.Driverd.CacheFiles
import MissionOs.Lib.Eviction

/-!
# What `enforce_limits` removes

The sizes and the number of the entries of a cache directory that can be read, and the order
in which `enforce_limits` gives them up.  `enforceLimits_removes` says that it tries to remove
the entries of the shortest part of that order without which the rest would fit, each with its
metadata, and nothing else.  Whether these removals succeed is not looked at.
-/

namespace MissionOs.Driverd

open MissionOs.Rust MissionOs.Lib

namespace CacheManager

/-- The directory of the cache can be read: no read fails, a listing shows every entry, and so
does the time of each that is no partial file and no metadata. -/
structure Readable (manager : CacheManager) (env : CacheEnv) (fs : FileSystem) : Prop where
  no_fault : ∀ n, env.fault n = none
  isDir : fs.isDir manager.config.cachePath = true
  shows : ∀ n name, hasEntry fs manager.config.cachePath name = true →
    name ∈ env.listing n manager.config.cachePath
  named : ∀ name, hasEntry fs manager.config.cachePath name = true → name ≠ ""
  timed : ∀ name, hasEntry fs manager.config.cachePath name = true →
    isAuxiliary (manager.config.cachePath.entry name) = false →
    ∃ time, env.modified (manager.config.cachePath.entry name) = .ok time

variable (manager : CacheManager) (env : CacheEnv) (fs : FileSystem)

/-- The limits of the cache. -/
def bounds : Bounds := ⟨manager.config.maxSizeBytes.toNat, manager.config.maxEntries⟩

/-- The entries, as the `n`-th call lists them. -/
def listed (n : Nat) : List Path :=
  (((env.listing n manager.config.cachePath).filter
    (hasEntry fs manager.config.cachePath)).dedup).map manager.config.cachePath.entry

/-- Those of them that are neither partial files nor metadata. -/
def shown (n : Nat) : List Path :=
  (manager.listed env fs n).filter fun path => !isAuxiliary path

/-- The length in the metadata of an entry. -/
def sizeOf (path : Path) : Nat :=
  match fs.get? path with
  | some data => data.length
  | none => env.dirSize path

/-- The time at which an entry was modified. -/
def timeOf (path : Path) : Nat := (env.modified path).toOption.getD 0

/-- What `current_cache_size` returns. -/
def totalBytes : Nat := ((manager.shown env fs 0).map (sizeOf env fs)).sum

/-- Whether an entry is a package. -/
def isPackage (path : Path) : Bool := path.fileName.any isPackageName

/-- What `cache_entry_count` returns, in the `n`-th call. -/
def packageCount (n : Nat) : Nat := ((manager.shown env fs n).filter isPackage).length

/-- The number of calls after `current_cache_size`. -/
def sizedAfter : Nat := 1 + (manager.shown env fs 0).length

/-- The number of calls before the entries are collected. -/
def collectedAfter : Nat :=
  if manager.totalBytes env fs ≤ manager.config.maxSizeBytes.toNat then
    manager.sizedAfter env fs + 1
  else manager.sizedAfter env fs

/-- The entries, oldest first. -/
def oldestFirst : List Path :=
  (((manager.shown env fs (manager.collectedAfter env fs)).map fun path =>
    (path, timeOf env path)).mergeSort fun a b => a.2 ≤ b.2).map (·.1)

/-- The cache is within its limits, as the first check of `enforce_limits` sees it. -/
def IsWithin : Prop :=
  manager.totalBytes env fs ≤ manager.config.maxSizeBytes.toNat ∧
    manager.packageCount env fs (manager.sizedAfter env fs) ≤ manager.config.maxEntries

instance : Decidable (manager.IsWithin env fs) := inferInstanceAs (Decidable (_ ∧ _))

/-- The entries that `enforce_limits` gives up. -/
def givenUp : List Path :=
  if manager.IsWithin env fs then []
  else manager.bounds.evicted (sizeOf env fs) (manager.oldestFirst env fs)

/-- The paths that an entry is removed with. -/
def removedWith (path : Path) : List Path := [path, path.withExtension metaExtension]

/-! ## What is read -/

section Reads

variable {manager env fs} {host : CacheHost}

theorem mem_shown_iff (h : manager.Readable env fs) {n : Nat} {path : Path} :
    path ∈ manager.shown env fs n ↔ ∃ name,
      hasEntry fs manager.config.cachePath name = true ∧
        path = manager.config.cachePath.entry name ∧ isAuxiliary path = false := by
  unfold shown listed
  rw [List.mem_filter, List.mem_map]
  constructor
  · rintro ⟨⟨name, hname, rfl⟩, haux⟩
    rw [List.mem_dedup, List.mem_filter] at hname
    exact ⟨name, hname.2, rfl, by simpa using haux⟩
  · rintro ⟨name, hname, rfl, haux⟩
    refine ⟨⟨name, ?_, rfl⟩, by simpa using haux⟩
    rw [List.mem_dedup, List.mem_filter]
    exact ⟨h.shows n name hname, hname⟩

theorem nodup_shown (n : Nat) : (manager.shown env fs n).Nodup := by
  refine List.Nodup.filter _ (List.Nodup.map ?_ (List.nodup_dedup _))
  intro name name' hsame
  have hlast := congrArg (fun path => path.components.getLast?) hsame
  simpa [Path.entry] using hlast

/-- All listings show the same entries. -/
theorem shown_perm (h : manager.Readable env fs) (n n' : Nat) :
    (manager.shown env fs n).Perm (manager.shown env fs n') :=
  (List.perm_ext_iff_of_nodup (nodup_shown n) (nodup_shown n')).mpr fun _ =>
    (mem_shown_iff h).trans (mem_shown_iff h).symm

theorem oldestFirst_perm : (manager.oldestFirst env fs).Perm
    (manager.shown env fs (manager.collectedAfter env fs)) := by
  unfold oldestFirst
  have hsorted := (List.mergeSort_perm ((manager.shown env fs
    (manager.collectedAfter env fs)).map fun path => (path, timeOf env path))
      fun a b => a.2 ≤ b.2).map (·.1)
  have hpaths : ((fun collected : Path × Nat => collected.1) ∘
      fun path => (path, timeOf env path)) = id := rfl
  rwa [List.map_map, hpaths, List.map_id] at hsorted

/-- The answer to a look at the metadata of an entry. -/
theorem handler_metadata (hfault : ∀ n, env.fault n = none) {path : Path}
    (hthere : fs.pathExists path = true) (n : Nat) :
    env.handler host (.file (.metadata path)) ⟨fs, n⟩ =
      (.ok (sizeOf env fs path), ⟨fs, n + 1⟩) := by
  have hreads : (env.answering host (.metadata path)).fault n = none := hfault n
  simp only [CacheEnv.handler, FetchEnv.outcome, FetchEnv.faulty, hreads, sizeOf]
  cases hget : fs.get? path with
  | some data => rfl
  | none =>
      have hdir : fs.isDir path = true := by
        simpa [FileSystem.pathExists, hget] using hthere
      simp only [hdir, if_true]
      rfl

/-- A program that does not fail ends with its result. -/
theorem run_of_ensures {α : Type} {p : CacheProg α} {Q : α → FileSystem → Prop}
    (h : Fallible.Ensures (env.handler host) Fallible.AnyCall p (fun a s' => Q a s'.fs)
      (fun _ _ => False) ⟨fs, 0⟩) :
    ∃ a, (env.run host p fs).1 = .ok a ∧ Q a (env.run host p fs).2 := by
  unfold CacheEnv.run
  rcases hend : CallProg.run (env.handler host) p.run ⟨fs, 0⟩ with ⟨e | a, s'⟩
  · exact (h.of_error hend).elim
  · exact ⟨a, rfl, h.of_ok hend⟩

theorem listing_ensures (h : manager.Readable env fs) (n : Nat) :
    Fallible.Ensures (env.handler host) Fallible.AnyCall manager.entries
      (fun paths s' => paths = manager.listed env fs n ∧ s' = ⟨fs, n + 1⟩)
      (fun _ _ => False) ⟨fs, n⟩ := by
  have hlist : env.handler host (.readDir manager.config.cachePath) ⟨fs, n⟩ =
      (.ok ((env.listing n manager.config.cachePath).filter
        (hasEntry fs manager.config.cachePath)).dedup, ⟨fs, n + 1⟩) := by
    simp [CacheEnv.handler, CacheEnv.list, h.no_fault n, h.isDir]
  unfold entries
  apply ensures_cacheCall.mpr
  rw [hlist]
  exact Fallible.ensures_pure.mpr ⟨rfl, rfl⟩

theorem totalSize_ensures (hfault : ∀ n, env.fault n = none) (paths : List Path)
    (hthere : ∀ path ∈ paths, fs.pathExists path = true) (total n : Nat) :
    Fallible.Ensures (env.handler host) Fallible.AnyCall (totalSize paths total)
      (fun size s' => size = total + ((paths.filter fun path => !isAuxiliary path).map
          (sizeOf env fs)).sum ∧
        s' = ⟨fs, n + (paths.filter fun path => !isAuxiliary path).length⟩)
      (fun _ _ => False) ⟨fs, n⟩ := by
  induction paths generalizing total n with
  | nil => exact Fallible.ensures_pure.mpr ⟨rfl, rfl⟩
  | cons path rest ih =>
      have hrest : ∀ path ∈ rest, fs.pathExists path = true :=
        fun path hpath => hthere path (List.mem_cons_of_mem _ hpath)
      unfold totalSize
      cases haux : isAuxiliary path with
      | true =>
          simp only [if_true, List.filter_cons, haux, Bool.not_true, Bool.false_eq_true, if_false]
          exact ih hrest total n
      | false =>
          simp only [Bool.false_eq_true, if_false, List.filter_cons, haux, Bool.not_false,
            if_true, List.map_cons, List.sum_cons, List.length_cons]
          refine (ensures_fileCall_of (handler_metadata hfault
            (hthere path List.mem_cons_self) n)).mpr ?_
          refine Fallible.ensures_mono (ih hrest (total + sizeOf env fs path) (n + 1))
            (fun size s' hs' => ?_) fun _ _ h => h
          obtain ⟨hsize, hs'⟩ := hs'
          exact ⟨by rw [hsize, Nat.add_assoc], by rw [hs', Nat.add_assoc, Nat.add_comm 1]⟩

theorem pathExists_of_mem_listed {n : Nat} {path : Path}
    (h : path ∈ manager.listed env fs n) : fs.pathExists path = true := by
  obtain ⟨name, hname, rfl⟩ := List.mem_map.mp h
  rw [List.mem_dedup, List.mem_filter] at hname
  exact pathExists_entry hname.2

theorem currentCacheSize_ensures (h : manager.Readable env fs) :
    Fallible.Ensures (env.handler host) Fallible.AnyCall manager.currentCacheSize
      (fun size s' => size = manager.totalBytes env fs ∧ s' = ⟨fs, manager.sizedAfter env fs⟩)
      (fun _ _ => False) ⟨fs, 0⟩ := by
  unfold currentCacheSize
  refine Fallible.ensures_bind.mpr (Fallible.ensures_mono (listing_ensures h 0)
    (fun paths s₁ h₁ => ?_) fun _ _ h => h)
  obtain ⟨rfl, rfl⟩ := h₁
  refine Fallible.ensures_mono (totalSize_ensures h.no_fault _
    (fun _ => pathExists_of_mem_listed) 0 1) (fun size s₂ h₂ => ?_) fun _ _ h => h
  rwa [Nat.zero_add] at h₂

theorem cacheEntryCount_ensures (h : manager.Readable env fs) (n : Nat) :
    Fallible.Ensures (env.handler host) Fallible.AnyCall manager.cacheEntryCount
      (fun count s' => count = manager.packageCount env fs n ∧ s' = ⟨fs, n + 1⟩)
      (fun _ _ => False) ⟨fs, n⟩ := by
  unfold cacheEntryCount
  refine Fallible.ensures_bind.mpr (Fallible.ensures_mono (listing_ensures h n)
    (fun paths s₁ h₁ => ?_) fun _ _ h => h)
  obtain ⟨rfl, rfl⟩ := h₁
  refine Fallible.ensures_pure.mpr ⟨?_, rfl⟩
  unfold packageCount shown
  rw [List.filter_filter]
  simp only [Bool.and_comm]
  rfl

theorem withinLimits_ensures (h : manager.Readable env fs) :
    Fallible.Ensures (env.handler host) Fallible.AnyCall
      (manager.withinLimits (manager.totalBytes env fs))
      (fun within s' => within = decide (manager.IsWithin env fs) ∧
        s' = ⟨fs, manager.collectedAfter env fs⟩)
      (fun _ _ => False) ⟨fs, manager.sizedAfter env fs⟩ := by
  unfold withinLimits collectedAfter IsWithin
  split_ifs with hsize
  · refine Fallible.ensures_bind.mpr (Fallible.ensures_mono (cacheEntryCount_ensures h _)
      (fun count s₁ h₁ => ?_) fun _ _ h => h)
    obtain ⟨rfl, rfl⟩ := h₁
    exact Fallible.ensures_pure.mpr ⟨by simp [hsize], rfl⟩
  · exact Fallible.ensures_pure.mpr ⟨by simp [hsize], rfl⟩

theorem collectEntries_finds (h : manager.Readable env fs) (paths : List Path)
    (hthere : ∀ path ∈ paths, fs.pathExists path = true)
    (htimed : ∀ path ∈ paths, isAuxiliary path = false → ∃ time, env.modified path = .ok time)
    (collected : List (Path × Nat)) (n : Nat) :
    Fallible.Ensures (env.handler host) Fallible.AnyCall (collectEntries paths collected)
      (fun all s' => all = collected ++ (paths.filter fun path => !isAuxiliary path).map
        (fun path => (path, timeOf env path)) ∧ s'.fs = fs)
      (fun _ _ => False) ⟨fs, n⟩ := by
  induction paths generalizing collected n with
  | nil => exact Fallible.ensures_pure.mpr ⟨(List.append_nil _).symm, rfl⟩
  | cons path rest ih =>
      have hrest := ih (fun path hpath => hthere path (List.mem_cons_of_mem _ hpath))
        fun path hpath => htimed path (List.mem_cons_of_mem _ hpath)
      unfold collectEntries
      cases haux : isAuxiliary path with
      | true =>
          simp only [if_true, List.filter_cons, haux, Bool.not_true, Bool.false_eq_true, if_false]
          exact hrest collected n
      | false =>
          obtain ⟨time, htime⟩ := htimed path List.mem_cons_self haux
          have hpath : timeOf env path = time := by
            rw [timeOf, htime]
            rfl
          simp only [Bool.false_eq_true, if_false, List.filter_cons, haux, Bool.not_false,
            if_true, List.map_cons, hpath]
          refine (ensures_fileCall_of (handler_metadata h.no_fault
            (hthere path List.mem_cons_self) n)).mpr (ensures_cacheCall.mpr ?_)
          simp only [CacheEnv.handler, htime]
          refine Fallible.ensures_mono (hrest (collected ++ [(path, time)]) (n + 1 + 1))
            (fun all s' h' => ?_) fun _ _ h => h
          rw [List.append_assoc] at h'
          exact h'

end Reads

/-! ## What is removed -/

section Removals

variable {manager env fs} {host : CacheHost}

theorem resolve_metadata (dir : Path) {name : String} (hdots : name ≠ "..") :
    ((dir.entry name).withExtension metaExtension).resolve =
      dir.resolve ++ [Path.stem name ++ "." ++ metaExtension] := by
  rw [withExtension_entry dir hdots, Path.resolve_entry dir (metadataName_ne_dots _)]

/-- It is metadata. -/
theorem isAuxiliary_metadata (dir : Path) {name : String} (hne : name ≠ "") :
    isAuxiliary (dir.entry (Path.stem name ++ "." ++ metaExtension)) = true := by
  have hext : extensionOf (dir.entry (Path.stem name ++ "." ++ metaExtension)) =
      some metaExtension := by
    rw [extensionOf, Path.fileName_entry dir (metadataName_ne_dots _)]
    exact Path.extension_dotted (Path.stem_ne_empty hne) (by decide)
  rw [isAuxiliary, hext]
  decide

/-- An entry of a directory that is neither a partial file nor metadata. -/
structure IsEntry (dir : Path) (fs : FileSystem) (path : Path) : Prop where
  exists_name : ∃ name, name ≠ "" ∧ name ≠ ".." ∧ path = dir.entry name
  not_auxiliary : isAuxiliary path = false
  there : fs.pathExists path = true

theorem IsEntry.of_mem_shown (h : manager.Readable env fs) {n : Nat} {path : Path}
    (hmem : path ∈ manager.shown env fs n) : IsEntry manager.config.cachePath fs path := by
  obtain ⟨name, hname, rfl, haux⟩ := (mem_shown_iff h).mp hmem
  exact ⟨⟨name, h.named name hname, ne_dots_of_hasEntry hname, rfl⟩, haux,
    pathExists_entry hname⟩

/-- An entry is known by the place of its path. -/
theorem IsEntry.eq_of_resolve {dir path other : Path} (h : IsEntry dir fs path)
    (hother : IsEntry dir fs other) (hsame : other.resolve = path.resolve) : other = path := by
  obtain ⟨⟨name, -, hdots, rfl⟩, -, -⟩ := h
  obtain ⟨⟨name', -, hdots', rfl⟩, -, -⟩ := hother
  rw [Path.resolve_entry dir hdots', Path.resolve_entry dir hdots] at hsame
  have hnames := List.append_cancel_left hsame
  simp only [List.cons.injEq, and_true] at hnames
  rw [hnames]

/-- No entry is the metadata of one. -/
theorem IsEntry.ne_metadata {dir path other : Path} (h : IsEntry dir fs path)
    (hother : IsEntry dir fs other) :
    other.resolve ≠ (path.withExtension metaExtension).resolve := by
  obtain ⟨⟨name, hname, hdots, rfl⟩, -, -⟩ := h
  obtain ⟨⟨name', -, hdots', rfl⟩, haux', -⟩ := hother
  rw [Path.resolve_entry dir hdots', resolve_metadata dir hdots]
  intro hsame
  have hnames := List.append_cancel_left hsame
  simp only [List.cons.injEq, and_true] at hnames
  rw [hnames, isAuxiliary_metadata dir hname] at haux'
  cases haux'

/-- The removal of one entry touches no other. -/
theorem IsEntry.apart {dir path other : Path} (h : IsEntry dir fs path)
    (hother : IsEntry dir fs other) (hne : other ≠ path) :
    ∀ p ∈ removedWith path, other.resolve ≠ p.resolve := by
  intro p hp
  rcases List.mem_cons.mp hp with rfl | hp
  · exact fun hsame => hne (h.eq_of_resolve hother hsame)
  · rw [List.mem_singleton.mp hp]
    exact h.ne_metadata hother

theorem sizeOf_congr {fs fs' : FileSystem} {path : Path} (h : fs'.get? path = fs.get? path) :
    sizeOf env fs' path = sizeOf env fs path := by
  rw [sizeOf, sizeOf, h]

/-- The loop that removes entries tries to remove those that have to go. -/
theorem evict_removes (manager : CacheManager) (hfault : ∀ n, env.fault n = none) (dir : Path)
    (rest : List Path) (hentries : ∀ path ∈ rest, IsEntry dir fs path) (hnodup : rest.Nodup)
    (n : Nat) :
    Fallible.Ensures (env.handler host) Fallible.AnyCall
      (manager.evict rest (rest.map (sizeOf env fs)).sum rest.length)
      (fun _ s' => RemovedFrom env
        ((manager.bounds.evicted (sizeOf env fs) rest).flatMap removedWith) fs s'.fs)
      (fun _ _ => False) ⟨fs, n⟩ := by
  induction rest generalizing fs n with
  | nil => exact Fallible.ensures_pure.mpr (.refl env fs)
  | cons path rest ih =>
      unfold evict Bounds.evicted
      by_cases hfits : manager.bounds.Fits (sizeOf env fs) (path :: rest)
      · have hstop : ((path :: rest).map (sizeOf env fs)).sum ≤
            manager.config.maxSizeBytes.toNat ∧
              (path :: rest).length ≤ manager.config.maxEntries := hfits
        rw [if_pos hstop, if_pos hfits]
        exact Fallible.ensures_pure.mpr (.refl env fs)
      · have hgo : ¬ (((path :: rest).map (sizeOf env fs)).sum ≤
            manager.config.maxSizeBytes.toNat ∧
              (path :: rest).length ≤ manager.config.maxEntries) := hfits
        rw [if_neg hgo, if_neg hfits]
        have hpath := hentries path List.mem_cons_self
        refine (ensures_fileCall_of (handler_metadata hfault hpath.there n)).mpr ?_
        refine ensures_discard_removeFile.mpr (ensures_discard_removeFile.mpr ?_)
        have hfirst := env.removeFile_removedFrom host ⟨fs, n + 1⟩ path
        generalize (env.handler host (.file (.removeFile path)) ⟨fs, n + 1⟩).2 = s₁ at hfirst ⊢
        have hsecond := env.removeFile_removedFrom host s₁ (path.withExtension metaExtension)
        generalize (env.handler host (.file (.removeFile
          (path.withExtension metaExtension))) s₁).2 = s₂ at hsecond ⊢
        have hboth : RemovedFrom env (removedWith path) fs s₂.fs := hfirst.trans hsecond
        obtain ⟨hnew, hnodup⟩ := List.nodup_cons.mp hnodup
        -- The other entries are as they were.
        have hsame : ∀ other ∈ rest, s₂.fs.get? other = fs.get? other := by
          intro other hother
          refine hboth.kept other fun p hp _ => ?_
          refine hpath.apart (hentries other (List.mem_cons_of_mem _ hother)) ?_ p hp
          rintro rfl
          exact hnew hother
        have hsizes : ∀ other ∈ rest, sizeOf env s₂.fs other = sizeOf env fs other :=
          fun other hother => sizeOf_congr (hsame other hother)
        have hrest := @ih s₂.fs (fun other hother => ?_) hnodup s₂.made
        · rw [List.map_congr_left hsizes, Bounds.evicted_congr hsizes] at hrest
          simp only [List.map_cons, List.sum_cons, Nat.add_sub_cancel_left, List.length_cons,
            Nat.add_sub_cancel, List.flatMap_cons]
          exact Fallible.ensures_mono hrest (fun _ s₃ h₃ => hboth.trans h₃) fun _ _ h => h
        · have hentry := hentries other (List.mem_cons_of_mem _ hother)
          refine ⟨hentry.exists_name, hentry.not_auxiliary, ?_⟩
          rw [FileSystem.pathExists, hsame other hother, hboth.isDir]
          exact hentry.there

/-- The size that the loop begins with is that of the entries that it goes through. -/
theorem totalBytes_eq (h : manager.Readable env fs) :
    manager.totalBytes env fs = ((manager.oldestFirst env fs).map (sizeOf env fs)).sum :=
  (((shown_perm h 0 _).trans oldestFirst_perm.symm).map _).sum_eq

/-- `enforce_limits` never fails, and tries to remove what it gives up. -/
theorem enforceLimits_removes (h : manager.Readable env fs) :
    Fallible.Ensures (env.handler host) Fallible.AnyCall manager.enforceLimits
      (fun _ s' => RemovedFrom env ((manager.givenUp env fs).flatMap removedWith) fs s'.fs)
      (fun _ _ => False) ⟨fs, 0⟩ := by
  unfold enforceLimits givenUp
  refine Fallible.ensures_bind.mpr (Fallible.ensures_mono (currentCacheSize_ensures h)
    (fun size s₁ h₁ => ?_) fun _ _ h => h)
  obtain ⟨rfl, rfl⟩ := h₁
  refine Fallible.ensures_bind.mpr (Fallible.ensures_mono (withinLimits_ensures h)
    (fun within s₂ h₂ => ?_) fun _ _ h => h)
  obtain ⟨rfl, rfl⟩ := h₂
  refine Fallible.ensures_ite.mpr ⟨fun hwithin => ?_, fun hbeyond => ?_⟩
  · rw [if_pos (of_decide_eq_true hwithin)]
    exact Fallible.ensures_pure.mpr (.refl env fs)
  · rw [if_neg fun hwithin => hbeyond (decide_eq_true hwithin)]
    refine Fallible.ensures_bind.mpr (Fallible.ensures_mono (listing_ensures h _)
      (fun paths s₃ h₃ => ?_) fun _ _ h => h)
    obtain ⟨rfl, rfl⟩ := h₃
    have htimed : ∀ path ∈ manager.listed env fs (manager.collectedAfter env fs),
        isAuxiliary path = false → ∃ time, env.modified path = .ok time := by
      intro path hpath haux
      obtain ⟨name, hname, rfl⟩ := List.mem_map.mp hpath
      rw [List.mem_dedup, List.mem_filter] at hname
      exact h.timed name hname.2 haux
    refine Fallible.ensures_bind.mpr (Fallible.ensures_mono (collectEntries_finds h _
      (fun _ => pathExists_of_mem_listed) htimed [] _) (fun all s₄ h₄ => ?_) fun _ _ h => h)
    obtain ⟨rfl, hfs⟩ := h₄
    have hstate : s₄ = ⟨fs, s₄.made⟩ := by
      rw [← hfs]
    have hevict := @evict_removes env fs host manager h.no_fault manager.config.cachePath
      (manager.oldestFirst env fs)
      (fun path hpath => .of_mem_shown h (oldestFirst_perm.mem_iff.mp hpath))
      (oldestFirst_perm.nodup_iff.mpr (nodup_shown _)) s₄.made
    rw [← totalBytes_eq h, ← hstate] at hevict
    have hlength : (manager.oldestFirst env fs).length =
        (((manager.shown env fs (manager.collectedAfter env fs)).map fun path =>
          (path, timeOf env path)).mergeSort fun a b => a.2 ≤ b.2).length := List.length_map ..
    rw [hlength] at hevict
    exact hevict

end Removals

/-! ## Sample directories -/

/-- What holds of the last component of every place in a directory holds of its entries. -/
theorem of_hasEntry {fs : FileSystem} {dir : Path} {p : String → Bool}
    (hall : (fs.files.keys ++ fs.dirs).all (fun place =>
      place.dropLast ≠ dir.resolve || place.getLast?.all p) = true) {name : String}
    (h : hasEntry fs dir name = true) : p name = true := by
  have hmem : dir.resolve ++ [name] ∈ fs.files.keys ++ fs.dirs := by
    have hplace := (Bool.and_eq_true_iff.mp h).2
    rcases Bool.or_eq_true_iff.mp hplace with hfile | hdir
    · exact List.mem_append_left _ (AList.lookup_isSome.mp hfile)
    · exact List.mem_append_right _ (of_decide_eq_true hdir)
  simpa using List.all_eq_true.mp hall _ hmem

/-- Surroundings in which no read fails, every listing shows `names`, and an entry was modified
at the time of its name. -/
def showing (names : List String) (time : String → Nat) : CacheEnv :=
  { CacheEnv.quiet with
    listing := fun _ _ => names
    modified := fun path => .ok (path.fileName.elim 0 time) }

end CacheManager

end MissionOs.Driverd
