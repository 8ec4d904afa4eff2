import MissionOs.Driverd.CacheFiles
import MissionOs.Lib.Runs

/-!
# Packages and their metadata

A package in the cache is two files, and no operation writes or removes both of them at once.
`CacheManager.KeepsConsistent` is what has to go well for the two to stay together, and
`consistent_of_run` is the invariant over a run.
-/

namespace MissionOs.Driverd

open MissionOs.Rust MissionOs.Lib

namespace CacheManager

variable (host : CacheHost) (manager : CacheManager)

/-- The metadata of the package of `d` is there and describes it: it shows the digest in the
name of the package, and its size. -/
def Described (fs : FileSystem) (d : PackageDigest) : Prop :=
  ∃ m : CacheEntryMeta, fs.get? (manager.metaPathFor d) = some (host.metaJson m) ∧
    m.digestValue = d.toHex ∧
    ∀ data, fs.get? (manager.cachePathFor d) = some data → m.sizeBytes.toNat = data.length

/-- A package is in the cache exactly if metadata that describes it is. -/
def Consistent (fs : FileSystem) : Prop :=
  ∀ d, (fs.get? (manager.cachePathFor d)).isSome = true ↔ manager.Described host fs d

/-- A `finalize` that fails leaves the package, its metadata and the partial file as they
were. -/
def FailedFinalizeKeeps (fs : FileSystem) : CacheInput → Prop
  | .op (.finalize d args) env => ∀ e fs',
      env.run host (manager.finalize host.metaJson d args) fs = (.error e, fs') →
      fs'.get? (manager.cachePathFor d) = fs.get? (manager.cachePathFor d) ∧
        fs'.get? (manager.metaPathFor d) = fs.get? (manager.metaPathFor d) ∧
        fs'.get? (manager.partialPathFor d) = fs.get? (manager.partialPathFor d)
  | _ => True

/-! ## The condition on a step -/

/-- The removals of a package and of its metadata fail together. -/
def RemovedTogether (env : CacheEnv) (d : PackageDigest) : Prop :=
  env.Removes (manager.cachePathFor d) ↔ env.Removes (manager.metaPathFor d)

/-- `remove_entry` sees the package and can remove it. -/
def TakesPackage (env : CacheEnv) (d : PackageDigest) : Prop :=
  env.fault 0 = none ∧ env.Removes (manager.cachePathFor d)

/-- `remove_entry` comes to the metadata, sees it and can remove it. -/
def TakesMetadata (env : CacheEnv) (d : PackageDigest) : Prop :=
  (env.fault 0 = none ∧ env.Removes (manager.cachePathFor d) ∧ env.fault 2 = none ∨
      env.fault 0 ≠ none ∧ env.fault 1 = none) ∧
    env.Removes (manager.metaPathFor d)

/-- Another entry of the cache directory has the name of a package as its stem, so that
`enforce_limits` takes the metadata of the package for its own. -/
def HasNamesake (fs : FileSystem) (d : PackageDigest) : Prop :=
  ∃ name, hasEntry fs manager.config.cachePath name = true ∧
    isAuxiliary (manager.config.cachePath.entry name) = false ∧
    Path.stem name = packageName d ∧ name ≠ packageName d

/-- `clear` lists an entry of the cache directory and can remove it. -/
def Clears (env : CacheEnv) (fs : FileSystem) (name : String) : Prop :=
  (∃ names, env.list 0 fs manager.config.cachePath = .ok names ∧ name ∈ names) ∧
    env.Removes (manager.config.cachePath.entry name)

/-- What has to go well in an input: a `finalize` that moves a partial file is given its size
and can write the metadata, and of a package and its metadata either both are removed or
none. -/
def KeepsConsistent (fs : FileSystem) : CacheInput → Prop
  | .op (.finalize d args) env => ∀ data, manager.Finalizes d env fs data →
      env.Writes fs (manager.metaPathFor d) ∧ args.sizeBytes.toNat = data.length
  | .op (.verifyCacheEntry d) env => ∀ inner data,
      fs.get? (manager.cachePathFor d) = some data →
      HashAlgorithm.ofName d.algorithm = some inner → host.hash.digest inner data ≠ d.value →
      manager.RemovedTogether env d
  | .op (.removeEntry d) env => (fs.get? (manager.cachePathFor d)).isSome = true →
      (manager.TakesPackage env d ↔ manager.TakesMetadata env d)
  | .op .enforceLimits env => ∀ d, (fs.get? (manager.cachePathFor d)).isSome = true →
      manager.RemovedTogether env d ∧ ¬manager.HasNamesake fs d
  | .op .clear env => ∀ d, (fs.get? (manager.cachePathFor d)).isSome = true →
      (manager.Clears env fs (packageName d) ↔
        manager.Clears env fs (packageName d ++ "." ++ metaExtension))
  | _ => True

variable {host manager} {env : CacheEnv} {fs fs' : FileSystem}

/-! ## Removing files -/

/-- A path that a list of attempts removes. -/
def Hit (env : CacheEnv) (attempted : List Path) (q : Path) : Prop :=
  ∃ p ∈ attempted, env.Removes p ∧ q.resolve = p.resolve

theorem get?_of_hit {attempted : List Path} {q : Path} (h : RemovedFrom env attempted fs fs')
    (hq : Hit env attempted q) : fs'.get? q = none := by
  obtain ⟨p, hp, hremoves, hsame⟩ := hq
  exact h.gone p hp hremoves q hsame

theorem get?_of_not_hit {attempted : List Path} {q : Path} (h : RemovedFrom env attempted fs fs')
    (hq : ¬Hit env attempted q) : fs'.get? q = fs.get? q := by
  apply h.kept
  intro p hp hremoves hsame
  exact hq ⟨p, hp, hremoves, hsame⟩

/-- The description of a package reads two files. -/
theorem described_congr {d : PackageDigest}
    (hpkg : fs'.get? (manager.cachePathFor d) = fs.get? (manager.cachePathFor d))
    (hmeta : fs'.get? (manager.metaPathFor d) = fs.get? (manager.metaPathFor d)) :
    manager.Described host fs' d ↔ manager.Described host fs d := by
  rw [Described, Described, hpkg, hmeta]

theorem Consistent.congr (h : manager.Consistent host fs)
    (hpkg : ∀ d, fs'.get? (manager.cachePathFor d) = fs.get? (manager.cachePathFor d))
    (hmeta : ∀ d, fs'.get? (manager.metaPathFor d) = fs.get? (manager.metaPathFor d)) :
    manager.Consistent host fs' := by
  intro d
  rw [hpkg d, described_congr (hpkg d) (hmeta d)]
  exact h d

/-- Removals keep a cache consistent if they take each package with its metadata. -/
theorem Consistent.removedFrom (h : manager.Consistent host fs) {attempted : List Path}
    (hremoved : RemovedFrom env attempted fs fs')
    (htogether : ∀ d, (fs.get? (manager.cachePathFor d)).isSome = true →
      (Hit env attempted (manager.cachePathFor d) ↔ Hit env attempted (manager.metaPathFor d))) :
    manager.Consistent host fs' := by
  intro d
  by_cases hpresent : (fs.get? (manager.cachePathFor d)).isSome = true
  · by_cases hhit : Hit env attempted (manager.cachePathFor d)
    · have hmeta := get?_of_hit hremoved ((htogether d hpresent).mp hhit)
      rw [get?_of_hit hremoved hhit]
      refine iff_of_false (by simp) ?_
      intro hright
      obtain ⟨m, hm, -⟩ := hright
      rw [hmeta] at hm
      cases hm
    · have hmeta := get?_of_not_hit hremoved fun hm => hhit ((htogether d hpresent).mpr hm)
      have hpkg := get?_of_not_hit hremoved hhit
      rw [hpkg, described_congr hpkg hmeta]
      exact h d
  · have hnone : fs.get? (manager.cachePathFor d) = none := by simpa using hpresent
    have hnone' : fs'.get? (manager.cachePathFor d) = none := by
      rcases hremoved.same_or_none (manager.cachePathFor d) with hsame | hgone
      · rw [hsame, hnone]
      · exact hgone
    refine iff_of_false (by simp [hnone']) ?_
    intro hright
    obtain ⟨m, hm, hdigest, -⟩ := hright
    apply hpresent
    apply (h d).mpr
    refine ⟨m, ?_, hdigest, by simp [hnone]⟩
    rcases hremoved.same_or_none (manager.metaPathFor d) with hsame | hgone
    · rw [← hsame, hm]
    · rw [hgone] at hm
      cases hm

/-! ## What the operations remove -/

/-- The calls of `hash_file` are answered for the cache as they are for a download. -/
theorem ofFetch_hashFile_ensures (algorithm : String) (path : Path) (s : CacheSession) :
    Fallible.Ensures (env.handler host) Fallible.AnyCall
      (ofFetch (StreamingHasher.hashFile host.hash algorithm path))
      (fun digest s' => s'.fs = s.fs ∧ ∃ inner data,
        HashAlgorithm.ofName algorithm = some inner ∧ s.fs.get? path = some data ∧
          digest = host.hash.digest inner data)
      (fun _ s' => s'.fs = s.fs) s := by
  -- The two sessions show the same files and as many calls.
  let R (t : CacheSession) (u : Session) : Prop := t.fs = u.fs ∧ t.made = u.trace.length
  have hstep : ∀ c t u, c = .openRead path ∨ c = .readChunks path → R t u →
      (env.handler host (.file c) t).1 = ((env.reads host).handler c u).1 ∧
        R (env.handler host (.file c) t).2 ((env.reads host).handler c u).2 := by
    intro c hpost hdone hc hfound
    obtain ⟨tfs, made⟩ := hpost
    obtain ⟨ufs, trace⟩ := hdone
    obtain ⟨hfs, hmade⟩ := hfound
    have hread : c.isRead = true := by
      rcases hc with rfl | rfl
      · rfl
      · rfl
    have hanswer : env.answering host c = env.reads host := if_pos hread
    cases hfs
    cases hmade
    simp only [CacheEnv.handler, FetchEnv.handler, hanswer, R, List.length_append,
      List.length_singleton, and_self]
  have hsame : R s ⟨s.fs, List.replicate s.made .now⟩ := ⟨rfl, by simp⟩
  have hrun : (CallProg.run (env.handler host)
        (ofFetch (StreamingHasher.hashFile host.hash algorithm path)).run s).1 = _ ∧
      R (CallProg.run (env.handler host)
        (ofFetch (StreamingHasher.hashFile host.hash algorithm path)).run s).2 _ :=
    CallProg.run_translate hstep (StreamingHasher.hashFile_reads host.hash algorithm path) hsame
  have hspec := (StreamingHasher.hashFile_ensures (env.reads host) algorithm path
    ⟨s.fs, List.replicate s.made .now⟩).2
  refine ⟨(Fallible.ensures_any _).1, ?_⟩
  rcases hcache : CallProg.run (env.handler host)
    (ofFetch (StreamingHasher.hashFile host.hash algorithm path)).run s with ⟨r, s'⟩
  rcases hfetch : CallProg.run (env.reads host).handler
    (StreamingHasher.hashFile host.hash algorithm path).run
    ⟨s.fs, List.replicate s.made .now⟩ with ⟨r', u⟩
  have hstart : (env.reads host).hash = host.hash := rfl
  rw [hstart, hfetch] at hspec
  rw [hcache, hfetch] at hrun
  obtain ⟨rfl, hfs, -⟩ := hrun
  cases r with
  | ok digest =>
      obtain ⟨hsame, hdigest⟩ := hspec
      exact ⟨hfs.trans hsame, hdigest⟩
  | error e => exact hfs.trans hspec

/-- `verify_cache_entry` removes nothing, or tries to remove the package and its metadata since
the bytes of the package do not hash to the digest. -/
theorem verifyCacheEntry_ensures (d : PackageDigest) (s : CacheSession) :
    let R (fs' : FileSystem) : Prop := RemovedFrom env [] s.fs fs' ∨
      ∃ inner data, s.fs.get? (manager.cachePathFor d) = some data ∧
        HashAlgorithm.ofName d.algorithm = some inner ∧ host.hash.digest inner data ≠ d.value ∧
        RemovedFrom env [manager.cachePathFor d, manager.metaPathFor d] s.fs fs'
    Fallible.Ensures (env.handler host) Fallible.AnyCall
      (manager.verifyCacheEntry host.hash d) (fun _ s' => R s'.fs) (fun _ s' => R s'.fs) s := by
  intro R
  have hsame : ∀ {fs' : FileSystem}, fs' = s.fs → R fs' := by
    intro fs' h
    rw [h]
    exact Or.inl (.refl env s.fs)
  apply (ensures_fileCall_of (env.handler_pathExists host _ _)).mpr
  apply Fallible.ensures_ite.mpr
  constructor
  · intro _
    apply Fallible.ensures_bind.mpr
    apply Fallible.ensures_bind.mpr
    apply Fallible.ensures_attempt.mpr
    apply Fallible.ensures_mono (ofFetch_hashFile_ensures d.algorithm (manager.cachePathFor d) _)
    · intro digest s₁ hpost
      obtain ⟨hfs, inner, data, hinner, hdata, rfl⟩ := hpost
      apply Fallible.ensures_pure.mpr
      apply Fallible.ensures_ite.mpr
      constructor
      · intro _
        exact Fallible.ensures_pure.mpr (hsame hfs)
      · intro hmismatch
        apply ensures_discard_removeFile.mpr
        apply ensures_discard_removeFile.mpr
        apply Fallible.ensures_pure.mpr
        have hpkg := env.removeFile_removedFrom host s₁ (manager.cachePathFor d)
        have hmeta := env.removeFile_removedFrom host
          (env.handler host (.file (.removeFile (manager.cachePathFor d))) s₁).2
          (manager.metaPathFor d)
        have hboth := hpkg.trans hmeta
        rw [hfs] at hboth
        refine Or.inr ⟨inner, data, hdata, hinner, ?_, hboth⟩
        intro hmatch
        apply hmismatch
        rw [PackageDigest.matches_iff]
        exact hmatch.symm
    · intro e s₁ hfs
      exact Fallible.ensures_throw.mpr (hsame hfs)
  · intro _
    exact Fallible.ensures_pure.mpr (hsame rfl)

theorem metaPathFor_not_hit (d : PackageDigest) :
    ¬Hit env [manager.cachePathFor d] (manager.metaPathFor d) := by
  intro h
  obtain ⟨p, hp, -, hsame⟩ := h
  rw [List.mem_singleton.mp hp] at hsame
  exact manager.metaPathFor_ne_cachePathFor d d hsame

theorem not_hit_nil {q : Path} : ¬Hit env [] q := by
  intro h
  obtain ⟨p, hp, -⟩ := h
  cases hp

theorem hit_singleton (p : Path) : Hit env [p] p ↔ env.Removes p := by
  constructor
  · intro h
    obtain ⟨q, hq, hremoves, -⟩ := h
    rwa [List.mem_singleton.mp hq] at hremoves
  · intro hremoves
    exact ⟨p, List.mem_singleton_self p, hremoves, rfl⟩

theorem hit_append {attempted attempted' : List Path} {q : Path} :
    Hit env (attempted ++ attempted') q ↔ Hit env attempted q ∨ Hit env attempted' q := by
  simp only [Hit, List.mem_append, or_and_right, exists_or]

/-- Attempts on the two files of one digest spare those of another. -/
theorem hit_iff_of_subset {attempted : List Path} {d : PackageDigest}
    (hsub : attempted ⊆ [manager.cachePathFor d, manager.metaPathFor d])
    {d' : PackageDigest} (hd : d.value = d'.value →
      (Hit env attempted (manager.cachePathFor d) ↔ Hit env attempted (manager.metaPathFor d))) :
    Hit env attempted (manager.cachePathFor d') ↔ Hit env attempted (manager.metaPathFor d') := by
  by_cases hvalue : d.value = d'.value
  · have hmeta : manager.metaPathFor d = manager.metaPathFor d' := by
      rw [metaPathFor, metaPathFor, PackageDigest.toHex, PackageDigest.toHex, hvalue]
    rw [← manager.cachePathFor_congr hvalue, ← hmeta]
    exact hd hvalue
  · refine iff_of_false ?_ ?_
    · intro h
      obtain ⟨p, hp, -, hsame⟩ := h
      have hp' := hsub hp
      rw [List.mem_cons, List.mem_singleton] at hp'
      rcases hp' with rfl | rfl
      · exact hvalue (manager.cachePathFor_inj.mp hsame.symm)
      · exact manager.metaPathFor_ne_cachePathFor d d' hsame.symm
    · intro h
      obtain ⟨p, hp, -, hsame⟩ := h
      have hp' := hsub hp
      rw [List.mem_cons, List.mem_singleton] at hp'
      rcases hp' with rfl | rfl
      · exact manager.metaPathFor_ne_cachePathFor d' d hsame
      · exact hvalue (manager.metaPathFor_inj.mp hsame.symm)

/-- The second half of `remove_entry` tries to remove metadata that it sees. -/
theorem removeMetadata_ensures (d : PackageDigest) (s : CacheSession) :
    let R (fs' : FileSystem) : Prop := ∃ attempted, RemovedFrom env attempted s.fs fs' ∧
      attempted ⊆ [manager.metaPathFor d] ∧
      ((s.fs.get? (manager.metaPathFor d)).isSome = true →
        (Hit env attempted (manager.metaPathFor d) ↔
          env.fault s.made = none ∧ env.Removes (manager.metaPathFor d)))
    Fallible.Ensures (env.handler host) Fallible.AnyCall (manager.removeMetadata d)
      (fun _ s' => R s'.fs) (fun _ s' => R s'.fs) s := by
  intro R
  apply (ensures_fileCall_of (env.handler_pathExists host _ _)).mpr
  apply Fallible.ensures_ite.mpr
  constructor
  · intro hseen
    have hfault : env.fault s.made = none := by simp_all
    apply Fallible.ensures_discard.mpr
    apply Fallible.ensures_perform.mpr
    refine ⟨trivial, _, env.removeFile_removedFrom host _ _, List.Subset.refl _, ?_⟩
    intro _
    rw [hit_singleton]
    exact ⟨fun hremoves => ⟨hfault, hremoves⟩, fun h => h.2⟩
  · intro hunseen
    apply Fallible.ensures_pure.mpr
    refine ⟨[], .refl env s.fs, List.nil_subset _, ?_⟩
    intro hfile
    refine iff_of_false not_hit_nil ?_
    intro hright
    obtain ⟨hfault, -⟩ := hright
    obtain ⟨data, hdata⟩ := Option.isSome_iff_exists.mp hfile
    apply hunseen
    simp [hfault, FileSystem.pathExists_of_get? hdata]

theorem not_hit_cachePathFor {attempted : List Path} {d : PackageDigest}
    (hsub : attempted ⊆ [manager.metaPathFor d]) :
    ¬Hit env attempted (manager.cachePathFor d) := by
  intro h
  obtain ⟨p, hp, -, hsame⟩ := h
  rw [List.mem_singleton.mp (hsub hp)] at hsame
  exact manager.metaPathFor_ne_cachePathFor d d hsame.symm

theorem hit_both (d : PackageDigest) :
    (Hit env [manager.cachePathFor d, manager.metaPathFor d] (manager.cachePathFor d) ↔
        env.Removes (manager.cachePathFor d)) ∧
      (Hit env [manager.cachePathFor d, manager.metaPathFor d] (manager.metaPathFor d) ↔
        env.Removes (manager.metaPathFor d)) := by
  have happend : [manager.cachePathFor d, manager.metaPathFor d] =
      [manager.cachePathFor d] ++ [manager.metaPathFor d] := rfl
  rw [happend, hit_append, hit_append, hit_singleton, hit_singleton]
  exact ⟨or_iff_left (not_hit_cachePathFor (List.Subset.refl _)),
    or_iff_right (metaPathFor_not_hit d)⟩

/-- What `remove_entry` tries to remove of a package and its metadata. -/
theorem removeEntry_ensures (d : PackageDigest) (fs : FileSystem) :
    let R (fs' : FileSystem) : Prop := ∃ attempted, RemovedFrom env attempted fs fs' ∧
      attempted ⊆ [manager.cachePathFor d, manager.metaPathFor d] ∧
      ((fs.get? (manager.cachePathFor d)).isSome = true →
        (fs.get? (manager.metaPathFor d)).isSome = true →
        (Hit env attempted (manager.cachePathFor d) ↔ manager.TakesPackage env d) ∧
          (Hit env attempted (manager.metaPathFor d) ↔ manager.TakesMetadata env d))
    Fallible.Ensures (env.handler host) Fallible.AnyCall (manager.removeEntry d)
      (fun _ s' => R s'.fs) (fun _ s' => R s'.fs) ⟨fs, 0⟩ := by
  intro R
  apply Fallible.ensures_bind.mpr
  apply (ensures_fileCall_of (env.handler_pathExists host _ _)).mpr
  apply Fallible.ensures_ite.mpr
  constructor
  · intro hseen
    have hfault : env.fault 0 = none := by simp_all
    rcases env.removeFile_cases host ⟨fs, 1⟩ (manager.cachePathFor d) with
      ⟨hremoves, -, hrun⟩ | ⟨hstays, e, hrun⟩
    · apply (ensures_fileCall_of hrun).mpr
      apply Fallible.ensures_pure.mpr
      have hfirst := env.removeFile_removedFrom host ⟨fs, 1⟩ (manager.cachePathFor d)
      rw [hrun] at hfirst
      have hrest : ∀ fs', (∃ attempted, RemovedFrom env attempted
            (fs.remove (manager.cachePathFor d)) fs' ∧
          attempted ⊆ [manager.metaPathFor d] ∧
          (((fs.remove (manager.cachePathFor d)).get? (manager.metaPathFor d)).isSome = true →
            (Hit env attempted (manager.metaPathFor d) ↔
              env.fault 2 = none ∧ env.Removes (manager.metaPathFor d)))) → R fs' := by
        intro fs' hpost
        obtain ⟨attempted, hremoved, hsub, hmeta⟩ := hpost
        refine ⟨_, hfirst.trans hremoved, List.cons_subset_cons _ hsub, ?_⟩
        intro _ hfile
        rw [FileSystem.get?_remove_of_ne _ (manager.metaPathFor_ne_cachePathFor d d)] at hmeta
        rw [hit_append, hit_append, hit_singleton, hmeta hfile]
        refine ⟨iff_of_true (Or.inl hremoves) ⟨hfault, hremoves⟩, ?_⟩
        rw [or_iff_right (metaPathFor_not_hit d)]
        constructor
        · intro h
          obtain ⟨hseen, hm⟩ := h
          exact ⟨Or.inl ⟨hfault, hremoves, hseen⟩, hm⟩
        · intro h
          obtain ⟨⟨-, -, hseen⟩ | ⟨hne, -⟩, hm⟩ := h
          · exact ⟨hseen, hm⟩
          · exact absurd hfault hne
      apply Fallible.ensures_mono (removeMetadata_ensures d _)
      · intro _ s' hs'
        exact hrest _ hs'
      · intro _ s' hs'
        exact hrest _ hs'
    · apply (ensures_fileCall_of hrun).mpr
      apply Fallible.ensures_throw.mpr
      refine ⟨[], .refl env fs, List.nil_subset _, ?_⟩
      intro hfile _
      have hfails : ¬env.Removes (manager.cachePathFor d) := fun h => hstays ⟨h, hfile⟩
      refine ⟨iff_of_false not_hit_nil fun h => hfails h.2, iff_of_false not_hit_nil ?_⟩
      intro hright
      obtain ⟨⟨-, hremoves, -⟩ | ⟨hne, -⟩, -⟩ := hright
      · exact hfails hremoves
      · exact hne hfault
  · intro hunseen
    apply Fallible.ensures_pure.mpr
    have hrest : ∀ fs', (∃ attempted, RemovedFrom env attempted fs fs' ∧
        attempted ⊆ [manager.metaPathFor d] ∧
        ((fs.get? (manager.metaPathFor d)).isSome = true →
          (Hit env attempted (manager.metaPathFor d) ↔
            env.fault 1 = none ∧ env.Removes (manager.metaPathFor d)))) → R fs' := by
      intro fs' hpost
      obtain ⟨attempted, hremoved, hsub, hmeta⟩ := hpost
      refine ⟨attempted, hremoved, List.subset_cons_of_subset _ hsub, ?_⟩
      intro hfile hfile'
      have hfault : env.fault 0 ≠ none := by
        intro hnone
        obtain ⟨data, hdata⟩ := Option.isSome_iff_exists.mp hfile
        apply hunseen
        simp [hnone, FileSystem.pathExists_of_get? hdata]
      refine ⟨iff_of_false (not_hit_cachePathFor hsub) fun h => hfault h.1, ?_⟩
      rw [hmeta hfile']
      constructor
      · intro hright
        obtain ⟨hseen, hm⟩ := hright
        exact ⟨Or.inr ⟨hfault, hseen⟩, hm⟩
      · intro hright
        obtain ⟨⟨hnone, -⟩ | ⟨-, hseen⟩, hm⟩ := hright
        · exact absurd hnone hfault
        · exact ⟨hseen, hm⟩
    apply Fallible.ensures_mono (removeMetadata_ensures d _)
    · intro _ s' hs'
      exact hrest _ hs'
    · intro _ s' hs'
      exact hrest _ hs'

/-! ### Removals over a listing -/

/-- The paths that a listing of the cache directory shows. -/
def listedPaths (manager : CacheManager) (env : CacheEnv) (n : Nat) (fs : FileSystem) :
    List Path :=
  match env.list n fs manager.config.cachePath with
  | .ok names => names.map manager.config.cachePath.entry
  | .error _ => []

theorem mem_list {p : Path} {n : Nat} {names : List String} (h : env.list n fs p = .ok names)
    {name : String} (hname : name ∈ names) : hasEntry fs p name = true := by
  unfold CacheEnv.list at h
  split at h
  · cases h
  · split_ifs at h
    cases h
    rw [List.mem_dedup] at hname
    exact List.of_mem_filter hname

/-- The paths of a listing are entries of the cache directory. -/
theorem entry_of_mem_listedPaths {n : Nat} {p : Path}
    (h : p ∈ listedPaths manager env n fs) :
    ∃ name, p = manager.config.cachePath.entry name ∧
      hasEntry fs manager.config.cachePath name = true := by
  unfold listedPaths at h
  split at h
  · rename_i names hlist
    obtain ⟨name, hname, rfl⟩ := List.mem_map.mp h
    exact ⟨name, rfl, mem_list hlist hname⟩
  · cases h

theorem entries_ensures (s : CacheSession) :
    Fallible.Ensures (env.handler host) Fallible.AnyCall manager.entries
      (fun paths s' => s'.fs = s.fs ∧ paths = listedPaths manager env s.made s.fs)
      (fun _ _ => False) s := by
  apply ensures_cacheCall.mpr
  have hrun : env.handler host (.readDir manager.config.cachePath) s =
    (env.list s.made s.fs manager.config.cachePath, ⟨s.fs, s.made + 1⟩) := rfl
  rw [hrun, listedPaths]
  cases env.list s.made s.fs manager.config.cachePath with
  | ok names => exact Fallible.ensures_pure.mpr ⟨rfl, rfl⟩
  | error e => exact Fallible.ensures_pure.mpr ⟨rfl, rfl⟩

/-- The loop of `clear` and of `cleanup_partials` tries each path that it selects. -/
theorem removeAll_ensures (select : Path → Bool) (paths : List Path) (removed : Nat)
    (s : CacheSession) :
    Fallible.Ensures (env.handler host) Fallible.AnyCall (removeAll select paths removed)
      (fun _ s' => RemovedFrom env (paths.filter select) s.fs s'.fs) (fun _ _ => False) s := by
  induction paths generalizing removed s with
  | nil => exact Fallible.ensures_pure.mpr (.refl env s.fs)
  | cons path rest ih =>
      unfold removeAll
      by_cases hpath : select path = true
      · rw [if_pos hpath, List.filter_cons_of_pos hpath]
        have hfirst := env.removeFile_removedFrom host s path
        have hrest : ∀ n, Fallible.Ensures (env.handler host) Fallible.AnyCall
            (removeAll select rest n)
            (fun _ s' => RemovedFrom env (path :: rest.filter select) s.fs s'.fs)
            (fun _ _ => False) (env.handler host (.file (.removeFile path)) s).2 := by
          intro n
          apply Fallible.ensures_mono (ih n _) _ fun _ _ h => h
          intro _ s' hs'
          exact hfirst.trans hs'
        apply ensures_cacheCall.mpr
        cases (env.handler host (.file (.removeFile path)) s).1 with
        | ok _ => exact hrest _
        | error _ => exact hrest _
      · rw [if_neg hpath, List.filter_cons_of_neg hpath]
        exact ih _ _

/-- `clear` and `cleanup_partials` try each listed path that they select. -/
theorem removeListed_ensures (select : Path → Bool) (fs : FileSystem) :
    Fallible.Ensures (env.handler host) Fallible.AnyCall
      (do removeAll select (← manager.entries) 0)
      (fun _ s' => RemovedFrom env ((listedPaths manager env 0 fs).filter select) fs s'.fs)
      (fun _ _ => False) ⟨fs, 0⟩ := by
  apply Fallible.ensures_bind.mpr
  apply Fallible.ensures_mono (entries_ensures _) _ fun _ _ h => h
  intro paths s' hpost
  obtain ⟨hfs, rfl⟩ := hpost
  apply Fallible.ensures_mono (removeAll_ensures _ _ _ s') _ fun _ _ h => h
  intro _ s'' hs''
  rw [hfs] at hs''
  exact hs''

/-- A path that `clear` is to remove is removed exactly if it is listed and can be. -/
theorem hit_listed_iff {name : String} (hname : name ≠ "..")
    (hpackage : isPackageName name = true) :
    Hit env ((listedPaths manager env 0 fs).filter isCacheFile)
        (manager.config.cachePath.entry name) ↔
      manager.Clears env fs name := by
  constructor
  · intro h
    obtain ⟨p, hp, hremoves, hsame⟩ := h
    have hlisted := (List.mem_filter.mp hp).1
    unfold listedPaths at hlisted
    split at hlisted
    · rename_i names hlist
      obtain ⟨name', hname', rfl⟩ := List.mem_map.mp hlisted
      have hdots := ne_dots_of_hasEntry (mem_list hlist hname')
      rw [Path.resolve_entry _ hname, Path.resolve_entry _ hdots, List.append_right_inj,
        List.singleton_inj] at hsame
      rw [hsame]
      exact ⟨⟨names, hlist, hname'⟩, hremoves⟩
    · cases hlisted
  · intro h
    obtain ⟨⟨names, hlist, hmem⟩, hremoves⟩ := h
    refine ⟨_, List.mem_filter.mpr ⟨?_, ?_⟩, hremoves, rfl⟩
    · rw [listedPaths, hlist]
      exact List.mem_map_of_mem hmem
    · rw [isCacheFile, Path.fileName_entry _ hname]
      simp [hpackage]

/-- The extension of a listed partial file is that of no package and no metadata. -/
theorem name_of_partial {p : Path} (h : p ∈ (listedPaths manager env 0 fs).filter
      fun path => extensionOf path = some partialExtension) :
    ∃ name, p.resolve = manager.config.cachePath.resolve ++ [name] ∧
      Path.extension name = some partialExtension := by
  obtain ⟨hlisted, hext⟩ := List.mem_filter.mp h
  obtain ⟨name, rfl, hentry⟩ := entry_of_mem_listedPaths hlisted
  have hdots := ne_dots_of_hasEntry hentry
  refine ⟨name, Path.resolve_entry _ hdots, ?_⟩
  have hext' := of_decide_eq_true hext
  rwa [extensionOf, Path.fileName_entry _ hdots] at hext'

theorem cachePathFor_ne_of_partial {p : Path} {d : PackageDigest}
    (h : p ∈ (listedPaths manager env 0 fs).filter
      fun path => extensionOf path = some partialExtension) :
    (manager.cachePathFor d).resolve ≠ p.resolve := by
  obtain ⟨name, hname, hext⟩ := name_of_partial h
  rw [resolve_cachePathFor, hname, ne_eq, List.append_right_inj, List.singleton_inj]
  intro hsame
  rw [← hsame, extension_packageName] at hext
  cases hext

theorem metaPathFor_ne_of_partial {p : Path} {d : PackageDigest}
    (h : p ∈ (listedPaths manager env 0 fs).filter
      fun path => extensionOf path = some partialExtension) :
    (manager.metaPathFor d).resolve ≠ p.resolve := by
  obtain ⟨name, hname, hext⟩ := name_of_partial h
  rw [resolve_metaPathFor, hname, ne_eq, List.append_right_inj, List.singleton_inj]
  intro hsame
  rw [← hsame, extension_package_dotted d (by decide)] at hext
  exact absurd hext (by decide)

/-- What the loop of `enforce_limits` tries to remove of its list. -/
def pairs (victims : List Path) : List Path :=
  victims.flatMap fun p => [p, p.withExtension metaExtension]

theorem evict_ensures (paths : List Path) (size count : Nat) (s : CacheSession) :
    Fallible.Ensures (env.handler host) Fallible.AnyCall (manager.evict paths size count)
      (fun _ s' => ∃ victims, victims ⊆ paths ∧ RemovedFrom env (pairs victims) s.fs s'.fs)
      (fun _ _ => False) s := by
  induction paths generalizing size count s with
  | nil => exact Fallible.ensures_pure.mpr ⟨[], by simp, .refl env s.fs⟩
  | cons path rest ih =>
      unfold evict
      apply Fallible.ensures_ite.mpr
      constructor
      · intro _
        exact Fallible.ensures_pure.mpr ⟨[], by simp, .refl env s.fs⟩
      · intro _
        apply ensures_cacheCall.mpr
        apply ensures_discard_removeFile.mpr
        apply ensures_discard_removeFile.mpr
        have hread : (env.handler host (.file (.metadata path)) s).2.fs = s.fs :=
          env.handler_fs_of_isRead host s rfl
        have hfirst := env.removeFile_removedFrom host
          (env.handler host (.file (.metadata path)) s).2 path
        rw [hread] at hfirst
        have hsecond := env.removeFile_removedFrom host
          (env.handler host (.file (.removeFile path))
            (env.handler host (.file (.metadata path)) s).2).2
          (path.withExtension metaExtension)
        apply Fallible.ensures_mono (ih _ _ _) _ fun _ _ h => h
        intro _ s' hpost
        obtain ⟨victims, hsub, hremoved⟩ := hpost
        refine ⟨path :: victims, List.cons_subset_cons path hsub, ?_⟩
        exact (hfirst.trans hsecond).trans hremoved

/-- The entries that `enforce_limits` collects are among the paths that it looks at. -/
theorem collectEntries_ensures (paths : List Path) (collected : List (Path × Nat))
    (s : CacheSession) :
    Fallible.Ensures (env.handler host) Fallible.AnyCall (collectEntries paths collected)
      (fun found s' => s'.fs = s.fs ∧ ∀ x ∈ found, x ∈ collected ∨
        x.1 ∈ paths ∧ isAuxiliary x.1 = false)
      (fun _ _ => False) s := by
  induction paths generalizing collected s with
  | nil => exact Fallible.ensures_pure.mpr ⟨rfl, fun x hx => Or.inl hx⟩
  | cons path rest ih =>
      have hskip : ∀ s₁ : CacheSession, s₁.fs = s.fs →
          Fallible.Ensures (env.handler host) Fallible.AnyCall (collectEntries rest collected)
            (fun found s' => s'.fs = s.fs ∧ ∀ x ∈ found, x ∈ collected ∨
              x.1 ∈ path :: rest ∧ isAuxiliary x.1 = false) (fun _ _ => False) s₁ := by
        intro s₁ hs₁
        apply Fallible.ensures_mono (ih collected s₁) _ fun _ _ h => h
        intro found s' hpost
        obtain ⟨hfs, hfound⟩ := hpost
        refine ⟨hfs.trans hs₁, ?_⟩
        intro x hx
        exact (hfound x hx).imp_right fun h => ⟨List.mem_cons_of_mem _ h.1, h.2⟩
      unfold collectEntries
      apply Fallible.ensures_ite.mpr
      constructor
      · intro _
        exact hskip s rfl
      · intro hpath
        have hread : (env.handler host (.file (.metadata path)) s).2.fs = s.fs :=
          env.handler_fs_of_isRead host s rfl
        apply ensures_cacheCall.mpr
        cases (env.handler host (.file (.metadata path)) s).1 with
        | error e => exact hskip _ hread
        | ok len =>
            apply ensures_cacheCall.mpr
            cases (env.handler host (.modified path)
                (env.handler host (.file (.metadata path)) s).2).1 with
            | error e => exact hskip _ hread
            | ok time =>
                apply Fallible.ensures_mono (ih _ _) _ fun _ _ h => h
                intro found s' hpost
                obtain ⟨hfs, hfound⟩ := hpost
                refine ⟨hfs.trans hread, ?_⟩
                intro x hx
                rcases hfound x hx with hold | ⟨hrest, haux⟩
                · rw [List.mem_append, List.mem_singleton] at hold
                  rcases hold with hold | rfl
                  · exact Or.inl hold
                  · exact Or.inr ⟨List.mem_cons_self, by simpa using hpath⟩
                · exact Or.inr ⟨List.mem_cons_of_mem _ hrest, haux⟩

/-- `enforce_limits` tries to remove entries of the cache directory, and for each of them the
file with its stem and the extension of metadata. -/
theorem enforceLimits_ensures (s : CacheSession) :
    Fallible.Ensures (env.handler host) Fallible.AnyCall manager.enforceLimits
      (fun _ s' => ∃ victims, RemovedFrom env (pairs victims) s.fs s'.fs ∧
        ∀ p ∈ victims, ∃ name, p = manager.config.cachePath.entry name ∧
          hasEntry s.fs manager.config.cachePath name = true ∧ isAuxiliary p = false)
      (fun _ s' => s'.fs = s.fs) s := by
  have hkeeps : Fallible.Keeps (env.handler host) SameFiles manager.currentCacheSize :=
    keeps_sameFiles manager.currentCacheSize_drops
  have hsize := hkeeps.ensures s
  apply Fallible.ensures_bind.mpr
  apply Fallible.ensures_mono hsize _ fun _ _ h => h
  intro size s₁ hs₁
  have hkeeps : Fallible.Keeps (env.handler host) SameFiles (manager.withinLimits size) :=
    keeps_sameFiles (manager.withinLimits_drops size)
  have hwithin := hkeeps.ensures s₁
  apply Fallible.ensures_bind.mpr
  apply Fallible.ensures_mono hwithin _ fun _ s₂ hs₂ => hs₂.trans hs₁
  intro within s₂ hs₂
  have hfs₂ : s₂.fs = s.fs := hs₂.trans hs₁
  apply Fallible.ensures_ite.mpr
  constructor
  · intro _
    refine Fallible.ensures_pure.mpr ⟨[], ?_, by simp⟩
    rw [hfs₂]
    exact .refl env s.fs
  · intro _
    apply Fallible.ensures_bind.mpr
    apply Fallible.ensures_mono (entries_ensures s₂) _ fun _ _ h => h.elim
    intro paths s₃ hpost
    obtain ⟨hfs₃, rfl⟩ := hpost
    apply Fallible.ensures_bind.mpr
    apply Fallible.ensures_mono (collectEntries_ensures _ [] s₃) _ fun _ _ h => h.elim
    intro found s₄ hpost
    obtain ⟨hfs₄, hfound⟩ := hpost
    apply Fallible.ensures_mono (evict_ensures _ _ _ s₄) _ fun _ _ h => h.elim
    intro _ s' hpost
    obtain ⟨victims, hsub, hremoved⟩ := hpost
    rw [hfs₄, hfs₃, hfs₂] at hremoved
    refine ⟨victims, hremoved, ?_⟩
    intro p hp
    obtain ⟨x, hx, rfl⟩ := List.mem_map.mp (hsub hp)
    rw [List.mem_mergeSort] at hx
    rcases hfound x hx with hnil | ⟨hlisted, haux⟩
    · cases hnil
    · obtain ⟨name, hname, hentry⟩ := entry_of_mem_listedPaths hlisted
      rw [hfs₂] at hentry
      exact ⟨name, hname, hentry, haux⟩

/-- Where no other entry has the stem of a package, `enforce_limits` tries to remove its
metadata exactly if it tries to remove the package. -/
theorem hit_pairs_iff {victims : List Path} {d : PackageDigest}
    (hvictims : ∀ p ∈ victims, ∃ name, p = manager.config.cachePath.entry name ∧
      hasEntry fs manager.config.cachePath name = true ∧ isAuxiliary p = false)
    (htogether : manager.RemovedTogether env d) (hnamesake : ¬manager.HasNamesake fs d) :
    Hit env (pairs victims) (manager.cachePathFor d) ↔
      Hit env (pairs victims) (manager.metaPathFor d) := by
  have hpairs : manager.cachePathFor d ∈ victims →
      manager.cachePathFor d ∈ pairs victims ∧ manager.metaPathFor d ∈ pairs victims := by
    intro hvictim
    constructor
    · exact List.mem_flatMap.mpr ⟨_, hvictim, by simp⟩
    · exact List.mem_flatMap.mpr ⟨_, hvictim, by simp [withExtension_cachePathFor]⟩
  -- What is tried is an entry of the directory, or has the extension of metadata.
  have hcases : ∀ q ∈ pairs victims, ∃ name, hasEntry fs manager.config.cachePath name = true ∧
      isAuxiliary (manager.config.cachePath.entry name) = false ∧
      manager.config.cachePath.entry name ∈ victims ∧
      (q = manager.config.cachePath.entry name ∨
        q = manager.config.cachePath.entry (Path.stem name ++ "." ++ metaExtension)) := by
    intro q hq
    obtain ⟨p, hp, hq⟩ := List.mem_flatMap.mp hq
    obtain ⟨name, rfl, hentry, haux⟩ := hvictims p hp
    refine ⟨name, hentry, haux, hp, ?_⟩
    rw [List.mem_cons, List.mem_singleton,
      withExtension_entry _ (ne_dots_of_hasEntry hentry)] at hq
    exact hq
  constructor
  · intro hright
    obtain ⟨q, hq, hremoves, hsame⟩ := hright
    obtain ⟨name, hentry, -, hvictim, rfl | rfl⟩ := hcases q hq
    · rw [resolve_cachePathFor, Path.resolve_entry _ (ne_dots_of_hasEntry hentry),
        List.append_right_inj, List.singleton_inj] at hsame
      rw [← hsame, ← cachePathFor_eq] at hvictim hremoves
      exact ⟨_, (hpairs hvictim).2, htogether.mp hremoves, rfl⟩
    · rw [resolve_cachePathFor, Path.resolve_entry _ (metadataName_ne_dots _),
        List.append_right_inj, List.singleton_inj] at hsame
      have hdot := dot_not_mem_packageName d
      rw [hsame] at hdot
      simp at hdot
  · intro hright
    obtain ⟨q, hq, hremoves, hsame⟩ := hright
    obtain ⟨name, hentry, haux, hvictim, rfl | rfl⟩ := hcases q hq
    · rw [resolve_metaPathFor, Path.resolve_entry _ (ne_dots_of_hasEntry hentry),
        List.append_right_inj, List.singleton_inj] at hsame
      have hext : extensionOf (manager.config.cachePath.entry name) = some metaExtension := by
        rw [extensionOf, Path.fileName_entry _ (ne_dots_of_hasEntry hentry), ← hsame]
        exact extension_package_dotted d (by decide)
      simp [isAuxiliary, hext] at haux
    · rw [resolve_metaPathFor, Path.resolve_entry _ (metadataName_ne_dots _), List.append_right_inj,
        List.singleton_inj] at hsame
      have hstem : packageName d = Path.stem name := by
        have hlist := congrArg String.toList hsame
        simp only [String.toList_append, List.append_cancel_right_eq] at hlist
        exact String.toList_injective hlist
      have hname : name = packageName d := by
        by_contra hne
        exact hnamesake ⟨name, hentry, haux, hstem.symm, hne⟩
      rw [hname, ← cachePathFor_eq] at hvictim
      rw [← hsame, ← metaPathFor_eq] at hremoves
      exact ⟨_, (hpairs hvictim).1, htogether.mpr hremoves, rfl⟩

/-! ## The invariant -/

/-- A `finalize` that can write its metadata leaves a package that its metadata describes. -/
theorem Consistent.finalized (h : manager.Consistent host fs) {d : PackageDigest}
    {args : FinalizeArgs} {data : Bytes} (hsize : args.sizeBytes.toNat = data.length)
    (now : UInt64) :
    manager.Consistent host
      (manager.finalized d fs data (host.metaJson (entryMeta d args now))) := by
  intro d'
  by_cases hvalue : d.value = d'.value
  · have hpkg := manager.get?_finalized_cachePathFor d fs data
      (host.metaJson (entryMeta d args now))
    have hhex : d.toHex = d'.toHex := by rw [PackageDigest.toHex, PackageDigest.toHex, hvalue]
    have hmetapath : manager.metaPathFor d = manager.metaPathFor d' := by
      rw [metaPathFor, metaPathFor, hhex]
    rw [manager.cachePathFor_congr hvalue] at hpkg
    refine iff_of_true (by rw [hpkg]; rfl) ⟨entryMeta d args now, ?_, hhex, ?_⟩
    · rw [← hmetapath]
      exact manager.get?_finalized_metaPathFor d fs data _
    · intro data' hdata'
      rw [hpkg, Option.some.injEq] at hdata'
      rw [← hdata']
      exact hsize
  · have hpkg : manager.OtherFile d (manager.cachePathFor d') :=
      ⟨fun heq => hvalue (manager.cachePathFor_inj.mp heq.symm),
        (manager.partialPathFor_ne_cachePathFor d d').symm,
        (manager.metaPathFor_ne_cachePathFor d d').symm⟩
    have hmeta : manager.OtherFile d (manager.metaPathFor d') :=
      ⟨manager.metaPathFor_ne_cachePathFor d' d, manager.metaPathFor_ne_partialPathFor d' d,
        fun heq => hvalue (manager.metaPathFor_inj.mp heq.symm)⟩
    have hsame := manager.get?_finalized_of_other d fs data
      (host.metaJson (entryMeta d args now)) hpkg
    rw [hsame, described_congr hsame (manager.get?_finalized_of_other d fs data _ hmeta)]
    exact h d'

theorem Consistent.reads (h : manager.Consistent host fs) {op : CacheOp}
    (hop : Fallible.Makes (CacheCall.Drops fun _ => False) (op.program host manager)
      fun _ => True) : manager.Consistent host (manager.next host (.op op env) fs) := by
  have hkeeps : Fallible.Keeps (env.handler host) SameFiles (op.program host manager) :=
    keeps_sameFiles hop
  have hsame : manager.next host (.op op env) fs = fs := hkeeps.run ⟨fs, 0⟩
  rw [hsame]
  exact h

/-- A partial file is none of the files that matter. -/
theorem Consistent.writePartial (h : manager.Consistent host fs) (d : PackageDigest)
    (data : Bytes) : manager.Consistent host (manager.next host (.writePartial d data) fs) := by
  rcases manager.next_writePartial host d fs data with hsame | hwritten
  · rw [hsame]
    exact h
  · rw [hwritten]
    apply h.congr
    · intro d'
      exact FileSystem.get?_write_of_ne _ _ (manager.partialPathFor_ne_cachePathFor d d').symm
    · intro d'
      exact FileSystem.get?_write_of_ne _ _ (manager.metaPathFor_ne_partialPathFor d' d)

/-- Nor is a directory for one. -/
theorem Consistent.stagePartial (h : manager.Consistent host fs) (d : PackageDigest) :
    manager.Consistent host (manager.next host (.op (.stagePartial d) env) fs) := by
  rcases manager.next_stagePartial host env d fs with hsame | hmade
  · rw [hsame]
    exact h
  · rw [hmade]
    exact h.congr (fun _ => rfl) fun _ => rfl

/-- A package comes with its metadata, or does not come. -/
theorem Consistent.finalize (h : manager.Consistent host fs) {d : PackageDigest}
    {args : FinalizeArgs}
    (hi : manager.KeepsConsistent host fs (.op (.finalize d args) env)) :
    manager.Consistent host (manager.next host (.op (.finalize d args) env) fs) := by
  apply next_op_of_ensures (R := manager.Consistent host)
  apply Fallible.ensures_discard.mpr
  apply Fallible.ensures_mono (manager.finalize_ensures d args fs)
  · intro _ s' hpost
    obtain ⟨data, hdata, hs'⟩ := hpost
    rw [hs']
    exact h.finalized (hi data hdata).2 env.now
  · intro _ s' hpost
    rcases hpost with ⟨-, hs'⟩ | ⟨data, hdata, hfails, -⟩
    · rw [hs']
      exact h
    · exact absurd (hi data hdata).1 hfails

/-- A package that does not match goes with its metadata. -/
theorem Consistent.verifyCacheEntry (h : manager.Consistent host fs) {d : PackageDigest}
    (hi : manager.KeepsConsistent host fs (.op (.verifyCacheEntry d) env)) :
    manager.Consistent host (manager.next host (.op (.verifyCacheEntry d) env) fs) := by
  have hstep : ∀ fs' : FileSystem, (RemovedFrom env [] fs fs' ∨
      ∃ inner data, fs.get? (manager.cachePathFor d) = some data ∧
        HashAlgorithm.ofName d.algorithm = some inner ∧
        host.hash.digest inner data ≠ d.value ∧
        RemovedFrom env [manager.cachePathFor d, manager.metaPathFor d] fs fs') →
      manager.Consistent host fs' := by
    intro fs' hpost
    rcases hpost with hnone | ⟨inner, data, hdata, hinner, hmismatch, hremoved⟩
    · apply h.removedFrom hnone
      intro d' _
      exact iff_of_false not_hit_nil not_hit_nil
    · have htogether := hi inner data hdata hinner hmismatch
      apply h.removedFrom hremoved
      intro d' _
      apply hit_iff_of_subset (List.Subset.refl _)
      intro _
      rw [(hit_both d).1, (hit_both d).2]
      exact htogether
  apply next_op_of_ensures (R := manager.Consistent host)
  apply Fallible.ensures_discard.mpr
  apply Fallible.ensures_mono (verifyCacheEntry_ensures d ⟨fs, 0⟩)
  · intro _ s' hs'
    exact hstep _ hs'
  · intro _ s' hs'
    exact hstep _ hs'

/-- A package that is removed goes with its metadata. -/
theorem Consistent.removeEntry (h : manager.Consistent host fs) {d : PackageDigest}
    (hi : manager.KeepsConsistent host fs (.op (.removeEntry d) env)) :
    manager.Consistent host (manager.next host (.op (.removeEntry d) env) fs) := by
  have hstep : ∀ fs' : FileSystem, (∃ attempted, RemovedFrom env attempted fs fs' ∧
      attempted ⊆ [manager.cachePathFor d, manager.metaPathFor d] ∧
      ((fs.get? (manager.cachePathFor d)).isSome = true →
        (fs.get? (manager.metaPathFor d)).isSome = true →
        (Hit env attempted (manager.cachePathFor d) ↔ manager.TakesPackage env d) ∧
          (Hit env attempted (manager.metaPathFor d) ↔ manager.TakesMetadata env d))) →
      manager.Consistent host fs' := by
    intro fs' hpost
    obtain ⟨attempted, hremoved, hsub, htakes⟩ := hpost
    apply h.removedFrom hremoved
    intro d' hpresent
    apply hit_iff_of_subset hsub
    intro hvalue
    rw [← manager.cachePathFor_congr hvalue] at hpresent
    obtain ⟨m, hm, -⟩ := (h d).mp hpresent
    obtain ⟨hpkg, hmeta⟩ := htakes hpresent (by rw [hm]; rfl)
    rw [hpkg, hmeta]
    exact hi hpresent
  apply next_op_of_ensures (R := manager.Consistent host)
  apply Fallible.ensures_mono (removeEntry_ensures d fs)
  · intro _ s' hs'
    exact hstep _ hs'
  · intro _ s' hs'
    exact hstep _ hs'

/-- The partial files are not among what matters. -/
theorem Consistent.cleanupPartials (h : manager.Consistent host fs) :
    manager.Consistent host (manager.next host (.op .cleanupPartials env) fs) := by
  apply next_op_of_ensures (R := manager.Consistent host)
  apply Fallible.ensures_discard.mpr
  apply Fallible.ensures_mono (removeListed_ensures _ fs) _ fun _ _ hfalse => hfalse.elim
  intro _ s' hremoved
  apply h.removedFrom hremoved
  intro d _
  refine iff_of_false ?_ ?_
  · intro hright
    obtain ⟨p, hp, -, hsame⟩ := hright
    exact cachePathFor_ne_of_partial hp hsame
  · intro hright
    obtain ⟨p, hp, -, hsame⟩ := hright
    exact metaPathFor_ne_of_partial hp hsame

/-- Packages that are given up go with their metadata. -/
theorem Consistent.enforceLimits (h : manager.Consistent host fs)
    (hi : manager.KeepsConsistent host fs (.op .enforceLimits env)) :
    manager.Consistent host (manager.next host (.op .enforceLimits env) fs) := by
  apply next_op_of_ensures (R := manager.Consistent host)
  apply Fallible.ensures_mono (enforceLimits_ensures ⟨fs, 0⟩)
  · intro _ s' hpost
    obtain ⟨victims, hremoved, hvictims⟩ := hpost
    apply h.removedFrom hremoved
    intro d hpresent
    obtain ⟨htogether, hnamesake⟩ := hi d hpresent
    exact hit_pairs_iff hvictims htogether hnamesake
  · intro _ s' hs'
    rw [hs']
    exact h

/-- So do all packages together. -/
theorem Consistent.clear (h : manager.Consistent host fs)
    (hi : manager.KeepsConsistent host fs (.op .clear env)) :
    manager.Consistent host (manager.next host (.op .clear env) fs) := by
  apply next_op_of_ensures (R := manager.Consistent host)
  apply Fallible.ensures_discard.mpr
  apply Fallible.ensures_mono (removeListed_ensures _ fs) _ fun _ _ hfalse => hfalse.elim
  intro _ s' hremoved
  apply h.removedFrom hremoved
  intro d hpresent
  have hpkg : isPackageName (packageName d) = true := by
    simp [isPackageName, packageName, List.isPrefixOf]
  have hmeta : isPackageName (packageName d ++ "." ++ metaExtension) = true := by
    simp [isPackageName, packageName, List.isPrefixOf]
  rw [cachePathFor_eq, metaPathFor_eq, hit_listed_iff (packageName_ne_dots d) hpkg,
    hit_listed_iff (dotted_ne_dots d _) hmeta]
  exact hi d hpresent

/-- Each input keeps a cache consistent if what has to go well goes well. -/
theorem Consistent.next (h : manager.Consistent host fs) (i : CacheInput)
    (hi : manager.KeepsConsistent host fs i) :
    manager.Consistent host (manager.next host i fs) := by
  cases i with
  | writePartial d data => exact h.writePartial d data
  | op op env =>
      cases op with
      | contains d => exact h.reads (Fallible.makes_discard (reads_makes rfl))
      | getCachedPath d =>
          apply h.reads
          apply Fallible.makes_discard (Q := fun _ => True)
          apply Fallible.makes_seq (reads_makes rfl)
          intro found
          exact Fallible.makes_ite (Fallible.makes_pure trivial) (Fallible.makes_pure trivial)
      | currentCacheSize => exact h.reads (Fallible.makes_discard manager.currentCacheSize_drops)
      | cacheEntryCount => exact h.reads (Fallible.makes_discard manager.cacheEntryCount_drops)
      | stagePartial d => exact h.stagePartial d
      | finalize d args => exact h.finalize hi
      | verifyCacheEntry d => exact h.verifyCacheEntry hi
      | removeEntry d => exact h.removeEntry hi
      | cleanupPartials => exact h.cleanupPartials
      | enforceLimits => exact h.enforceLimits hi
      | clear => exact h.clear hi

/-- A `finalize` that can write its metadata fails only if it moves nothing. -/
theorem KeepsConsistent.failedFinalizeKeeps {i : CacheInput}
    (hi : manager.KeepsConsistent host fs i) : manager.FailedFinalizeKeeps host fs i := by
  unfold FailedFinalizeKeeps
  split
  next d args env =>
    intro e fs' hrun
    rcases hcall : CallProg.run (env.handler host) (manager.finalize host.metaJson d args).run
      ⟨fs, 0⟩ with ⟨r, s'⟩
    rw [CacheEnv.run, hcall, Prod.mk.injEq] at hrun
    obtain ⟨rfl, rfl⟩ := hrun
    rcases (manager.finalize_ensures d args fs).of_error hcall with
      ⟨-, hsame⟩ | ⟨data, hdata, hfails, -⟩
    · rw [hsame]
      exact ⟨rfl, rfl, rfl⟩
    · exact absurd (hi data hdata).1 hfails
  next => trivial

/-- In every run of a cache that is consistent at first, and whose inputs meet the condition,
it stays consistent, and a `finalize` that fails changes nothing. -/
theorem consistent_of_run (h : manager.Consistent host fs) (inputs : List CacheInput)
    (hkeeps : ∀ t ∈ transitions (manager.next host) fs inputs,
      manager.KeepsConsistent host t.before t.input) :
    ∀ t ∈ transitions (manager.next host) fs inputs,
      manager.Consistent host t.after ∧ manager.FailedFinalizeKeeps host t.before t.input := by
  have hrun := transitions_invariant (C := manager.KeepsConsistent host)
    (fun _ i hfs hi => Consistent.next hfs i hi) h hkeeps
  intro t ht
  exact ⟨(hrun t ht).2, KeepsConsistent.failedFinalizeKeeps (hkeeps t ht)⟩

theorem consistent_empty : manager.Consistent host .empty := by
  intro d
  refine iff_of_false (by simp [FileSystem.get?, FileSystem.empty]) ?_
  intro h
  obtain ⟨m, hm, -⟩ := h
  cases hm

end CacheManager

/-! ## A package with and without metadata -/

/-- A package that is staged, written and finalized has its metadata. -/
theorem staged_package_consistent :
    CacheManager.system.Consistent .plain
      (final (CacheManager.system.next .plain) .empty
        (cacheInputs testDigest (utf8 "abc"))) := by
  have hkeeps : ∀ t ∈ transitions (CacheManager.system.next .plain) .empty
      (cacheInputs testDigest (utf8 "abc")),
      CacheManager.system.KeepsConsistent .plain t.before t.input := by
    simp only [cacheInputs, stageInputs, List.cons_append, List.nil_append, transitions_cons,
      transitions_nil, List.forall_mem_cons]
    refine ⟨trivial, trivial, ?_, by simp⟩
    intro data hdata
    refine ⟨⟨rfl, fun _ => rfl, rfl⟩, ?_⟩
    rw [CacheManager.finalizes_staged hdata]
    decide
  have hrun := CacheManager.consistent_of_run CacheManager.consistent_empty _ hkeeps
  simp only [cacheInputs, stageInputs, List.cons_append, List.nil_append, transitions_cons,
    transitions_nil, List.forall_mem_cons] at hrun
  exact hrun.2.2.1.1

/-- Surroundings in which the disk has no room for new files. -/
def CacheEnv.full : CacheEnv :=
  { CacheEnv.quiet with
    changeFault := fun c => match c with
      | .createFile _ => some "No space left on device (os error 28)"
      | _ => none }

/-- The files after a `finalize` that could not write its metadata. -/
def halfFinalized : FileSystem :=
  CacheManager.system.next .plain (.op (.finalize testDigest testArgs) .full)
    (CacheManager.system.next .plain (.writePartial testDigest (utf8 "abc"))
      (CacheManager.system.next .plain (.op (.stagePartial testDigest) .quiet) .empty))

/-- They show a package without metadata. -/
theorem half_finalized_inconsistent :
    ¬∀ inputs, ∀ t ∈ transitions (CacheManager.system.next .plain) .empty inputs,
      CacheManager.system.Consistent .plain t.after ∧
        CacheManager.system.FailedFinalizeKeeps .plain t.before t.input := by
  intro h
  have hlast : CacheManager.system.Consistent .plain halfFinalized := by
    have hrun := h (stageInputs testDigest (utf8 "abc") ++
      [.op (.finalize testDigest testArgs) .full])
    simp only [stageInputs, List.cons_append, List.nil_append, transitions_cons,
      transitions_nil, List.forall_mem_cons] at hrun
    exact hrun.2.2.1.1
  have hpkg : (halfFinalized.get? (CacheManager.system.cachePathFor testDigest)).isSome = true := by
    decide +kernel
  have hmeta : halfFinalized.get? (CacheManager.system.metaPathFor testDigest) = none := by
    rfl
  obtain ⟨m, hm, -⟩ := (hlast testDigest).mp hpkg
  rw [hmeta] at hm
  cases hm

end MissionOs.Driverd
