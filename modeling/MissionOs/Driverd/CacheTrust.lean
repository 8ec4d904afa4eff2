import MissionOs.Driverd.CacheFiles
import MissionOs.Lib.Runs

/-!
# What a lookup in the cache vouches for

A lookup finds a package by the name of its file, and `finalize` gives that name to any partial
file; the bytes are left to `verify_cache_entry`.  `lookups_trusted_iff`: in a run the lookups of a
digest find files with that digest only, exactly if each partial file that a `finalize` moved to its
name had it.
-/

namespace MissionOs.Driverd

open MissionOs.Rust MissionOs.Lib

/-- Bytes that hash, under the algorithm of a digest, to the value of it. -/
def PackageDigest.Verifies (d : PackageDigest) (hash : HashFunctions) (data : Bytes) : Prop :=
  ∃ inner, HashAlgorithm.ofName d.algorithm = some inner ∧ hash.digest inner data = d.value

namespace CacheManager

variable (host : CacheHost) (manager : CacheManager) (d : PackageDigest)

/-- Whatever it meets, a lookup that finds the package of `d` finds a file that hashes to `d`. -/
structure Trusted (fs : FileSystem) : Prop where
  path : ∀ (env : CacheEnv) path fs',
    env.run host (manager.getCachedPath d) fs = (.ok (some path), fs') →
    HasDigest host.hash d fs' path
  contained : ∀ (env : CacheEnv) fs', env.run host (manager.contains d) fs = (.ok true, fs') →
    HasDigest host.hash d fs' (manager.cachePathFor d)

/-- The condition on an input: a partial file that `finalize` moves to the name of `d` hashes
to `d`. -/
def FinalizesVerified (fs : FileSystem) : CacheInput → Prop
  | .op (.finalize d' _) env => d'.value = d.value → ∀ data, manager.Finalizes d' env fs data →
      d.Verifies host.hash data
  | _ => True

variable {host manager d} {fs : FileSystem}

theorem run_contains (env : CacheEnv) :
    env.run host (manager.contains d) fs =
      (.ok ((env.fault 0).isNone && fs.pathExists (manager.cachePathFor d)), fs) := rfl

theorem run_getCachedPath (env : CacheEnv) :
    env.run host (manager.getCachedPath d) fs =
      (.ok (if (env.fault 0).isNone && fs.pathExists (manager.cachePathFor d) then
        some (manager.cachePathFor d) else none), fs) := by
  have hrest : ∀ found : Bool, CallProg.run (env.handler host)
      (ExceptT.run (if found = true then pure (some (manager.cachePathFor d)) else pure none))
      ⟨fs, 1⟩ =
      ((.ok (if found = true then some (manager.cachePathFor d) else none) :
        ServiceResult (Option Path)), ⟨fs, 1⟩) := by
    intro found
    cases found <;> rfl
  exact congrArg (fun r => (r.1, r.2.fs)) (hrest _)

/-- Where no directory has the name of the package, a lookup is a look at the file. -/
theorem trusted_iff (hdir : fs.isDir (manager.cachePathFor d) = false) :
    manager.Trusted host d fs ↔
      ∀ data, fs.get? (manager.cachePathFor d) = some data → d.Verifies host.hash data := by
  constructor
  · intro htrusted data hdata
    have hrun : CacheEnv.quiet.run host (manager.contains d) fs =
      (.ok (fs.pathExists (manager.cachePathFor d)), fs) := run_contains .quiet
    rw [FileSystem.pathExists_of_get? hdata] at hrun
    obtain ⟨inner, data', hinner, hdata', hhash⟩ := htrusted.contained .quiet fs hrun
    rw [hdata] at hdata'
    cases hdata'
    exact ⟨inner, hinner, hhash⟩
  · intro hfile
    have hfound : fs.pathExists (manager.cachePathFor d) = true →
        HasDigest host.hash d fs (manager.cachePathFor d) := by
      intro hexists
      rw [FileSystem.pathExists, hdir, Bool.or_false, Option.isSome_iff_exists] at hexists
      obtain ⟨data, hdata⟩ := hexists
      obtain ⟨inner, hinner, hhash⟩ := hfile data hdata
      exact ⟨inner, data, hinner, hdata, hhash⟩
    constructor
    · intro env path fs' hrun
      rw [run_getCachedPath, Prod.mk.injEq, Except.ok.injEq] at hrun
      obtain ⟨hpath, rfl⟩ := hrun
      split_ifs at hpath with hseen
      cases hpath
      exact hfound (Bool.and_eq_true_iff.mp hseen).2
    · intro env fs' hrun
      rw [run_contains, Prod.mk.injEq, Except.ok.injEq] at hrun
      obtain ⟨hseen, rfl⟩ := hrun
      exact hfound (Bool.and_eq_true_iff.mp hseen).2

/-- What an input does to the package of `d`: a `finalize` for its value puts the partial file
there, or the package is as it was or gone. -/
theorem next_cases (hdir : fs.isDir (manager.cachePathFor d) = false) (i : CacheInput) :
    (manager.next host i fs).isDir (manager.cachePathFor d) = false ∧
      ((∃ d' args env data, i = .op (.finalize d' args) env ∧ d'.value = d.value ∧
          manager.Finalizes d' env fs data ∧
          (manager.next host i fs).get? (manager.cachePathFor d) = some data) ∨
        (∀ d' args env, i = .op (.finalize d' args) env → d'.value = d.value →
          ∀ data, ¬manager.Finalizes d' env fs data) ∧
        ((manager.next host i fs).get? (manager.cachePathFor d) =
            fs.get? (manager.cachePathFor d) ∨
          (manager.next host i fs).get? (manager.cachePathFor d) = none)) := by
  cases i with
  | writePartial d' data =>
      have hne := (manager.partialPathFor_ne_cachePathFor d' d).symm
      rcases manager.next_writePartial host d' fs data with hsame | hwritten
      · rw [hsame]
        exact ⟨hdir, Or.inr ⟨by simp, Or.inl rfl⟩⟩
      · rw [hwritten, FileSystem.get?_write_of_ne _ _ hne]
        exact ⟨hdir, Or.inr ⟨by simp, Or.inl rfl⟩⟩
  | op op env =>
      by_cases hfinal : ∃ d' args, op = .finalize d' args
      · obtain ⟨d', args, rfl⟩ := hfinal
        rcases manager.next_finalize host env d' fs args with
          ⟨hnone, hsame⟩ | ⟨data, hdata, hdirs, hpkg, hother⟩
        · rw [hsame]
          refine ⟨hdir, Or.inr ⟨?_, Or.inl rfl⟩⟩
          intro d'' args' env' heq _
          cases heq
          exact hnone
        · refine ⟨by rw [FileSystem.isDir, hdirs]; exact hdir, ?_⟩
          by_cases hvalue : d'.value = d.value
          · rw [← manager.cachePathFor_congr hvalue]
            exact Or.inl ⟨d', args, env, data, rfl, hvalue, hdata, hpkg⟩
          · refine Or.inr ⟨?_, Or.inl (hother _ ?_)⟩
            · intro d'' args' env' heq hvalue'
              cases heq
              exact absurd hvalue' hvalue
            · exact ⟨fun h => hvalue (manager.cachePathFor_inj.mp h.symm),
                (manager.partialPathFor_ne_cachePathFor d' d).symm,
                (manager.metaPathFor_ne_cachePathFor d' d).symm⟩
      · have hother : ∀ d' args env', CacheInput.op op env = .op (.finalize d' args) env' →
            d'.value = d.value → ∀ data, ¬manager.Finalizes d' env' fs data := by
          intro d' args env' heq
          cases heq
          exact absurd ⟨d', args, rfl⟩ hfinal
        by_cases hstage : ∃ d', op = .stagePartial d'
        · obtain ⟨d', rfl⟩ := hstage
          have hdeep : ¬(manager.cachePathFor d).resolve <+: manager.config.cachePath.resolve := by
            rw [resolve_cachePathFor]
            intro hinitial
            have hlength := hinitial.length_le
            rw [List.length_append, List.length_singleton] at hlength
            omega
          rcases manager.next_stagePartial host env d' fs with hsame | hmade
          · rw [hsame]
            exact ⟨hdir, Or.inr ⟨hother, Or.inl rfl⟩⟩
          · rw [hmade, FileSystem.isDir_makeDirs, hdir]
            exact ⟨by simp [hdeep], Or.inr ⟨hother, Or.inl rfl⟩⟩
        · obtain ⟨attempted, hremoved⟩ := manager.next_removes host env fs
            (fun d' h => hstage ⟨d', h⟩) fun d' args h => hfinal ⟨d', args, h⟩
          exact ⟨by rw [hremoved.isDir]; exact hdir,
            Or.inr ⟨hother, hremoved.same_or_none _⟩⟩

/-- An input keeps the lookups of `d` trusted exactly if it meets the condition. -/
theorem next_trusted_iff (hdir : fs.isDir (manager.cachePathFor d) = false)
    (htrusted : manager.Trusted host d fs) (i : CacheInput) :
    manager.Trusted host d (manager.next host i fs) ↔ manager.FinalizesVerified host d fs i := by
  obtain ⟨hdir', hcases⟩ := @next_cases host manager d fs hdir i
  rw [trusted_iff hdir] at htrusted
  rw [trusted_iff hdir']
  rcases hcases with ⟨d', args, env, data, rfl, hvalue, hdata, hpkg⟩ | ⟨hnone, hkept⟩
  · constructor
    · intro hfile _ data' hdata'
      have hsame : data' = data := by
        have hsource := hdata'.moves.source.symm.trans hdata.moves.source
        exact Option.some.inj hsource
      rw [hsame]
      exact hfile data hpkg
    · intro hverified data' hdata'
      rw [hpkg] at hdata'
      cases hdata'
      exact hverified hvalue data hdata
  · refine iff_of_true ?_ ?_
    · intro data hdata
      rcases hkept with hsame | hgone
      · exact htrusted data (hsame ▸ hdata)
      · rw [hgone] at hdata
        cases hdata
    · unfold FinalizesVerified
      split
      · intro hvalue data hdata
        exact absurd hdata (hnone _ _ _ rfl hvalue data)
      · trivial

/-- In every history of a cache in which the lookups of `d` can be trusted at first, they can
be trusted after every input exactly if every `finalize` that gives a partial file the name of
`d` gives it to a file that hashes to `d`. -/
theorem lookups_trusted_iff (hdir : fs.isDir (manager.cachePathFor d) = false)
    (htrusted : manager.Trusted host d fs) (inputs : List CacheInput) :
    (∀ t ∈ transitions (manager.next host) fs inputs, manager.Trusted host d t.after) ↔
      ∀ t ∈ transitions (manager.next host) fs inputs,
        manager.FinalizesVerified host d t.before t.input := by
  apply transitions_iff (A := fun _ => True)
    (P := fun _ _ after => manager.Trusted host d after)
    (I := fun fs => fs.isDir (manager.cachePathFor d) = false ∧ manager.Trusted host d fs)
  · intro fs i hfs _
    exact next_trusted_iff hfs.1 hfs.2 i
  · intro fs i hfs _ hnext
    exact ⟨(next_cases hfs.1 i).1, hnext⟩
  · exact ⟨hdir, htrusted⟩
  · intro _ _
    trivial

end CacheManager

/-! ## A genuine and a corrupted package -/

/-- The genuine package `abc` can be looked up. -/
theorem genuine_package_trusted :
    abcDigest.Verifies CacheHost.plain.hash (utf8 "abc") ∧
      ∀ t ∈ transitions (CacheManager.system.next .plain) .empty
        (cacheInputs abcDigest (utf8 "abc")),
        CacheManager.system.Trusted .plain abcDigest t.after := by
  have hverifies : abcDigest.Verifies CacheHost.plain.hash (utf8 "abc") := ⟨.sha256, rfl, rfl⟩
  have hdir : FileSystem.empty.isDir (CacheManager.system.cachePathFor abcDigest) = false := by
    rw [FileSystem.isDir, CacheManager.resolve_cachePathFor]
    simp [FileSystem.empty]
  have htrusted : CacheManager.system.Trusted .plain abcDigest .empty := by
    rw [CacheManager.trusted_iff hdir]
    intro data hdata
    cases hdata
  refine ⟨hverifies, ?_⟩
  apply (CacheManager.lookups_trusted_iff hdir htrusted _).mpr
  simp only [cacheInputs, stageInputs, List.cons_append, List.nil_append, transitions_cons,
    transitions_nil, List.forall_mem_cons]
  refine ⟨trivial, trivial, ?_, by simp⟩
  intro _ data hdata
  rw [CacheManager.finalizes_staged hdata]
  exact hverifies

/-- The files after a partial file with other bytes was finalized under a digest. -/
def corruptedCache : FileSystem :=
  CacheManager.system.next .plain (.op (.finalize testDigest testArgs) .quiet)
    (CacheManager.system.next .plain (.writePartial testDigest (utf8 "corrupted data"))
      (CacheManager.system.next .plain (.op (.stagePartial testDigest) .quiet) .empty))

/-- A lookup of the digest finds it. -/
theorem corrupted_package_found :
    ¬∀ inputs d, ∀ t ∈ transitions (CacheManager.system.next .plain) .empty inputs,
      CacheManager.system.Trusted .plain d t.after := by
  intro h
  have hlast : CacheManager.system.Trusted .plain testDigest corruptedCache := by
    have hrun := h (cacheInputs testDigest (utf8 "corrupted data")) testDigest
    simp only [cacheInputs, stageInputs, List.cons_append, List.nil_append, transitions_cons,
      transitions_nil, List.forall_mem_cons] at hrun
    exact hrun.2.2.1
  have hcontent : corruptedCache.get? (CacheManager.system.cachePathFor testDigest) =
      some (utf8 "corrupted data") := by
    rfl
  have hfound : CacheEnv.quiet.run .plain (CacheManager.system.contains testDigest)
      corruptedCache = (.ok true, corruptedCache) := by
    rw [CacheManager.run_contains, FileSystem.pathExists_of_get? hcontent]
    rfl
  obtain ⟨inner, data, hinner, hdata, hhash⟩ := hlast.contained .quiet _ hfound
  have hbytes := hdata.symm.trans hcontent
  cases hbytes
  cases hinner
  exact absurd hhash (by decide)

end MissionOs.Driverd
