import MissionOs.Driverd.CacheFiles

/-!
# Operations on one digest and the files of another

The cache and the resume store name their files after the value of a digest.  `frame_iff`:
an operation on a digest keeps away from the files of another one exactly if their values
differ.  The algorithm is in no name.
-/

namespace MissionOs.Driverd

open MissionOs.Rust MissionOs.Lib

/-- The files that a call looks at, reads, writes, moves or removes. -/
def FetchCall.touches : FetchCall → List Path
  | .pathExists p | .metadata p | .createFile p | .openAppend p | .openRead p
  | .readChunks p | .writeAll p _ | .flush p | .removeFile p => [p]
  | .rename src dest => [src, dest]
  | .now | .audit _ | .request _ | .createDirAll _ => []

/-- The files that a call of the cache looks at, reads, writes, moves or removes. -/
def CacheCall.touches : CacheCall → List Path
  | .file c => c.touches
  | .readDir _ => []
  | .modified p => [p]

/-- The operations on one digest, of the cache and of the resume store. -/
inductive DigestOp where
  | stagePartial
  | finalize (args : CacheManager.FinalizeArgs)
  | verifyCacheEntry
  | removeEntry
  | removePartial
deriving DecidableEq, Repr

section Frame

variable (host : CacheHost) (cache : CacheManager) (resume : ResumeManager)

/-- The program of an operation on a digest, without its result. -/
def DigestOp.program (d : PackageDigest) : DigestOp → CacheProg Unit
  | .stagePartial => discard (cache.stagePartial d)
  | .finalize args => discard (cache.finalize host.metaJson d args)
  | .verifyCacheEntry => discard (cache.verifyCacheEntry host.hash d)
  | .removeEntry => cache.removeEntry d
  | .removePartial => ofFetch (resume.removePartial d)

/-- The files of a digest: its package, its metadata and its two partial files. -/
def digestFiles (d : PackageDigest) : List Path :=
  [cache.cachePathFor d, cache.partialPathFor d, cache.metaPathFor d, resume.partialPath d]

/-- No operation on `d₁` makes a call that touches a file of `d₂`, in whatever state the
files are and however its calls are answered. -/
def Frame (d₁ d₂ : PackageDigest) : Prop :=
  ∀ (op : DigestOp) (env : CacheEnv) (fs : FileSystem),
    (op.program host cache resume d₁).run.Along (env.handler host)
      (fun c _ => ∀ p ∈ c.touches, ∀ q ∈ digestFiles cache resume d₂, p.resolve ≠ q.resolve)
      ⟨fs, 0⟩

variable {cache resume}

/-- The stem of the name of each file shows the value of the digest. -/
theorem stem_of_mem_digestFiles {d : PackageDigest} {p : Path}
    (h : p ∈ digestFiles cache resume d) :
    ∃ dir name start, (start = "pkg-" ∨ start = "dl-") ∧ p.resolve = dir ++ [name] ∧
      Path.stem name = start ++ d.toHex := by
  simp only [digestFiles, List.mem_cons, List.not_mem_nil, or_false] at h
  rcases h with rfl | rfl | rfl | rfl
  · exact ⟨_, _, _, Or.inl rfl, cache.resolve_cachePathFor d, stem_packageName d⟩
  · exact ⟨_, _, _, Or.inl rfl, cache.resolve_partialPathFor d,
      stem_package_dotted d (by decide)⟩
  · exact ⟨_, _, _, Or.inl rfl, cache.resolve_metaPathFor d, stem_package_dotted d (by decide)⟩
  · have hslash : '/' ∉ ("dl-" ++ d.toHex ++ ".part").toList := by
      have hhex : '/' ∉ d.toHex.toList := slash_not_mem_hexEncode _
      simp [hhex]
    have hhead : ("dl-" ++ d.toHex ++ ".part").toList.head? = some 'd' := by simp
    refine ⟨_, _, _, Or.inr rfl, Path.resolve_join_of_head _ hslash hhead (by decide), ?_⟩
    have hne : "dl-" ++ d.toHex ≠ "" := by
      intro hempty
      have hlist := congrArg String.toList hempty
      simp at hlist
    have hext : '.' ∉ "part".toList := by decide
    simpa [String.append_assoc] using Path.stem_dotted hne hext

/-- Digests of different values have no file in common. -/
theorem digestFiles_apart {d₁ d₂ : PackageDigest} (h : d₁.value ≠ d₂.value) {p q : Path}
    (hp : p ∈ digestFiles cache resume d₁) (hq : q ∈ digestFiles cache resume d₂) :
    p.resolve ≠ q.resolve := by
  intro hsame
  obtain ⟨dir₁, name₁, start₁, hstart₁, hp, hstem₁⟩ := stem_of_mem_digestFiles hp
  obtain ⟨dir₂, name₂, start₂, hstart₂, hq, hstem₂⟩ := stem_of_mem_digestFiles hq
  have hname : name₁ = name₂ := by
    rw [hp, hq] at hsame
    have hlast := congrArg List.getLast? hsame
    simpa using hlast
  have hstem : start₁ ++ d₁.toHex = start₂ ++ d₂.toHex := by rw [← hstem₁, hname, hstem₂]
  have hlist := congrArg String.toList hstem
  rw [String.toList_append, String.toList_append] at hlist
  have hhex : ∀ start : String, start.toList ++ d₁.toHex.toList = start.toList ++ d₂.toHex.toList →
      d₁.value = d₂.value := by
    intro start heq
    exact hexEncode_inj (String.toList_injective (List.append_cancel_left heq))
  rcases hstart₁ with rfl | rfl <;> rcases hstart₂ with rfl | rfl
  · exact h (hhex _ hlist)
  · simp at hlist
  · simp at hlist
  · exact h (hhex _ hlist)

/-- A call about a file of a list touches no other file. -/
theorem touches_single {files : List Path} {p : Path} (h : p ∈ files) : ∀ q ∈ [p], q ∈ files := by
  intro q hq
  rw [List.mem_singleton] at hq
  rw [hq]
  exact h

/-- The files that an operation on a digest may touch are those of the digest. -/
theorem DigestOp.program_touches (host : CacheHost) (d : PackageDigest) (op : DigestOp) :
    Fallible.Makes (fun c : CacheCall => ∀ p ∈ c.touches, p ∈ digestFiles cache resume d)
      (op.program host cache resume d) fun _ => True := by
  have hpkg : cache.cachePathFor d ∈ digestFiles cache resume d := by simp [digestFiles]
  have hpart : cache.partialPathFor d ∈ digestFiles cache resume d := by simp [digestFiles]
  have hmeta : cache.metaPathFor d ∈ digestFiles cache resume d := by simp [digestFiles]
  have hresume : resume.partialPath d ∈ digestFiles cache resume d := by simp [digestFiles]
  have hmove : ∀ q ∈ [cache.partialPathFor d, cache.cachePathFor d],
      q ∈ digestFiles cache resume d := by
    intro q hq
    rw [List.mem_cons, List.mem_singleton] at hq
    rcases hq with rfl | rfl
    · exact hpart
    · exact hpkg
  have hhash : Fallible.Makes
      (fun c => ∀ p ∈ (CacheCall.file c).touches, p ∈ digestFiles cache resume d)
      (StreamingHasher.hashFile host.hash d.algorithm (cache.cachePathFor d)) fun _ => True := by
    apply Fallible.makes_mono (StreamingHasher.hashFile_reads _ _ _) _ fun _ h => h
    intro c hc
    rcases hc with rfl | rfl
    · exact touches_single hpkg
    · exact touches_single hpkg
  cases op with
  | stagePartial =>
      apply Fallible.makes_discard (Q := fun _ => True)
      apply Fallible.makes_seq _ fun _ => Fallible.makes_pure trivial
      apply ofFetch_makes
      unfold PackageFetcher.ensureParent
      cases (cache.partialPathFor d).parent with
      | none => exact Fallible.makes_pure trivial
      | some parent =>
          apply Fallible.makes_seq (call_makes _) fun _ => orFail_makes _ _
          simp [CacheCall.touches, FetchCall.touches]
  | finalize args =>
      apply Fallible.makes_discard (Q := fun _ => True)
      apply Fallible.makes_seq (cacheCall_makes (touches_single hpart))
      intro found
      apply Fallible.makes_ite _ (Fallible.makes_throw _)
      apply Fallible.makes_seq (Fallible.makes_checked (cacheCall_makes hmove))
      intro _
      apply Fallible.makes_seq _ fun _ => Fallible.makes_pure trivial
      apply Fallible.makes_seq (cacheCall_makes (by simp [CacheCall.touches, FetchCall.touches]))
      intro now
      apply Fallible.makes_seq
        (Fallible.makes_checked (cacheCall_makes (touches_single hmeta)))
      intro _
      exact Fallible.makes_checked (cacheCall_makes (touches_single hmeta))
  | verifyCacheEntry =>
      apply Fallible.makes_discard (Q := fun _ => True)
      apply Fallible.makes_seq (cacheCall_makes (touches_single hpkg))
      intro found
      apply Fallible.makes_ite _ (Fallible.makes_pure trivial)
      apply Fallible.makes_seq
      · apply Fallible.makes_bind (Fallible.makes_attempt (ofFetch_makes hhash))
        intro digest _
        exact cache_orFail_makes _ _
      · intro actual
        apply Fallible.makes_ite (Fallible.makes_pure trivial)
        apply Fallible.makes_seq (Fallible.makes_discard (cacheCall_makes (touches_single hpkg)))
        intro _
        apply Fallible.makes_seq (Fallible.makes_discard (cacheCall_makes (touches_single hmeta)))
        intro _
        exact Fallible.makes_pure trivial
  | removeEntry =>
      apply Fallible.makes_seq
      · apply Fallible.makes_seq (cacheCall_makes (touches_single hpkg))
        intro found
        apply Fallible.makes_ite _ (Fallible.makes_pure trivial)
        exact Fallible.makes_checked (cacheCall_makes (touches_single hpkg))
      · intro _
        apply Fallible.makes_seq (cacheCall_makes (touches_single hmeta))
        intro found
        apply Fallible.makes_ite _ (Fallible.makes_pure trivial)
        exact Fallible.makes_discard (cacheCall_makes (touches_single hmeta))
  | removePartial =>
      apply ofFetch_makes
      apply Fallible.makes_seq (call_makes (touches_single hresume))
      intro found
      apply Fallible.makes_ite _ (Fallible.makes_pure trivial)
      apply Fallible.makes_seq (call_makes (touches_single hresume))
      intro _
      exact orFail_makes _ _

/-- An operation on a digest removes the package of every digest with the same value. -/
theorem not_frame_of_value_eq {d₁ d₂ : PackageDigest} (h : d₁.value = d₂.value) :
    ¬Frame host cache resume d₁ d₂ := by
  intro hframe
  have hpkg : cache.cachePathFor d₂ ∈ digestFiles cache resume d₂ := by simp [digestFiles]
  have hrun := hframe .removeEntry ⟨fun _ => none, fun _ => none, 0, 0, fun _ _ => [],
    fun _ => .ok 0, fun _ => 0, fun _ => ""⟩ .empty
  have hfirst : ∀ p ∈ [cache.cachePathFor d₁], ∀ q ∈ digestFiles cache resume d₂,
      p.resolve ≠ q.resolve := hrun.1
  apply hfirst _ (List.mem_singleton_self _) _ hpkg
  rw [cache.cachePathFor_congr h]

/-- The operations on a digest keep away from the files of another digest exactly if the two
have different values. -/
theorem frame_iff (d₁ d₂ : PackageDigest) :
    Frame host cache resume d₁ d₂ ↔ d₁.value ≠ d₂.value := by
  constructor
  · intro hframe hvalue
    exact not_frame_of_value_eq host hvalue hframe
  · intro hvalue op env fs
    have htouches : Fallible.Makes (fun c : CacheCall => ∀ p ∈ c.touches,
        p ∈ digestFiles cache resume d₁) (op.program host cache resume d₁) fun _ => True :=
      DigestOp.program_touches host d₁ op
    apply CallProg.along_mono (htouches.along (env.handler host) ⟨fs, 0⟩)
    intro c s hc p hp q hq
    exact digestFiles_apart hvalue (hc p hp) hq

end Frame

/-- A BLAKE3 digest with the value of the SHA-256 digest of the tests. -/
def blakeDigest : PackageDigest := ⟨"blake3", List.replicate 32 0⟩

/-- A cache with a package under the SHA-256 digest. -/
def testCached : FileSystem :=
  (FileSystem.empty.makeDirs CacheManager.system.config.cachePath).write
    (CacheManager.system.cachePathFor testDigest) (utf8 "abc")

/-- To verify the entry of the BLAKE3 digest removes the package of the SHA-256 digest. -/
theorem verify_removes_other :
    (¬∀ d₁ d₂, d₁ ≠ d₂ → Frame .plain .system DownloadManager.cached.resumeManager d₁ d₂) ∧
      testCached.get? (CacheManager.system.cachePathFor testDigest) = some (utf8 "abc") ∧
        (CacheManager.system.next .plain (.op (.verifyCacheEntry blakeDigest) .quiet)
          testCached).get? (CacheManager.system.cachePathFor testDigest) = none := by
  refine ⟨?_, FileSystem.get?_write_self _ _ _, by decide⟩
  intro h
  have hvalue : blakeDigest.value = testDigest.value := rfl
  have hne : blakeDigest ≠ testDigest := by
    intro heq
    have halgorithm := congrArg PackageDigest.algorithm heq
    exact absurd halgorithm (by decide)
  exact not_frame_of_value_eq .plain hvalue (h blakeDigest testDigest hne)

end MissionOs.Driverd
