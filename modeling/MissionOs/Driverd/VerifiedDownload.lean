import MissionOs.Driverd.Footprint

/-!
# A download is verified

A path that `DownloadManager::download` returns is the destination, and the file there has
the expected digest (`download_verified`).  Where the bytes came from does not matter: the
file that is hashed is the one that is left at the destination, and what is done after the
hash is about other files.
-/

namespace MissionOs.Driverd

open MissionOs.Rust MissionOs.Lib

theorem HasDigest.of_keepsFile {hash : HashFunctions} {digest : PackageDigest} {p : Path}
    {s s' : Session} (h : HasDigest hash digest s.fs p) (hk : KeepsFile p s s') :
    HasDigest hash digest s'.fs p := by
  obtain ⟨inner, data, hinner, hdata, hhash⟩ := h
  exact ⟨inner, data, hinner, hk.trans hdata, hhash⟩

namespace DownloadManager

variable {manager : DownloadManager} {env : FetchEnv}

/-- What `p` delivers is at the destination, and has the digest. -/
abbrev Delivers (env : FetchEnv) (destination : Path) (digest : PackageDigest)
    (p : Fetch Path) (s : Session) : Prop :=
  Fallible.Ensures env.handler Fallible.AnyCall p
    (fun q s' => q = destination ∧ HasDigest env.hash digest s'.fs destination)
    (fun _ _ => True) s

/-- A verified file is moved with its digest. -/
theorem moveVerified_ensures {digest : PackageDigest} {verifiedPath destination : Path}
    {s : Session} (h : HasDigest env.hash digest s.fs verifiedPath) :
    Fallible.Ensures env.handler Fallible.AnyCall (moveVerified verifiedPath destination)
      (fun _ s' => HasDigest env.hash digest s'.fs destination) (fun _ _ => True) s := by
  obtain ⟨inner, data, hinner, hdata, hhash⟩ := h
  unfold moveVerified
  refine Fallible.ensures_ite.mpr ⟨fun _ => ?_, fun hsame => ?_⟩
  · refine Fallible.ensures_bind.mpr (Fallible.ensures_perform.mpr
      ⟨trivial, Fallible.ensures_orFail.mpr ⟨fun u hu => ?_, fun _ _ => trivial⟩⟩)
    have hmoved := FetchEnv.rename_ok hu
    exact ⟨inner, data, hinner, hmoved.trans hdata, hhash⟩
  · have heq : verifiedPath = destination := not_not.mp hsame
    exact Fallible.ensures_pure.mpr ⟨inner, data, hinner, heq ▸ hdata, hhash⟩

/-- A file is accepted only with its digest, whatever attempt it came from: the file that
is hashed is the one that ends at the destination. -/
theorem acceptDownload_delivers (tracker : DownloadTracker) (result : DownloadResult)
    (sourceId subject : String) (s : Session)
    (hpath : tracker.destination.resolve ≠
      (manager.resumeManager.partialPath tracker.digest).resolve) :
    Delivers env tracker.destination tracker.digest
      (manager.acceptDownload env tracker result sourceId subject) s := by
  unfold Delivers acceptDownload
  refine Fallible.ensures_seq (fun found s₁ => ?_) fun _ _ => trivial
  -- Whichever of the two paths is hashed is the path that the rest is about.
  generalize (if found then result.path else tracker.destination) = verified
  refine Fallible.ensures_bind.mpr (Fallible.ensures_mono
    (StreamingHasher.hashFile_ensures env _ _ _) (fun actual s₂ hactual => ?_)
    fun _ _ _ => trivial)
  obtain ⟨hfs, inner, data, hinner, hdata, rfl⟩ := hactual
  have hcheck : tracker.digest.matches (env.hash.digest inner data) = true →
      HasDigest env.hash tracker.digest s₂.fs verified := by
    intro hmatch
    refine ⟨inner, data, hinner, ?_, ?_⟩
    · rw [hfs, hdata]
    · exact ((PackageDigest.matches_iff _ _).mp hmatch).symm
  refine Fallible.ensures_ite.mpr ⟨fun _ => ?_, fun hmatch => ?_⟩
  · refine Fallible.ensures_seq (fun _ _ => ?_) fun _ _ => trivial
    refine Fallible.ensures_seq (fun _ _ => ?_) fun _ _ => trivial
    exact Fallible.ensures_seq (fun _ _ => Fallible.ensures_throw.mpr trivial)
      fun _ _ => trivial
  refine Fallible.ensures_ite.mpr ⟨fun _ => ?_, fun _ => ?_⟩
  · refine Fallible.ensures_seq (fun _ _ => ?_) fun _ _ => trivial
    exact Fallible.ensures_seq (fun _ _ => Fallible.ensures_throw.mpr trivial)
      fun _ _ => trivial
  have hdigest := hcheck (by simpa using hmatch)
  refine Fallible.ensures_bind.mpr (Fallible.ensures_mono (moveVerified_ensures hdigest)
    (fun _ s₃ hmoved => ?_) fun _ _ _ => trivial)
  -- The removal of the partial file does not touch the destination, and neither does the
  -- audit.
  have removal : MakesWithin (HttpRequest.IsTo tracker.url)
      [manager.resumeManager.partialPath tracker.digest]
      none (discard (manager.resumeManager.removePartial tracker.digest).attempt)
      fun _ => True :=
    Fallible.makes_discard (Fallible.makes_attempt
      (Fallible.makes_mono (ResumeManager.removePartial_settles _ _
        (List.mem_singleton_self _)) (fun _ h => h.within) fun _ h => h))
  have hremove : Fallible.Keeps env.handler (KeepsFile tracker.destination)
      (discard (manager.resumeManager.removePartial tracker.digest).attempt) :=
    KeepsFile.of_within removal (by simpa using hpath)
  refine hremove.ensures_bind (fun _ s₄ h₄ => ?_) fun _ _ _ => trivial
  refine Fallible.ensures_bind.mpr (Fallible.ensures_mono
    (auditDownload_ensures env allowsAudit_any _ _ _ _ _ s₄) (fun _ s₅ h₅ => ?_)
    fun _ _ h => h.elim)
  exact Fallible.ensures_pure.mpr
    ⟨rfl, (hmoved.of_keepsFile h₄).of_keepsFile (KeepsFile.audited h₅)⟩

/-- A download that returns a path returns its destination, and the file there hashes to
exactly the expected digest. -/
theorem download_verified (manager : DownloadManager) (env : FetchEnv) (url : String)
    (destination : Path) (expectedDigest : PackageDigest) (expectedSize : Option Nat)
    (sourceId subject : String) (s s' : Session) (p : Path)
    (hpath : destination.resolve ≠
      (manager.resumeManager.partialPath expectedDigest).resolve)
    (hrun : (manager.download env url destination expectedDigest expectedSize sourceId
      subject).run.run env.handler s = (.ok p, s')) :
    p = destination ∧ HasDigest env.hash expectedDigest s'.fs destination := by
  have hdelivers : Delivers env destination expectedDigest (manager.download env url
      destination expectedDigest expectedSize sourceId subject) s := by
    unfold Delivers download
    have hprepare := (manager.prepare_within env url destination expectedDigest expectedSize
      sourceId subject).returns env.handler s
    refine Fallible.ensures_bind.mpr ⟨(Fallible.ensures_any _).1, ?_⟩
    rcases hfound : CallProg.run env.handler (manager.prepare env url destination
      expectedDigest expectedSize sourceId subject).run s with ⟨e | ⟨tracker, existing⟩, s₁⟩
    · trivial
    rw [hfound] at hprepare
    have hsame := hprepare _ rfl
    refine attempts_ensures (D := fun _ _ => True) (F := fun _ _ => True)
      (I := fun _ => True) (C := fun _ => True) allowsAudit_any
      (fun _ _ _ => Fallible.ensures_any _) (fun t result s₂ ht _ => ?_)
      (fun _ _ _ _ _ _ => trivial) (fun _ _ _ _ _ => trivial) manager.retriesLeft tracker s₁
      hsame trivial fun _ _ => trivial
    have hfiles : t.destination.resolve ≠
        (manager.resumeManager.partialPath t.digest).resolve := by
      rw [ht.destination, ht.digest]
      exact hpath
    have haccept : Delivers env t.destination t.digest
        (manager.acceptDownload env t result sourceId subject) s₂ :=
      acceptDownload_delivers t result sourceId subject s₂ hfiles
    rwa [ht.destination, ht.digest] at haccept
  exact hdelivers.of_ok hrun

end DownloadManager

/-- A resumed and retried download of `abc` leaves `abc` at the destination. -/
theorem DownloadManager.download_verified_abc :
    abcDownload.1 = .ok abcPath ∧
      HasDigest (FetchEnv.serving busyServer).hash ⟨"sha256", abcHash⟩ abcDownload.2.fs
        abcPath := by
  have hpath : abcPath.resolve ≠
      (DownloadManager.cached.resumeManager.partialPath ⟨"sha256", abcHash⟩).resolve := by
    decide
  have hok : abcDownload.1 = .ok abcPath := by decide +kernel
  have hpair : ∀ r : Except ServiceError Path × Session,
      r.1 = .ok abcPath → r = (.ok abcPath, r.2) := by
    intro hpost heq
    obtain ⟨_, _⟩ := hpost
    subst heq
    rfl
  have hrun : abcDownload = (.ok abcPath, abcDownload.2) := hpair abcDownload hok
  exact ⟨hok, (DownloadManager.download_verified .cached (.serving busyServer)
    "https://packages.mission-os.org/abc.ko" abcPath ⟨"sha256", abcHash⟩ (some 3) "official"
    "root" ⟨abcFiles (utf8 "a"), []⟩ abcDownload.2 abcPath hpath hrun).2⟩

end MissionOs.Driverd
