import MissionOs.Driverd.Cache
import MissionOs.Driverd.Footprint

/-!
# The files of a cache

Where the files of a package are, and what each operation of the manager does to the files of
the machine.  `finalize_spec` says when `finalize` moves a partial file and what is there
afterwards; the operations that only remove files are described by the paths that they try to
remove (`RemovedFrom`).
-/

namespace MissionOs.Driverd

open MissionOs.Rust MissionOs.Lib

/-! ## Names -/

/-- The name of a package in the cache. -/
def packageName (digest : PackageDigest) : String := "pkg-" ++ digest.toHex

theorem dot_not_mem_packageName (d : PackageDigest) : '.' ∉ (packageName d).toList := by
  have hhex : '.' ∉ d.toHex.toList := dot_not_mem_hexEncode _
  simp [packageName, hhex]

theorem packageName_ne_empty (d : PackageDigest) : packageName d ≠ "" := by
  intro h
  have hlist := congrArg String.toList h
  simp [packageName] at hlist

/-- Packages are named after the values of their digests alone. -/
theorem packageName_inj {d₁ d₂ : PackageDigest} :
    packageName d₁ = packageName d₂ ↔ d₁.value = d₂.value := by
  constructor
  · intro h
    have hlist := congrArg String.toList h
    rw [packageName, packageName, String.toList_append, String.toList_append,
      List.append_right_inj] at hlist
    exact hexEncode_inj (String.toList_injective hlist)
  · intro h
    rw [packageName, packageName, PackageDigest.toHex, PackageDigest.toHex, h]

@[simp] theorem stem_packageName (d : PackageDigest) :
    Path.stem (packageName d) = packageName d :=
  Path.stem_of_no_dot (dot_not_mem_packageName d)

@[simp] theorem extension_packageName (d : PackageDigest) :
    Path.extension (packageName d) = none :=
  Path.extension_of_no_dot (dot_not_mem_packageName d)

theorem stem_package_dotted (d : PackageDigest) {ext : String} (h : '.' ∉ ext.toList) :
    Path.stem (packageName d ++ "." ++ ext) = packageName d :=
  Path.stem_dotted (packageName_ne_empty d) h

theorem extension_package_dotted (d : PackageDigest) {ext : String} (h : '.' ∉ ext.toList) :
    Path.extension (packageName d ++ "." ++ ext) = some ext :=
  Path.extension_dotted (packageName_ne_empty d) h

theorem packageName_ne_dots (d : PackageDigest) : packageName d ≠ ".." := by
  intro h
  have hdot := dot_not_mem_packageName d
  rw [h] at hdot
  exact hdot (by decide)

namespace CacheManager

variable (manager : CacheManager) (d : PackageDigest)

/-- A name that begins as that of a package does names an entry of the cache directory. -/
theorem join_package {suffix : String} (h : '/' ∉ suffix.toList) :
    manager.config.cachePath.join ("pkg-" ++ suffix) =
      manager.config.cachePath.entry ("pkg-" ++ suffix) := by
  apply Path.join_of_fileName
  · simp [h]
  · intro hname
    have hlist := congrArg String.toList hname
    simp at hlist
  · intro hname
    have hlist := congrArg String.toList hname
    simp at hlist

theorem cachePathFor_eq :
    manager.cachePathFor d = manager.config.cachePath.entry (packageName d) :=
  manager.join_package (slash_not_mem_hexEncode _)

theorem partialPathFor_eq : manager.partialPathFor d =
    manager.config.cachePath.entry (packageName d ++ "." ++ partialExtension) := by
  have hslash : '/' ∉ (d.toHex ++ "." ++ partialExtension).toList := by
    have hhex : '/' ∉ d.toHex.toList := slash_not_mem_hexEncode _
    simp [partialExtension, hhex]
  have hjoin := manager.join_package hslash
  simpa [partialPathFor, packageName, String.append_assoc] using hjoin

theorem metaPathFor_eq : manager.metaPathFor d =
    manager.config.cachePath.entry (packageName d ++ "." ++ metaExtension) := by
  have hslash : '/' ∉ (d.toHex ++ "." ++ metaExtension).toList := by
    have hhex : '/' ∉ d.toHex.toList := slash_not_mem_hexEncode _
    simp [metaExtension, hhex]
  have hjoin := manager.join_package hslash
  simpa [metaPathFor, packageName, String.append_assoc] using hjoin

theorem dotted_ne_dots (ext : String) : packageName d ++ "." ++ ext ≠ ".." := by
  intro h
  have hlist := congrArg String.toList h
  simp [packageName] at hlist

theorem resolve_cachePathFor : (manager.cachePathFor d).resolve =
    manager.config.cachePath.resolve ++ [packageName d] := by
  rw [cachePathFor_eq, Path.resolve_entry _ (packageName_ne_dots d)]

theorem resolve_partialPathFor : (manager.partialPathFor d).resolve =
    manager.config.cachePath.resolve ++ [packageName d ++ "." ++ partialExtension] := by
  rw [partialPathFor_eq, Path.resolve_entry _ (dotted_ne_dots d _)]

theorem resolve_metaPathFor : (manager.metaPathFor d).resolve =
    manager.config.cachePath.resolve ++ [packageName d ++ "." ++ metaExtension] := by
  rw [metaPathFor_eq, Path.resolve_entry _ (dotted_ne_dots d _)]

theorem ne_dots_of_hasEntry {fs : FileSystem} {name : String} {dir : Path}
    (h : hasEntry fs dir name = true) : name ≠ ".." := by
  unfold hasEntry at h
  exact of_decide_eq_true (Bool.and_eq_true_iff.mp h).1

theorem pathExists_entry {fs : FileSystem} {name : String} {dir : Path}
    (h : hasEntry fs dir name = true) : fs.pathExists (dir.entry name) = true := by
  rw [FileSystem.pathExists, FileSystem.get?, FileSystem.isDir,
    Path.resolve_entry dir (ne_dots_of_hasEntry h)]
  exact (Bool.and_eq_true_iff.mp h).2

theorem hasEntry_of_pathExists {fs : FileSystem} {name : String} {dir : Path} (hdots : name ≠ "..")
    (h : fs.pathExists (dir.entry name) = true) : hasEntry fs dir name = true := by
  rw [FileSystem.pathExists, FileSystem.get?, FileSystem.isDir,
    Path.resolve_entry dir hdots] at h
  rw [hasEntry, h, Bool.and_true]
  exact decide_eq_true hdots

theorem metadataName_ne_dots (base : String) : base ++ "." ++ metaExtension ≠ ".." := by
  intro h
  have hlast := congrArg (fun text => text.toList.getLast?) h
  simp [metaExtension] at hlast

/-- The file of another extension stands beside an entry. -/
theorem withExtension_entry (p : Path) {name : String} (h : name ≠ "..") (ext : String) :
    (p.entry name).withExtension ext = p.entry (Path.stem name ++ "." ++ ext) := by
  rw [Path.withExtension, Path.fileName_entry _ h]
  simp [Path.entry]

/-- The metadata of a package is its path with another extension. -/
theorem withExtension_cachePathFor :
    (manager.cachePathFor d).withExtension metaExtension = manager.metaPathFor d := by
  rw [cachePathFor_eq, metaPathFor_eq, withExtension_entry _ (packageName_ne_dots d),
    stem_packageName]

/-- Which of its three files a path is, the extension says. -/
theorem partialPathFor_ne_cachePathFor (d' : PackageDigest) :
    (manager.partialPathFor d).resolve ≠ (manager.cachePathFor d').resolve := by
  rw [resolve_partialPathFor, resolve_cachePathFor]
  intro h
  have hname := congrArg Path.extension (List.singleton_inj.mp (List.append_cancel_left h))
  rw [extension_package_dotted d (by decide), extension_packageName] at hname
  cases hname

theorem metaPathFor_ne_cachePathFor (d' : PackageDigest) :
    (manager.metaPathFor d).resolve ≠ (manager.cachePathFor d').resolve := by
  rw [resolve_metaPathFor, resolve_cachePathFor]
  intro h
  have hname := congrArg Path.extension (List.singleton_inj.mp (List.append_cancel_left h))
  rw [extension_package_dotted d (by decide), extension_packageName] at hname
  cases hname

theorem metaPathFor_ne_partialPathFor (d' : PackageDigest) :
    (manager.metaPathFor d).resolve ≠ (manager.partialPathFor d').resolve := by
  rw [resolve_metaPathFor, resolve_partialPathFor]
  intro h
  have hname := congrArg Path.extension (List.singleton_inj.mp (List.append_cancel_left h))
  rw [extension_package_dotted d (by decide), extension_package_dotted d' (by decide)] at hname
  exact absurd hname (by decide)

/-- The files of two digests are the same exactly if their values are. -/
theorem cachePathFor_inj {d₁ d₂ : PackageDigest} :
    (manager.cachePathFor d₁).resolve = (manager.cachePathFor d₂).resolve ↔
      d₁.value = d₂.value := by
  rw [resolve_cachePathFor, resolve_cachePathFor, List.append_right_inj, List.singleton_inj,
    packageName_inj]

theorem metaPathFor_inj {d₁ d₂ : PackageDigest} :
    (manager.metaPathFor d₁).resolve = (manager.metaPathFor d₂).resolve ↔
      d₁.value = d₂.value := by
  rw [resolve_metaPathFor, resolve_metaPathFor, List.append_right_inj, List.singleton_inj,
    ← packageName_inj]
  constructor
  · intro h
    have hstem := congrArg Path.stem h
    rwa [stem_package_dotted d₁ (by decide), stem_package_dotted d₂ (by decide)] at hstem
  · intro h
    rw [h]

/-- Digests of one value have their files in common. -/
theorem cachePathFor_congr {d₁ d₂ : PackageDigest} (h : d₁.value = d₂.value) :
    manager.cachePathFor d₁ = manager.cachePathFor d₂ := by
  rw [cachePathFor, cachePathFor, PackageDigest.toHex, PackageDigest.toHex, h]

end CacheManager

/-! ## The calls of the operations -/

/-- The calls of a program of the download code are file calls of the cache. -/
theorem ofFetch_makes {α : Type} {C : CacheCall → Prop} {Q : α → Prop} {p : Fetch α}
    (hp : Fallible.Makes (fun c => C (.file c)) p Q) : Fallible.Makes C (ofFetch p) Q :=
  CallProg.Makes.translate hp

theorem cacheCall_makes {C : CacheCall → Prop} {c : CacheCall} (hc : C c) :
    Fallible.Makes C (cacheCall c) fun _ => True :=
  Fallible.makes_perform hc fun _ => trivial

theorem cache_orFail_makes {α δ : Type} {C : CacheCall → Prop} (f : δ → ServiceError)
    (r : Except δ α) : Fallible.Makes C (Fallible.orFail f r : CacheProg α) fun _ => True :=
  Fallible.makes_orFail fun _ _ => trivial

/-! ## What the calls do -/

/-- A call that leaves the files as they are. -/
def CacheCall.isRead : CacheCall → Bool
  | .file c => c.isRead
  | .readDir _ | .modified _ => true

/-- A rename of the file `src` to `dest` goes through and moves `data`. -/
structure CacheEnv.Moves (env : CacheEnv) (fs : FileSystem) (src dest : Path) (data : Bytes) :
    Prop where
  source : fs.get? src = some data
  succeeds : env.changeFault (.rename src dest) = none
  not_dir : fs.isDir dest = false
  parent : fs.parentIsDir dest = true

/-- A removal of `p` does not fail. -/
abbrev CacheEnv.Removes (env : CacheEnv) (p : Path) : Prop :=
  env.changeFault (.removeFile p) = none

/-- The files `fs'` are the files `fs` after an attempt to remove each of the paths
`attempted`. -/
structure RemovedFrom (env : CacheEnv) (attempted : List Path) (fs fs' : FileSystem) : Prop where
  dirs : fs'.dirs = fs.dirs
  gone : ∀ p ∈ attempted, env.Removes p → ∀ q, q.resolve = p.resolve → fs'.get? q = none
  kept : ∀ q, (∀ p ∈ attempted, env.Removes p → q.resolve ≠ p.resolve) → fs'.get? q = fs.get? q

namespace RemovedFrom

variable {env : CacheEnv} {attempted attempted' : List Path} {fs fs' fs'' : FileSystem}

theorem refl (env : CacheEnv) (fs : FileSystem) : RemovedFrom env [] fs fs where
  dirs := rfl
  gone := by simp
  kept _ _ := rfl

/-- A file is as it was, or gone. -/
theorem same_or_none (h : RemovedFrom env attempted fs fs') (q : Path) :
    fs'.get? q = fs.get? q ∨ fs'.get? q = none := by
  by_cases hq : ∃ p ∈ attempted, env.Removes p ∧ q.resolve = p.resolve
  · obtain ⟨p, hp, hremoves, hsame⟩ := hq
    exact Or.inr (h.gone p hp hremoves q hsame)
  · apply Or.inl
    apply h.kept
    intro p hp hremoves hsame
    exact hq ⟨p, hp, hremoves, hsame⟩

theorem trans (h : RemovedFrom env attempted fs fs') (h' : RemovedFrom env attempted' fs' fs'') :
    RemovedFrom env (attempted ++ attempted') fs fs'' where
  dirs := h'.dirs.trans h.dirs
  gone := by
    intro p hp hremoves q hq
    rw [List.mem_append] at hp
    rcases hp with hp | hp
    · rcases h'.same_or_none q with hsame | hnone
      · rw [hsame]
        exact h.gone p hp hremoves q hq
      · exact hnone
    · exact h'.gone p hp hremoves q hq
  kept := by
    intro q hq
    rw [h'.kept q fun p hp => hq p (List.mem_append_right _ hp)]
    exact h.kept q fun p hp => hq p (List.mem_append_left _ hp)

theorem isDir (h : RemovedFrom env attempted fs fs') (q : Path) : fs'.isDir q = fs.isDir q := by
  rw [FileSystem.isDir, FileSystem.isDir, h.dirs]

end RemovedFrom

namespace CacheEnv

variable (host : CacheHost) (env : CacheEnv) (s : CacheSession)

theorem handler_fs_of_isRead {c : CacheCall} (h : c.isRead = true) :
    (env.handler host c s).2.fs = s.fs := by
  cases c with
  | file c => exact FetchEnv.outcome_of_isRead h
  | readDir p => rfl
  | modified p => rfl

theorem handler_pathExists (p : Path) : env.handler host (.file (.pathExists p)) s =
    ((env.fault s.made).isNone && s.fs.pathExists p, ⟨s.fs, s.made + 1⟩) := rfl

theorem handler_now : env.handler host (.file .now) s = (env.now, ⟨s.fs, s.made + 1⟩) := rfl

/-- A rename moves the file, or fails and changes nothing. -/
theorem rename_cases {src dest : Path} (hne : src.resolve ≠ dest.resolve) :
    (∃ data, env.Moves s.fs src dest data ∧ env.handler host (.file (.rename src dest)) s =
        (.ok (), ⟨(s.fs.remove src).write dest data, s.made + 1⟩)) ∨
      (∀ data, ¬env.Moves s.fs src dest data) ∧ ∃ e,
        env.handler host (.file (.rename src dest)) s = (.error e, ⟨s.fs, s.made + 1⟩) := by
  by_cases hmoves : ∃ data, env.Moves s.fs src dest data
  · obtain ⟨data, hdata⟩ := hmoves
    have hfault : (env.answering host (.rename src dest)).fault s.made = none := hdata.succeeds
    have hrun := FetchEnv.outcome_rename hfault hdata.source hdata.not_dir hdata.parent hne
    refine Or.inl ⟨data, hdata, ?_⟩
    rw [handler, hrun]
  · refine Or.inr ⟨fun data hdata => hmoves ⟨data, hdata⟩, ?_⟩
    have hfault : (env.answering host (.rename src dest)).fault s.made =
      env.changeFault (.rename src dest) := rfl
    simp only [handler, FetchEnv.outcome, FetchEnv.faulty, hfault]
    cases hsucceeds : env.changeFault (.rename src dest) with
    | some e => exact ⟨e, rfl⟩
    | none =>
        cases hsource : s.fs.get? src with
        | none => exact ⟨_, rfl⟩
        | some data =>
            by_cases hblocked : s.fs.isDir dest || !s.fs.parentIsDir dest
            · exact ⟨_, by simp only [if_pos hblocked]; rfl⟩
            · have hplace : s.fs.isDir dest = false ∧ s.fs.parentIsDir dest = true := by
                simpa using hblocked
              exact absurd ⟨data, hsource, hsucceeds, hplace.1, hplace.2⟩ hmoves

/-- A removal that does not fail removes a file that is there. -/
theorem removeFile_cases (p : Path) :
    (env.Removes p ∧ (s.fs.get? p).isSome = true ∧
        env.handler host (.file (.removeFile p)) s = (.ok (), ⟨s.fs.remove p, s.made + 1⟩)) ∨
      ¬(env.Removes p ∧ (s.fs.get? p).isSome = true) ∧ ∃ e,
        env.handler host (.file (.removeFile p)) s = (.error e, ⟨s.fs, s.made + 1⟩) := by
  have hfault : (env.answering host (.removeFile p)).fault s.made =
    env.changeFault (.removeFile p) := rfl
  simp only [handler, FetchEnv.outcome, FetchEnv.faulty, hfault, Removes]
  cases hremoves : env.changeFault (.removeFile p) with
  | some e => exact Or.inr ⟨by simp, e, rfl⟩
  | none =>
      cases hfile : s.fs.get? p with
      | none => exact Or.inr ⟨by simp, _, rfl⟩
      | some data => exact Or.inl ⟨rfl, rfl, rfl⟩

/-- A removal is an attempt on one path. -/
theorem removeFile_removedFrom (p : Path) :
    RemovedFrom env [p] s.fs (env.handler host (.file (.removeFile p)) s).2.fs := by
  rcases env.removeFile_cases host s p with ⟨hremoves, -, hrun⟩ | ⟨hstays, e, hrun⟩
  · rw [hrun]
    refine ⟨rfl, ?_, ?_⟩
    · intro q hq _ r hr
      rw [List.mem_singleton.mp hq] at hr
      rw [FileSystem.get?_congr _ hr, FileSystem.get?_remove_self]
    · intro q hq
      apply FileSystem.get?_remove_of_ne
      exact hq p (List.mem_singleton_self p) hremoves
  · rw [hrun]
    refine ⟨rfl, ?_, fun _ _ => rfl⟩
    intro q hq hremoves r hr
    rw [List.mem_singleton] at hq
    subst hq
    rw [FileSystem.get?_congr _ hr]
    have hnone : ¬(s.fs.get? q).isSome = true := fun hsome => hstays ⟨hremoves, hsome⟩
    simpa using hnone

/-- The file `p` can be written anew. -/
structure Writes (fs : FileSystem) (p : Path) : Prop where
  creates : env.changeFault (.createFile p) = none
  writes : ∀ data, env.changeFault (.writeAll p data) = none
  not_dir : fs.isDir p = false

/-- In a directory a file is created, unless that fails or a directory is in the way. -/
theorem createFile_cases {p : Path} (hparent : s.fs.parentIsDir p = true) :
    env.handler host (.file (.createFile p)) s = (.ok (), ⟨s.fs.write p [], s.made + 1⟩) ∨
      ¬env.Writes s.fs p ∧ ∃ e,
        env.handler host (.file (.createFile p)) s = (.error e, ⟨s.fs, s.made + 1⟩) := by
  have hfault : (env.answering host (.createFile p)).fault s.made =
    env.changeFault (.createFile p) := rfl
  simp only [handler, FetchEnv.outcome, FetchEnv.faulty, hfault, hparent]
  cases hcreates : env.changeFault (.createFile p) with
  | some e =>
      refine Or.inr ⟨fun hwrites => ?_, e, rfl⟩
      rw [hwrites.creates] at hcreates
      cases hcreates
  | none =>
      cases hdir : s.fs.isDir p with
      | false => exact Or.inl rfl
      | true =>
          refine Or.inr ⟨fun hwrites => ?_, _, rfl⟩
          rw [hwrites.not_dir] at hdir
          cases hdir

/-- A write adds its bytes to the file, or fails with some of them written. -/
theorem writeAll_cases (fs : FileSystem) (p : Path) (data : Bytes) :
    env.handler host (.file (.writeAll p data)) s =
        (.ok (), ⟨s.fs.write p ((s.fs.get? p).getD [] ++ data), s.made + 1⟩) ∨
      ¬env.Writes fs p ∧ ∃ e bytes, env.handler host (.file (.writeAll p data)) s =
        (.error e, ⟨s.fs.write p bytes, s.made + 1⟩) := by
  have hfault : (env.answering host (.writeAll p data)).fault s.made =
    env.changeFault (.writeAll p data) := rfl
  simp only [handler, FetchEnv.outcome, hfault]
  cases hwritten : env.changeFault (.writeAll p data) with
  | none => exact Or.inl rfl
  | some e =>
      refine Or.inr ⟨fun hwrites => ?_, e, _, rfl⟩
      rw [hwrites.writes data] at hwritten
      cases hwritten

end CacheEnv

/-! ## What the operations do -/

section Operations

variable {α : Type} {host : CacheHost} {env : CacheEnv} {s : CacheSession}

/-- The rule for a call and what follows it. -/
theorem ensures_cacheCall {c : CacheCall} {f : c.Reply → CacheProg α}
    {Q : α → CacheSession → Prop} {E : ServiceError → CacheSession → Prop} :
    Fallible.Ensures (env.handler host) Fallible.AnyCall (cacheCall c >>= f) Q E s ↔
      Fallible.Ensures (env.handler host) Fallible.AnyCall (f (env.handler host c s).1) Q E
        (env.handler host c s).2 :=
  Fallible.ensures_bind.trans (Fallible.ensures_perform.trans (iff_of_eq (true_and _)))

/-- The rule for a file call with a known answer. -/
theorem ensures_fileCall_of {c : FetchCall} {f : c.Reply → CacheProg α}
    {Q : α → CacheSession → Prop} {E : ServiceError → CacheSession → Prop}
    {reply : c.Reply} {s' : CacheSession} (h : env.handler host (.file c) s = (reply, s')) :
    Fallible.Ensures (env.handler host) Fallible.AnyCall (fileCall c >>= f) Q E s ↔
      Fallible.Ensures (env.handler host) Fallible.AnyCall (f reply) Q E s' := by
  have hrule : Fallible.Ensures (env.handler host) Fallible.AnyCall (fileCall c >>= f) Q E s ↔
      Fallible.Ensures (env.handler host) Fallible.AnyCall (f (env.handler host (.file c) s).1) Q E
        (env.handler host (.file c) s).2 := ensures_cacheCall
  rw [h] at hrule
  exact hrule

/-- The rule for a removal whose failure is ignored. -/
theorem ensures_discard_removeFile {p : Path} {f : PUnit → CacheProg α}
    {Q : α → CacheSession → Prop} {E : ServiceError → CacheSession → Prop} :
    Fallible.Ensures (env.handler host) Fallible.AnyCall
        (discard (fileCall (.removeFile p)) >>= f) Q E s ↔
      Fallible.Ensures (env.handler host) Fallible.AnyCall (f ⟨⟩) Q E
        (env.handler host (.file (.removeFile p)) s).2 := by
  rw [Fallible.ensures_bind, Fallible.ensures_discard, Fallible.ensures_perform]
  exact iff_of_eq (true_and _)

namespace CacheManager

variable (manager : CacheManager) (d : PackageDigest)

/-- A call of `finalize` finds the partial file and moves its bytes `data` to the package. -/
structure Finalizes (env : CacheEnv) (fs : FileSystem) (data : Bytes) : Prop where
  seen : env.fault 0 = none
  moves : env.Moves fs (manager.partialPathFor d) (manager.cachePathFor d) data

/-- The files after the package is moved and its metadata written. -/
def finalized (fs : FileSystem) (data json : Bytes) : FileSystem :=
  ((((fs.remove (manager.partialPathFor d)).write (manager.cachePathFor d) data).write
    (manager.metaPathFor d) []).write (manager.metaPathFor d) json)

theorem dropLast_resolve_metaPathFor :
    (manager.metaPathFor d).resolve.dropLast = (manager.cachePathFor d).resolve.dropLast := by
  rw [resolve_metaPathFor, resolve_cachePathFor, List.dropLast_concat, List.dropLast_concat]

/-- The metadata is written, or its file cannot be written. -/
theorem writeMetadata_ensures (args : FinalizeArgs)
    (hparent : s.fs.parentIsDir (manager.metaPathFor d) = true) :
    Fallible.Ensures (env.handler host) Fallible.AnyCall
      (manager.writeMetadata host.metaJson d args)
      (fun _ s' => s'.fs = (s.fs.write (manager.metaPathFor d) []).write (manager.metaPathFor d)
        (host.metaJson (entryMeta d args env.now)))
      (fun _ s' => ¬env.Writes s.fs (manager.metaPathFor d) ∧ s'.fs.dirs = s.fs.dirs ∧
        ∀ q : Path, q.resolve ≠ (manager.metaPathFor d).resolve → s'.fs.get? q = s.fs.get? q)
      s := by
  unfold writeMetadata
  apply (ensures_fileCall_of (env.handler_now host s)).mpr
  apply Fallible.ensures_bind.mpr
  rcases env.createFile_cases host ⟨s.fs, s.made + 1⟩ hparent with
    hcreated | ⟨hfails, e, hcreated⟩
  · apply (ensures_fileCall_of hcreated).mpr
    apply Fallible.ensures_pure.mpr
    rcases env.writeAll_cases host ⟨s.fs.write (manager.metaPathFor d) [], s.made + 2⟩ s.fs
        (manager.metaPathFor d) (host.metaJson (entryMeta d args env.now)) with
      hwritten | ⟨hfails, e, bytes, hwritten⟩
    · apply (ensures_fileCall_of hwritten).mpr
      apply Fallible.ensures_pure.mpr
      simp
    · apply (ensures_fileCall_of hwritten).mpr
      apply Fallible.ensures_throw.mpr
      refine ⟨hfails, rfl, ?_⟩
      intro q hq
      rw [FileSystem.get?_write_of_ne _ _ hq, FileSystem.get?_write_of_ne _ _ hq]
  · apply (ensures_fileCall_of hcreated).mpr
    apply Fallible.ensures_throw.mpr
    exact ⟨hfails, rfl, fun _ _ => rfl⟩

/-- A path of none of the three files of a digest. -/
structure OtherFile (q : Path) : Prop where
  pkg : q.resolve ≠ (manager.cachePathFor d).resolve
  part : q.resolve ≠ (manager.partialPathFor d).resolve
  metadata : q.resolve ≠ (manager.metaPathFor d).resolve

theorem get?_finalized_cachePathFor (fs : FileSystem) (data json : Bytes) :
    (manager.finalized d fs data json).get? (manager.cachePathFor d) = some data := by
  have hne := (manager.metaPathFor_ne_cachePathFor d d).symm
  rw [finalized, FileSystem.get?_write_of_ne _ _ hne, FileSystem.get?_write_of_ne _ _ hne,
    FileSystem.get?_write_self]

theorem get?_finalized_metaPathFor (fs : FileSystem) (data json : Bytes) :
    (manager.finalized d fs data json).get? (manager.metaPathFor d) = some json :=
  FileSystem.get?_write_self _ _ _

theorem get?_finalized_of_other (fs : FileSystem) (data json : Bytes) {q : Path}
    (h : manager.OtherFile d q) : (manager.finalized d fs data json).get? q = fs.get? q := by
  rw [finalized, FileSystem.get?_write_of_ne _ _ h.metadata,
    FileSystem.get?_write_of_ne _ _ h.metadata, FileSystem.get?_write_of_ne _ _ h.pkg,
    FileSystem.get?_remove_of_ne _ h.part]

/-- `finalize` moves the partial file and writes the metadata.  If it fails, it has moved
nothing, or the metadata could not be written. -/
theorem finalize_ensures (args : FinalizeArgs) (fs : FileSystem) :
    Fallible.Ensures (env.handler host) Fallible.AnyCall
      (manager.finalize host.metaJson d args)
      (fun _ s' => ∃ data, manager.Finalizes d env fs data ∧
        s'.fs = manager.finalized d fs data (host.metaJson (entryMeta d args env.now)))
      (fun _ s' => (∀ data, ¬manager.Finalizes d env fs data) ∧ s'.fs = fs ∨
        ∃ data, manager.Finalizes d env fs data ∧
          ¬env.Writes fs (manager.metaPathFor d) ∧ s'.fs.dirs = fs.dirs ∧
          s'.fs.get? (manager.cachePathFor d) = some data ∧
          ∀ q, manager.OtherFile d q → s'.fs.get? q = fs.get? q) ⟨fs, 0⟩ := by
  unfold finalize
  apply (ensures_fileCall_of (env.handler_pathExists host _ _)).mpr
  apply Fallible.ensures_ite.mpr
  constructor
  · intro hseen
    have hfault : env.fault 0 = none := by simp_all
    apply Fallible.ensures_bind.mpr
    rcases env.rename_cases host ⟨fs, 1⟩ (manager.partialPathFor_ne_cachePathFor d d) with
      ⟨data, hmoves, hrun⟩ | ⟨hstays, e, hrun⟩
    · have hdata : manager.Finalizes d env fs data := ⟨hfault, hmoves⟩
      have hparent : ((fs.remove (manager.partialPathFor d)).write (manager.cachePathFor d)
          data).parentIsDir (manager.metaPathFor d) = true := by
        have hdir := hmoves.parent
        rw [FileSystem.parentIsDir, ← manager.dropLast_resolve_metaPathFor] at hdir
        exact hdir
      apply (ensures_fileCall_of hrun).mpr
      apply Fallible.ensures_pure.mpr
      apply Fallible.ensures_bind.mpr
      apply Fallible.ensures_mono (manager.writeMetadata_ensures d args hparent)
      · intro _ s' hs'
        exact Fallible.ensures_pure.mpr ⟨data, hdata, hs'⟩
      · intro e s' hpost
        obtain ⟨hfails, hdirs, hkept⟩ := hpost
        refine Or.inr ⟨data, hdata, fun hwrites => hfails ?_, hdirs, ?_, ?_⟩
        · exact ⟨hwrites.creates, hwrites.writes, hwrites.not_dir⟩
        · rw [hkept _ (manager.metaPathFor_ne_cachePathFor d d).symm]
          exact FileSystem.get?_write_self _ _ _
        · intro q hq
          rw [hkept q hq.metadata]
          exact (FileSystem.get?_write_of_ne _ _ hq.pkg).trans
            (FileSystem.get?_remove_of_ne _ hq.part)
    · apply (ensures_fileCall_of hrun).mpr
      apply Fallible.ensures_throw.mpr
      refine Or.inl ⟨?_, rfl⟩
      intro data hdata
      exact hstays data hdata.moves
  · intro hunseen
    apply Fallible.ensures_throw.mpr
    refine Or.inl ⟨?_, rfl⟩
    intro data hdata
    apply hunseen
    simp [hdata.seen, FileSystem.pathExists_of_get? hdata.moves.source]

end CacheManager

/-! ## Operations that only remove files -/

/-- Between two states only files were removed, of which all satisfy `T`. -/
def DropsOnly (env : CacheEnv) (T : Path → Prop) (s s' : CacheSession) : Prop :=
  ∃ attempted, (∀ p ∈ attempted, T p) ∧ RemovedFrom env attempted s.fs s'.fs

instance (env : CacheEnv) (T : Path → Prop) : Std.Refl (DropsOnly env T) :=
  ⟨fun s => ⟨[], by simp, .refl env s.fs⟩⟩

instance (env : CacheEnv) (T : Path → Prop) : IsTrans CacheSession (DropsOnly env T) where
  trans := by
    intro s s' s'' hpost hdone
    obtain ⟨attempted, hall, hremoved⟩ := hpost
    obtain ⟨attempted', hall', hremoved'⟩ := hdone
    refine ⟨attempted ++ attempted', ?_, hremoved.trans hremoved'⟩
    intro p hp
    rw [List.mem_append] at hp
    rcases hp with hp | hp
    · exact hall p hp
    · exact hall' p hp

/-- A call that reads, or removes a file that satisfies `T`. -/
def CacheCall.Drops (T : Path → Prop) (c : CacheCall) : Prop :=
  c.isRead = true ∨ ∃ p, c = .file (.removeFile p) ∧ T p

theorem CacheCall.Drops.dropsOnly {T : Path → Prop} {c : CacheCall} (hc : c.Drops T) :
    DropsOnly env T s (env.handler host c s).2 := by
  rcases hc with hread | ⟨p, rfl, hp⟩
  · refine ⟨[], by simp, ?_⟩
    rw [env.handler_fs_of_isRead host s hread]
    exact .refl env s.fs
  · refine ⟨[p], ?_, env.removeFile_removedFrom host s p⟩
    intro q hq
    rw [List.mem_singleton] at hq
    rw [hq]
    exact hp

/-- A program of such calls removes files that satisfy `T` and does nothing else. -/
theorem keeps_dropsOnly {T : Path → Prop} {Q : α → Prop} {p : CacheProg α}
    (hp : Fallible.Makes (CacheCall.Drops T) p Q) :
    Fallible.Keeps (env.handler host) (DropsOnly env T) p :=
  Fallible.Keeps.of_makes hp fun _ _ hc => hc.dropsOnly

/-- The files are as they were. -/
def SameFiles (s s' : CacheSession) : Prop := s'.fs = s.fs

instance : Std.Refl SameFiles := ⟨fun _ => rfl⟩

instance : IsTrans CacheSession SameFiles := ⟨fun _ _ _ h h' => h'.trans h⟩

/-- A program that removes nothing leaves the files as they are. -/
theorem keeps_sameFiles {Q : α → Prop} {p : CacheProg α}
    (hp : Fallible.Makes (CacheCall.Drops fun _ => False) p Q) :
    Fallible.Keeps (env.handler host) SameFiles p := by
  apply Fallible.Keeps.of_makes hp
  intro c s hpost
  rcases hpost with hread | ⟨q, -, hq⟩
  · exact env.handler_fs_of_isRead host s hread
  · exact hq.elim

section Makes

variable {T : Path → Prop}

theorem reads_makes {c : CacheCall} (h : c.isRead = true) :
    Fallible.Makes (CacheCall.Drops T) (cacheCall c) fun _ => True :=
  cacheCall_makes (Or.inl h)

theorem removes_makes {p : Path} (h : T p) :
    Fallible.Makes (CacheCall.Drops T) (fileCall (.removeFile p)) fun _ => True :=
  cacheCall_makes (Or.inr ⟨p, rfl, h⟩)

theorem hashFile_drops (hash : HashFunctions) (algorithm : String) (path : Path) :
    Fallible.Makes (CacheCall.Drops T) (ofFetch (StreamingHasher.hashFile hash algorithm path))
      fun _ => True := by
  apply ofFetch_makes
  apply Fallible.makes_mono (StreamingHasher.hashFile_reads _ _ _) _ fun _ h => h
  intro c hc
  rcases hc with rfl | rfl
  · exact Or.inl rfl
  · exact Or.inl rfl

namespace CacheManager

variable (manager : CacheManager) (d : PackageDigest)

theorem entries_drops : Fallible.Makes (CacheCall.Drops T) manager.entries fun _ => True := by
  apply Fallible.makes_seq (reads_makes rfl)
  intro listed
  cases listed with
  | ok names => exact Fallible.makes_pure trivial
  | error e => exact Fallible.makes_pure trivial

theorem removeAll_drops {select : Path → Bool} (h : ∀ p, select p = true → T p)
    (paths : List Path) (removed : Nat) :
    Fallible.Makes (CacheCall.Drops T) (removeAll select paths removed) fun _ => True := by
  induction paths generalizing removed with
  | nil => exact Fallible.makes_pure trivial
  | cons path rest ih =>
      unfold removeAll
      by_cases hpath : select path = true
      · rw [if_pos hpath]
        apply Fallible.makes_seq (removes_makes (h path hpath))
        intro result
        cases result with
        | ok _ => exact ih _
        | error _ => exact ih _
      · rw [if_neg hpath]
        exact ih _

theorem cleanupPartials_drops (h : ∀ p, extensionOf p = some partialExtension → T p) :
    Fallible.Makes (CacheCall.Drops T) manager.cleanupPartials fun _ => True := by
  apply Fallible.makes_seq manager.entries_drops
  intro paths
  apply removeAll_drops
  intro p hp
  exact h p (of_decide_eq_true hp)

theorem totalSize_drops (paths : List Path) (total : Nat) :
    Fallible.Makes (CacheCall.Drops T) (totalSize paths total) fun _ => True := by
  induction paths generalizing total with
  | nil => exact Fallible.makes_pure trivial
  | cons path rest ih =>
      unfold totalSize
      apply Fallible.makes_ite (ih _)
      apply Fallible.makes_seq (reads_makes rfl)
      intro found
      cases found with
      | ok len => exact ih _
      | error e => exact ih _

theorem currentCacheSize_drops :
    Fallible.Makes (CacheCall.Drops T) manager.currentCacheSize fun _ => True :=
  Fallible.makes_seq manager.entries_drops fun _ => totalSize_drops _ _

theorem cacheEntryCount_drops :
    Fallible.Makes (CacheCall.Drops T) manager.cacheEntryCount fun _ => True :=
  Fallible.makes_seq manager.entries_drops fun _ => Fallible.makes_pure trivial

theorem collectEntries_drops (paths : List Path) (collected : List (Path × Nat)) :
    Fallible.Makes (CacheCall.Drops T) (collectEntries paths collected) fun _ => True := by
  induction paths generalizing collected with
  | nil => exact Fallible.makes_pure trivial
  | cons path rest ih =>
      unfold collectEntries
      apply Fallible.makes_ite (ih _)
      apply Fallible.makes_seq (reads_makes rfl)
      intro found
      cases found with
      | error e => exact ih _
      | ok len =>
          apply Fallible.makes_seq (reads_makes rfl)
          intro modified
          cases modified with
          | ok time => exact ih _
          | error e => exact ih _

theorem withinLimits_drops (size : Nat) :
    Fallible.Makes (CacheCall.Drops T) (manager.withinLimits size) fun _ => True := by
  apply Fallible.makes_ite _ (Fallible.makes_pure trivial)
  exact Fallible.makes_seq manager.cacheEntryCount_drops fun _ => Fallible.makes_pure trivial

theorem verifyCacheEntry_drops (hash : HashFunctions) (hpkg : T (manager.cachePathFor d))
    (hmeta : T (manager.metaPathFor d)) :
    Fallible.Makes (CacheCall.Drops T) (manager.verifyCacheEntry hash d) fun _ => True := by
  apply Fallible.makes_seq (reads_makes rfl)
  intro found
  apply Fallible.makes_ite _ (Fallible.makes_pure trivial)
  apply Fallible.makes_seq
  · apply Fallible.makes_bind (Fallible.makes_attempt (hashFile_drops hash _ _))
    intro digest _
    exact cache_orFail_makes _ _
  · intro actual
    apply Fallible.makes_ite (Fallible.makes_pure trivial)
    apply Fallible.makes_seq (Fallible.makes_discard (removes_makes hpkg))
    intro _
    apply Fallible.makes_seq (Fallible.makes_discard (removes_makes hmeta))
    intro _
    exact Fallible.makes_pure trivial

theorem removeEntry_drops (hpkg : T (manager.cachePathFor d)) (hmeta : T (manager.metaPathFor d)) :
    Fallible.Makes (CacheCall.Drops T) (manager.removeEntry d) fun _ => True := by
  apply Fallible.makes_seq
  · apply Fallible.makes_seq (reads_makes rfl)
    intro found
    apply Fallible.makes_ite _ (Fallible.makes_pure trivial)
    exact Fallible.makes_checked (removes_makes hpkg)
  · intro _
    apply Fallible.makes_seq (reads_makes rfl)
    intro found
    apply Fallible.makes_ite _ (Fallible.makes_pure trivial)
    exact Fallible.makes_discard (removes_makes hmeta)

theorem evict_drops (hall : ∀ p, T p) (paths : List Path) (size count : Nat) :
    Fallible.Makes (CacheCall.Drops T) (manager.evict paths size count) fun _ => True := by
  induction paths generalizing size count with
  | nil => exact Fallible.makes_pure trivial
  | cons path rest ih =>
      unfold evict
      apply Fallible.makes_ite (Fallible.makes_pure trivial)
      apply Fallible.makes_seq (reads_makes rfl)
      intro found
      apply Fallible.makes_seq (Fallible.makes_discard (removes_makes (hall _)))
      intro _
      apply Fallible.makes_seq (Fallible.makes_discard (removes_makes (hall _)))
      intro _
      exact ih _ _

theorem enforceLimits_drops (hall : ∀ p, T p) :
    Fallible.Makes (CacheCall.Drops T) manager.enforceLimits fun _ => True := by
  apply Fallible.makes_seq manager.currentCacheSize_drops
  intro size
  apply Fallible.makes_seq (manager.withinLimits_drops size)
  intro within
  apply Fallible.makes_ite (Fallible.makes_pure trivial)
  apply Fallible.makes_seq manager.entries_drops
  intro paths
  apply Fallible.makes_seq (collectEntries_drops _ _)
  intro collected
  exact manager.evict_drops hall _ _ _

theorem clear_drops (hall : ∀ p, T p) :
    Fallible.Makes (CacheCall.Drops T) manager.clear fun _ => True :=
  Fallible.makes_seq manager.entries_drops fun _ => removeAll_drops (fun p _ => hall p) _ _

end CacheManager

/-- Every operation but `stage_partial` and `finalize` only reads and removes files. -/
theorem CacheOp.program_drops (host : CacheHost) (manager : CacheManager) (hall : ∀ p, T p)
    {op : CacheOp} (hstage : ∀ d, op ≠ .stagePartial d) (hfinal : ∀ d args, op ≠ .finalize d args) :
    Fallible.Makes (CacheCall.Drops T) (op.program host manager) fun _ => True := by
  cases op with
  | contains d => exact Fallible.makes_discard (reads_makes rfl)
  | getCachedPath d =>
      apply Fallible.makes_discard (Q := fun _ => True)
      apply Fallible.makes_seq (reads_makes rfl)
      intro found
      exact Fallible.makes_ite (Fallible.makes_pure trivial) (Fallible.makes_pure trivial)
  | stagePartial d => exact absurd rfl (hstage d)
  | finalize d args => exact absurd rfl (hfinal d args)
  | verifyCacheEntry d =>
      exact Fallible.makes_discard (manager.verifyCacheEntry_drops d _ (hall _) (hall _))
  | removeEntry d => exact manager.removeEntry_drops d (hall _) (hall _)
  | cleanupPartials =>
      exact Fallible.makes_discard (manager.cleanupPartials_drops fun p _ => hall p)
  | currentCacheSize => exact Fallible.makes_discard manager.currentCacheSize_drops
  | cacheEntryCount => exact Fallible.makes_discard manager.cacheEntryCount_drops
  | enforceLimits => exact manager.enforceLimits_drops hall
  | clear => exact Fallible.makes_discard (manager.clear_drops hall)

end Makes

/-- `stage_partial` makes the cache directory, or fails and changes nothing. -/
theorem CacheManager.stagePartial_ensures (manager : CacheManager) (d : PackageDigest) :
    Fallible.Ensures (env.handler host) Fallible.AnyCall (manager.stagePartial d)
      (fun _ s' => s'.fs = s.fs.makeDirs manager.config.cachePath)
      (fun _ s' => s'.fs = s.fs) s := by
  have hparent : (manager.partialPathFor d).parent = some manager.config.cachePath := by
    rw [partialPathFor_eq]
    simp [Path.parent, Path.entry]
  have hcall : ofFetch (PackageFetcher.ensureParent "cannot create cache directory: "
      (manager.partialPathFor d)) =
      fileCall (.createDirAll manager.config.cachePath) >>= fun r => ofFetch
        (Fallible.orFail (fun e => .internal ("cannot create cache directory: " ++ e)) r) := by
    rw [PackageFetcher.ensureParent, hparent]
    rfl
  apply Fallible.ensures_bind.mpr
  rw [hcall]
  rcases FetchEnv.createDirAll_cases (env.answering host (.createDirAll manager.config.cachePath))
      s.made s.fs manager.config.cachePath with ⟨e, he⟩ | ⟨-, hok⟩
  · have hrun : env.handler host (.file (.createDirAll manager.config.cachePath)) s =
        (.error e, ⟨s.fs, s.made + 1⟩) := by
      rw [CacheEnv.handler, he]
    apply (ensures_fileCall_of hrun).mpr
    exact Fallible.ensures_throw.mpr rfl
  · have hrun : env.handler host (.file (.createDirAll manager.config.cachePath)) s =
        (.ok (), ⟨s.fs.makeDirs manager.config.cachePath, s.made + 1⟩) := by
      rw [CacheEnv.handler, hok]
    apply (ensures_fileCall_of hrun).mpr
    apply Fallible.ensures_pure.mpr
    exact Fallible.ensures_pure.mpr rfl

namespace CacheManager

variable (host env) (manager : CacheManager) (d : PackageDigest) (fs : FileSystem)

variable {host env manager fs} in
/-- What an operation ensures of the files holds of the files after it. -/
theorem next_op_of_ensures {R : FileSystem → Prop} {op : CacheOp}
    (h : Fallible.Ensures (env.handler host) Fallible.AnyCall (op.program host manager)
      (fun _ s' => R s'.fs) (fun _ s' => R s'.fs) ⟨fs, 0⟩) :
    R (manager.next host (.op op env) fs) :=
  Fallible.Ensures.final (R := fun s' : CacheSession => R s'.fs) h

theorem next_stagePartial : manager.next host (.op (.stagePartial d) env) fs = fs ∨
    manager.next host (.op (.stagePartial d) env) fs = fs.makeDirs manager.config.cachePath := by
  apply next_op_of_ensures (R := fun fs' => fs' = fs ∨ fs' = fs.makeDirs _)
  apply Fallible.ensures_discard.mpr
  apply Fallible.ensures_mono (manager.stagePartial_ensures d)
  · intro _ s' hs'
    exact Or.inr hs'
  · intro _ s' hs'
    exact Or.inl hs'

/-- The user of the cache writes the partial file, or cannot. -/
theorem next_writePartial (data : Bytes) : manager.next host (.writePartial d data) fs = fs ∨
    manager.next host (.writePartial d data) fs = fs.write (manager.partialPathFor d) data := by
  rw [next]
  split_ifs
  · exact Or.inl rfl
  · exact Or.inr rfl

/-- A `finalize` changes nothing, or puts the partial file in the place of the package. -/
theorem next_finalize (args : FinalizeArgs) :
    (∀ data, ¬manager.Finalizes d env fs data) ∧
        manager.next host (.op (.finalize d args) env) fs = fs ∨
      ∃ data, manager.Finalizes d env fs data ∧
        (manager.next host (.op (.finalize d args) env) fs).dirs = fs.dirs ∧
        (manager.next host (.op (.finalize d args) env) fs).get? (manager.cachePathFor d) =
          some data ∧
        ∀ q, manager.OtherFile d q →
          (manager.next host (.op (.finalize d args) env) fs).get? q = fs.get? q := by
  apply next_op_of_ensures (R := fun fs' => (∀ data, ¬manager.Finalizes d env fs data) ∧
    fs' = fs ∨ ∃ data, manager.Finalizes d env fs data ∧ fs'.dirs = fs.dirs ∧
      fs'.get? (manager.cachePathFor d) = some data ∧
      ∀ q, manager.OtherFile d q → fs'.get? q = fs.get? q)
  apply Fallible.ensures_discard.mpr
  apply Fallible.ensures_mono (manager.finalize_ensures d args fs)
  · intro _ s' hpost
    obtain ⟨data, hdata, hs'⟩ := hpost
    refine Or.inr ⟨data, hdata, ?_, ?_, ?_⟩
    · rw [hs']
      rfl
    · rw [hs', get?_finalized_cachePathFor]
    · intro q hq
      rw [hs', manager.get?_finalized_of_other d fs data _ hq]
  · intro _ s' hpost
    rcases hpost with hnone | ⟨data, hdata, -, hdirs, hpkg, hother⟩
    · exact Or.inl hnone
    · exact Or.inr ⟨data, hdata, hdirs, hpkg, hother⟩

/-- The other operations remove files and do nothing else. -/
theorem next_removes {op : CacheOp} (hstage : ∀ d, op ≠ .stagePartial d)
    (hfinal : ∀ d args, op ≠ .finalize d args) :
    ∃ attempted, RemovedFrom env attempted fs (manager.next host (.op op env) fs) := by
  have hdrops := CacheOp.program_drops (T := fun _ => True) host manager (fun _ => trivial)
    hstage hfinal
  have hkeeps : Fallible.Keeps (env.handler host) (DropsOnly env fun _ => True)
    (op.program host manager) := keeps_dropsOnly hdrops
  obtain ⟨attempted, -, hremoved⟩ := hkeeps.run ⟨fs, 0⟩
  exact ⟨attempted, hremoved⟩

variable {host env} in
/-- In a cache that was empty, `finalize` moves the bytes that were written. -/
theorem finalizes_staged {manager : CacheManager} {d : PackageDigest} {data data' : Bytes}
    (h : manager.Finalizes d env (manager.next host (.writePartial d data)
      (manager.next host (.op (.stagePartial d) .quiet) .empty)) data') : data' = data := by
  -- Staging makes a directory, so only the write puts a partial file there.
  have hstaged : (manager.next host (.op (.stagePartial d) .quiet) .empty).get?
      (manager.partialPathFor d) = none := by
    rcases manager.next_stagePartial host .quiet d .empty with hs | hs
    · rw [hs]
      rfl
    · rw [hs]
      rfl
  have hsource := h.moves.source
  rcases manager.next_writePartial host d
      (manager.next host (.op (.stagePartial d) .quiet) .empty) data with hs | hs
  · rw [hs, hstaged] at hsource
    cases hsource
  · rw [hs, FileSystem.get?_write_self, Option.some.injEq] at hsource
    exact hsource.symm

end CacheManager

end Operations

end MissionOs.Driverd
