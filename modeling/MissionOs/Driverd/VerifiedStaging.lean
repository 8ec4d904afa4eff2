import MissionOs.Driverd.Operations

/-!
# Which staged files are verified

`StagedVerified` asks of a trace that every staged file handed to
`load_module`, or copied to the firmware directory, was found good earlier in
the same trace.  Only `install_driver` calls the verifier.  `SafeStep` names the
calls in which nothing else hands a staged file on: no update finds one to
load or to copy, and no rollback finds one to load again, unless the file is
the one that the installation had verified.
-/

namespace MissionOs.Driverd

open MissionOs.Rust MissionOs.Lib

/-- Every staged file that the trace hands on was found good before, by an
enabled key and with the bytes that are handed on. -/
def StagedVerified (verifier : SignatureVerifier) (env : Env) (trace : List Event) : Prop :=
  ∀ earlier e later path data, trace = earlier ++ e :: later →
    e.stagedFile = some (path, data) → verifier.Vouches env earlier path data

theorem SignatureVerifier.Vouches.mono {verifier : SignatureVerifier} {env : Env}
    {trace trace' : List Event} {path : Path} {data : Bytes}
    (h : verifier.Vouches env trace path data) (hsub : trace <+: trace') :
    verifier.Vouches env trace' path data := by
  obtain ⟨key, hkey, signature, hgood, hmem⟩ := h
  exact ⟨key, hkey, signature, hgood, hsub.subset hmem⟩

/-- A trace is verified if it begins with calls that hand nothing on, and these
vouch for whatever the rest hands on. -/
theorem stagedVerified_append {verifier : SignatureVerifier} {env : Env}
    {checks es : List Event} (hchecks : ∀ e ∈ checks, e.isQuiet = true)
    (hes : ∀ e ∈ es, ∀ path data, e.stagedFile = some (path, data) →
      verifier.Vouches env checks path data) :
    StagedVerified verifier env (checks ++ es) := by
  intro earlier e later path data hsplit hstaged
  rcases List.append_eq_append_iff.mp hsplit with ⟨mid, rfl, rfl⟩ | ⟨mid, rfl, hmid⟩
  · exact (hes e (by simp) path data hstaged).mono (List.prefix_append checks mid)
  · cases mid with
    | nil =>
        simp only [List.nil_append] at hmid
        subst hmid
        rw [List.append_nil] at hes
        exact hes e (by simp) path data hstaged
    | cons e' mid =>
        simp only [List.cons_append, List.cons.injEq] at hmid
        have hquiet := hchecks e (by simp [hmid.1])
        rw [Event.stagedFile_of_isQuiet hquiet] at hstaged
        cases hstaged

namespace DriverExecutionEngine

variable (engine : DriverExecutionEngine) (env : Env)

/-- `find_package_path` finds a staged file. -/
def HasStagedFile (w : World) (d : DriverEntry) : Prop :=
  (w.fs.get? (engine.findPackagePath w d)).isSome = true

/-- The kernel refuses to unload the driver. -/
def UnloadRefused (w : World) (d : DriverEntry) : Prop :=
  unloadOutcome env w.kernel d.id.name ≠ .ok ()

/-- A copy of the firmware can fail after it wrote over the staged file. -/
def CopyOverwritesStaged (d : DriverEntry) : Prop :=
  (∃ e n, env.copyFault = some (e, some n)) ∧
    ∃ file ∈ [d.id.name ++ ".ko", d.id.name],
      (engine.packageStore.stagedPath file).resolve = (firmwarePath d.id.name).resolve

/-- The call hands no staged file on that it did not verify, once its checks
have passed with the driver `d`. -/
def SafeFor (op : Operation) (w : World) (d : DriverEntry) : Prop :=
  match op, d.id.moduleType with
  | .install _ _ _, .kernelModule => True
  | .install _ _ _, .firmware =>
      isLoaded w d.id.name = true → ¬ engine.CopyOverwritesStaged env d
  | .install _ _ _, .deviceTreeOverlay =>
      isLoaded w d.id.name = true → ¬ engine.HasStagedFile w d
  | .remove _ _, .kernelModule =>
      isLoaded w d.id.name = true → UnloadRefused env w d → ¬ engine.HasStagedFile w d
  | .remove _ _, .firmware =>
      isLoaded w d.id.name = true → w.pathExists (firmwarePath d.id.name) = true →
        removeOutcome env w.fs (firmwarePath d.id.name) ≠ .ok () → ¬ engine.HasStagedFile w d
  | .remove _ _, .deviceTreeOverlay =>
      isLoaded w d.id.name = true → ¬ engine.HasStagedFile w d
  | .update _ _, type =>
      if isLoaded w d.id.name = true then
        (UnloadRefused env w d → ¬ engine.HasStagedFile w d) ∧
        (¬ UnloadRefused env w d → type ≠ .userspace →
          ¬ engine.HasStagedFile (w.unloaded d) d)
      else
        type = .kernelModule ∨ type = .firmware → ¬ engine.HasStagedFile w d
  | _, .userspace => True

/-- The condition on an input: a call that its checks let pass is safe for the
driver that they found. -/
def SafeStep (w : World) : Input → Prop
  | .call env op => ∀ d, engine.Admits env op w.fresh d → engine.SafeFor env op w d
  | .outside _ _ _ _ => True

/-! ## Failed installations -/

/-- A file that has bytes after more directories were made, and that nothing was
written to, is the one that was found before. -/
theorem findPackagePath_of_grown {w : World} {fs : FileSystem} {d : DriverEntry}
    {data : Bytes} (hdirs : ∀ p, w.fs.isDir p = true → fs.isDir p = true)
    (hfiles : ∀ file ∈ [d.id.name ++ ".ko", d.id.name],
      fs.get? (engine.packageStore.stagedPath file) =
        w.fs.get? (engine.packageStore.stagedPath file))
    (hget : fs.get? (engine.findPackagePath { w with fs := fs } d) = some data) :
    engine.findPackagePath { w with fs := fs } d = engine.findPackagePath w d := by
  have hgrown : ∀ file ∈ [d.id.name ++ ".ko", d.id.name],
      w.pathExists (engine.packageStore.stagedPath file) = true →
        World.pathExists { w with fs := fs } (engine.packageStore.stagedPath file) = true := by
    intro file hfile hex
    rw [World.pathExists] at hex ⊢
    split at hex
    · exact hex
    · rw [FileSystem.pathExists, hfiles file hfile, Bool.or_eq_true]
      rw [FileSystem.pathExists, Bool.or_eq_true] at hex
      exact hex.imp_right (hdirs _)
  have hback : ∀ file ∈ [d.id.name ++ ".ko", d.id.name],
      fs.get? (engine.packageStore.stagedPath file) = some data →
      World.pathExists { w with fs := fs } (engine.packageStore.stagedPath file) = true →
        w.pathExists (engine.packageStore.stagedPath file) = true := by
    intro file hfile hdata hex
    rw [World.pathExists] at hex ⊢
    split at hex
    · exact hex
    · exact FileSystem.pathExists_of_get? ((hfiles file hfile).symm.trans hdata)
  unfold findPackagePath at hget ⊢
  dsimp only at hget ⊢
  by_cases hko : World.pathExists { w with fs := fs }
      (engine.packageStore.stagedPath (d.id.name ++ ".ko")) = true
  · rw [if_pos hko] at hget
    rw [if_pos hko, if_pos (hback _ (by simp) hget hko)]
  · rw [if_neg hko] at hget ⊢
    rw [if_neg fun h => hko (hgrown _ (by simp) h)]
    by_cases hbare : World.pathExists { w with fs := fs }
        (engine.packageStore.stagedPath d.id.name) = true
    · rw [if_pos hbare] at hget
      rw [if_pos hbare, if_pos (hback _ (by simp) hget hbare)]
    · rw [if_neg hbare, if_neg fun h => hbare (hgrown _ (by simp) h)]

/-- The files after a copy that failed: as they were, or with a part of the
source written over the destination. -/
theorem copyOutcome_failed {env : Env} {fs fs' : FileSystem} {src dest : Path} {e : IoError}
    (h : copyOutcome env fs src dest = (.error e, fs')) :
    fs' = fs ∨ (fs.get? src).isSome = true ∧ (∃ e n, env.copyFault = some (e, some n)) ∧
      ∃ bytes, fs' = fs.write dest bytes := by
  rw [copyOutcome] at h
  cases hsrc : fs.get? src with
  | none =>
      simp only [hsrc, Prod.mk.injEq] at h
      exact Or.inl h.2.symm
  | some data =>
      simp only [hsrc] at h
      split_ifs at h with hdir hself
      · simp only [Prod.mk.injEq] at h
        exact Or.inl h.2.symm
      all_goals
        cases hfault : env.copyFault with
        | none => simp [hfault] at h
        | some fault =>
            obtain ⟨e', n⟩ := fault
            cases n with
            | none =>
                simp only [hfault, Prod.mk.injEq] at h
                exact Or.inl h.2.symm
            | some n =>
                simp only [hfault, Prod.mk.injEq] at h
                exact Or.inr ⟨rfl, ⟨e', n, rfl⟩, _, h.2.symm⟩

theorem isDir_withParent {env : Env} {fs : FileSystem} (dest : Path) {p : Path}
    (h : fs.isDir p = true) : (withParent env fs dest).isDir p = true := by
  unfold withParent
  split
  · simp only [FileSystem.isDir, FileSystem.makeDirs, decide_eq_true_eq] at h ⊢
    exact decide_eq_true (List.mem_append_right _ h)
  · exact h

/-- An installation that failed left the staged files as they were, unless it
wrote over one of them. -/
theorem installEffect_failed {w : World} {d : DriverEntry} {e : ServiceError}
    (h : (engine.installEffect env w d).result = .error e)
    (hsafe : d.id.moduleType = .firmware → engine.HasStagedFile w d →
      ¬ engine.CopyOverwritesStaged env d) :
    d.id.moduleType ≠ .userspace ∧
      (∀ p, w.fs.isDir p = true → (engine.installEffect env w d).fs.isDir p = true) ∧
      ∀ file ∈ [d.id.name ++ ".ko", d.id.name],
        (engine.installEffect env w d).fs.get? (engine.packageStore.stagedPath file) =
          w.fs.get? (engine.packageStore.stagedPath file) := by
  rw [installEffect] at h ⊢
  cases htype : d.id.moduleType with
  | kernelModule =>
      simp only [htype] at h ⊢
      split_ifs at h ⊢ with hex hav
      · exact ⟨by decide, fun p hp => hp, fun file _ => rfl⟩
      · exact ⟨by decide, fun p hp => hp, fun file _ => rfl⟩
  | firmware =>
      simp only [htype] at h ⊢
      refine ⟨by decide, ?_⟩
      cases hcopy : copyOutcome env (withParent env w.fs (firmwarePath d.id.name))
          (engine.findPackagePath w d) (firmwarePath d.id.name) with
      | mk r fs' =>
          cases r with
          | ok u => simp [hcopy, Except.mapError] at h
          | error e' =>
              rcases copyOutcome_failed hcopy with rfl | ⟨hsrc, hfault, bytes, rfl⟩
              · exact ⟨fun p hp => isDir_withParent _ hp, fun file _ => get?_withParent ..⟩
              · rw [get?_withParent] at hsrc
                refine ⟨fun p hp => isDir_withParent _ hp, fun file hfile => ?_⟩
                have hne : (engine.packageStore.stagedPath file).resolve ≠
                    (firmwarePath d.id.name).resolve :=
                  fun heq => hsafe htype hsrc ⟨hfault, file, hfile, heq⟩
                rw [FileSystem.get?_write_of_ne _ _ hne, get?_withParent]
  | userspace => simp [htype] at h
  | deviceTreeOverlay =>
      exact ⟨by decide, fun p hp => hp, fun file _ => rfl⟩

/-- After an installation that failed, the file that a rollback would load is the
one that the installation found. -/
theorem reload_of_failed_install {w : World} {d : DriverEntry} {e : ServiceError}
    {data : Bytes} (h : (engine.installEffect env w d).result = .error e)
    (hsafe : d.id.moduleType = .firmware → engine.HasStagedFile w d →
      ¬ engine.CopyOverwritesStaged env d)
    (hget : (engine.installEffect env w d).fs.get?
      (engine.reloadPath w d (engine.installEffect env w d)) = some data) :
    engine.reloadPath w d (engine.installEffect env w d) = engine.findPackagePath w d ∧
      w.fs.get? (engine.findPackagePath w d) = some data := by
  obtain ⟨_, hdirs, hfiles⟩ := engine.installEffect_failed env h hsafe
  have hkernel := engine.kernel_of_failed_install env (by rw [h]; simp)
  rw [reloadPath, hkernel] at hget ⊢
  have hpath := engine.findPackagePath_of_grown hdirs hfiles hget
  refine ⟨hpath, ?_⟩
  rw [hpath] at hget
  unfold findPackagePath at hget ⊢
  dsimp only at hget ⊢
  split_ifs at hget ⊢
  · rwa [hfiles _ (by simp)] at hget
  · rwa [hfiles _ (by simp)] at hget
  · rwa [hfiles _ (by simp)] at hget

/-! ## One call -/

/-- The file at `p`, if there is one, is vouched for. -/
def Backed (trace : List Event) (fs : FileSystem) (p : Path) : Prop :=
  ∀ data, fs.get? p = some data → engine.signatureVerifier.Vouches env trace p data

/-- What an installation hands on is the package file of a module or a firmware. -/
theorem installEffect_path (w : World) (d : DriverEntry) {p : Path}
    (h : (engine.installEffect env w d).path = some p) :
    p = engine.findPackagePath w d ∧
      (d.id.moduleType = .kernelModule ∨ d.id.moduleType = .firmware) := by
  rw [installEffect] at h
  cases htype : d.id.moduleType with
  | kernelModule =>
      simp only [htype] at h
      split_ifs at h
      exact ⟨(Option.some.inj h).symm, Or.inl rfl⟩
  | firmware =>
      simp only [htype] at h
      exact ⟨(Option.some.inj h).symm, Or.inr rfl⟩
  | userspace => simp [htype] at h
  | deviceTreeOverlay => simp [htype] at h

theorem removeEffect_path (w : World) (d : DriverEntry) : (removeEffect env w d).path = none := by
  rw [removeEffect]
  repeat' split
  all_goals rfl

variable {engine env}

/-- No file, nothing to vouch for. -/
theorem Backed.of_not_hasStagedFile {trace : List Event} {w : World} {d : DriverEntry}
    (h : ¬ engine.HasStagedFile w d) :
    engine.Backed env trace w.fs (engine.findPackagePath w d) := by
  intro data hget
  exact absurd (by rw [HasStagedFile, hget]; rfl) h

/-- The package that an installation checked is vouched for. -/
theorem Signed.backed {w w₁ : World} {d : DriverEntry} (h : engine.Signed env d w w₁)
    (hengine : engine.allowUnsigned = false)
    (hverifier : engine.signatureVerifier.allowUnsigned = false)
    (htype : d.id.moduleType = .kernelModule ∨ d.id.moduleType = .firmware) :
    engine.Backed env w₁.trace w.fs (engine.findPackagePath w d) := by
  intro data hget
  obtain ⟨data', hget', hvouches⟩ := h hengine hverifier htype
  rw [hget, Option.some.injEq] at hget'
  exact hget' ▸ hvouches

/-- What the execution of a safe call hands on is vouched for. -/
theorem effect_backed {op : Operation} {w w₁ : World} {d : DriverEntry} {p : Path}
    (hengine : engine.allowUnsigned = false)
    (hverifier : engine.signatureVerifier.allowUnsigned = false)
    (hsigned : op.action = .installDriver → engine.Signed env d w w₁)
    (hsafe : engine.SafeFor env op w d) (hpath : (engine.effect env op w d).path = some p) :
    engine.Backed env w₁.trace w.fs p := by
  cases op with
  | install request caller devices =>
      obtain ⟨rfl, htype⟩ := engine.installEffect_path env w d hpath
      exact (hsigned rfl).backed hengine hverifier htype
  | remove request caller =>
      simp [effect, removeEffect_path] at hpath
  | update request caller =>
      simp only [effect, updateEffect] at hpath
      simp only [SafeFor] at hsafe
      split_ifs at hpath hsafe with hloaded
      · cases hunload : unloadOutcome env w.kernel d.id.name with
        | error e => simp [hunload] at hpath
        | ok u =>
            simp only [hunload] at hpath
            obtain ⟨rfl, htype⟩ := engine.installEffect_path env _ d hpath
            have hnone := hsafe.2 (by rw [UnloadRefused, hunload]; simp)
              (by rcases htype with h | h <;> simp [h])
            exact Backed.of_not_hasStagedFile hnone
      · obtain ⟨rfl, htype⟩ := engine.installEffect_path env w d hpath
        exact Backed.of_not_hasStagedFile (hsafe htype)

/-- What the rollback of a safe call loads is vouched for. -/
theorem reload_backed {op : Operation} {w w₁ : World} {d : DriverEntry} {e : ServiceError}
    (hengine : engine.allowUnsigned = false)
    (hverifier : engine.signatureVerifier.allowUnsigned = false)
    (hsigned : op.action = .installDriver → engine.Signed env d w w₁)
    (hsafe : engine.SafeFor env op w d) (hloaded : isLoaded w d.id.name = true)
    (hfailed : (engine.effect env op w d).result = .error e) :
    engine.Backed env w₁.trace (engine.effect env op w d).fs
      (engine.reloadPath w d (engine.effect env op w d)) := by
  cases op with
  | install request caller devices =>
      intro data hget
      have hfirmware : d.id.moduleType = .firmware → ¬ engine.CopyOverwritesStaged env d := by
        intro htype
        simp only [SafeFor, htype] at hsafe
        exact hsafe hloaded
      obtain ⟨hpath, hdata⟩ := engine.reload_of_failed_install env hfailed
        (fun htype _ => hfirmware htype) hget
      have htype : d.id.moduleType = .kernelModule ∨ d.id.moduleType = .firmware := by
        obtain ⟨huser, _⟩ := engine.installEffect_failed env hfailed
          (fun htype _ => hfirmware htype)
        cases htype : d.id.moduleType with
        | kernelModule => exact Or.inl rfl
        | firmware => exact Or.inr rfl
        | userspace => exact absurd htype huser
        | deviceTreeOverlay =>
            simp only [SafeFor, htype] at hsafe
            exact absurd (by rw [HasStagedFile, hdata]; rfl) (hsafe hloaded)
      rw [effect, hpath]
      exact (hsigned rfl).backed hengine hverifier htype data hdata
  | remove request caller =>
      have hnone : (engine.effect env (.remove request caller) w d).kernel = w.kernel ∧
          (engine.effect env (.remove request caller) w d).fs = w.fs ∧
          ¬ engine.HasStagedFile w d := by
        simp only [effect, removeEffect] at hfailed ⊢
        simp only [SafeFor] at hsafe
        cases htype : d.id.moduleType with
        | kernelModule =>
            simp only [htype, hloaded, if_true, forall_const] at hfailed hsafe ⊢
            rw [hfailed]
            exact ⟨rfl, trivial, hsafe (by simp [UnloadRefused, hfailed])⟩
        | firmware =>
            simp only [htype] at hfailed hsafe ⊢
            split_ifs at hfailed ⊢ with hex
            cases hremove : removeOutcome env w.fs (firmwarePath d.id.name) with
            | ok u => simp [hremove] at hfailed
            | error e => exact ⟨rfl, rfl, hsafe hloaded hex (by simp [hremove])⟩
        | userspace => simp [htype] at hfailed
        | deviceTreeOverlay =>
            simp only [htype] at hsafe
            exact ⟨rfl, rfl, hsafe hloaded⟩
      rw [reloadPath, hnone.1, hnone.2.1]
      exact Backed.of_not_hasStagedFile hnone.2.2
  | update request caller =>
      simp only [effect, updateEffect] at hfailed ⊢
      simp only [SafeFor] at hsafe
      rw [if_pos hloaded] at hfailed hsafe ⊢
      cases hunload : unloadOutcome env w.kernel d.id.name with
      | error e => exact Backed.of_not_hasStagedFile (hsafe.1 (by simp [UnloadRefused, hunload]))
      | ok u =>
          simp only [hunload] at hfailed ⊢
          have hnone := hsafe.2 (by rw [UnloadRefused, hunload]; simp)
          intro data hget
          have hfree : ∀ htype : d.id.moduleType = .firmware,
              engine.HasStagedFile (w.unloaded d) d → ¬ engine.CopyOverwritesStaged env d :=
            fun htype hfile => absurd hfile (hnone (by simp [htype]))
          have huser := (engine.installEffect_failed env hfailed hfree).1
          obtain ⟨_, hdata⟩ := engine.reload_of_failed_install env hfailed hfree hget
          exact absurd (by rw [HasStagedFile]; exact hdata ▸ rfl) (hnone huser)

/-- Whatever staged file a safe call hands on was found good before. -/
theorem stagedVerified_of_performed {op : Operation} {w w' : World} {r : OperationResult}
    (hengine : engine.allowUnsigned = false)
    (hverifier : engine.signatureVerifier.allowUnsigned = false)
    (h : engine.Performed env op w.fresh r w')
    (hsafe : ∀ d, engine.Admits env op w.fresh d → engine.SafeFor env op w d) :
    StagedVerified engine.signatureVerifier env w'.trace := by
  cases h with
  | refused r w' hquiet _ _ =>
      obtain ⟨es, htrace, hes⟩ := hquiet.trace_eq
      rw [htrace, World.fresh, List.nil_append, ← List.append_nil es]
      exact stagedVerified_append hes (by simp)
  | executed d w₁ r w' hchecks hquiet _ _ hsigned hdone =>
      have hsafe := hsafe d hchecks
      obtain ⟨checks, htrace, hes⟩ := hquiet.trace_eq
      rw [World.fresh, List.nil_append] at htrace
      have hfs : w₁.fs = w.fresh.fs := hquiet.fs_eq
      have hhanded : ∀ e : Event, e.StagedFrom w₁.fs (engine.effect env op w.fresh d).path →
          ∀ path data, e.stagedFile = some (path, data) →
            engine.signatureVerifier.Vouches env checks path data := by
        intro e he path data hstaged
        obtain ⟨hpath, hget⟩ := he path data hstaged
        rw [hfs] at hget
        exact htrace ▸ effect_backed hengine hverifier hsigned hsafe hpath data hget
      cases hdone with
      | committed now es _ hstaged =>
          rw [htrace]
          exact stagedVerified_append hes fun e he => hhanded e (hstaged e he)
      | rolledBack error es hresult hstaged =>
          rw [htrace]
          refine stagedVerified_append hes fun e he path data hfile => ?_
          rcases hstaged e he with hexec | ⟨hloaded, hreload⟩
          · exact hhanded e hexec path data hfile
          · obtain ⟨hpath, hget⟩ := hreload path data hfile
            rw [isLoaded_congr hquiet.kernel_eq hfs] at hloaded
            have hback := reload_backed hengine hverifier hsigned hsafe hloaded hresult
            have hreloadPath : engine.reloadPath w₁ d (engine.effect env op w.fresh d) =
                engine.reloadPath w.fresh d (engine.effect env op w.fresh d) :=
              engine.findPackagePath_congr d rfl rfl
            rw [← hreloadPath, Option.some.inj hpath] at hback
            exact htrace ▸ hback data hget

end DriverExecutionEngine

/-- In every run of a new engine in which every call is safe, every staged file
that a call loads or copies was found good earlier in the same call. -/
theorem staged_verified_of_safe (engine : DriverExecutionEngine)
    (inventory : DriverInventory) (sequence : UInt64) (kernel : Kernel)
    (moduleDirs : ModuleDirs) (fs : FileSystem) (inputs : List Input)
    (hengine : engine.allowUnsigned = false)
    (hverifier : engine.signatureVerifier.allowUnsigned = false)
    (hsafe : ∀ t ∈ transitions engine.next
      (World.boot inventory sequence kernel moduleDirs fs) inputs,
      engine.SafeStep t.before t.input) :
    ∀ t ∈ transitions engine.next (World.boot inventory sequence kernel moduleDirs fs) inputs,
      ∀ env op, t.input = .call env op →
        StagedVerified engine.signatureVerifier env t.after.trace := by
  intro t ht env op hinput
  have hdone := engine.performed_of_run inventory sequence kernel moduleDirs fs inputs t ht
    env op hinput
  have hstep := hsafe t ht
  rw [hinput] at hstep
  exact DriverExecutionEngine.stagedVerified_of_performed hengine hverifier hdone hstep

/-- An environment in which a signature of zeros is good for the bytes `[1]`, and all bytes are
the module `e1000e`. -/
def Env.signsOne : Env :=
  { Env.smooth with
    imageName := fun _ => some e1000eModule
    ed25519Verify := fun _ message signature =>
      message = [1] && signature = List.replicate 64 0 }

/-- A package store with the bytes `[1]` and their signature. -/
def e1000eStore : FileSystem :=
  (FileSystem.empty.write (Path.new "/var/cache/mission/driverd/packages/e1000e.ko") [1]).write
    (Path.new "/var/cache/mission/driverd/packages/e1000e.sig") (List.replicate 64 0)

/-- A machine with the driver `e1000e` in its inventory and in its package store. -/
def e1000eStoreMachine : World :=
  .boot ⟨[e1000eDriver .available], [], 0⟩ 0 (.ofNames []) inTreeModules e1000eStore

/-- An installation that loads what it has verified. -/
theorem staged_verified_e1000e :
    (∃ e ∈ (DriverExecutionEngine.strict.next
        (.call .signsOne (.install ⟨"e1000e", "linux", none, false⟩ ":1.5" []))
        e1000eStoreMachine).trace,
      e.stagedFile = some (Path.new "/var/cache/mission/driverd/packages/e1000e.ko", [1])) ∧
    StagedVerified DriverExecutionEngine.strict.signatureVerifier .signsOne
      (DriverExecutionEngine.strict.next
        (.call .signsOne (.install ⟨"e1000e", "linux", none, false⟩ ":1.5" []))
        e1000eStoreMachine).trace := by
  refine ⟨by decide, ?_⟩
  refine staged_verified_of_safe .strict ⟨[e1000eDriver .available], [], 0⟩ 0 (.ofNames [])
    inTreeModules e1000eStore
    [.call .signsOne (.install ⟨"e1000e", "linux", none, false⟩ ":1.5" [])] rfl rfl ?_ _
    List.mem_cons_self _ _ rfl
  rw [transitions_cons, transitions_nil, List.forall_mem_singleton]
  intro d hd
  have hdriver : Except.ok (e1000eDriver .available) = Except.ok d := hd
  cases hdriver
  trivial

/-! ## An update that verifies nothing -/

/-- The entry of a firmware. -/
def firmwareDriver : DriverEntry :=
  { e1000eDriver .available with
    id := { (e1000eDriver .available).id with
      name := "iwlwifi-7265-17.ucode"
      moduleType := .firmware } }

/-- A package store with a file for `firmwareDriver`, and no signature. -/
def unsignedStore : FileSystem :=
  FileSystem.empty.write
    (Path.new "/var/cache/mission/driverd/packages/iwlwifi-7265-17.ucode") [0xde, 0xad]

/-- Not every run is verified: an update copies a staged file to the firmware
directory without a look at its signature. -/
theorem update_hands_on_unverified :
    ¬ ∀ (engine : DriverExecutionEngine) (inventory : DriverInventory) (sequence : UInt64)
      (kernel : Kernel) (moduleDirs : ModuleDirs) (fs : FileSystem) (inputs : List Input),
      engine.allowUnsigned = false → engine.signatureVerifier.allowUnsigned = false →
      ∀ t ∈ transitions engine.next
          (World.boot inventory sequence kernel moduleDirs fs) inputs,
        ∀ env op, t.input = .call env op →
          StagedVerified engine.signatureVerifier env t.after.trace := by
  intro h
  have hrun := h .strict ⟨[firmwareDriver], [], 0⟩ 0 ⟨[]⟩ ⟨none, none, none⟩ unsignedStore
    [.call .smooth (.update ⟨"iwlwifi-7265-17.ucode", none, false⟩ ":1.5")] rfl rfl _
    List.mem_cons_self _ _ rfl
  obtain ⟨key, _, signature, hgood, _⟩ := hrun
    [_, _, _, _, _] (.copyFile _ _ (some [0xde, 0xad])) [_] _ _ rfl rfl
  exact Bool.false_ne_true (ed25519Verify_of_verify hgood)

end MissionOs.Driverd
