import MissionOs.Driverd.SharedStore
import MissionOs.Driverd.VerifiedStaging

/-!
# Verifying and loading beside another writer

`install_driver` verifies the bytes that it reads from the package, and later loads or copies the
bytes that it reads then.  If another writer replaces the package in between, these are not the
same (`replaced_after_verification`).

A call is `Undisturbed` if the other writer leaves the two files alone at which the package can
stand, from the first time on that the call looks for it.  `Guarded` is what then holds to the
end: the two files are as they were found, so whatever the call finds with bytes in it is the
package that it has verified.
-/

namespace MissionOs.Driverd

open MissionOs.Rust MissionOs.Lib

namespace DriverExecutionEngine

open WithTurns

variable (engine : DriverExecutionEngine) (env : Env) (d : DriverEntry)

/-! ## Calls that are not disturbed -/

/-- The files at which the package of a driver can stand. -/
def packageFiles : List String := [d.id.name ++ ".ko", d.id.name]

/-- A step leaves the package of a driver alone. -/
def Avoids (step : StoreStep) : Prop :=
  ∀ file ∈ packageFiles d, (engine.packageStore.stagedPath file).resolve ≠
    (engine.packageStore.stagedPath step.fileName).resolve

/-- The module of a driver counts as loaded, with some files. -/
def CanBeLoaded (w : World) : Prop := ∃ fs, isLoaded { w with fs := fs } d.id.name = true

/-- Nobody but the call changes the package of the driver while the call looks at it, and no
rollback finds another file to load. -/
structure Undisturbed (w : World) (turns : List (List StoreStep)) : Prop where
  avoids : ∀ steps ∈ turns.tail, ∀ step ∈ steps, engine.Avoids d step
  firmware : d.id.moduleType = .firmware → CanBeLoaded d w → ¬engine.CopyOverwritesStaged env d
  overlay : d.id.moduleType = .deviceTreeOverlay → CanBeLoaded d w →
    ¬engine.HasStagedFile (w.afterTurn engine.packageStore (turns.headD [])) d

/-- The package is as in `found`, and the other writer is going to leave it so. -/
structure Guarded (found : World) (s : SharedWorld) : Prop where
  kernel : s.state.kernel = found.kernel
  dirs : ∀ p, found.fs.isDir p = true → s.state.fs.isDir p = true
  files : ∀ file ∈ packageFiles d, s.state.fs.get? (engine.packageStore.stagedPath file) =
    found.fs.get? (engine.packageStore.stagedPath file)
  avoids : ∀ steps ∈ s.turns, ∀ step ∈ steps, engine.Avoids d step

/-- After the calls of `checks`, no staged file is handed on but the one at `handed`, as it is
in `found`. -/
def HandsOn (found : World) (handed : Option Path) (checks : List Event) (w : World) : Prop :=
  ∃ es, w.trace = checks ++ es ∧ ∀ e ∈ es, e.StagedFrom found.fs handed

/-! ## Turns of the other writer -/

/-- The world after the next turn. -/
def turned (s : SharedWorld) : SharedWorld :=
  ⟨s.state.afterTurn engine.packageStore (s.turns.headD []), s.turns.tail⟩

theorem otherWriter_wp {s : SharedWorld} {Q : Unit → SharedWorld → Prop} :
    wp engine.otherWriter Q s ↔ Q () (engine.turned s) := wp_turn

theorem pathExistsShared_wp {s : SharedWorld} {p : Path} {Q : Bool → SharedWorld → Prop} :
    wp (engine.pathExistsShared p) Q s ↔
      Q ((engine.turned s).state.pathExists p) (engine.turned s) := Iff.rfl

section Turns

variable {engine d} {found w : World} {s : SharedWorld} {fs : FileSystem}
  {steps : List StoreStep} {step : StoreStep}

theorem isDir_apply (p : Path) : (step.apply engine.packageStore fs).isDir p = fs.isDir p := by
  cases step with
  | write fileName data => rfl
  | remove fileName => rfl

theorem get?_apply (h : engine.Avoids d step) {file : String} (hfile : file ∈ packageFiles d) :
    (step.apply engine.packageStore fs).get? (engine.packageStore.stagedPath file) =
      fs.get? (engine.packageStore.stagedPath file) := by
  cases step with
  | write fileName data => exact FileSystem.get?_write_of_ne fs data (h file hfile)
  | remove fileName => exact FileSystem.get?_remove_of_ne fs (h file hfile)

theorem isDir_afterTurn (p : Path) :
    (engine.packageStore.afterTurn steps fs).isDir p = fs.isDir p := by
  induction steps generalizing fs with
  | nil => rfl
  | cons step steps ih => exact ih.trans (isDir_apply p)

theorem get?_afterTurn (h : ∀ step ∈ steps, engine.Avoids d step) {file : String}
    (hfile : file ∈ packageFiles d) :
    (engine.packageStore.afterTurn steps fs).get? (engine.packageStore.stagedPath file) =
      fs.get? (engine.packageStore.stagedPath file) := by
  induction steps generalizing fs with
  | nil => rfl
  | cons step steps ih =>
      rw [List.forall_mem_cons] at h
      exact (ih h.2).trans (get?_apply h.1 hfile)

theorem Guarded.turned (h : engine.Guarded d found s) :
    engine.Guarded d found (engine.turned s) := by
  have hhead : ∀ step ∈ s.turns.headD [], engine.Avoids d step := by
    cases hturns : s.turns with
    | nil => simp
    | cons steps turns =>
        intro step hstep
        exact h.avoids steps (by simp [hturns]) step hstep
  refine ⟨h.kernel, ?_, ?_, ?_⟩
  · intro p hp
    exact (isDir_afterTurn p).trans (h.dirs p hp)
  · intro file hfile
    exact (get?_afterTurn hhead hfile).trans (h.files file hfile)
  · intro steps hsteps
    exact h.avoids steps (List.mem_of_mem_tail hsteps)

/-- What exists when the package is found, exists later. -/
theorem Guarded.pathExists (h : engine.Guarded d found s) {file : String}
    (hfile : file ∈ packageFiles d)
    (hexists : found.pathExists (engine.packageStore.stagedPath file) = true) :
    s.state.pathExists (engine.packageStore.stagedPath file) = true := by
  rw [World.pathExists] at hexists ⊢
  split at hexists
  · rw [h.kernel]
    exact hexists
  · rw [FileSystem.pathExists, Bool.or_eq_true] at hexists ⊢
    rw [h.files file hfile]
    exact hexists.imp_right (h.dirs _)

/-- What exists later and had bytes in it when the package was found, existed then. -/
theorem Guarded.pathExists_found (h : engine.Guarded d found s) {file : String} {data : Bytes}
    (hdata : found.fs.get? (engine.packageStore.stagedPath file) = some data)
    (hexists : s.state.pathExists (engine.packageStore.stagedPath file) = true) :
    found.pathExists (engine.packageStore.stagedPath file) = true := by
  rw [World.pathExists] at hexists ⊢
  split at hexists
  · rw [← h.kernel]
    exact hexists
  · exact FileSystem.pathExists_of_get? hdata

end Turns

/-! ## Finding the package -/

/-- At `p` the package may stand; and if there were bytes in `found`, then it is the package. -/
structure FoundAt (found : World) (p : Path) : Prop where
  candidate : ∃ file ∈ packageFiles d, p = engine.packageStore.stagedPath file
  eq_of_data : ∀ data, found.fs.get? p = some data → p = engine.findPackagePath found d

section Finding

variable {engine env d} {found : World} {s : SharedWorld} {p : Path} {e : Event}

theorem Guarded.get?_eq (h : engine.Guarded d found s) (hp : engine.FoundAt d found p) :
    s.state.fs.get? p = found.fs.get? p := by
  obtain ⟨file, hfile, rfl⟩ := hp.candidate
  exact h.files file hfile

/-- Whatever is handed on from there is the package. -/
theorem Guarded.stagedFrom (h : engine.Guarded d found s) (hp : engine.FoundAt d found p)
    (he : e.StagedFrom s.state.fs (some p)) :
    e.StagedFrom found.fs (some (engine.findPackagePath found d)) := by
  intro q data hq
  obtain ⟨hpq, hget⟩ := he q data hq
  cases hpq
  rw [h.get?_eq hp] at hget
  exact ⟨congrArg some (hp.eq_of_data data hget).symm, hget⟩

theorem findPackagePathShared_wp (h : engine.Guarded d found (engine.turned s)) :
    wp (engine.findPackagePathShared d) (fun p s' => engine.FoundAt d found p ∧
      engine.Guarded d found s' ∧ s'.state.trace = s.state.trace ∧
      s'.state.tracker = s.state.tracker) s := by
  have hko : d.id.name ++ ".ko" ∈ packageFiles d := by simp [packageFiles]
  have hbare : d.id.name ∈ packageFiles d := by simp [packageFiles]
  rw [findPackagePathShared, wp_bind, pathExistsShared_wp, wp_ite]
  constructor
  · intro hseen
    rw [wp_pure]
    refine ⟨⟨⟨_, hko, rfl⟩, ?_⟩, h, rfl, rfl⟩
    intro data hdata
    rw [findPackagePath, if_pos (h.pathExists_found hdata hseen)]
  · intro hseen
    have hunseen : ¬found.pathExists
        (engine.packageStore.stagedPath (d.id.name ++ ".ko")) = true :=
      fun hfound => hseen (h.pathExists hko hfound)
    rw [wp_bind, pathExistsShared_wp, wp_ite]
    constructor
    · intro hseen'
      rw [wp_pure]
      refine ⟨⟨⟨_, hbare, rfl⟩, ?_⟩, h.turned, rfl, rfl⟩
      intro data hdata
      rw [findPackagePath, if_neg hunseen, if_pos (h.turned.pathExists_found hdata hseen')]
    · intro hseen'
      have hunseen' : ¬found.pathExists (engine.packageStore.stagedPath d.id.name) = true :=
        fun hfound => hseen' (h.turned.pathExists hbare hfound)
      rw [wp_pure]
      refine ⟨⟨⟨_, hko, rfl⟩, ?_⟩, h.turned, rfl, rfl⟩
      intro data hdata
      rw [findPackagePath, if_neg hunseen]
      exact (if_neg hunseen').symm

end Finding

/-! ## Executing -/

section Executing

variable {engine env d} {found : World} {s : SharedWorld} {p : Path} {checks : List Event}
  {handed : Option Path} {w w' : World}

/-- Events that hand on nothing but the package may follow. -/
theorem HandsOn.append {es : List Event} (h : HandsOn found handed checks w)
    (htrace : w'.trace = w.trace ++ es)
    (hes : ∀ e ∈ es, e.StagedFrom found.fs handed) :
    HandsOn found handed checks w' := by
  obtain ⟨es', hw, hes'⟩ := h
  refine ⟨es' ++ es, ?_, ?_⟩
  · rw [htrace, hw, List.append_assoc]
  · rw [List.forall_mem_append]
    exact ⟨hes', hes⟩

theorem HandsOn.congr (h : HandsOn found handed checks w)
    (htrace : w'.trace = w.trace) : HandsOn found handed checks w' := by
  obtain ⟨es, hw, hes⟩ := h
  exact ⟨es, htrace.trans hw, hes⟩

/-- A load of what was found hands on the package, and changes nothing if it fails. -/
theorem loadShared_wp (hhanded : handed = some (engine.findPackagePath found d))
    (h : engine.Guarded d found s)
    (htrace : HandsOn found handed checks s.state) (hp : engine.FoundAt d found p) :
    wp (alone (loadModule env d.id.name p [])) (fun r s' =>
      HandsOn found handed checks s'.state ∧ s'.state.tracker = s.state.tracker ∧
        ((∃ e, r = .error e) → engine.Guarded d found s')) s := by
  rw [wp_alone]
  refine wp_mono (loadModule_done env d.id.name p s.state) ?_
  intro r w' hpost
  obtain ⟨hr, es, rfl, hstaged, -⟩ := hpost
  refine ⟨htrace.append rfl fun e he => hhanded ▸ h.stagedFrom hp (hstaged e he), rfl, ?_⟩
  intro herror
  obtain ⟨e, rfl⟩ := herror
  cases houtcome : loadOutcome env (s.state.calls Event.isLoadModule) s.state.kernel
      s.state.fs d.id.name p with
  | ok m =>
      rw [houtcome] at hr
      cases hr
  | error e' => exact ⟨h.kernel, h.dirs, h.files, h.avoids⟩

theorem Guarded.of_fs {w : World} (h : engine.Guarded d found s)
    (hkernel : w.kernel = s.state.kernel)
    (hdirs : ∀ p, s.state.fs.isDir p = true → w.fs.isDir p = true)
    (hfiles : ∀ file ∈ packageFiles d, w.fs.get? (engine.packageStore.stagedPath file) =
      s.state.fs.get? (engine.packageStore.stagedPath file)) :
    engine.Guarded d found ⟨w, s.turns⟩ := by
  refine ⟨hkernel.trans h.kernel, ?_, ?_, h.avoids⟩
  · intro p hp
    exact hdirs p (h.dirs p hp)
  · intro file hfile
    exact (hfiles file hfile).trans (h.files file hfile)

/-- The directories above a file are made. -/
theorem createParentShared_wp {dest : Path} (h : engine.Guarded d found s)
    (htrace : HandsOn found handed checks s.state) :
    wp (alone (createParent env dest)) (fun _ s' =>
      HandsOn found handed checks s'.state ∧ s'.state.tracker = s.state.tracker ∧
        engine.Guarded d found s') s := by
  rw [wp_alone]
  refine wp_mono (createParent_wp env dest s.state) ?_
  intro _ w' hpost
  obtain ⟨es, rfl, hes⟩ := hpost
  refine ⟨htrace.append rfl fun e he => Event.stagedFrom_of_none (hes e he).1, rfl, ?_⟩
  exact h.of_fs rfl (fun p hp => isDir_withParent dest hp) fun file _ => get?_withParent ..

/-- A copy of what was found hands on the package, and one that fails without writing over it
leaves it there. -/
theorem copyShared_wp (hhanded : handed = some (engine.findPackagePath found d))
    (h : engine.Guarded d found s)
    (htrace : HandsOn found handed checks s.state) (hp : engine.FoundAt d found p) :
    wp (alone (copyFile env p (firmwarePath d.id.name))) (fun r s' =>
      HandsOn found handed checks s'.state ∧ s'.state.tracker = s.state.tracker ∧
        ((∃ e, r = .error e) → ¬engine.CopyOverwritesStaged env d →
          engine.Guarded d found s')) s := by
  rw [wp_alone, copyFile_wp]
  cases hcopy : copyOutcome env s.state.fs p (firmwarePath d.id.name) with
  | mk r fs =>
      refine ⟨?_, rfl, ?_⟩
      · apply htrace.append rfl
        rw [List.forall_mem_singleton]
        exact hhanded ▸ h.stagedFrom hp (Event.stagedFrom_copyFile _ _ _)
      · intro herror hsafe
        obtain ⟨e, rfl⟩ := herror
        rcases copyOutcome_failed hcopy with rfl | ⟨-, hfault, bytes, rfl⟩
        · exact h.of_fs rfl (fun p hp => hp) fun file _ => rfl
        · refine h.of_fs rfl (fun p hp => hp) fun file hfile => ?_
          apply FileSystem.get?_write_of_ne
          exact fun heq => hsafe ⟨hfault, file, hfile, heq⟩

theorem executeInstallShared_wp
    (hhanded : d.id.moduleType = .kernelModule ∨ d.id.moduleType = .firmware →
      handed = some (engine.findPackagePath found d))
    (h : engine.Guarded d found (engine.turned s))
    (htrace : HandsOn found handed checks s.state) :
    wp (engine.executeInstallShared env d) (fun r s' =>
      HandsOn found handed checks s'.state ∧ s'.state.tracker = s.state.tracker ∧
        ((∃ e, r = .error e) → d.id.moduleType ≠ .userspace ∧
          ((d.id.moduleType = .firmware → ¬engine.CopyOverwritesStaged env d) →
            engine.Guarded d found (engine.turned s')))) s := by
  rw [executeInstallShared]
  cases htype : d.id.moduleType with
  | kernelModule =>
      refine wp_bind_of (findPackagePathShared_wp h) ?_
      intro p s₁ hpost
      obtain ⟨hp, h₁, htrace₁, htracker₁⟩ := hpost
      replace htrace₁ := htrace.congr htrace₁
      rw [wp_bind, pathExistsShared_wp, wp_ite]
      constructor
      · intro _
        rw [wp_bind, otherWriter_wp]
        refine wp_mono (loadShared_wp (hhanded (Or.inl htype)) h₁.turned.turned
          (htrace₁.congr rfl) hp) ?_
        intro r s₂ hpost
        obtain ⟨htrace₂, htracker₂, hfailed⟩ := hpost
        refine ⟨htrace₂, htracker₂.trans htracker₁, ?_⟩
        intro he
        exact ⟨by decide, fun _ => (hfailed he).turned⟩
      · intro _
        rw [wp_bind, wp_alone, wp_get, wp_ite]
        constructor
        · intro _
          refine ⟨htrace₁.congr rfl, htracker₁, ?_⟩
          intro herror
          obtain ⟨e, he⟩ := herror
          cases he
        · intro _
          exact ⟨htrace₁.congr rfl, htracker₁, fun _ => ⟨by decide, fun _ => h₁.turned.turned⟩⟩
  | firmware =>
      refine wp_bind_of (findPackagePathShared_wp h) ?_
      intro src s₁ hpost
      obtain ⟨hp, h₁, htrace₁, htracker₁⟩ := hpost
      replace htrace₁ := htrace.congr htrace₁
      rw [wp_bind, otherWriter_wp]
      refine wp_bind_of (createParentShared_wp h₁.turned (htrace₁.congr rfl)) ?_
      intro _ s₂ hpost
      obtain ⟨htrace₂, htracker₂, h₂⟩ := hpost
      rw [wp_bind, otherWriter_wp]
      refine wp_bind_of (copyShared_wp (hhanded (Or.inr htype)) h₂.turned (htrace₂.congr rfl) hp) ?_
      intro r s₃ hpost
      obtain ⟨htrace₃, htracker₃, hfailed⟩ := hpost
      have htracker : s₃.state.tracker = s.state.tracker :=
        htracker₃.trans (htracker₂.trans htracker₁)
      cases r with
      | ok u =>
          refine ⟨htrace₃, htracker, ?_⟩
          intro herror
          obtain ⟨e, he⟩ := herror
          cases he
      | error e =>
          refine ⟨htrace₃, htracker, fun _ => ⟨by decide, fun hsafe => ?_⟩⟩
          exact (hfailed ⟨e, rfl⟩ (hsafe rfl)).turned
  | userspace =>
      refine ⟨htrace, rfl, ?_⟩
      intro herror
      obtain ⟨e, he⟩ := herror
      cases he
  | deviceTreeOverlay => exact ⟨htrace, rfl, fun _ => ⟨by decide, fun _ => h⟩⟩

theorem Guarded.of_still {w : World} (h : engine.Guarded d found s)
    (hkernel : w.kernel = s.state.kernel) (hfs : w.fs = s.state.fs) :
    engine.Guarded d found ⟨w, s.turns⟩ := by
  refine h.of_fs hkernel ?_ ?_
  · rw [hfs]
    exact fun p hp => hp
  · rw [hfs]
    exact fun file _ => rfl

theorem HandsOn.audit {e : AuditEvent} (h : HandsOn found handed checks w) :
    HandsOn found handed checks (w.record (.audit e)) := by
  apply h.append rfl
  rw [List.forall_mem_singleton]
  exact Event.stagedFrom_of_none rfl

/-- A rollback that loads nothing hands nothing on, and one that loads hands on the package. -/
theorem rollbackOperationShared_wp {correlationId caller : String} {loaded : Bool}
    (hfind : s.state.tracker.findState correlationId = some ⟨d, loaded, correlationId⟩)
    (h : loaded = true → handed = some (engine.findPackagePath found d) ∧
      engine.Guarded d found (engine.turned s))
    (htrace : HandsOn found handed checks s.state) :
    wp (engine.rollbackOperationShared env correlationId caller) (fun _ s' =>
      HandsOn found handed checks s'.state) s := by
  rw [rollbackOperationShared, wp_bind, wp_alone, wp_get, hfind]
  dsimp only
  rw [wp_bind, wp_alone, wp_modify]
  have hrestored : HandsOn found handed checks (s.state.restore d) := htrace.congr rfl
  cases loaded with
  | false =>
      simp only [Bool.false_eq_true, if_false]
      rw [wp_alone, wp_bind]
      exact audit_wp fun e => hrestored.audit.congr rfl
  | true =>
      simp only [if_true]
      have hguarded : engine.Guarded d found
          (engine.turned ⟨s.state.restore d, s.turns⟩) := (h rfl).2.of_still rfl rfl
      refine wp_bind_of (findPackagePathShared_wp hguarded) ?_
      intro p s₁ hpost
      obtain ⟨hp, h₁, htrace₁, -⟩ := hpost
      rw [wp_bind, otherWriter_wp, wp_bind, wp_alone, wp_discard]
      have hload : wp (alone (loadModule env d.id.name p [])) _ (engine.turned s₁) :=
        loadShared_wp (h rfl).1 h₁.turned ((hrestored.congr htrace₁).congr rfl) hp
      refine wp_mono (wp_alone.mp hload) ?_
      intro r w hpost
      obtain ⟨htrace₂, -, -⟩ := hpost
      rw [wp_alone, wp_bind]
      exact audit_wp fun e => htrace₂.audit.congr rfl

/-- The installation after its checks hands on nothing but the package, and only if it installs
or reloads one. -/
theorem transactShared_wp {caller : String} (h : engine.Guarded d found (engine.turned s))
    (htrace : HandsOn found handed checks s.state) (htracker : s.state.tracker = .new)
    (hhanded : d.id.moduleType = .kernelModule ∨ d.id.moduleType = .firmware →
      handed = some (engine.findPackagePath found d))
    (hreload : isLoaded (engine.turned s).state d.id.name = true →
      d.id.moduleType ≠ .userspace → handed = some (engine.findPackagePath found d) ∧
        (d.id.moduleType = .firmware → ¬engine.CopyOverwritesStaged env d)) :
    wp (engine.transactShared env d caller) (fun _ s' =>
      HandsOn found handed checks s'.state) s := by
  rw [transactShared, wp_bind, otherWriter_wp, wp_bind, wp_alone, saveState_wp]
  have hfind := findState_saving (w := (engine.turned s).state) htracker d
  have hsaved : engine.Guarded d found
      ⟨(engine.turned s).state.saving d, (engine.turned s).turns⟩ := h.of_still rfl rfl
  refine wp_bind_of (executeInstallShared_wp hhanded hsaved.turned (htrace.congr rfl)) ?_
  intro r s₂ hpost
  obtain ⟨htrace₂, htracker₂, hfailed⟩ := hpost
  cases r with
  | ok u =>
      rw [wp_bind, wp_alone, wp_bind, updateDriverStatus, wp_modify, wp_bind]
      apply audit_wp
      intro e
      have hupdated : HandsOn found handed checks { s₂.state with inventory := _ } :=
        htrace₂.congr rfl
      exact hupdated.audit.congr rfl
  | error e =>
      obtain ⟨htype, hguarded⟩ := hfailed ⟨e, rfl⟩
      rw [wp_bind]
      refine rollbackOperationShared_wp (htracker₂.symm ▸ hfind) ?_ htrace₂
      intro hloaded
      obtain ⟨hpath, hcopy⟩ := hreload hloaded htype
      exact ⟨hpath, hguarded hcopy⟩

end Executing

/-! ## Checking -/

section Checking

variable {engine env d} {found w w' : World} {s : SharedWorld}

theorem forall_isQuiet_of_quiet (hquiet : Quiet w w') (h : ∀ e ∈ w.trace, e.isQuiet = true) :
    ∀ e ∈ w'.trace, e.isQuiet = true := by
  obtain ⟨es, htrace, hes⟩ := hquiet.trace_eq
  rw [htrace, List.forall_mem_append]
  exact ⟨h, hes⟩

theorem stagedVerified_of_isQuiet {verifier : SignatureVerifier} {trace : List Event}
    (h : ∀ e ∈ trace, e.isQuiet = true) : StagedVerified verifier env trace := by
  rw [← List.append_nil trace]
  exact stagedVerified_append h (by simp)

/-- What is handed on is verified, if the checks vouch for the file at `handed`. -/
theorem HandsOn.stagedVerified {handed : Option Path} {checks : List Event}
    (h : HandsOn found handed checks w) (hquiet : ∀ e ∈ checks, e.isQuiet = true)
    (hbacked : ∀ path, handed = some path → engine.Backed env checks found.fs path) :
    StagedVerified engine.signatureVerifier env w.trace := by
  obtain ⟨es, htrace, hes⟩ := h
  rw [htrace]
  apply stagedVerified_append hquiet
  intro e he path data hstaged
  obtain ⟨hpath, hget⟩ := hes e he path data hstaged
  exact hbacked path hpath data hget

/-- The package that passes the check is the one that was found, and its bytes carry a good
signature. -/
theorem checkSignatureShared_wp (request : InstallRequest) (caller : String)
    (hengine : engine.allowUnsigned = false)
    (hverifier : engine.signatureVerifier.allowUnsigned = false)
    (h : engine.Guarded d found (engine.turned s))
    (hquiet : ∀ e ∈ s.state.trace, e.isQuiet = true) :
    wp (engine.checkSignatureShared env request caller d) (fun r s' =>
      (∀ e ∈ s'.state.trace, e.isQuiet = true) ∧ ∀ driver, r = .ok driver → driver = d ∧
        s'.state.tracker = s.state.tracker ∧ engine.Guarded d found (engine.turned s') ∧
        (d.id.moduleType = .kernelModule ∨ d.id.moduleType = .firmware →
          engine.Backed env s'.state.trace found.fs (engine.findPackagePath found d))) s := by
  rw [checkSignatureShared, wp_ite]
  constructor
  · intro htype
    refine wp_bind_of (findPackagePathShared_wp h) ?_
    intro p s₁ hpost
    obtain ⟨hp, h₁, htrace₁, htracker₁⟩ := hpost
    rw [wp_bind, otherWriter_wp, wp_bind, wp_alone]
    refine wp_mono ((engine.quiet_readPackageSignature env d).wp _) ?_
    intro signature w₂ h₂
    have hguarded₂ : engine.Guarded d found ⟨w₂, (engine.turned s₁).turns⟩ :=
      h₁.turned.of_still h₂.kernel_eq h₂.fs_eq
    have hquiet₂ := forall_isQuiet_of_quiet h₂ fun e he => hquiet e (htrace₁ ▸ he)
    rw [wp_bind, otherWriter_wp, wp_bind, wp_alone]
    have hvalid := verifyPackage_valid env engine.signatureVerifier p signature none hverifier
      (engine.turned ⟨w₂, (engine.turned s₁).turns⟩).state
    refine wp_mono (wp_and ((verifyPackage_quiet ..).wp _) hvalid) ?_
    intro result w₃ hpost
    obtain ⟨h₃, hsigned⟩ := hpost
    have hquiet₃ := forall_isQuiet_of_quiet h₃ hquiet₂
    rw [wp_ite]
    constructor
    · intro _
      rw [wp_alone]
      apply failOperation_wp
      intro w₄ h₄
      exact ⟨forall_isQuiet_of_quiet h₄ hquiet₃, fun driver hdriver => by cases hdriver⟩
    · intro hpass
      refine ⟨hquiet₃, ?_⟩
      intro driver hdriver
      cases hdriver
      have htracker : w₃.tracker = s.state.tracker :=
        h₃.tracker_eq.trans (h₂.tracker_eq.trans htracker₁)
      refine ⟨rfl, htracker, ?_, ?_⟩
      · exact (hguarded₂.turned.of_still h₃.kernel_eq h₃.fs_eq).turned
      · intro _ data hdata
        obtain ⟨data', hget, hvouches⟩ := hsigned (by simpa [hengine] using hpass)
        rw [hguarded₂.turned.get?_eq hp] at hget
        cases hp.eq_of_data data' hget
        rw [hdata] at hget
        cases hget
        exact hvouches
  · intro htype
    refine ⟨hquiet, ?_⟩
    intro driver hdriver
    cases hdriver
    refine ⟨rfl, rfl, h, ?_⟩
    intro htype'
    exact absurd (by simpa using htype') htype

/-- An installation whose package is vouched for hands on nothing else. -/
theorem transactShared_verified {caller : String} (h : engine.Guarded d found (engine.turned s))
    (hquiet : ∀ e ∈ s.state.trace, e.isQuiet = true) (htracker : s.state.tracker = .new)
    (hbacked : d.id.moduleType = .kernelModule ∨ d.id.moduleType = .firmware →
      engine.Backed env s.state.trace found.fs (engine.findPackagePath found d))
    (hfirmware : d.id.moduleType = .firmware → isLoaded (engine.turned s).state d.id.name = true →
      ¬engine.CopyOverwritesStaged env d)
    (hoverlay : d.id.moduleType = .deviceTreeOverlay →
      isLoaded (engine.turned s).state d.id.name = true → ¬engine.HasStagedFile found d) :
    wp (engine.transactShared env d caller) (fun _ s' =>
      StagedVerified engine.signatureVerifier env s'.state.trace) s := by
  have hstart : ∀ handed, HandsOn found handed s.state.trace s.state :=
    fun handed => ⟨[], by simp, by simp⟩
  by_cases hpackage : (d.id.moduleType = .kernelModule ∨ d.id.moduleType = .firmware) ∨
      d.id.moduleType = .deviceTreeOverlay ∧ isLoaded (engine.turned s).state d.id.name = true
  · have hrun : wp (engine.transactShared env d caller) (fun _ s' => HandsOn found
        (some (engine.findPackagePath found d)) s.state.trace s'.state) s :=
      transactShared_wp h (hstart _) htracker (fun _ => rfl) fun hloaded _ =>
        ⟨rfl, fun htype => hfirmware htype hloaded⟩
    have hback : engine.Backed env s.state.trace found.fs (engine.findPackagePath found d) := by
      rcases hpackage with htype | ⟨htype, hloaded⟩
      · exact hbacked htype
      · exact Backed.of_not_hasStagedFile (hoverlay htype hloaded)
    refine wp_mono hrun fun _ s' hpost => hpost.stagedVerified hquiet ?_
    intro path hpath
    cases hpath
    exact hback
  · rw [not_or] at hpackage
    have hrun : wp (engine.transactShared env d caller)
        (fun _ s' => HandsOn found none s.state.trace s'.state) s := by
      refine transactShared_wp h (hstart _) htracker (fun htype => absurd htype hpackage.1) ?_
      intro hloaded huser
      cases htype : d.id.moduleType with
      | kernelModule => exact absurd (Or.inl htype) hpackage.1
      | firmware => exact absurd (Or.inr htype) hpackage.1
      | userspace => exact absurd htype huser
      | deviceTreeOverlay => exact absurd ⟨htype, hloaded⟩ hpackage.2
    refine wp_mono hrun fun _ s' hpost => hpost.stagedVerified hquiet ?_
    intro path hpath
    cases hpath

end Checking

/-- The trace of an installation beside another writer. -/
def sharedTrace (request : InstallRequest) (caller : String)
    (hardwareDevices : List HardwareDevice) (w : World) (turns : List (List StoreStep)) :
    List Event :=
  ((engine.installDriverShared env request caller hardwareDevices).run
    ⟨w.fresh, turns⟩).2.state.trace

variable {engine env} in
/-- What an installation that is not disturbed hands on was found good before. -/
theorem stagedVerified_of_undisturbed {request : InstallRequest} {caller : String}
    {hardwareDevices : List HardwareDevice} {w : World} {turns : List (List StoreStep)}
    (hengine : engine.allowUnsigned = false)
    (hverifier : engine.signatureVerifier.allowUnsigned = false) (htracker : w.tracker = .new)
    (h : ∀ d, w.inventory.findDriver request.driverName request.provider = some d →
      engine.Undisturbed env d w turns) :
    StagedVerified engine.signatureVerifier env
      (engine.sharedTrace env request caller hardwareDevices w turns) := by
  have hrun : wp (engine.installDriverShared env request caller hardwareDevices)
      (fun _ s => StagedVerified engine.signatureVerifier env s.state.trace)
      ⟨w.fresh, turns⟩ := by
    rw [installDriverShared, wp_bind, wp_alone]
    refine wp_mono (engine.beforeCheck_wp env request caller hardwareDevices w.fresh) ?_
    intro r w₁ hpost
    obtain ⟨h₁, hend⟩ := hpost
    have hquiet₁ := forall_isQuiet_of_quiet h₁ (by simp [World.fresh])
    cases r with
    | error result => exact stagedVerified_of_isQuiet hquiet₁
    | ok d =>
        have hsteps := h d hend.2.2.1
        have hguarded : engine.Guarded d (w.afterTurn engine.packageStore (turns.headD []))
            (engine.turned ⟨w₁, turns⟩) := by
          have hfs : w₁.fs = w.fs := h₁.fs_eq
          refine ⟨h₁.kernel_eq, ?_, ?_, hsteps.avoids⟩
          · rw [turned, World.afterTurn, World.afterTurn, hfs]
            exact fun p hp => hp
          · rw [turned, World.afterTurn, World.afterTurn, hfs]
            exact fun file _ => rfl
        refine wp_bind_of
          (checkSignatureShared_wp request caller hengine hverifier hguarded hquiet₁) ?_
        intro r s₂ hpost
        obtain ⟨hquiet₂, hchecked⟩ := hpost
        cases r with
        | error result => exact stagedVerified_of_isQuiet hquiet₂
        | ok driver =>
            obtain ⟨rfl, htracker₂, hguarded₂, hbacked⟩ := hchecked driver rfl
            have hnew : s₂.state.tracker = .new :=
              htracker₂.trans (h₁.tracker_eq.trans htracker)
            have hloadable : isLoaded (engine.turned s₂).state driver.id.name = true →
                CanBeLoaded driver w := by
              intro hloaded
              have hkernel : (engine.turned s₂).state.kernel = w.kernel := hguarded₂.kernel
              have hsame : isLoaded { w with fs := (engine.turned s₂).state.fs } driver.id.name =
                  isLoaded (engine.turned s₂).state driver.id.name := by
                apply isLoaded_congr
                · exact hkernel.symm
                · rfl
              exact ⟨(engine.turned s₂).state.fs, hsame.trans hloaded⟩
            exact transactShared_verified hguarded₂ hquiet₂ hnew hbacked
              (fun htype hloaded => hsteps.firmware htype (hloadable hloaded))
              fun htype hloaded => hsteps.overlay htype (hloadable hloaded)
  exact hrun

end DriverExecutionEngine

/-- Whatever a new engine has done before: an installation that is not disturbed loads and
copies no staged bytes but those that it has verified. -/
theorem verified_bytes_handed_on (engine : DriverExecutionEngine)
    (inventory : DriverInventory) (sequence : UInt64) (kernel : Kernel)
    (moduleDirs : ModuleDirs) (fs : FileSystem) (inputs : List Input) (env : Env)
    (request : InstallRequest) (caller : String) (hardwareDevices : List HardwareDevice)
    (turns : List (List StoreStep)) (hengine : engine.allowUnsigned = false)
    (hverifier : engine.signatureVerifier.allowUnsigned = false)
    (h : ∀ d, (final engine.next (World.boot inventory sequence kernel moduleDirs fs)
        inputs).inventory.findDriver request.driverName request.provider = some d →
      engine.Undisturbed env d
        (final engine.next (World.boot inventory sequence kernel moduleDirs fs) inputs) turns) :
    StagedVerified engine.signatureVerifier env
      (engine.sharedTrace env request caller hardwareDevices
        (final engine.next (World.boot inventory sequence kernel moduleDirs fs) inputs)
        turns) := by
  have htracker : (final engine.next (World.boot inventory sequence kernel moduleDirs fs)
      inputs).tracker = .new :=
    final_invariant (I := fun w : World => w.tracker = .new) (C := fun _ _ => True)
      (fun w input hw _ => engine.next_tracker input hw) rfl fun _ _ => trivial
  exact DriverExecutionEngine.stagedVerified_of_undisturbed hengine hverifier htracker h

/-! ## A package that is replaced -/

/-- The package is staged again before the first look at it, and another package later. -/
theorem verified_bytes_e1000e :
    StagedVerified DriverExecutionEngine.strict.signatureVerifier .signsOne
      (DriverExecutionEngine.strict.sharedTrace .signsOne ⟨"e1000e", "linux", none, false⟩ ":1.5"
        [] e1000eStoreMachine [[.write "e1000e.ko" [1]], [.write "iwlwifi.ko" [2]]]) := by
  refine verified_bytes_handed_on .strict ⟨[e1000eDriver .available], [], 0⟩ 0 (.ofNames [])
    inTreeModules e1000eStore [] .signsOne ⟨"e1000e", "linux", none, false⟩ ":1.5" []
    [[.write "e1000e.ko" [1]], [.write "iwlwifi.ko" [2]]] rfl rfl ?_
  intro d hd
  have hdriver : some (e1000eDriver .available) = some d := hd
  cases hdriver
  have hresolve : ∀ file ∈ DriverExecutionEngine.packageFiles (e1000eDriver .available),
      (DriverExecutionEngine.strict.packageStore.stagedPath file).resolve ≠
        (DriverExecutionEngine.strict.packageStore.stagedPath "iwlwifi.ko").resolve := by
    decide
  constructor
  · intro steps hsteps step hstep
    rw [List.tail_cons, List.mem_singleton] at hsteps
    rw [hsteps, List.mem_singleton] at hstep
    rw [hstep]
    exact hresolve
  · intro htype
    cases htype
  · intro htype
    cases htype

/-- The package is replaced between its verification and the load: the kernel gets bytes that
nobody has signed. -/
theorem replaced_after_verification :
    ¬∀ (engine : DriverExecutionEngine) (inventory : DriverInventory) (sequence : UInt64)
      (kernel : Kernel) (moduleDirs : ModuleDirs) (fs : FileSystem) (inputs : List Input)
      (env : Env) (request : InstallRequest) (caller : String)
      (hardwareDevices : List HardwareDevice) (turns : List (List StoreStep)),
      engine.allowUnsigned = false → engine.signatureVerifier.allowUnsigned = false →
      StagedVerified engine.signatureVerifier env
        (engine.sharedTrace env request caller hardwareDevices
          (final engine.next (World.boot inventory sequence kernel moduleDirs fs) inputs)
          turns) := by
  intro h
  have hrun := h .strict ⟨[e1000eDriver .available], [], 0⟩ 0 (.ofNames []) inTreeModules
    e1000eStore [] .signsOne ⟨"e1000e", "linux", none, false⟩ ":1.5" []
    [[], [], [], [.write "e1000e.ko" [2]]] rfl rfl
  obtain ⟨key, _, signature, hgood, _⟩ := hrun
    [_, _, _, _, _, _, _, _, _] (.loadModule "e1000e" _ (some [2])) [_, _, _] _ _ rfl rfl
  exact Bool.false_ne_true (ed25519Verify_of_verify hgood)

end MissionOs.Driverd
