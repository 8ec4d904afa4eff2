import MissionOs.Driverd.Operations

/-!
# The calls of the engine

Which calls the parts of an operation make: to decide about a caller (`Decides`), to verify a
package (`Verifies`), and to execute an operation for a driver (`Executes`).

`Frames R P` says that a relation between worlds survives every call that satisfies `P` and
every change of the kernel and the files.  A part that makes only such calls keeps the
relation; each result about what an operation leaves alone is such a relation.
-/

namespace MissionOs.Driverd

open MissionOs.Rust MissionOs.Lib

/-! ## Calls -/

/-- A call with which the caller of an operation is judged. -/
inductive Event.Decides : Event → Prop
  | audit (e : AuditEvent) (h : e.category = .authorization) : Decides (.audit e)
  | polkitCheck (subject actionId : String) : Decides (.polkitCheck subject actionId)

/-- A call with which the package at a path is verified. -/
inductive Event.Verifies (path : Path) : Event → Prop
  | readFile : Verifies path (.readFile path)
  | verified (data : Bytes) (keyId : String) : Verifies path (.verified path data keyId)
  | audit (e : AuditEvent) (h : e.category = .driverVerification) : Verifies path (.audit e)

/-- A call with which the module file at a path is loaded.  The file is read only for the name
of a module. -/
inductive Event.Loads (name : String) (path : Path) : Event → Prop
  | loadModule (staged : Option Bytes) : Loads name path (.loadModule name path staged)
  | readFile (hname : validateModuleName name = .ok ()) : Loads name path (.readFile path)
  | initModule (hname : validateModuleName name = .ok ()) (image : Bytes) (params : String) :
      Loads name path (.initModule image params)

/-- The check of a call's request. -/
def Operation.validate : Operation → ServiceResult Unit
  | install request _ _ => request.validate
  | remove request _ => request.validate
  | update request _ => request.validate

namespace DriverExecutionEngine

variable (engine : DriverExecutionEngine)

/-- The package of a driver is found at a path. -/
def FindsPackageAt (driver : DriverEntry) (path : Path) : Prop :=
  ∃ w, engine.findPackagePath w driver = path

/-- The file at which the signature of its package is staged. -/
def signaturePath (driver : DriverEntry) : Path :=
  engine.packageStore.stagedPath (driver.id.name ++ ".sig")

/-- A call with which an operation is executed for a driver. -/
inductive Executes (driver : DriverEntry) : Event → Prop
  | load {path : Path} {e : Event} (hpath : engine.FindsPackageAt driver path)
      (h : e.Loads driver.id.name path) : Executes driver e
  | deleteModule (flags : Nat) : Executes driver (.deleteModule driver.id.name flags)
  | createDirAll (htype : driver.id.moduleType = .firmware) (parent : Path)
      (h : (firmwarePath driver.id.name).parent = some parent) :
      Executes driver (.createDirAll parent)
  | copyFile (htype : driver.id.moduleType = .firmware) {src : Path}
      (hsrc : engine.FindsPackageAt driver src) (staged : Option Bytes) :
      Executes driver (.copyFile src (firmwarePath driver.id.name) staged)
  | removeFile (htype : driver.id.moduleType = .firmware) :
      Executes driver (.removeFile (firmwarePath driver.id.name))

/-- A call with which the checks of an operation look at the world. -/
inductive Inspects (op : Operation) (inventory : DriverInventory) : Event → Prop
  | audit (e : AuditEvent) : Inspects op inventory (.audit e)
  | decides {e : Event} (h : e.Decides) : Inspects op inventory e
  | readProcModules : Inspects op inventory .readProcModules
  | signature {d : DriverEntry} (hop : op.action = .installDriver)
      (hvalid : op.validate = .ok ()) (hfound : inventory.drivers.find? op.wants = some d)
      (htype : d.id.moduleType = .kernelModule ∨ d.id.moduleType = .firmware) :
      Inspects op inventory (.readFile (engine.signaturePath d))
  | verifies {d : DriverEntry} {path : Path} {e : Event} (hop : op.action = .installDriver)
      (hvalid : op.validate = .ok ()) (hfound : inventory.drivers.find? op.wants = some d)
      (htype : d.id.moduleType = .kernelModule ∨ d.id.moduleType = .firmware)
      (hpath : engine.FindsPackageAt d path) (h : e.Verifies path) : Inspects op inventory e

end DriverExecutionEngine

/-! ## Relations that survive calls -/

/-- `R` survives every call that satisfies `P`, and every change of the kernel and the
files. -/
structure Frames (R : World → World → Prop) (P : Event → Prop) : Prop where
  event : ∀ w e, P e → R w (w.record e)
  kernel : ∀ w k, R w { w with kernel := k }
  fs : ∀ w fs, R w { w with fs := fs }

section Frames

variable {R : World → World → Prop} {P : Event → Prop}

theorem Frames.emit (hR : Frames R P) {e : Event} (h : P e) : Keeps R (emit e) :=
  ⟨fun w => hR.event w e h⟩

variable [Std.Refl R] [IsTrans World R] (hR : Frames R P) {env : Env}
include hR

theorem Frames.audit {category : EventCategory}
    (h : ∀ e : AuditEvent, e.category = category → P (.audit e)) (severity : EventSeverity)
    (action subject details : String) :
    Keeps R (audit env category severity action subject details) :=
  Keeps.bind Keeps.get fun _ => hR.emit (h _ rfl)

theorem Frames.readFile {p : Path} (h : P (.readFile p)) (fault : Option IoError) :
    Keeps R (readFile env fault p) :=
  Keeps.bind (hR.emit h) fun _ => Keeps.bind Keeps.get fun _ => Keeps.pure _

theorem Frames.checkAuthorizationSync (h : ∀ e : Event, e.Decides → P e)
    (polkit : PolKitAuthorizer) (action : DriverAction) (caller : String) :
    Keeps R (polkit.checkAuthorizationSync env action caller) := by
  have hdecide : ∀ r, Keeps R (PolKitAuthorizer.decide env action caller r) := fun r =>
    Keeps.bind (by cases r <;> exact hR.audit (fun e he => h _ (.audit e he)) ..)
      fun _ => Keeps.pure _
  unfold PolKitAuthorizer.checkAuthorizationSync
  apply Keeps.ite (hdecide _)
  apply Keeps.ite (hdecide _)
  apply Keeps.ite (hdecide _)
  apply Keeps.ite (hdecide _)
  apply Keeps.bind
  · exact Keeps.bind Keeps.get fun _ =>
      Keeps.bind (hR.emit (h _ (.polkitCheck _ _))) fun _ => Keeps.pure _
  · intro reply
    split <;> exact hdecide _

theorem Frames.authorize (h : ∀ e : Event, e.Decides → P e) (authorizer : Authorizer)
    (action : DriverAction) (subject : String) :
    Keeps R (authorizer.authorize env action subject) := by
  have hdecide : ∀ r, Keeps R (Authorizer.decide env action subject r) := fun r =>
    Keeps.bind (by cases r <;> exact hR.audit (fun e he => h _ (.audit e he)) ..)
      fun _ => Keeps.pure _
  unfold Authorizer.authorize
  apply Keeps.ite (hdecide _)
  apply Keeps.ite (hdecide _)
  cases authorizer.polkit with
  | none => exact hdecide _
  | some polkit => exact Keeps.bind (hR.checkAuthorizationSync h ..) fun r => hdecide r

theorem Frames.getLoadedModules (h : P .readProcModules) : Keeps R (getLoadedModules env) := by
  apply Keeps.bind
  · apply Keeps.bind (hR.emit h) fun _ => Keeps.bind Keeps.get fun _ => ?_
    cases env.procModulesFault <;> exact Keeps.pure _
  · exact fun _ => Keeps.pure _

theorem Frames.verifyPackage {path : Path} (h : ∀ e : Event, e.Verifies path → P e)
    (verifier : SignatureVerifier) (signatureBytes : Bytes) (signingKeyId : Option String) :
    Keeps R (verifyPackage env verifier path signatureBytes signingKeyId) := by
  have hconclude : ∀ r, Keeps R (concludeVerification env r) := fun r =>
    Keeps.bind (hR.audit (fun e he => h _ (.audit e he)) ..) fun _ => Keeps.pure _
  unfold Driverd.verifyPackage
  apply Keeps.ite (Keeps.ite (hconclude _) (hconclude _))
  apply Keeps.bind Keeps.get fun w => Keeps.bind (hR.readFile (h _ .readFile) _) fun r => ?_
  cases r with
  | error e => exact hconclude _
  | ok packageData =>
      dsimp only
      split
      · exact Keeps.bind (hR.emit (h _ (.verified _ _))) fun _ => hconclude _
      · split <;> exact hconclude _

theorem Frames.loadModule {name : String} {path : Path}
    (h : ∀ e : Event, e.Loads name path → P e) (params : List String) :
    Keeps R (loadModule env name path params) := by
  unfold Driverd.loadModule
  apply Keeps.bind Keeps.get fun w => Keeps.bind (hR.emit (h _ (.loadModule _))) fun _ => ?_
  split
  · exact Keeps.pure _
  · rename_i hname
    apply Keeps.bind (hR.readFile (h _ (.readFile hname)) _) fun r => ?_
    split
    · exact Keeps.pure _
    · apply Keeps.bind
      · apply Keeps.bind (hR.emit (h _ (.initModule hname _ _))) fun _ =>
          Keeps.bind Keeps.get fun w => ?_
        split
        · exact Keeps.pure _
        · exact Keeps.bind ⟨fun w => hR.kernel w _⟩ fun _ => Keeps.pure _
      · intro r
        split <;> exact Keeps.pure _

theorem Frames.unloadModule {name : String} (h : ∀ flags, P (.deleteModule name flags))
    (force : Bool) : Keeps R (unloadModule env name force) := by
  unfold Driverd.unloadModule
  split
  · exact Keeps.pure _
  · apply Keeps.ite (Keeps.pure _)
    apply Keeps.bind
    · apply Keeps.bind (hR.emit (h _)) fun _ => Keeps.bind Keeps.get fun w => ?_
      split
      · exact Keeps.pure _
      · exact Keeps.bind ⟨fun w => hR.kernel w _⟩ fun _ => Keeps.pure _
    · intro r
      split <;> exact Keeps.pure _

theorem Frames.createParent {dest : Path}
    (h : ∀ parent, dest.parent = some parent → P (.createDirAll parent)) :
    Keeps R (createParent env dest) := by
  unfold Driverd.createParent
  split
  · rename_i parent hparent
    apply Keeps.bind (Keeps.bind (hR.emit (h parent hparent)) fun _ => ?_) fun _ => Keeps.pure _
    split
    · exact Keeps.pure _
    · exact Keeps.bind ⟨fun w => hR.fs w _⟩ fun _ => Keeps.pure _
  · exact Keeps.pure _

theorem Frames.copyFile {src dest : Path} (h : ∀ staged, P (.copyFile src dest staged)) :
    Keeps R (copyFile env src dest) :=
  Keeps.bind Keeps.get fun _ => Keeps.bind (hR.emit (h _)) fun _ =>
    Keeps.bind ⟨fun w => hR.fs w _⟩ fun _ => Keeps.pure _

theorem Frames.removeFile {p : Path} (h : P (.removeFile p)) : Keeps R (removeFile env p) := by
  unfold Driverd.removeFile
  apply Keeps.bind (hR.emit h) fun _ => Keeps.bind Keeps.get fun w => ?_
  split
  · exact Keeps.pure _
  · exact Keeps.bind ⟨fun w => hR.fs w _⟩ fun _ => Keeps.pure _

/-! ## Executions -/

variable {engine : DriverExecutionEngine} {driver : DriverEntry}

theorem Frames.executeInstall (h : ∀ e, engine.Executes driver e → P e) :
    Keeps R (engine.executeInstall env driver) := by
  unfold DriverExecutionEngine.executeInstall
  apply Keeps.bind Keeps.get fun w => ?_
  have hpath : engine.FindsPackageAt driver (engine.findPackagePath w driver) := ⟨w, rfl⟩
  split
  · apply Keeps.ite (hR.loadModule (fun e he => h e (.load hpath he)) _)
    exact Keeps.ite (Keeps.pure _) (Keeps.pure _)
  · rename_i htype
    apply Keeps.bind (hR.createParent fun parent hp => h _ (.createDirAll htype parent hp))
      fun _ => ?_
    apply Keeps.bind (hR.copyFile fun staged => h _ (.copyFile htype hpath staged)) fun r => ?_
    split <;> exact Keeps.pure _
  · exact Keeps.pure _
  · exact Keeps.pure _

theorem Frames.executeRemove (h : ∀ e, engine.Executes driver e → P e) (force : Bool) :
    Keeps R (DriverExecutionEngine.executeRemove env driver force) := by
  unfold DriverExecutionEngine.executeRemove
  apply Keeps.bind Keeps.get fun w => ?_
  split
  · exact Keeps.ite (hR.unloadModule (fun flags => h _ (.deleteModule flags)) _) (Keeps.pure _)
  · rename_i htype
    apply Keeps.ite (Keeps.bind (hR.removeFile (h _ (.removeFile htype))) fun r => ?_)
      (Keeps.pure _)
    split <;> exact Keeps.pure _
  · exact Keeps.pure _
  · exact Keeps.pure _

theorem Frames.executeUpdate (h : ∀ e, engine.Executes driver e → P e) :
    Keeps R (engine.executeUpdate env driver) := by
  unfold DriverExecutionEngine.executeUpdate
  apply Keeps.bind Keeps.get fun w => ?_
  apply Keeps.ite (Keeps.bind (hR.unloadModule (fun flags => h _ (.deleteModule flags)) _)
    fun r => ?_) (hR.executeInstall h)
  split
  · exact Keeps.pure _
  · exact hR.executeInstall h

/-! ## Checks -/

theorem Frames.failOperation {α : Type} (h : ∀ e : AuditEvent, P (.audit e))
    (driverName message error caller : String) (category : EventCategory) :
    Keeps R (failOperation (α := α) env driverName message error caller category) :=
  Keeps.bind (hR.audit (fun e _ => h e) ..) fun _ => Keeps.pure _

theorem Frames.checkSignature (haudit : ∀ e : AuditEvent, P (.audit e))
    (h : driver.id.moduleType = .kernelModule ∨ driver.id.moduleType = .firmware →
      P (.readFile (engine.signaturePath driver)) ∧
        ∀ path, engine.FindsPackageAt driver path → ∀ e : Event, e.Verifies path → P e)
    (request : InstallRequest) (caller : String) :
    Keeps R (engine.checkSignature env request caller driver) := by
  unfold DriverExecutionEngine.checkSignature
  split
  · rename_i htype
    obtain ⟨hsignature, hverifies⟩ := h (by simpa using htype)
    apply Keeps.bind Keeps.get fun w => Keeps.bind ?_ fun signature => Keeps.bind ?_ fun r => ?_
    · exact Keeps.bind Keeps.get fun _ =>
        Keeps.bind (hR.readFile hsignature _) fun _ => Keeps.pure _
    · exact hR.verifyPackage (hverifies _ ⟨w, rfl⟩) ..
    · exact Keeps.ite (hR.failOperation haudit ..) (Keeps.pure _)
  · exact Keeps.pure _

theorem Frames.checkDowngrade (haudit : ∀ e : AuditEvent, P (.audit e))
    (request : UpdateRequest) (caller : String) :
    Keeps R (DriverExecutionEngine.checkDowngrade env request caller driver) := by
  unfold DriverExecutionEngine.checkDowngrade
  split
  · exact Keeps.pure _
  · split
    · exact hR.failOperation haudit ..
    · apply Keeps.ite
      · exact Keeps.bind (hR.audit (fun e _ => haudit e) ..) fun _ =>
          hR.failOperation haudit ..
      · exact Keeps.pure _

/-- The beginning of an operation draws one sequence number. -/
theorem Frames.startOperation {w : World} (haudit : ∀ e : AuditEvent, P (.audit e))
    (hdecides : ∀ e : Event, e.Decides → P e) {category : EventCategory}
    {event details : String} {action : DriverAction} {denied invalid driverName caller : String}
    {validation : ServiceResult Unit} {next : StateM World (Except OperationResult DriverEntry)}
    (hnext : ∀ w₁, validation = .ok () → R { w with sequence := w.sequence + 1 } w₁ →
      wp next (fun _ w' => R w₁ w') w₁) :
    wp (engine.startOperation env category event details action denied invalid driverName
        caller validation next)
      (fun _ w' => R { w with sequence := w.sequence + 1 } w') w := by
  unfold DriverExecutionEngine.startOperation
  refine wp_bind_of (p := nextSequence)
    (P := fun _ w' => w' = { w with sequence := w.sequence + 1 }) rfl ?_
  intro _ w₀ heq
  subst heq
  refine (hR.audit (fun e _ => haudit e) ..).wp_bind fun _ w₁ h₁ => ?_
  refine (hR.authorize hdecides ..).wp_bind fun auth w₂ h₂ => ?_
  have h := IsTrans.trans _ _ _ h₁ h₂
  refine wp_mono (Q := fun _ w' => R w₂ w') ?_ fun _ w' h' => IsTrans.trans _ _ _ h h'
  rw [wp_ite]
  constructor
  · intro _
    exact (hR.failOperation haudit ..).wp w₂
  · intro _
    cases validation with
    | error e => exact (hR.failOperation haudit ..).wp w₂
    | ok u => exact hnext w₂ rfl h

theorem Frames.beforeCheck {w : World} (haudit : ∀ e : AuditEvent, P (.audit e))
    (hdecides : ∀ e : Event, e.Decides → P e) (hmodules : P .readProcModules)
    (request : InstallRequest) (caller : String) (hardwareDevices : List HardwareDevice) :
    wp (engine.beforeCheck env request caller hardwareDevices)
      (fun _ w' => R { w with sequence := w.sequence + 1 } w') w := by
  refine hR.startOperation haudit hdecides fun w₁ _ _ => ?_
  rw [wp_bind, wp_get]
  cases w₁.inventory.findDriver request.driverName request.provider with
  | none => exact (hR.failOperation haudit ..).wp w₁
  | some driver =>
      exact (Keeps.bind (hR.getLoadedModules hmodules) fun _ =>
        Keeps.ite (hR.failOperation haudit ..) (Keeps.pure _)).wp w₁

/-- The checks of an operation draw one sequence number and look at the world. -/
theorem Frames.checks {op : Operation} {w : World}
    (h : ∀ e, engine.Inspects op w.inventory e → P e) :
    wp (engine.checks env op) (fun _ w' => R { w with sequence := w.sequence + 1 } w') w := by
  have haudit : ∀ e : AuditEvent, P (.audit e) := fun e => h _ (.audit e)
  have hdecides : ∀ e : Event, e.Decides → P e := fun e he => h _ (.decides he)
  cases op with
  | install request caller devices =>
      refine wp_bind_of (wp_and (hR.beforeCheck haudit hdecides (h _ .readProcModules) request
        caller devices) (engine.beforeCheck_wp env request caller devices w)) ?_
      intro r w₁ hpost
      obtain ⟨h₁, -, hr⟩ := hpost
      cases r with
      | error result => exact h₁
      | ok driver =>
          obtain ⟨hvalid, -, hfind, -⟩ := hr
          refine wp_mono ((hR.checkSignature haudit ?_ request caller).wp w₁) fun _ w' h' =>
            IsTrans.trans _ _ _ h₁ h'
          intro htype
          exact ⟨h _ (.signature rfl hvalid hfind htype),
            fun path hpath e he => h e (.verifies rfl hvalid hfind htype hpath he)⟩
  | remove request caller =>
      refine hR.startOperation haudit hdecides fun w₁ _ h₁ => ?_
      rw [wp_bind, wp_get]
      cases w₁.inventory.findNamed request.driverName with
      | none => exact (hR.failOperation haudit ..).wp w₁
      | some driver =>
          exact (Keeps.bind (hR.getLoadedModules (h _ .readProcModules)) fun _ =>
            Keeps.ite (hR.failOperation haudit ..) (Keeps.pure _)).wp w₁
  | update request caller =>
      refine hR.startOperation haudit hdecides fun w₁ _ h₁ => ?_
      rw [wp_bind, wp_get]
      cases w₁.inventory.findNamed request.driverName with
      | none => exact (hR.failOperation haudit ..).wp w₁
      | some driver => exact (hR.checkDowngrade haudit request caller).wp w₁

end Frames

end MissionOs.Driverd
