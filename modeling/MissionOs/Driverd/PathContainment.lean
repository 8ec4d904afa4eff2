import MissionOs.Driverd.EngineCalls
import MissionOs.Rust.Cut
import MissionOs.Rust.Inside

/-!
# Where the files of an operation lie

The name of a driver is joined to the package store and to `/lib/firmware` as it stands.  Only
the module loader checks the name before it reads a file; the signature check, and the copy and
the removal of firmware, do not, and a name may be absolute or have `..` in it.

`stays_iff` says for which names no operation leaves these two directories.
-/

namespace MissionOs.Driverd

open MissionOs.Rust MissionOs.Lib

/-- The directory of the installed firmware. -/
def firmwareDir : Path := Path.new "/lib/firmware"

/-- The files of a call lie where they belong: what is read as package or signature in the
store, and what is written or deleted as firmware in `/lib/firmware`. -/
def Event.Contained (store : Path) : Event → Prop
  | .readFile p => Path.Inside store p
  | .copyFile src dest _ => Path.Inside store src ∧ Path.Inside firmwareDir dest
  | .removeFile p => Path.Inside firmwareDir p
  | _ => True

/-! ## What is added to the trace -/

/-- Between two worlds only events that satisfy `Q` are added to the trace. -/
def Adds (Q : Event → Prop) (w w' : World) : Prop :=
  ∃ es, w'.trace = w.trace ++ es ∧ ∀ e ∈ es, Q e

section Adds

variable {Q : Event → Prop} {w w' : World}

theorem adds_of_trace_eq (h : w'.trace = w.trace) : Adds Q w w' :=
  ⟨[], by rw [h, List.append_nil], by simp⟩

instance : Std.Refl (Adds Q) := ⟨fun _ => adds_of_trace_eq rfl⟩

instance : IsTrans World (Adds Q) where
  trans := by
    intro w w' w'' ⟨es, htrace, hes⟩ ⟨es', htrace', hes'⟩
    refine ⟨es ++ es', by rw [htrace', htrace, List.append_assoc], ?_⟩
    intro e he
    rcases List.mem_append.mp he with he | he
    · exact hes e he
    · exact hes' e he

theorem frames_adds (Q : Event → Prop) : Frames (Adds Q) Q where
  event w e h := ⟨[e], rfl, by simpa using h⟩
  kernel _ _ := adds_of_trace_eq rfl
  fs _ _ := adds_of_trace_eq rfl

theorem adds_modify {f : World → World} (h : ∀ w, (f w).trace = w.trace) :
    Keeps (Adds Q) (modify f) :=
  ⟨fun w => adds_of_trace_eq (h w)⟩

/-- As `Adds`, and the inventory stays. -/
def Looks (Q : Event → Prop) (w w' : World) : Prop :=
  w'.inventory = w.inventory ∧ Adds Q w w'

instance : Std.Refl (Looks Q) := ⟨fun w => ⟨rfl, Std.Refl.refl w⟩⟩

instance : IsTrans World (Looks Q) :=
  ⟨fun _ _ _ h h' => ⟨h'.1.trans h.1, IsTrans.trans _ _ _ h.2 h'.2⟩⟩

theorem frames_looks (Q : Event → Prop) : Frames (Looks Q) Q where
  event w e h := ⟨rfl, (frames_adds Q).event w e h⟩
  kernel _ _ := ⟨rfl, adds_of_trace_eq rfl⟩
  fs _ _ := ⟨rfl, adds_of_trace_eq rfl⟩

end Adds

namespace DriverExecutionEngine

variable {engine : DriverExecutionEngine} {env : Env} {Q : Event → Prop}

/-- A rollback loads the package of some driver. -/
theorem adds_rollbackOperation (haudit : ∀ e : AuditEvent, Q (.audit e))
    (hload : ∀ (d : DriverEntry) path e, engine.FindsPackageAt d path →
      e.Loads d.id.name path → Q e) (correlationId caller : String) :
    Keeps (Adds Q) (engine.rollbackOperation env correlationId caller) := by
  have hremove : Keeps (Adds Q) (OperationTracker.removeState correlationId) :=
    adds_modify fun _ => rfl
  have hend : ∀ details, Keeps (Adds Q) (do
      audit env .driverInstall .warning "rollback_completed" caller details
      OperationTracker.removeState correlationId) := fun _ =>
    Keeps.bind ((frames_adds Q).audit (fun e _ => haudit e) ..) fun _ => hremove
  unfold rollbackOperation
  apply Keeps.bind Keeps.get fun w => ?_
  split
  · rename_i saved _
    refine Keeps.bind (adds_modify (f := (·.restore saved.driver)) fun _ => rfl) fun _ => ?_
    apply Keeps.ite
    · refine Keeps.bind Keeps.get fun w' => Keeps.bind ?_ fun _ => hend _
      exact Keeps.bind ((frames_adds Q).loadModule
        (fun e he => hload saved.driver _ e ⟨w', rfl⟩ he) _) fun _ => Keeps.pure _
    · exact hend _
  · exact (frames_adds Q).audit (fun e _ => haudit e) ..

/-- A commit writes an audit event. -/
theorem adds_commit (haudit : ∀ e : AuditEvent, Q (.audit e)) {change : World → World}
    (hchange : ∀ w, (change w).trace = w.trace) {category : EventCategory}
    {severity : EventSeverity} {action subject details : String} :
    Keeps (Adds Q) (do modify change; audit env category severity action subject details) :=
  Keeps.bind (adds_modify hchange) fun _ => (frames_adds Q).audit (fun e _ => haudit e) ..

/-- The end of the second stage, once the execution is done. -/
theorem adds_conclude (haudit : ∀ e : AuditEvent, Q (.audit e))
    (hload : ∀ (d : DriverEntry) path e, engine.FindsPackageAt d path →
      e.Loads d.id.name path → Q e) {commit : StateM World Unit}
    (hcommit : Keeps (Adds Q) commit) (corrId caller : String) (success : OperationResult)
    (driverName failure : String) (r : ServiceResult Unit) :
    Keeps (Adds Q) (match r with
      | .ok () => do
        commit
        OperationTracker.removeState corrId
        return success
      | .error e => do
        engine.rollbackOperation env corrId caller
        return OperationResult.failed driverName failure e.display) := by
  cases r with
  | ok u =>
      exact Keeps.bind hcommit fun _ => Keeps.bind (adds_modify fun _ => rfl) fun _ =>
        Keeps.pure _
  | error e =>
      exact Keeps.bind (adds_rollbackOperation haudit hload corrId caller) fun _ => Keeps.pure _

/-- The second stage makes the calls of its execution, and perhaps those of a rollback. -/
theorem adds_transact (haudit : ∀ e : AuditEvent, Q (.audit e))
    (hload : ∀ (d : DriverEntry) path e, engine.FindsPackageAt d path →
      e.Loads d.id.name path → Q e) {driver : DriverEntry} {caller : String}
    {execute : StateM World (ServiceResult Unit)} {commit : StateM World Unit}
    {success : OperationResult} {driverName failure : String}
    (hexecute : Keeps (Adds Q) execute) (hcommit : Keeps (Adds Q) commit) :
    Keeps (Adds Q)
      (engine.transact env driver caller execute commit success driverName failure) :=
  Keeps.bind ⟨fun _ => saveState_wp.mpr (adds_of_trace_eq rfl)⟩ fun corrId =>
    Keeps.bind hexecute fun r => adds_conclude haudit hload hcommit corrId caller success
      driverName failure r

/-- A call inspects the world, executes its operation for the driver with which its checks
pass, and loads the package of some driver in a rollback. -/
theorem perform_adds {op : Operation} {w : World}
    (hinspects : ∀ e, engine.Inspects op w.inventory e → Q e)
    (hexecutes : ∀ d e, engine.Admits env op w d → engine.Executes d e → Q e)
    (hload : ∀ (d : DriverEntry) path e, engine.FindsPackageAt d path →
      e.Loads d.id.name path → Q e) :
    wp (engine.perform env op) (fun _ w' => Adds Q w w') w := by
  have haudit : ∀ e : AuditEvent, Q (.audit e) := fun e => hinspects _ (.audit e)
  have hchecks : wp (engine.checks env op) (fun _ w' => Adds Q w w') w :=
    wp_mono ((frames_looks Q).checks hinspects) fun _ _ h => h.2
  rw [wp_def] at hchecks
  have hrefused : ∀ (res : OperationResult) w₁,
      (engine.checks env op).run w = (.error res, w₁) → Adds Q w w₁ := by
    intro res w₁ hrun
    rw [hrun] at hchecks
    exact hchecks
  have hthen : ∀ {second : DriverEntry → StateM World OperationResult},
      (∀ d, engine.Admits env op w d → Keeps (Adds Q) (second d)) → ∀ d w₁,
      (engine.checks env op).run w = (.ok d, w₁) →
      wp (second d) (fun _ w' => Adds Q w w') w₁ := by
    intro second hsecond d w₁ hrun
    rw [hrun] at hchecks
    have hd : engine.Admits env op w d := by rw [Admits, hrun]
    exact wp_mono ((hsecond d hd).wp w₁) fun _ _ h => IsTrans.trans _ _ _ hchecks h
  cases op with
  | install request caller devices =>
      refine engine.wp_stages env hrefused (hthen fun d hd => ?_)
      refine adds_transact haudit hload ?_ (adds_commit haudit ?_)
      · exact (frames_adds Q).executeInstall (hexecutes d · hd)
      · exact fun _ => rfl
  | remove request caller =>
      refine engine.wp_stages env hrefused (hthen fun d hd => ?_)
      refine adds_transact haudit hload ?_ (adds_commit haudit ?_)
      · exact (frames_adds Q).executeRemove (hexecutes d · hd) _
      · exact fun _ => rfl
  | update request caller =>
      refine engine.wp_stages env hrefused (hthen fun d hd => ?_)
      refine adds_transact haudit hload ?_ (adds_commit haudit ?_)
      · exact (frames_adds Q).executeUpdate (hexecutes d · hd)
      · exact fun _ => rfl

/-- An operation that begins with an invalid request ends with a refusal. -/
theorem validate_of_startOperation {env : Env} {category : EventCategory} {event details : String}
    {action : DriverAction} {denied invalid driverName caller : String}
    {validation : ServiceResult Unit} {next : StateM World (Except OperationResult DriverEntry)}
    {w : World} {d : DriverEntry}
    (h : ((engine.startOperation env category event details action denied invalid driverName caller
      validation next).run w).1 = .ok d) : validation = .ok () := by
  cases validation with
  | ok u => rfl
  | error e =>
      have hfails : wp (engine.startOperation env category event details action denied invalid
          driverName caller (.error e) next) (fun r _ => r ≠ .ok d) w := by
        unfold startOperation
        simp only [wp_bind]
        rw [wp_def, wp_def, wp_def, wp_ite]
        constructor
        · exact fun _ hr => nomatch hr
        · exact fun _ hr => nomatch hr
      exact absurd h hfails

/-- A call whose checks pass has a valid request. -/
theorem validate_of_admits {op : Operation} {w : World} {d : DriverEntry}
    (h : engine.Admits env op w d) : op.validate = .ok () := by
  cases op with
  | install request caller devices =>
      have hspec : wp (engine.installChecks env request caller devices)
          (fun r _ => r = .ok d → request.validate = .ok ()) w := by
        refine wp_bind_of (engine.beforeCheck_wp env request caller devices w) ?_
        intro r w₁ hpost
        obtain ⟨-, hr⟩ := hpost
        cases r with
        | error result => exact fun hd => nomatch hd
        | ok driver => exact fun _ => hr.1
      exact hspec h
  | remove request caller => exact validate_of_startOperation h
  | update request caller => exact validate_of_startOperation h

theorem found_of_admits {op : Operation} {w : World} {d : DriverEntry}
    (h : engine.Admits env op w d) : w.inventory.drivers.find? op.wants = some d := by
  have hspec := engine.checks_wp env op w
  rw [wp_def] at hspec
  rw [Admits] at h
  rw [h] at hspec
  exact hspec.2.2.1

end DriverExecutionEngine

/-! ## Names -/

theorem isWhitespace_toLower (c : Char) : isWhitespace c.toLower = isWhitespace c := by
  by_cases hupper : 'A'.val ≤ c.val ∧ c.val ≤ 'Z'.val
  · have hlo : 65 ≤ c.toNat := UInt32.le_iff_toNat_le.mp hupper.1
    have hhi : c.toNat ≤ 90 := UInt32.le_iff_toNat_le.mp hupper.2
    have hlower : c.toLower.toNat = c.toNat + 32 := by
      have hval : c.toLower.val = c.val + 32 := by
        unfold Char.toLower
        rw [dif_pos hupper]
        rfl
      have hnat : (c.val + 32).toNat = c.val.toNat + 32 := by
        rw [UInt32.toNat_add, Nat.mod_eq_of_lt]
        · rfl
        · show c.toNat + 32 < 2 ^ 32
          omega
      show c.toLower.val.toNat = c.val.toNat + 32
      rw [hval, hnat]
    simp only [isWhitespace, hlower]
    grind
  · have hsame : c.toLower = c := by
      unfold Char.toLower
      exact dif_neg hupper
    rw [hsame]

/-- Whether a name is blank does not depend on its case. -/
theorem trimIsEmpty_iff {s : String} :
    trimIsEmpty s = true ↔ ∀ c ∈ toAsciiLowercase s.toList, isWhitespace c = true := by
  rw [trimIsEmpty, List.isEmpty_iff, trim_eq_nil_iff, toAsciiLowercase, List.forall_mem_map]
  simp only [isWhitespace_toLower]

theorem not_blank_of_validate {field value : String} (h : requireNotBlank field value = .ok ()) :
    trimIsEmpty value = false := by
  unfold requireNotBlank at h
  split_ifs at h with hblank
  simpa using hblank

/-- The request of a valid call names no driver with a blank name. -/
theorem not_blank_of_wants {op : Operation} {d : DriverEntry} (hvalid : op.validate = .ok ())
    (hwants : op.wants d = true) : trimIsEmpty d.id.name = false := by
  have hcase : ∀ {name}, eqIgnoreAsciiCase d.id.name name = true → trimIsEmpty name = false →
      trimIsEmpty d.id.name = false := by
    intro name hsame hname
    rw [eqIgnoreAsciiCase_iff] at hsame
    rw [Bool.eq_false_iff, ne_eq, trimIsEmpty_iff, ← hsame, ← trimIsEmpty_iff] at hname
    simpa using hname
  cases op with
  | install request caller devices =>
      simp only [Operation.wants, DriverInventory.named, Bool.and_eq_true] at hwants
      refine hcase hwants.1 ?_
      cases hname : requireNotBlank "driver_name" request.driverName with
      | ok u => exact not_blank_of_validate hname
      | error e =>
          simp only [Operation.validate, InstallRequest.validate, hname] at hvalid
          cases hvalid
  | remove request caller => exact hcase hwants (not_blank_of_validate hvalid)
  | update request caller => exact hcase hwants (not_blank_of_validate hvalid)

/-- Something can be at a path: in `/sys/module` are the names of modules only. -/
def CanExist (p : Path) : Prop :=
  ∀ name, p.resolve = ["sys", "module", name] → isModuleName name = true

theorem canExist_of_pathExists {w : World} {p : Path} (h : w.pathExists p = true) :
    CanExist p := by
  intro name hname
  rw [World.pathExists, hname] at h
  exact Kernel.isModuleName_of_lists h

/-- The package of a driver of this name is looked for in the store: under the name with `.ko`,
and under the bare name if something can be there. -/
def PackageStays (store : PackageStore) (name : String) : Prop :=
  Path.Inside store.storePath (store.stagedPath (name ++ ".ko")) ∧
    (CanExist (store.stagedPath name) → Path.Inside store.storePath (store.stagedPath name))

/-- The condition on the name and the type of a driver. -/
def NameStays (store : PackageStore) (name : String) : DriverModuleType → Prop
  | .kernelModule => PackageStays store name
  | .firmware => PackageStays store name ∧ Path.Inside firmwareDir (firmwarePath name)
  | .userspace | .deviceTreeOverlay => True

theorem isSuffix_ko : Path.IsSuffix ".ko" := ⟨by decide, 'o', by decide, by decide⟩

theorem isSuffix_sig : Path.IsSuffix ".sig" := ⟨by decide, 'g', by decide, by decide⟩

/-- The name of a module is a file name. -/
theorem packageStays_of_moduleName (store : PackageStore) {name : String}
    (h : validateModuleName name = .ok ()) : PackageStays store name := by
  have hslash : '/' ∉ name.toList := not_mem_of_validateModuleName h (by decide)
  have hdot : '.' ∉ name.toList := not_mem_of_validateModuleName h (by decide)
  have hinside : Path.Inside store.storePath (store.stagedPath name) := by
    apply Path.inside_join_of_fileName _ hslash (validateModuleName_ok h).1
    · intro heq
      subst heq
      exact hdot (by decide)
    · intro heq
      subst heq
      exact hdot (by decide)
  exact ⟨Path.inside_join_suffix hinside isSuffix_ko, fun _ => hinside⟩

namespace DriverExecutionEngine

variable {engine : DriverExecutionEngine} {env : Env} {d : DriverEntry} {path : Path}

theorem inside_of_findsPackageAt (hstays : PackageStays engine.packageStore d.id.name)
    (hpath : engine.FindsPackageAt d path) : Path.Inside engine.packageStore.storePath path := by
  obtain ⟨w, rfl⟩ := hpath
  unfold findPackagePath
  dsimp only
  split_ifs with hko hbare
  · exact hstays.1
  · exact hstays.2 (canExist_of_pathExists hbare)
  · exact hstays.1

theorem contained_of_loads {e : Event} (hpath : engine.FindsPackageAt d path)
    (h : e.Loads d.id.name path) : e.Contained engine.packageStore.storePath := by
  cases h with
  | readFile hname =>
      exact inside_of_findsPackageAt (packageStays_of_moduleName _ hname) hpath
  | loadModule => trivial
  | initModule => trivial

/-- The calls of an execution stay where they belong if the name does. -/
theorem contained_of_executes (hstays : NameStays engine.packageStore d.id.name d.id.moduleType)
    {e : Event} (h : engine.Executes d e) : e.Contained engine.packageStore.storePath := by
  cases h with
  | load hpath h => exact contained_of_loads hpath h
  | deleteModule => trivial
  | createDirAll => trivial
  | copyFile htype hsrc =>
      rw [htype] at hstays
      exact ⟨inside_of_findsPackageAt hstays.1 hsrc, hstays.2⟩
  | removeFile htype =>
      rw [htype] at hstays
      exact hstays.2

theorem contained_of_verifies (hpath : Path.Inside engine.packageStore.storePath path) {e : Event}
    (h : e.Verifies path) : e.Contained engine.packageStore.storePath := by
  cases h with
  | readFile => exact hpath
  | verified => trivial
  | audit => trivial

/-- And so do the calls with which the signature is checked. -/
theorem contained_of_inspects {op : Operation} {inventory : DriverInventory}
    (hstays : op.validate = .ok () → ∀ d, inventory.drivers.find? op.wants = some d →
      NameStays engine.packageStore d.id.name d.id.moduleType)
    {e : Event} (h : engine.Inspects op inventory e) :
    e.Contained engine.packageStore.storePath := by
  have hpackage : ∀ {d}, op.validate = .ok () → inventory.drivers.find? op.wants = some d →
      d.id.moduleType = .kernelModule ∨ d.id.moduleType = .firmware →
      PackageStays engine.packageStore d.id.name := by
    intro d hvalid hfound htype
    have hname := hstays hvalid d hfound
    rcases htype with htype | htype
    · rw [htype] at hname
      exact hname
    · rw [htype] at hname
      exact hname.1
  cases h with
  | audit => trivial
  | decides h => cases h <;> trivial
  | readProcModules => trivial
  | signature hop hvalid hfound htype =>
      have hko := (hpackage hvalid hfound htype).1
      exact (Path.inside_join_suffix_iff isSuffix_sig isSuffix_ko).mpr hko
  | verifies hop hvalid hfound htype hpath h =>
      exact contained_of_verifies
        (inside_of_findsPackageAt (hpackage hvalid hfound htype) hpath) h

end DriverExecutionEngine

/-- No call about a driver of this name and type, on any engine with this store, in any world
and with any outcome, touches a file outside. -/
def Stays (store : PackageStore) (name : String) (moduleType : DriverModuleType) : Prop :=
  ∀ (engine : DriverExecutionEngine) (env : Env) (op : Operation) (w : World) (d : DriverEntry),
    engine.packageStore = store → w.inventory.drivers.find? op.wants = some d →
    d.id.name = name → d.id.moduleType = moduleType →
    ∀ e ∈ ((engine.perform env op).run w.fresh).2.trace, e.Contained store.storePath

theorem DriverExecutionEngine.stays_of_nameStays {store : PackageStore} {name : String}
    {moduleType : DriverModuleType}
    (h : trimIsEmpty name = true ∨ NameStays store name moduleType) :
    Stays store name moduleType := by
  intro engine env op w d heq hfound hsame hsame
  subst heq
  subst hsame
  subst hsame
  have hname : op.validate = .ok () → ∀ d', w.inventory.drivers.find? op.wants = some d' →
      NameStays engine.packageStore d'.id.name d'.id.moduleType := by
    intro hvalid d' hfound'
    cases hfound.symm.trans hfound'
    have hnot := not_blank_of_wants hvalid (List.find?_some hfound)
    exact h.resolve_left (by rw [hnot]; exact Bool.false_ne_true)
  have hadds : wp (engine.perform env op)
      (fun _ w' => Adds (Event.Contained engine.packageStore.storePath) w.fresh w') w.fresh := by
    apply perform_adds
    · intro e he
      exact contained_of_inspects hname he
    · intro d' e hadmits he
      have hfound' := found_of_admits hadmits
      exact contained_of_executes (hname (validate_of_admits hadmits) d' hfound') he
    · intro d' path e hpath he
      exact contained_of_loads hpath he
  obtain ⟨es, htrace, hes⟩ := hadds
  intro e he
  rw [htrace] at he
  exact hes e he

/-! ## Calls that leave the directories -/

/-- What is in the trace stays there. -/
abbrev Grows : World → World → Prop := Adds fun _ => True

theorem Adds.mem {Q : Event → Prop} {w w' : World} (h : Adds Q w w') {e : Event}
    (he : e ∈ w.trace) : e ∈ w'.trace := by
  obtain ⟨es, htrace, -⟩ := h
  rw [htrace]
  exact List.mem_append_left es he

theorem frames_grows : Frames Grows fun _ => True := frames_adds _

/-- A package is read if there is a signature to verify. -/
theorem verifyPackage_touches (env : Env) (verifier : SignatureVerifier) (path : Path)
    (signature : Bytes) (w : World) :
    wp (verifyPackage env verifier path signature none)
      (fun _ w' => Grows w w' ∧ (signature ≠ [] → .readFile path ∈ w'.trace)) w := by
  have hgrows : Keeps Grows (verifyPackage env verifier path signature none) :=
    frames_grows.verifyPackage (fun _ _ => trivial) ..
  refine wp_and (hgrows.wp w) ?_
  by_cases hempty : signature = []
  · exact wp_mono (hgrows.wp w) fun _ _ _ hne => absurd hempty hne
  · have hconclude : ∀ r, Keeps Grows (concludeVerification env r) := fun r =>
      Keeps.bind (frames_grows.audit (fun _ _ => trivial) ..) fun _ => Keeps.pure _
    unfold verifyPackage
    rw [if_neg (by simpa using hempty), wp_bind, wp_get]
    refine wp_bind_of (P := fun _ w' => .readFile path ∈ w'.trace) ?_ ?_
    · show Event.readFile path ∈ w.trace ++ [.readFile path]
      exact List.mem_append_right _ List.mem_cons_self
    · intro r w₁ hread
      suffices hrest : Keeps Grows _ from
        wp_mono (hrest.wp w₁) fun _ _ h _ => h.mem hread
      cases r with
      | error e => exact hconclude _
      | ok packageData =>
          dsimp only
          split
          · exact Keeps.bind (frames_grows.emit trivial) fun _ => hconclude _
          · split <;> exact hconclude _

namespace DriverExecutionEngine

variable {engine : DriverExecutionEngine} {d : DriverEntry}

/-- What the check of a signature reads, on a machine without faults. -/
theorem checkSignature_touches (hunsigned : engine.allowUnsigned = true)
    (htype : d.id.moduleType = .kernelModule ∨ d.id.moduleType = .firmware)
    (request : InstallRequest) (caller : String) (w : World) :
    wp (engine.checkSignature .smooth request caller d)
      (fun r w' => r = .ok d ∧ .readFile (engine.signaturePath d) ∈ w'.trace ∧
        ((w.fs.get? (engine.signaturePath d)).getD [] ≠ [] →
          .readFile (engine.findPackagePath w d) ∈ w'.trace)) w := by
  have hread : ∀ w₀ : World, wp (engine.readPackageSignature .smooth d)
      (fun signature w' => w' = w₀.record (.readFile (engine.signaturePath d)) ∧
        signature = (w₀.fs.get? (engine.signaturePath d)).getD []) w₀ := by
    intro w₀
    refine ⟨rfl, ?_⟩
    show (readOutcome Env.smooth none w₀.fs (engine.signaturePath d)).toOption.getD [] = _
    unfold readOutcome
    cases w₀.fs.get? (engine.signaturePath d) <;> rfl
  unfold checkSignature
  rw [if_pos (by simpa using htype), wp_bind, wp_get]
  refine wp_bind_of (hread w) ?_
  intro _ _ hpost
  obtain ⟨rfl, rfl⟩ := hpost
  refine wp_bind_of (verifyPackage_touches ..) ?_
  intro r w₂ ⟨hgrows, hverify⟩
  rw [hunsigned, Bool.not_true, Bool.and_false, if_neg Bool.false_ne_true, wp_pure]
  refine ⟨rfl, hgrows.mem ?_, hverify⟩
  exact List.mem_append_right _ List.mem_cons_self

/-- The request of an installation that no check stops. -/
def forcedRequest (name : String) : InstallRequest := ⟨name, "linux", none, true⟩

/-- An installation that no check stops reads the signature, reads the package if there is a
signature, and copies firmware. -/
theorem installChecks_touches (hauth : engine.authorizer.allowUnauthorized = true)
    (hunsigned : engine.allowUnsigned = true)
    (htype : d.id.moduleType = .kernelModule ∨ d.id.moduleType = .firmware)
    (hname : trimIsEmpty d.id.name = false) {w : World}
    (hfound : w.inventory.findDriver d.id.name "linux" = some d) :
    wp (engine.installChecks .smooth (forcedRequest d.id.name) "" [])
      (fun r w' => r = .ok d ∧ .readFile (engine.signaturePath d) ∈ w'.trace ∧
        ((w.fs.get? (engine.signaturePath d)).getD [] ≠ [] →
          .readFile (engine.findPackagePath w d) ∈ w'.trace)) w := by
  have hvalid : (forcedRequest d.id.name).validate = .ok () := by
    have hprovider : trimIsEmpty "linux" = false := by decide
    simp only [forcedRequest, InstallRequest.validate, requireNotBlank, hname, hprovider]
    rfl
  have hsequence : Keeps Quiet nextSequence := Logs.nextSequence
  unfold installChecks beforeCheck startOperation
  rw [wp_bind]
  refine hsequence.wp_bind fun _ w₁ h₁ => ?_
  refine (quiet_audit ..).wp_bind fun _ w₂ h₂ => ?_
  refine wp_bind_of (engine.authorizer.authorize_wp .smooth .installDriver "" w₂) ?_
  intro auth w₃ hpost
  obtain ⟨h₃, hgranted⟩ := hpost
  have hpass : auth.isAuthorized = true := by
    rw [hgranted, Authorizer.grants, hauth]
    rfl
  have hquiet : Quiet w w₃ := (h₁.trans h₂).trans h₃.quiet
  rw [hpass, Bool.not_true, if_neg Bool.false_ne_true, hvalid]
  dsimp only
  rw [wp_bind, wp_get]
  have hfound' : w₃.inventory.findDriver (forcedRequest d.id.name).driverName
      (forcedRequest d.id.name).provider = some d := by
    rw [hquiet.inventory_eq]
    exact hfound
  rw [hfound']
  dsimp only
  refine (quiet_getLoadedModules _).wp_bind fun modules w₄ h₄ => ?_
  have hquiet' : Quiet w w₄ := hquiet.trans h₄
  rw [show (forcedRequest d.id.name).force = true from rfl, Bool.not_true, Bool.and_false,
    if_neg Bool.false_ne_true]
  have htouches := checkSignature_touches hunsigned htype (forcedRequest d.id.name) "" w₄
  rw [hquiet'.fs_eq, findPackagePath_congr engine d hquiet'.kernel_eq hquiet'.fs_eq] at htouches
  exact htouches

/-- What the execution of a second stage leaves in the trace is there at its end. -/
theorem transact_grows {env : Env} {R : World → Prop}
    (hR : ∀ w w', Grows w w' → R w → R w') {driver : DriverEntry} {caller : String}
    {execute : StateM World (ServiceResult Unit)} {commit : StateM World Unit}
    {success : OperationResult} {driverName failure : String} {w : World}
    (hexecute : wp execute (fun _ w' => R w') (w.saving driver))
    (hcommit : Keeps Grows commit) :
    wp (engine.transact env driver caller execute commit success driverName failure)
      (fun _ w' => R w') w := by
  unfold transact
  rw [wp_bind, saveState_wp]
  refine wp_bind_of hexecute fun r w₁ h₁ => ?_
  suffices hend : Keeps Grows _ from
    wp_mono (hend.wp w₁) fun _ w' hgrows => hR w₁ w' hgrows h₁
  exact adds_conclude (fun _ => trivial) (fun _ _ _ _ _ => trivial) hcommit ..

/-- Firmware is copied from its package. -/
theorem executeInstall_touches {env : Env} (htype : d.id.moduleType = .firmware) (w : World) :
    wp (engine.executeInstall env d)
      (fun _ w' => ∃ staged, .copyFile (engine.findPackagePath w d) (firmwarePath d.id.name)
        staged ∈ w'.trace) w := by
  unfold executeInstall
  rw [wp_bind, wp_get, htype]
  dsimp only
  refine (frames_grows.createParent fun _ _ => trivial).wp_bind fun _ w₁ _ => ?_
  rw [wp_bind, copyFile_wp]
  generalize (copyOutcome env w₁.fs _ _).1 = r
  cases r <;> exact ⟨_, List.mem_append_right _ List.mem_cons_self⟩

theorem installDriver_touches (engine : DriverExecutionEngine)
    (hauth : engine.authorizer.allowUnauthorized = true)
    (hunsigned : engine.allowUnsigned = true)
    (htype : d.id.moduleType = .kernelModule ∨ d.id.moduleType = .firmware)
    (hname : trimIsEmpty d.id.name = false) {w : World}
    (hfound : w.inventory.findDriver d.id.name "linux" = some d) :
    wp (engine.installDriver .smooth (forcedRequest d.id.name) "" [])
      (fun _ w' => .readFile (engine.signaturePath d) ∈ w'.trace ∧
        ((w.fs.get? (engine.signaturePath d)).getD [] ≠ [] →
          .readFile (engine.findPackagePath w d) ∈ w'.trace) ∧
        (d.id.moduleType = .firmware → ∃ staged, .copyFile (engine.findPackagePath w d)
          (firmwarePath d.id.name) staged ∈ w'.trace)) w := by
  refine wp_bind_of (wp_and (installChecks_touches hauth hunsigned htype hname hfound)
    (engine.installChecks_wp .smooth (forcedRequest d.id.name) "" [] w)) ?_
  intro _ w₁ hpost
  obtain ⟨⟨rfl, hsignature, hpackage⟩, hquiet, -⟩ := hpost
  have hexecute : Keeps Grows (engine.executeInstall .smooth d) :=
    frames_grows.executeInstall fun _ _ => trivial
  have hcopy : wp (engine.executeInstall .smooth d)
      (fun _ w' => d.id.moduleType = .firmware → ∃ staged, .copyFile
        (engine.findPackagePath w d) (firmwarePath d.id.name) staged ∈ w'.trace)
      (w₁.saving d) := by
    intro hfirmware
    have hpath : engine.findPackagePath (w₁.saving d) d = engine.findPackagePath w d :=
      findPackagePath_congr engine d hquiet.kernel_eq hquiet.fs_eq
    rw [← hpath]
    exact executeInstall_touches hfirmware (w₁.saving d)
  refine transact_grows ?_ (wp_mono (wp_and (hexecute.wp (w₁.saving d)) hcopy) ?_)
    (adds_commit (fun _ => trivial) ?_)
  · intro w₂ w₃ hgrows hpost
    obtain ⟨hsignature, hpackage, hcopied⟩ := hpost
    refine ⟨hgrows.mem hsignature, fun hne => hgrows.mem (hpackage hne), fun hfirmware => ?_⟩
    obtain ⟨staged, hmem⟩ := hcopied hfirmware
    exact ⟨staged, hgrows.mem hmem⟩
  · intro r w₂ hpost
    obtain ⟨hgrows, hcopied⟩ := hpost
    exact ⟨hgrows.mem hsignature, fun hne => hgrows.mem (hpackage hne), hcopied⟩
  · exact fun _ => rfl

end DriverExecutionEngine

/-- The engine of a store that neither refuses a caller nor insists on a signature. -/
def DriverExecutionEngine.lenient (store : PackageStore) : DriverExecutionEngine :=
  { DriverExecutionEngine.strict with
    authorizer := ⟨true, none⟩, packageStore := store, allowUnsigned := true }

/-- A driver of a name and a type. -/
def driverCalled (name : String) (moduleType : DriverModuleType) : DriverEntry :=
  { e1000eDriver .available with
    id := { (e1000eDriver .available).id with name := name, moduleType := moduleType } }

/-- A machine whose inventory is the driver. -/
def World.withDriver (driver : DriverEntry) (kernel : Kernel) (fs : FileSystem) : World :=
  .boot ⟨[driver], [], 0⟩ 0 kernel inTreeModules fs

section Leaves

variable {store : PackageStore} {name : String} {moduleType : DriverModuleType}

/-- What stays in the directories when the driver is installed. -/
theorem contained_of_stays (h : Stays store name moduleType) (hname : trimIsEmpty name = false)
    (htype : moduleType = .kernelModule ∨ moduleType = .firmware) (kernel : Kernel)
    (fs : FileSystem) :
    Path.Inside store.storePath (store.stagedPath (name ++ ".sig")) ∧
      ((fs.get? (store.stagedPath (name ++ ".sig"))).getD [] ≠ [] →
        Path.Inside store.storePath ((DriverExecutionEngine.lenient store).findPackagePath
          (.withDriver (driverCalled name moduleType) kernel fs)
          (driverCalled name moduleType))) ∧
      (moduleType = .firmware → Path.Inside firmwareDir (firmwarePath name)) := by
  have hnamed : DriverInventory.named name "linux" (driverCalled name moduleType) = true := by
    show (eqIgnoreAsciiCase name name && eqIgnoreAsciiCase "linux" "linux") = true
    rw [eqIgnoreAsciiCase_refl, eqIgnoreAsciiCase_refl, Bool.and_self]
  have hfound : (World.withDriver (driverCalled name moduleType) kernel fs).inventory.findDriver
      name "linux" = some (driverCalled name moduleType) := List.find?_cons_of_pos hnamed
  have htouches := DriverExecutionEngine.installDriver_touches (.lenient store)
    (d := driverCalled name moduleType) rfl rfl htype hname hfound
  have hstays := h (.lenient store) .smooth
    (.install (DriverExecutionEngine.forcedRequest name) "" []) _ _ rfl hfound rfl rfl
  rw [wp_def] at htouches
  obtain ⟨hsignature, hpackage, hcopy⟩ := htouches
  refine ⟨hstays _ hsignature, fun hne => hstays _ (hpackage hne), fun hfirmware => ?_⟩
  obtain ⟨staged, hmem⟩ := hcopy hfirmware
  exact (hstays _ hmem).2

/-- There is a machine on which something is at one path and nothing at another. -/
theorem exists_pathExists {p q f : Path} (hcan : CanExist p)
    (hinitial : ¬ q.resolve <+: p.resolve) (hfile : q.resolve ≠ f.resolve) :
    ∃ kernel fs, (fs.get? f).getD [] ≠ [] ∧ ∀ d,
      (World.withDriver d kernel fs).pathExists p = true ∧
        (World.withDriver d kernel fs).pathExists q = false := by
  let fs := (FileSystem.empty.makeDirs p).write f [0]
  have hfs : (fs.get? f).getD [] ≠ [] := by
    rw [FileSystem.get?_write_self]
    exact List.cons_ne_nil _ _
  have hp : fs.pathExists p = true := by
    simp [fs, FileSystem.pathExists, FileSystem.write, FileSystem.isDir, FileSystem.makeDirs]
  have hq : fs.pathExists q = false := by
    have hdir : q.resolve ∉ (fs.dirs : List (List String)) := by
      intro hmem
      rcases List.mem_append.mp hmem with hmem | hmem
      · exact hinitial ((List.mem_inits _ _).mp hmem)
      · rw [List.mem_singleton.mp hmem] at hinitial
        exact hinitial (List.nil_prefix)
    have hget : fs.get? q = none := by
      rw [FileSystem.get?_write_of_ne _ _ hfile]
      rfl
    rw [FileSystem.pathExists, hget, FileSystem.isDir, decide_eq_false hdir]
    rfl
  by_cases hmodule : ∃ n, p.resolve = ["sys", "module", n]
  · obtain ⟨n, hn⟩ := hmodule
    refine ⟨.ofNames [⟨n, hcan n hn⟩], fs, hfs, fun d => ⟨?_, ?_⟩⟩
    · rw [World.pathExists, hn]
      simp [World.withDriver, World.boot, Kernel.ofNames, Kernel.lists]
    · rw [World.pathExists]
      split
      · rename_i n' hn'
        have hne : n ≠ n' := by
          intro heq
          subst heq
          exact hinitial (by rw [hn, hn'])
        simpa [World.withDriver, World.boot, Kernel.ofNames, Kernel.lists] using hne
      · exact hq
  · refine ⟨.ofNames [], fs, hfs, fun d => ⟨?_, ?_⟩⟩
    · rw [World.pathExists]
      split
      · rename_i n hn
        exact absurd ⟨n, hn⟩ hmodule
      · exact hp
    · rw [World.pathExists]
      split
      · rfl
      · exact hq

/-- Where the packages of a driver are looked for is in the store if every call stays. -/
theorem packageStays_of_stays (h : Stays store name moduleType)
    (hname : trimIsEmpty name = false)
    (htype : moduleType = .kernelModule ∨ moduleType = .firmware) : PackageStays store name := by
  have hsignature := (contained_of_stays h hname htype (.ofNames []) .empty).1
  refine ⟨(Path.inside_join_suffix_iff isSuffix_ko isSuffix_sig).mpr hsignature, fun hcan => ?_⟩
  have hfile : (store.stagedPath (name ++ ".ko")).resolve ≠
      (store.stagedPath (name ++ ".sig")).resolve := by
    intro heq
    have hsame := Path.resolve_join_suffix_inj isSuffix_ko isSuffix_sig heq
    exact absurd hsame (by decide)
  obtain ⟨kernel, fs, hne, hexists⟩ := exists_pathExists
    (q := store.stagedPath (name ++ ".ko")) hcan (Path.not_prefix_join_suffix isSuffix_ko) hfile
  have hpackage := (contained_of_stays h hname htype kernel fs).2.1 hne
  obtain ⟨hbare, hko⟩ := hexists (driverCalled name moduleType)
  have hpath : (DriverExecutionEngine.lenient store).findPackagePath
      (.withDriver (driverCalled name moduleType) kernel fs) (driverCalled name moduleType) =
        store.stagedPath name := by
    show (if World.pathExists _ (store.stagedPath (name ++ ".ko")) then _ else
      if World.pathExists _ (store.stagedPath name) then _ else _) = _
    rw [hko, hbare]
    rfl
  rwa [hpath] at hpackage

end Leaves

/-- The calls about drivers of a name and a type never leave the package store and
`/lib/firmware` exactly if no request can name them, as the name is blank, or the name stays in
these directories. -/
theorem stays_iff (store : PackageStore) (name : String) (moduleType : DriverModuleType) :
    Stays store name moduleType ↔
      trimIsEmpty name = true ∨ NameStays store name moduleType := by
  constructor
  · intro h
    cases hname : trimIsEmpty name with
    | true => exact Or.inl rfl
    | false =>
        right
        cases moduleType with
        | kernelModule => exact packageStays_of_stays h hname (Or.inl rfl)
        | firmware =>
            refine ⟨packageStays_of_stays h hname (Or.inr rfl), ?_⟩
            exact (contained_of_stays h hname (Or.inr rfl) (.ofNames []) .empty).2.2 rfl
        | userspace => trivial
        | deviceTreeOverlay => trivial
  · exact DriverExecutionEngine.stays_of_nameStays

/-- An installation of the firmware `../../etc/shadow` reads a signature outside of the store
and overwrites a file in `/etc`. -/
theorem firmware_leaves_directory :
    ¬ Stays DriverExecutionEngine.strict.packageStore "../../etc/shadow" .firmware := by
  intro h
  have hinside := (contained_of_stays h (by decide) (Or.inr rfl) (.ofNames []) .empty).2.2 rfl
  revert hinside
  decide

end MissionOs.Driverd
