import MissionOs.Driverd.AccessControl
import MissionOs.Driverd.InventoryFrame

/-!
# Operations and rescans

The inventory has two kinds of writers: the operations of the engine, and the two
callers of `scan_system`.  All of them hold the lock of the scanner from their first
look at the inventory to their last write, so what the daemon does to it, in any
interleaving of its tasks, is a sequence of turns.

A rescan does not look at the inventory that it replaces.  What an operation recorded
survives it only where `builtinDrivers` says the same: the driver is one of the kernel
tree, was updated last, and is listed in `/proc/modules` (`operations_survive_iff`).
-/

namespace MissionOs.Driverd

open MissionOs.Rust MissionOs.Lib

/-! ## Turns -/

/-- What holds the lock of the scanner next, or what changes outside of the daemon. -/
inductive Turn where
  | operation (env : Env) (op : Operation)
  | scanHardware (env : Env)
  | pollHardware (env : Env)
  | outside (kernel : Kernel) (moduleDirs : ModuleDirs) (fs : FileSystem)

/-- The outside world of a turn that rescans. -/
def Turn.rescan : Turn → Option Env
  | .scanHardware env => some env
  | .pollHardware env => some env
  | .operation _ _ => none
  | .outside _ _ _ => none

/-- The world after a turn. -/
def AppState.turn (state : AppState) : Turn → World → World
  | .operation env op, w => state.executionEngine.next (.call env op) w
  | .scanHardware env, w => ((scanSystem env).run w.fresh).2
  | .pollHardware env, w =>
    ((pollHardware env state.evaluateCompatibility).run w.fresh).2
  | .outside kernel moduleDirs fs, w => { w.fresh with kernel, moduleDirs, fs }

/-! ## Messages -/

/-- What the handler of a message does to the inventory: nothing, or what one turn does,
with reports around it. -/
inductive AppState.TakesTurn (state : AppState) (env : Env) (w w' : World) : Prop
  | none (hinv : w'.inventory = w.inventory)
  | scan (w₁ : World) (hreports : Reports w w₁) (hinv : w'.inventory = scannedInventory env w₁)
  | operation (op : Operation) (r : OperationResult) (w₁ w₂ : World) (hreports : Reports w w₁)
      (hdone : state.executionEngine.Performed env op w₁ r w₂)
      (hinv : w'.inventory = w₂.inventory)

/-- The inventory is the same before and after. -/
def SameInventory (w w' : World) : Prop := w'.inventory = w.inventory

instance : Std.Refl SameInventory := ⟨fun _ => rfl⟩

instance : IsTrans World SameInventory := ⟨fun _ _ _ h h' => h'.trans h⟩

theorem sameInventory_of_reports {α : Type} {p : StateM World α} (h : Keeps Reports p) :
    Keeps SameInventory p :=
  ⟨fun w => (h.wp w).inventory_eq⟩

theorem sameInventory_removeFile (env : Env) (p : Path) :
    Keeps SameInventory (removeFile env p) := by
  refine ⟨fun w => ?_⟩
  simp only [removeFile, emit, wp_bind, wp_modify, wp_get]
  cases removeOutcome env (w.record (.removeFile p)).fs p with
  | error e => rfl
  | ok u => rfl

/-- The cache knows nothing of the inventory. -/
theorem sameInventory_runCache (state : AppState) (env : Env) {α : Type} (p : CacheProg α) :
    Keeps SameInventory (state.runCache env p) := by
  refine ⟨fun w => CallProg.run_keeps (CallProg.along_mono (Fallible.ensures_any p).1 ?_)⟩
  intro c w _
  rcases c with c | p | p
  · cases c with
    | removeFile p => exact (sameInventory_removeFile env p).wp w
    | _ => rfl
  · rfl
  · rfl

namespace AppState

variable {state : AppState} {env : Env} {action : DriverAction} {caller denied : String}
  {w : World}

/-- A method that leaves the inventory alone. -/
theorem takesTurn_of_same {next : StateM World (Except FdoError Reply)}
    (hnext : Keeps SameInventory next) :
    wp (state.authorized env action caller denied next)
      (fun _ w' => state.TakesTurn env w w') w := by
  refine authorized_wp (fun w' h => .none h.inventory_eq) fun w₁ h₁ _ => ?_
  exact wp_mono (hnext.wp w₁) fun _ w' h => .none (Eq.trans h h₁.inventory_eq)

/-- An operation of the engine, and reports after it. -/
theorem takesTurn_of_perform (op : Operation)
    {after : OperationResult → StateM World (Except FdoError Reply)}
    (hafter : ∀ r, Keeps Reports (after r)) {w₁ : World} (hreports : Reports w w₁)
    (htracker : w.tracker = .new) :
    wp (do
        let r ← state.executionEngine.perform env op
        after r)
      (fun _ w' => state.TakesTurn env w w') w₁ := by
  have htracker₁ : w₁.tracker = .new := hreports.tracker_eq.trans htracker
  refine wp_bind_of (state.executionEngine.perform_wp env op w₁ htracker₁) fun r w₂ hdone => ?_
  refine wp_mono ((hafter r).wp w₂) fun _ w' h => ?_
  exact .operation op r w₁ w₂ hreports hdone h.inventory_eq

/-- A method that runs an operation of the engine. -/
theorem takesTurn_of_operation {before : StateM World Unit}
    {rest : StateM World (Except FdoError Reply)} (hbefore : Keeps Reports before)
    (hrest : ∀ w₁, Reports w w₁ → wp rest (fun _ w' => state.TakesTurn env w w') w₁) :
    wp (state.authorized env action caller denied do
        before
        rest)
      (fun _ w' => state.TakesTurn env w w') w := by
  refine authorized_wp (fun w' h => .none h.inventory_eq) fun w₁ h₁ _ => ?_
  exact hbefore.wp_bind fun _ w₂ h₂ => hrest w₂ (h₁.trans h₂)

/-- A method with a request that cannot be decoded or is not valid does nothing. -/
theorem takesTurn_withRequest {ρ : Type} {kind : String} {parsed : Except String ρ}
    {validate : ρ → ServiceResult Unit} {next : ρ → StateM World (Except FdoError Reply)}
    (hnext : ∀ request, wp (next request) (fun _ w' => state.TakesTurn env w w') w) :
    wp (withRequest kind parsed validate next) (fun _ w' => state.TakesTurn env w w') w := by
  unfold withRequest
  cases parsed with
  | error e => exact .none rfl
  | ok request =>
      dsimp only
      cases validate request with
      | error e => exact .none rfl
      | ok u => exact hnext request

variable (state env)

/-- Every message takes one turn at most. -/
theorem handle_takesTurn (body : Method) (htracker : w.tracker = .new) :
    wp (state.handle env body) (fun _ w' => state.TakesTurn env w w') w := by
  cases body with
  | getVersion => exact .none rfl
  | getStatus caller =>
      refine takesTurn_of_same (sameInventory_of_reports ?_)
      exact Keeps.bind Keeps.get fun _ =>
        Keeps.bind (reports_auditAndEmit ..) fun _ => Keeps.pure _
  | scanHardware caller =>
      refine authorized_wp (fun w' h => .none h.inventory_eq) fun w₁ h₁ _ => ?_
      refine wp_bind_of (scanSystem_wp env w₁) fun r w₂ h₂ => ?_
      obtain ⟨rfl, hw₂⟩ := h₂
      have hscanned : w₂.inventory = scannedInventory env w₁ := by rw [hw₂]
      dsimp only
      rw [wp_bind, wp_get]
      refine (reports_auditAndEmit ..).wp_bind fun _ w₃ h₃ => ?_
      refine (reports_emitInventoryChanged env).wp_bind fun _ w₄ h₄ => ?_
      exact .scan w₁ h₁ (h₄.inventory_eq.trans (h₃.inventory_eq.trans hscanned))
  | listDrivers caller =>
      exact takesTurn_of_same (Keeps.bind Keeps.get fun _ => Keeps.pure _)
  | listDevices caller =>
      exact takesTurn_of_same (Keeps.bind Keeps.get fun _ => Keeps.pure _)
  | queryDriver caller driverName provider =>
      refine takesTurn_of_same (Keeps.bind Keeps.get fun w => ?_)
      cases w.inventory.findDriver driverName provider <;> exact Keeps.pure _
  | checkCompatibility caller driverName provider =>
      refine takesTurn_of_same (Keeps.bind Keeps.get fun w => ?_)
      cases state.compatibilityOf w.inventory driverName provider <;> exact Keeps.pure _
  | installDriver caller requestJson =>
      refine takesTurn_withRequest fun request => ?_
      refine takesTurn_of_operation (reports_auditAndEmit ..) fun w₁ h₁ => ?_
      rw [wp_bind, wp_get]
      refine takesTurn_of_perform (.install request caller w₁.inventory.devices) (fun r => ?_)
        h₁ htracker
      refine Keeps.bind (reports_emitInventoryChanged env) fun _ => ?_
      refine Keeps.ite (Keeps.bind (reports_auditAndEmit ..) fun _ => ?_) ?_ <;>
        exact Keeps.pure (R := Reports) _
  | removeDriver caller requestJson =>
      refine takesTurn_withRequest fun request => ?_
      refine takesTurn_of_operation (reports_auditAndEmit ..) fun w₁ h₁ => ?_
      refine takesTurn_of_perform _ (fun r => ?_) h₁ htracker
      exact Keeps.bind (reports_emitInventoryChanged env) fun _ => Keeps.pure _
  | updateDriver caller requestJson =>
      refine takesTurn_withRequest fun request => ?_
      refine takesTurn_of_operation (reports_auditAndEmit ..) fun w₁ h₁ => ?_
      refine takesTurn_of_perform _ (fun r => ?_) h₁ htracker
      exact Keeps.bind (reports_emitInventoryChanged env) fun _ => Keeps.pure _
  | listSources caller => exact takesTurn_of_same (Keeps.pure _)
  | refreshMetadata caller =>
      refine takesTurn_of_same (sameInventory_of_reports ?_)
      exact Keeps.bind (reports_audit ..) fun _ => Keeps.pure _
  | getCacheStatus caller =>
      exact takesTurn_of_same (Keeps.bind (sameInventory_runCache state env _) fun _ =>
        Keeps.bind (sameInventory_runCache state env _) fun _ => Keeps.pure _)
  | clearCache caller =>
      refine takesTurn_of_same (Keeps.bind (sameInventory_runCache state env _) fun removed => ?_)
      cases removed with
      | ok removed =>
          exact sameInventory_of_reports (Keeps.bind (reports_audit ..) fun _ => Keeps.pure _)
      | error e => exact Keeps.pure _

end AppState

/-! ## What the operations recorded -/

/-- The entries of a driver. -/
def DriverEntry.isFor (name provider : String) (d : DriverEntry) : Bool :=
  d.id.name == name && d.id.provider == provider

theorem DriverEntry.isFor_iff {name provider : String} {d : DriverEntry} :
    d.isFor name provider = true ↔ d.id.name = name ∧ d.id.provider = provider := by
  simp [isFor]

/-- By name and provider of a driver, the status and the version that the last completed
operation on it recorded. -/
abbrev Ledger := String → String → Option (DriverStatus × DriverVersion)

/-- The ledger after an operation that left the entry `d`. -/
def Ledger.record (ledger : Ledger) (d : DriverEntry) : Ledger := fun name provider =>
  if d.isFor name provider then some (d.status, d.id.version) else ledger name provider

theorem Ledger.record_self (ledger : Ledger) (d : DriverEntry) :
    ledger.record d d.id.name d.id.provider = some (d.status, d.id.version) := by
  rw [record, if_pos (DriverEntry.isFor_iff.mpr ⟨rfl, rfl⟩)]

theorem Ledger.record_of_ne (ledger : Ledger) {d : DriverEntry} {name provider : String}
    (h : d.isFor name provider = false) :
    ledger.record d name provider = ledger name provider := by
  rw [record, if_neg (by simp [h])]

/-- The world, and what the operations so far have recorded. -/
structure Tracked where
  world : World
  ledger : Ledger

namespace Tracked

/-- The daemon when it starts: no operation was completed yet. -/
def boot (inventory : DriverInventory) (sequence : UInt64) (kernel : Kernel)
    (moduleDirs : ModuleDirs) (fs : FileSystem) : Tracked :=
  ⟨World.boot inventory sequence kernel moduleDirs fs, fun _ _ => none⟩

/-- The ledger after an operation: one that completes records the status that it stands
for, with the version of the driver that its lookup finds. -/
def recorded (t : Tracked) (engine : DriverExecutionEngine) (env : Env) (op : Operation) :
    Ledger :=
  if (engine.result env op t.world).status = .completed then
    match t.world.inventory.drivers.find? op.wants with
    | some d => t.ledger.record { d with status := op.newStatus }
    | none => t.ledger
  else t.ledger

/-- The inventory agrees with the ledger. -/
def Agrees (t : Tracked) : Prop :=
  ∀ name provider status version, t.ledger name provider = some (status, version) →
    ∃ e, t.world.inventory.drivers.find? (DriverEntry.isFor name provider) = some e ∧
      e.status = status ∧ e.id.version = version

end Tracked

/-- A turn, with the ledger. -/
def AppState.track (state : AppState) (turn : Turn) (t : Tracked) : Tracked where
  world := state.turn turn t.world
  ledger :=
    match turn with
    | .operation env op => t.recorded state.executionEngine env op
    | _ => t.ledger

/-- A rescan deletes no entry, and makes no installed or removed driver available. -/
structure RescanKeeps (before after : DriverInventory) : Prop where
  entry : ∀ d ∈ before.drivers, ∃ e ∈ after.drivers, d.id.same e = true
  status : ∀ d ∈ before.drivers, d.status = .installed ∨ d.status = .removed →
    ∀ e ∈ after.drivers, d.id.same e = true → e.status ≠ .available

/-- After a turn, the inventory agrees with what the operations recorded; and a rescan
kept the entries. -/
structure NothingLost (before : Tracked) (turn : Turn) (after : Tracked) : Prop where
  agrees : after.Agrees
  rescan : ∀ env, turn.rescan = some env →
    RescanKeeps before.world.inventory after.world.inventory

/-! ## When a rescan loses nothing -/

/-- The drivers that `populate_builtin_drivers` knows. -/
def builtinNames : List (String × String) :=
  [("e1000e", "linux"), ("iwlwifi", "linux"), ("nvidia", "nvidia")]

/-- A driver of the kernel tree that a rescan finds in `/proc/modules`. -/
def ListedInTree (env : Env) (kernel : Kernel) (name provider : String) : Prop :=
  (name = "e1000e" ∨ name = "iwlwifi") ∧ provider = "linux" ∧ name ∈ listedModules env kernel

/-- What has to hold before a rescan. -/
structure Survives (env : Env) (t : Tracked) : Prop where
  builtin : ∀ d ∈ t.world.inventory.drivers, (d.id.name, d.id.provider) ∈ builtinNames
  settled : ∀ d ∈ t.world.inventory.drivers, d.status = .installed ∨ d.status = .removed →
    ListedInTree env t.world.kernel d.id.name d.id.provider
  recorded : ∀ name provider status version, t.ledger name provider = some (status, version) →
    status = .active ∧ version = .new 6 8 0 ∧
      ListedInTree env t.world.kernel name provider

section Builtin

variable {loaded : List String} {name provider : String} {e : DriverEntry}

theorem inTreeStatus_eq_available_iff :
    inTreeStatus loaded name = .available ↔ name ∉ loaded := by
  by_cases h : name ∈ loaded <;> simp [inTreeStatus, h]

theorem inTreeStatus_of_mem (h : name ∈ loaded) : inTreeStatus loaded name = .active := by
  simp [inTreeStatus, h]

/-- The entry of a built-in driver of the kernel tree. -/
theorem find_inTree (hname : name = "e1000e" ∨ name = "iwlwifi") :
    ∃ e, (builtinDrivers loaded).find? (DriverEntry.isFor name "linux") = some e ∧
      e.status = inTreeStatus loaded name ∧ e.id.version = .new 6 8 0 := by
  rcases hname with rfl | rfl
  · exact ⟨e1000eDriver (inTreeStatus loaded "e1000e"), rfl, rfl, rfl⟩
  · exact ⟨iwlwifiDriver (inTreeStatus loaded "iwlwifi"), rfl, rfl, rfl⟩

/-- What the entry of a built-in driver says. -/
theorem status_of_mem_builtin (h : e ∈ builtinDrivers loaded) :
    (e.id.name = "e1000e" ∨ e.id.name = "iwlwifi") ∧ e.id.provider = "linux" ∧
        e.status = inTreeStatus loaded e.id.name ∧ e.id.version = .new 6 8 0 ∨
      e.id.name = "nvidia" ∧ e.id.provider = "nvidia" ∧ e.status = .available := by
  simp only [builtinDrivers, List.mem_cons, List.not_mem_nil, or_false] at h
  rcases h with rfl | rfl | rfl
  · exact Or.inl ⟨Or.inl rfl, rfl, rfl, rfl⟩
  · exact Or.inl ⟨Or.inr rfl, rfl, rfl, rfl⟩
  · exact Or.inr ⟨rfl, rfl, rfl⟩

theorem mem_builtinNames_iff (loaded : List String) :
    (name, provider) ∈ builtinNames ↔
      ∃ e ∈ builtinDrivers loaded, e.id.name = name ∧ e.id.provider = provider := by
  constructor
  · intro h
    simp only [builtinNames, List.mem_cons, List.not_mem_nil, or_false, Prod.mk.injEq] at h
    rcases h with ⟨rfl, rfl⟩ | ⟨rfl, rfl⟩ | ⟨rfl, rfl⟩
    · exact ⟨_, List.mem_cons_self, rfl, rfl⟩
    · exact ⟨_, List.mem_cons_of_mem _ List.mem_cons_self, rfl, rfl⟩
    · exact ⟨_, List.mem_cons_of_mem _ (List.mem_cons_of_mem _ List.mem_cons_self), rfl, rfl⟩
  · intro hright
    obtain ⟨e, he, rfl, rfl⟩ := hright
    rcases status_of_mem_builtin he with ⟨hname, hprovider, -⟩ | ⟨hname, hprovider, -⟩
    · rcases hname with hname | hname <;> simp [builtinNames, hname, hprovider]
    · simp [builtinNames, hname, hprovider]

end Builtin

/-! ## One turn -/

/-- A rescan leaves the built-in drivers, and nothing in the tracker. -/
theorem AppState.turn_rescan (state : AppState) {turn : Turn} {env : Env}
    (h : turn.rescan = some env) (w : World) :
    (state.turn turn w).inventory.drivers = builtinDrivers (listedModules env w.kernel) ∧
      (state.turn turn w).tracker = w.tracker := by
  cases turn with
  | operation | outside => cases h
  | scanHardware env' =>
      cases h
      have hscan := scanSystem_wp env w.fresh
      rw [wp_def] at hscan
      show ((scanSystem env).run w.fresh).2.inventory.drivers = _ ∧
        ((scanSystem env).run w.fresh).2.tracker = _
      rw [hscan.2]
      exact ⟨rfl, rfl⟩
  | pollHardware env' =>
      cases h
      have hpoll : wp (pollHardware env state.evaluateCompatibility)
          (fun _ w' => w'.inventory.drivers = builtinDrivers (listedModules env w.kernel) ∧
            w'.tracker = w.tracker) w.fresh := by
        refine wp_bind_of (scanSystem_wp env w.fresh) fun _ w₁ h₁ => ?_
        rw [h₁.2]
        exact ⟨rfl, rfl⟩
      exact hpoll

/-- What holds before every turn of a run: no operation is under way, the inventory agrees
with the ledger, and no operation has recorded that a driver is available. -/
structure Tracked.Settled (t : Tracked) : Prop where
  tracker : t.world.tracker = .new
  agrees : t.Agrees
  unavailable : ∀ name provider status version,
    t.ledger name provider = some (status, version) → status ≠ .available

theorem Operation.newStatus_ne_available (op : Operation) : op.newStatus ≠ .available := by
  cases op <;> simp [newStatus]

namespace Tracked

variable {state : AppState} {t : Tracked}

/-- What an operation recorded is what the inventory holds after it, and what the earlier
ones recorded is still there. -/
theorem Settled.operation (h : t.Settled) (env : Env) (op : Operation) :
    (state.track (.operation env op) t).Settled := by
  have hdone := state.executionEngine.performed_of_tracker env op h.tracker
  have htracker : (state.turn (.operation env op) t.world).tracker = .new :=
    hdone.tracker_eq h.tracker
  rcases inventory_of_performed hdone with
    ⟨hcompleted, pre, d, post, stamp, hsplit, hd, hpre, hinv⟩ | ⟨hfailed, hinv⟩
  · have hfound : t.world.inventory.drivers.find? op.wants = some d := by
      rw [hsplit]
      exact find?_split hpre hd
    have hledger : (state.track (.operation env op) t).ledger =
        t.ledger.record { d with status := op.newStatus } := by
      show t.recorded state.executionEngine env op = _
      rw [recorded, if_pos hcompleted, hfound]
    have hdrivers : (state.track (.operation env op) t).world.inventory.drivers =
        pre ++ { d with status := op.newStatus } :: post := congrArg DriverInventory.drivers hinv
    refine ⟨htracker, fun name provider status version hrecord => ?_,
      fun name provider status version hrecord => ?_⟩
    · rw [hledger] at hrecord
      rw [hdrivers]
      by_cases hself : d.isFor name provider = true
      · obtain ⟨rfl, rfl⟩ := DriverEntry.isFor_iff.mp hself
        have hrecorded := t.ledger.record_self { d with status := op.newStatus }
        cases hrecorded.symm.trans hrecord
        -- An earlier entry of that name would have been found by the lookup.
        exact ⟨_, find?_split (false_of_imp (Operation.wants_of_same hd) hpre) hself, rfl, rfl⟩
      · have hother : d.isFor name provider = false := by simpa using hself
        rw [Ledger.record_of_ne _ (d := { d with status := op.newStatus }) hother] at hrecord
        obtain ⟨e, he, hstatus, hversion⟩ := h.agrees name provider status version hrecord
        rw [hsplit] at he
        refine ⟨e, Eq.trans ?_ he, hstatus, hversion⟩
        exact find?_replace pre post hother hother
    · rw [hledger] at hrecord
      by_cases hself : d.isFor name provider = true
      · obtain ⟨rfl, rfl⟩ := DriverEntry.isFor_iff.mp hself
        have hrecorded := t.ledger.record_self { d with status := op.newStatus }
        cases hrecorded.symm.trans hrecord
        exact op.newStatus_ne_available
      · have hother : d.isFor name provider = false := by simpa using hself
        rw [Ledger.record_of_ne _ (d := { d with status := op.newStatus }) hother] at hrecord
        exact h.unavailable name provider status version hrecord
  · have hledger : (state.track (.operation env op) t).ledger = t.ledger := by
      show t.recorded state.executionEngine env op = _
      rw [recorded, if_neg]
      intro hcompleted
      cases hfailed.symm.trans hcompleted
    have hdrivers : (state.track (.operation env op) t).world.inventory = t.world.inventory :=
      hinv
    refine ⟨htracker, ?_, ?_⟩
    · unfold Agrees
      rw [hledger, hdrivers]
      exact h.agrees
    · rw [hledger]
      exact h.unavailable

/-- After a rescan, the inventory agrees with the ledger exactly if every record is one
that the rescan makes. -/
theorem Settled.agrees_after_rescan (h : t.Settled) {turn : Turn} {env : Env}
    (hrescan : turn.rescan = some env) :
    (state.track turn t).Agrees ↔ ∀ name provider status version,
      t.ledger name provider = some (status, version) → status = .active ∧
        version = .new 6 8 0 ∧ ListedInTree env t.world.kernel name provider := by
  have hledger : (state.track turn t).ledger = t.ledger := by
    cases turn <;> first | rfl | cases hrescan
  have hdrivers : (state.track turn t).world.inventory.drivers =
      builtinDrivers (listedModules env t.world.kernel) :=
    (state.turn_rescan hrescan t.world).1
  unfold Agrees
  rw [hledger, hdrivers]
  constructor
  · intro hagrees name provider status version hrecord
    obtain ⟨e, he, hstatus, hversion⟩ := hagrees name provider status version hrecord
    obtain ⟨hname, hprovider⟩ := DriverEntry.isFor_iff.mp (List.find?_some he)
    have hunavailable := h.unavailable name provider status version hrecord
    rcases status_of_mem_builtin (List.mem_of_find?_eq_some he) with
      ⟨htree, hlinux, hscanned, hnew⟩ | ⟨-, -, hscanned⟩
    · have hlisted : e.id.name ∈ listedModules env t.world.kernel := by
        by_contra hno
        rw [inTreeStatus_eq_available_iff.mpr hno] at hscanned
        exact hunavailable (hstatus.symm.trans hscanned)
      rw [inTreeStatus_of_mem hlisted] at hscanned
      subst hname hprovider
      exact ⟨hstatus.symm.trans hscanned, hversion.symm.trans hnew, htree, hlinux, hlisted⟩
    · exact absurd (hstatus.symm.trans hscanned) hunavailable
  · intro hrecorded name provider status version hrecord
    obtain ⟨rfl, rfl, htree, rfl, hlisted⟩ :=
      hrecorded name provider status version hrecord
    obtain ⟨e, he, hstatus, hversion⟩ := find_inTree htree
    exact ⟨e, he, hstatus.trans (inTreeStatus_of_mem hlisted), hversion⟩

/-- A rescan keeps the entries exactly if all of them are built-in, and those that are
installed or removed belong to modules that it finds. -/
theorem rescanKeeps_iff {turn : Turn} {env : Env} (hrescan : turn.rescan = some env) :
    RescanKeeps t.world.inventory (state.track turn t).world.inventory ↔
      (∀ d ∈ t.world.inventory.drivers, (d.id.name, d.id.provider) ∈ builtinNames) ∧
        ∀ d ∈ t.world.inventory.drivers, d.status = .installed ∨ d.status = .removed →
          ListedInTree env t.world.kernel d.id.name d.id.provider := by
  have hdrivers : (state.track turn t).world.inventory.drivers =
      builtinDrivers (listedModules env t.world.kernel) :=
    (state.turn_rescan hrescan t.world).1
  have hentry : ∀ d : DriverEntry, (d.id.name, d.id.provider) ∈ builtinNames ↔
      ∃ e ∈ (state.track turn t).world.inventory.drivers, d.id.same e = true := by
    intro d
    rw [hdrivers]
    refine (mem_builtinNames_iff (listedModules env t.world.kernel)).trans ?_
    simp only [DriverId.same, Bool.and_eq_true, beq_iff_eq]
  constructor
  · intro h
    refine ⟨fun d hd => (hentry d).mpr (h.entry d hd), fun d hd hsettled => ?_⟩
    obtain ⟨e, he, hsame⟩ := h.entry d hd
    have hstatus := h.status d hd hsettled e he hsame
    rw [hdrivers] at he
    obtain ⟨hname, hprovider⟩ := DriverEntry.isFor_iff.mp hsame
    rcases status_of_mem_builtin he with ⟨htree, hlinux, hscanned, -⟩ | ⟨-, -, hscanned⟩
    · rw [← hname, ← hprovider]
      refine ⟨htree, hlinux, ?_⟩
      by_contra hno
      exact hstatus (hscanned.trans (inTreeStatus_eq_available_iff.mpr hno))
    · exact absurd hscanned hstatus
  · intro hright
    obtain ⟨hbuiltin, hlisted⟩ := hright
    refine ⟨fun d hd => (hentry d).mp (hbuiltin d hd), fun d hd hsettled e he hsame => ?_⟩
    obtain ⟨-, hprovider, hmem⟩ := hlisted d hd hsettled
    obtain ⟨hname, hprovider'⟩ := DriverEntry.isFor_iff.mp hsame
    rw [hdrivers] at he
    rcases status_of_mem_builtin he with ⟨-, -, hscanned, -⟩ | ⟨-, hnvidia, -⟩
    · rw [hscanned, hname, inTreeStatus_of_mem hmem]
      decide
    · rw [hprovider', hprovider] at hnvidia
      exact absurd hnvidia (by decide)

/-- One turn loses nothing exactly if it is no rescan, or one that everything survives. -/
theorem Settled.nothingLost_iff (h : t.Settled) (turn : Turn) :
    NothingLost t turn (state.track turn t) ↔
      ∀ env, turn.rescan = some env → Survives env t := by
  cases hrescan : turn.rescan with
  | none =>
      refine iff_of_true ⟨?_, fun env henv => ?_⟩ (fun env henv => ?_)
      · cases turn with
        | operation env op => exact (h.operation env op).agrees
        | outside kernel moduleDirs fs => exact h.agrees
        | scanHardware | pollHardware => cases hrescan
      · rw [hrescan] at henv
        cases henv
      · cases henv
  | some env =>
      have hagrees : (state.track turn t).Agrees ↔ _ := h.agrees_after_rescan hrescan
      have hkeeps : RescanKeeps t.world.inventory (state.track turn t).world.inventory ↔ _ :=
        rescanKeeps_iff hrescan
      constructor
      · intro hlost env' henv'
        cases henv'
        obtain ⟨hbuiltin, hsettled⟩ := hkeeps.mp (hlost.rescan env hrescan)
        exact ⟨hbuiltin, hsettled, hagrees.mp hlost.agrees⟩
      · intro hsurvives
        obtain ⟨hbuiltin, hsettled, hrecorded⟩ := hsurvives env rfl
        refine ⟨hagrees.mpr hrecorded, fun env' henv' => ?_⟩
        exact hkeeps.mpr ⟨hbuiltin, hsettled⟩

/-- A turn that loses nothing leaves a settled daemon. -/
theorem Settled.keep (h : t.Settled) (turn : Turn)
    (hlost : NothingLost t turn (state.track turn t)) : (state.track turn t).Settled := by
  cases turn with
  | operation env op => exact h.operation env op
  | scanHardware env =>
      exact ⟨(state.turn_rescan rfl t.world).2.trans h.tracker, hlost.agrees, h.unavailable⟩
  | pollHardware env =>
      exact ⟨(state.turn_rescan rfl t.world).2.trans h.tracker, hlost.agrees, h.unavailable⟩
  | outside kernel moduleDirs fs => exact ⟨h.tracker, hlost.agrees, h.unavailable⟩

end Tracked

/-! ## Runs -/

/-- In every interleaving of operations, rescans and changes from outside, no completed
operation is lost and no rescan deletes or resets an entry, exactly if everything
survives each rescan: the entries are those of the built-in drivers, the ones that are
installed or removed and the ones of completed operations belong to modules of the kernel
tree that `/proc/modules` lists, and the last operation on each of these was an update. -/
theorem operations_survive_iff (state : AppState) (inventory : DriverInventory)
    (sequence : UInt64) (kernel : Kernel) (moduleDirs : ModuleDirs) (fs : FileSystem)
    (turns : List Turn) :
    (∀ t ∈ transitions state.track (Tracked.boot inventory sequence kernel moduleDirs fs) turns,
      NothingLost t.before t.input t.after) ↔
    ∀ t ∈ transitions state.track (Tracked.boot inventory sequence kernel moduleDirs fs) turns,
      ∀ env, t.input.rescan = some env → Survives env t.before := by
  have hboot : (Tracked.boot inventory sequence kernel moduleDirs fs).Settled := by
    refine ⟨rfl, fun _ _ _ _ h => ?_, fun _ _ _ _ h => ?_⟩
    · cases h
    · cases h
  exact transitions_iff (P := NothingLost) (I := Tracked.Settled) (A := fun _ => True)
    (C := fun t turn => ∀ env, turn.rescan = some env → Survives env t)
    (fun t turn h _ => h.nothingLost_iff turn) (fun t turn h _ hlost => h.keep turn hlost)
    hboot fun _ _ => trivial

/-- A rescan loses an operation: `e1000e` is removed, and available after the rescan. -/
theorem rescan_loses_removal :
    ¬ ∀ (state : AppState) (inventory : DriverInventory) (sequence : UInt64) (kernel : Kernel)
      (moduleDirs : ModuleDirs) (fs : FileSystem) (turns : List Turn),
      ∀ t ∈ transitions state.track (Tracked.boot inventory sequence kernel moduleDirs fs)
          turns, NothingLost t.before t.input t.after := by
  intro h
  have hlost := h .strict ⟨builtinDrivers ["e1000e"], [], 0⟩ 0 (.ofNames [e1000eModule])
    inTreeModules .empty
    [.operation .smooth (.remove ⟨"e1000e", true⟩ ":1.5"), .scanHardware .smooth]
    _ (List.mem_cons_of_mem _ List.mem_cons_self)
  obtain ⟨e, he, hstatus, -⟩ := hlost.agrees "e1000e" "linux" .removed (.new 6 8 0)
    (by decide)
  have hscanned : (AppState.strict.track (.scanHardware .smooth) (AppState.strict.track
      (.operation .smooth (.remove ⟨"e1000e", true⟩ ":1.5"))
      (Tracked.boot ⟨builtinDrivers ["e1000e"], [], 0⟩ 0 (.ofNames [e1000eModule])
        inTreeModules .empty))).world.inventory.drivers.find?
        (DriverEntry.isFor "e1000e" "linux") = some (e1000eDriver .available) := by
    decide
  cases hscanned.symm.trans he
  cases hstatus

end MissionOs.Driverd
