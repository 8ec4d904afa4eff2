import MissionOs.Driverd.KernelTruth

/-!
# Versions over a run of updates

The downgrade protection of `update_driver` compares the version that is asked for with
the one that the inventory records.  A completed update writes the status of its entry
and leaves the version as it was, so the recorded versions are those of the beginning,
in every run of updates (`driverIds_nextUpdate`).

They never decrease, then, and the protection never moves on: it protects what an update
reached exactly if each completed update names the version that is recorded already
(`updates_protected_iff`).
-/

namespace MissionOs.Driverd

open MissionOs.Rust MissionOs.Lib

/-! ## Versions -/

namespace DriverVersion

theorem strCmp_self (s : List Char) : strCmp s s = .eq := by
  induction s with
  | nil => rfl
  | cons c s ih => simp [strCmp, ih]

theorem cmp_self (v : DriverVersion) : v.cmp v = .eq := by
  have hpre : cmpPreRelease v.preRelease v.preRelease = .eq := by
    cases v.preRelease with
    | none => rfl
    | some pre => exact strCmp_self pre.toList
  simp [cmp, hpre]

/-- No version is above itself. -/
theorem gt_self (v : DriverVersion) : v.gt v = false := by
  rw [gt, cmp_self]
  rfl

end DriverVersion

/-! ## Runs of updates -/

/-- An update, or a change outside of the daemon. -/
inductive UpdateInput where
  | update (env : Env) (request : UpdateRequest) (caller : String)
  | outside (kernel : Kernel) (moduleDirs : ModuleDirs) (fs : FileSystem)

/-- The world after an update or a change outside of the daemon. -/
def DriverExecutionEngine.nextUpdate (engine : DriverExecutionEngine) :
    UpdateInput → World → World
  | .update env request caller, w => engine.next (.call env (.update request caller)) w
  | .outside kernel moduleDirs fs, w => { w.fresh with kernel, moduleDirs, fs }

/-- The ids that the inventory records, with their versions. -/
def World.driverIds (w : World) : List DriverId := w.inventory.drivers.map (·.id)

/-- A step of a run asks for the version `v` of the driver `d`. -/
structure AsksFor (t : Transition World UpdateInput) (env : Env) (request : UpdateRequest)
    (caller : String) (d : DriverEntry) (v : DriverVersion) : Prop where
  input : t.input = .update env request caller
  found : t.before.inventory.findNamed request.driverName = some d
  target : ∃ text, request.targetVersion = some text ∧ DriverVersion.parse text = .ok v

namespace DriverExecutionEngine

variable (engine : DriverExecutionEngine)

/-- A completed update with a target leaves its entry with that version. -/
def RecordsTarget (w : World) (input : UpdateInput) (w' : World) : Prop :=
  ∀ env request caller target, input = .update env request caller →
    (engine.result env (.update request caller) w).status = .completed →
    request.targetVersion = some target →
    ∃ d', w'.inventory.findNamed request.driverName = some d' ∧
      DriverVersion.parse target = .ok d'.id.version

/-- The version that is recorded for a driver does not decrease. -/
def NeverDecreases (w w' : World) : Prop :=
  ∀ (id : DriverId) d, w.inventory.drivers.find? id.same = some d →
    ∃ d', w'.inventory.drivers.find? id.same = some d' ∧
      d.id.version.gt d'.id.version = false

/-- After a completed update of a driver to `v`, an update of it to a version below `v`
that does not allow a downgrade is rejected. -/
def Protects (t t' : Transition World UpdateInput) : Prop :=
  ∀ env request caller d v env' request' caller' d' v',
    AsksFor t env request caller d v →
    (engine.result env (.update request caller) t.before).status = .completed →
    AsksFor t' env' request' caller' d' v' → d.id.same d' = true → v.gt v' = true →
    request'.allowDowngrade = false →
    (engine.result env' (.update request' caller') t'.before).status = .failed

/-- The condition on an update: if it passes its checks and its execute step does not
fail, a target names the version that is recorded already. -/
def NamesRecorded (w : World) : UpdateInput → Prop
  | .update env request caller => ∀ d target,
      engine.Admits env (.update request caller) w.fresh d →
      w.inventory.findNamed request.driverName = some d →
      ¬ engine.StepFails env (.update request caller) w.fresh d →
      request.targetVersion = some target → DriverVersion.parse target = .ok d.id.version
  | .outside _ _ _ => True

/-! ## One update -/

variable {engine}

theorem nextUpdate_tracker (input : UpdateInput) {w : World} (htracker : w.tracker = .new) :
    (engine.nextUpdate input w).tracker = .new := by
  cases input with
  | update env request caller => exact engine.next_tracker _ htracker
  | outside kernel moduleDirs fs => exact htracker

/-- No update changes an id or a version. -/
theorem driverIds_nextUpdate (input : UpdateInput) {w : World} (htracker : w.tracker = .new) :
    (engine.nextUpdate input w).driverIds = w.driverIds := by
  cases input with
  | outside kernel moduleDirs fs => rfl
  | update env request caller =>
      have hdone := engine.performed_of_tracker env (.update request caller) htracker
      show (engine.next (.call env (.update request caller)) w).inventory.drivers.map _ =
        w.inventory.drivers.map _
      rcases inventory_of_performed hdone with
        ⟨-, pre, d, post, stamp, hsplit, -, -, hinv⟩ | ⟨-, hinv⟩
      · rw [hinv, hsplit]
        simp
      · rw [hinv]

end DriverExecutionEngine

/-- A search for an id ends the same way in two worlds with the same ids. -/
theorem find_of_driverIds {w w' : World} (hids : w'.driverIds = w.driverIds)
    {p : DriverId → Bool} {d : DriverEntry}
    (hfound : w.inventory.drivers.find? (fun d => p d.id) = some d) :
    ∃ d', w'.inventory.drivers.find? (fun d => p d.id) = some d' ∧ d'.id = d.id := by
  have hfind : ∀ w : World, (w.inventory.drivers.find? fun d => p d.id).map (·.id) =
      w.driverIds.find? p := by
    intro w
    rw [World.driverIds, List.find?_map]
    rfl
  have hsame : (w'.inventory.drivers.find? fun d => p d.id).map (·.id) = some d.id := by
    rw [hfind, hids, ← hfind, hfound, Option.map_some]
  exact Option.map_eq_some_iff.mp hsame

/-- Two updates whose lookups find entries of one name and provider find the same id. -/
theorem id_eq_of_findNamed {w w' : World} (hids : w'.driverIds = w.driverIds)
    {name name' : String} {d d' : DriverEntry} (hfound : w.inventory.findNamed name = some d)
    (hfound' : w'.inventory.findNamed name' = some d') (hsame : d.id.same d' = true) :
    d'.id = d.id := by
  obtain ⟨e, he, hid⟩ :=
    find_of_driverIds (p := fun id => eqIgnoreAsciiCase id.name name) hids hfound
  have hname : d'.id.name = d.id.name := by
    simp only [DriverId.same, Bool.and_eq_true, beq_iff_eq] at hsame
    exact hsame.1
  have hcase : toAsciiLowercase name'.toList = toAsciiLowercase name.toList := by
    have hd : eqIgnoreAsciiCase d.id.name name = true := by
      simpa using List.find?_some hfound
    have hd' : eqIgnoreAsciiCase d'.id.name name' = true := by
      simpa using List.find?_some hfound'
    rw [← eqIgnoreAsciiCase_iff.mp hd, ← eqIgnoreAsciiCase_iff.mp hd', hname]
  have hsearch : w'.inventory.findNamed name' = w'.inventory.findNamed name := by
    simp only [DriverInventory.findNamed, eqIgnoreAsciiCase, hcase]
  cases hfound'.symm.trans (hsearch.trans he)
  exact hid

namespace DriverExecutionEngine

/-- An update leaves the entry that its lookup finds with the version that it had. -/
theorem findNamed_nextUpdate (engine : DriverExecutionEngine) (input : UpdateInput) {w : World}
    (htracker : w.tracker = .new)
    {name : String} {d : DriverEntry} (hfound : w.inventory.findNamed name = some d) :
    ∃ d', (engine.nextUpdate input w).inventory.findNamed name = some d' ∧ d'.id = d.id :=
  find_of_driverIds (p := fun id => eqIgnoreAsciiCase id.name name)
    (driverIds_nextUpdate input htracker) hfound

variable {engine : DriverExecutionEngine}

theorem neverDecreases_nextUpdate (input : UpdateInput) {w : World}
    (htracker : w.tracker = .new) : NeverDecreases w (engine.nextUpdate input w) := by
  intro id d hfound
  have hids : (engine.nextUpdate input w).driverIds = w.driverIds :=
    driverIds_nextUpdate input htracker
  obtain ⟨d', hd', hid⟩ := find_of_driverIds
    (p := fun id' => id'.name == id.name && id'.provider == id.provider) hids hfound
  refine ⟨d', hd', ?_⟩
  rw [hid]
  exact d.id.version.gt_self

/-- A completed update records its target exactly if it names the recorded version. -/
theorem recordsTarget_iff (input : UpdateInput) {w : World} (htracker : w.tracker = .new) :
    engine.RecordsTarget w input (engine.nextUpdate input w) ↔
      engine.NamesRecorded w input := by
  cases input with
  | outside kernel moduleDirs fs =>
      refine iff_of_true ?_ True.intro
      intro env request caller target hinput
      cases hinput
  | update env request caller =>
      have hdone := engine.performed_of_tracker env (.update request caller) htracker
      have hcompleted := completed_of_performed hdone
      constructor
      · intro h d target hadmits hfound hsucceeds htarget
        obtain ⟨d', hd', hparse⟩ := h env request caller target rfl
          (hcompleted.mpr ⟨d, hadmits, hfound, hsucceeds⟩) htarget
        obtain ⟨d'', hd'', hid⟩ :=
          engine.findNamed_nextUpdate (.update env request caller) htracker hfound
        cases hd'.symm.trans hd''
        rw [hparse, hid]
      · intro h _ _ _ target hpost hstatus htarget
        obtain ⟨⟩ := hpost
        obtain ⟨d, hadmits, hfound, hsucceeds⟩ := hcompleted.mp hstatus
        obtain ⟨d', hd', hid⟩ :=
          engine.findNamed_nextUpdate (.update env request caller) htracker hfound
        refine ⟨d', hd', ?_⟩
        rw [hid]
        exact h d target hadmits hfound hsucceeds htarget

/-- An update that asks for less than what is recorded, and does not allow a downgrade, is
rejected. -/
theorem rejected_of_downgrade {env : Env} {request : UpdateRequest} {caller text : String}
    {w : World} {d : DriverEntry} {v : DriverVersion} (htracker : w.tracker = .new)
    (hfound : w.inventory.findNamed request.driverName = some d)
    (htarget : request.targetVersion = some text) (hparse : DriverVersion.parse text = .ok v)
    (hallow : request.allowDowngrade = false) (hgt : d.id.version.gt v = true) :
    (engine.result env (.update request caller) w).status = .failed := by
  have hdone := engine.performed_of_tracker env (.update request caller) htracker
  rcases inventory_of_performed hdone with ⟨hstatus, -⟩ | ⟨hstatus, -⟩
  · exfalso
    obtain ⟨d', hadmits, hfound', -⟩ := (completed_of_performed hdone).mp hstatus
    cases hfound.symm.trans hfound'
    have hspec := engine.updateChecks_wp env request caller w.fresh
    have hrun : ((engine.updateChecks env request caller).run w.fresh).1 = .ok d := hadmits
    rw [wp_def, hrun] at hspec
    obtain ⟨-, -, -, hdowngrade⟩ := hspec
    rw [hdowngrade hallow text v htarget hparse] at hgt
    cases hgt
  · exact hstatus

end DriverExecutionEngine

/-! ## Runs -/

/-- In every run of updates the ids are those of the beginning. -/
theorem driverIds_of_run (engine : DriverExecutionEngine) (inventory : DriverInventory)
    (sequence : UInt64) (kernel : Kernel) (moduleDirs : ModuleDirs) (fs : FileSystem)
    (inputs : List UpdateInput) :
    ∀ t ∈ transitions engine.nextUpdate (World.boot inventory sequence kernel moduleDirs fs)
        inputs, t.before.tracker = .new ∧
      t.before.driverIds = (World.boot inventory sequence kernel moduleDirs fs).driverIds := by
  intro t ht
  have hinv := transitions_invariant (C := fun _ _ => True)
    (I := fun w : World => w.tracker = .new ∧
      w.driverIds = (World.boot inventory sequence kernel moduleDirs fs).driverIds)
    (fun w input hw _ => ⟨DriverExecutionEngine.nextUpdate_tracker input hw.1,
      (DriverExecutionEngine.driverIds_nextUpdate input hw.1).trans hw.2⟩)
    ⟨rfl, rfl⟩ (fun _ _ => trivial) t ht
  exact hinv.1

/-- In every run of updates, completed updates record their targets, recorded versions
never decrease, and what a completed update reached is protected from later updates,
exactly if each update with a target that completes names the version that is recorded
already. -/
theorem updates_protected_iff (engine : DriverExecutionEngine) (inventory : DriverInventory)
    (sequence : UInt64) (kernel : Kernel) (moduleDirs : ModuleDirs) (fs : FileSystem)
    (inputs : List UpdateInput) :
    ((∀ t ∈ transitions engine.nextUpdate (World.boot inventory sequence kernel moduleDirs fs)
        inputs, engine.RecordsTarget t.before t.input t.after ∧
          DriverExecutionEngine.NeverDecreases t.before t.after) ∧
      (transitions engine.nextUpdate (World.boot inventory sequence kernel moduleDirs fs)
        inputs).Pairwise engine.Protects) ↔
    ∀ t ∈ transitions engine.nextUpdate (World.boot inventory sequence kernel moduleDirs fs)
        inputs, engine.NamesRecorded t.before t.input := by
  have hrun := driverIds_of_run engine inventory sequence kernel moduleDirs fs inputs
  have hiff : ∀ t ∈ transitions engine.nextUpdate
      (World.boot inventory sequence kernel moduleDirs fs) inputs,
      engine.RecordsTarget t.before t.input t.after ↔
        engine.NamesRecorded t.before t.input := by
    intro t ht
    rw [after_eq_of_mem_transitions ht]
    exact DriverExecutionEngine.recordsTarget_iff t.input (hrun t ht).1
  constructor
  · intro hpost t ht
    obtain ⟨h, -⟩ := hpost
    exact (hiff t ht).mp (h t ht).1
  · intro h
    refine ⟨fun t ht => ⟨(hiff t ht).mpr (h t ht), ?_⟩, ?_⟩
    · rw [after_eq_of_mem_transitions ht]
      exact DriverExecutionEngine.neverDecreases_nextUpdate t.input (hrun t ht).1
    refine List.pairwise_of_forall_mem_list fun t ht t' ht' => ?_
    intro env request caller d v env' request' caller' d' v' hasks hstatus hasks' hsame hgt
      hallow
    obtain ⟨htracker, hids⟩ := hrun t ht
    obtain ⟨htracker', hids'⟩ := hrun t' ht'
    -- The first update completed, so it named the version that was recorded.
    have hv : v = d.id.version := by
      obtain ⟨text, htarget, hparse⟩ := hasks.target
      have hdone := engine.performed_of_tracker env (.update request caller) htracker
      obtain ⟨d₁, hadmits, hfound, hsucceeds⟩ := (completed_of_performed hdone).mp hstatus
      cases hasks.found.symm.trans hfound
      have hnames := h t ht
      rw [hasks.input] at hnames
      have hrecorded := hnames d text hadmits hasks.found hsucceeds htarget
      exact Except.ok.inj (hparse.symm.trans hrecorded)
    -- The second one finds the same driver, with the same version.
    have hid : d'.id = d.id :=
      id_eq_of_findNamed (hids'.trans hids.symm) hasks.found hasks'.found hsame
    obtain ⟨text', htarget', hparse'⟩ := hasks'.target
    refine DriverExecutionEngine.rejected_of_downgrade htracker' hasks'.found htarget' hparse'
      hallow ?_
    rw [hid, ← hv]
    exact hgt

/-- Not every run protects what was reached: `e1000e` is updated from 6.8.0 to 7.0.0, and
then to 6.9.0, and both updates complete. -/
theorem update_keeps_old_version :
    ¬ ∀ (engine : DriverExecutionEngine) (inventory : DriverInventory) (sequence : UInt64)
      (kernel : Kernel) (moduleDirs : ModuleDirs) (fs : FileSystem)
      (inputs : List UpdateInput),
      (∀ t ∈ transitions engine.nextUpdate (World.boot inventory sequence kernel moduleDirs fs)
          inputs, engine.RecordsTarget t.before t.input t.after ∧
            DriverExecutionEngine.NeverDecreases t.before t.after) ∧
        (transitions engine.nextUpdate (World.boot inventory sequence kernel moduleDirs fs)
          inputs).Pairwise engine.Protects := by
  intro h
  obtain ⟨-, hprotects⟩ := h .strict ⟨[e1000eDriver .active], [], 0⟩ 0 ⟨[]⟩ inTreeModules .empty
    [.update .smooth ⟨"e1000e", some "7.0.0", false⟩ ":1.5",
      .update .smooth ⟨"e1000e", some "6.9.0", false⟩ ":1.5"]
  rw [transitions_cons, transitions_cons, transitions_nil, List.pairwise_pair] at hprotects
  have hfailed := hprotects .smooth ⟨"e1000e", some "7.0.0", false⟩ ":1.5"
    (e1000eDriver .active) (.new 7 0 0) .smooth ⟨"e1000e", some "6.9.0", false⟩ ":1.5"
    (e1000eDriver .active) (.new 6 9 0) ⟨rfl, by decide, "7.0.0", rfl, by decide⟩
    (by decide) ⟨rfl, by decide, "6.9.0", rfl, by decide⟩ (by decide)
    (by decide) rfl
  revert hfailed
  decide

end MissionOs.Driverd
