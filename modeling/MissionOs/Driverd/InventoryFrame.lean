import MissionOs.Driverd.Operations

/-!
# What a call does to the inventory

Three searches have to meet at one entry: the lookup of the request, which
ignores case, the write-back of the commit, and the write-back of the rollback,
which go by exact name and provider.  Each of the last two implies the first
and holds of the entry found, so all stop at the same index, whatever other
entries the list has (`commit_split`, `restore_eq_self`).
-/

namespace MissionOs.Driverd

open MissionOs.Rust MissionOs.Lib

namespace Operation

variable {op : Operation} {d : DriverEntry}

theorem same_self (id : DriverId) (e : DriverEntry) (h : e.id = id) : id.same e = true := by
  simp [DriverId.same, h]

/-- An entry with the name and the provider of the entry found is one that the
request looks for. -/
theorem wants_of_same (hd : op.wants d = true) :
    ∀ e, d.id.same e = true → op.wants e = true := by
  intro e he
  simp only [DriverId.same, Bool.and_eq_true, beq_iff_eq] at he
  cases op <;> simp_all [wants, DriverInventory.named]

/-- The commit writes to an entry that the request looks for. -/
theorem wants_of_writesTo (hd : op.wants d = true) :
    ∀ e, op.writesTo d e = true → op.wants e = true := by
  intro e he
  cases op with
  | install => exact wants_of_same hd e he
  | remove => exact wants_of_same hd e he
  | update request caller =>
      simp only [writesTo, DriverExecutionEngine.updateTarget, Bool.and_eq_true] at he
      exact he.1

/-- The commit could write to the entry found. -/
theorem writesTo_self (hd : op.wants d = true) : op.writesTo d d = true := by
  cases op with
  | install => exact same_self d.id d rfl
  | remove => exact same_self d.id d rfl
  | update request caller =>
      simp only [wants] at hd
      simp [writesTo, DriverExecutionEngine.updateTarget, hd]

/-- A commit changes the status of the entry that the lookup found, and nothing
else in the list. -/
theorem commit_split {inv : DriverInventory} (now : UInt64)
    (hfound : inv.drivers.find? op.wants = some d) :
    ∃ pre post stamp, inv.drivers = pre ++ d :: post ∧ (∀ e ∈ pre, op.wants e = false) ∧
      op.commit d now inv = { inv with
        drivers := pre ++ { d with status := op.newStatus } :: post
        lastScanTimestamp := stamp } := by
  obtain ⟨hd, pre, post, hsplit, hpre⟩ := firstMatch_split hfound
  have hpre' := false_of_imp (wants_of_writesTo hd) hpre
  cases op with
  | install | remove =>
      refine ⟨pre, post, now, hsplit, hpre, ?_⟩
      simp only [commit, hsplit]
      rw [updateFirst_split _ hpre' (writesTo_self hd)]
  | update =>
      refine ⟨pre, post, inv.lastScanTimestamp, hsplit, hpre, ?_⟩
      simp only [commit, hsplit]
      rw [setFirst_split _ hpre' (writesTo_self hd)]

/-- A rollback writes an unchanged entry back to its own place. -/
theorem restore_eq_self {drivers : List DriverEntry}
    (hfound : drivers.find? op.wants = some d) :
    setFirst d.id.same d drivers = drivers :=
  setFirst_eq_self hfound (same_self d.id d rfl) (wants_of_same (List.find?_some hfound))

end Operation

/-- A completed call changed the status of the entry that its lookup finds, to the status
that the call stands for; every other call left the inventory as it was. -/
theorem inventory_of_performed {engine : DriverExecutionEngine} {env : Env}
    {op : Operation} {w w' : World} {r : OperationResult}
    (h : engine.Performed env op w.fresh r w') :
    (r.status = .completed ∧ ∃ pre d post stamp, w.inventory.drivers = pre ++ d :: post ∧
      op.wants d = true ∧ (∀ e ∈ pre, op.wants e = false) ∧
      w'.inventory = { w.inventory with
        drivers := pre ++ { d with status := op.newStatus } :: post
        lastScanTimestamp := stamp }) ∨
    r.status = .failed ∧ w'.inventory = w.inventory := by
  cases h with
  | refused r w' hquiet hrefused _ => exact Or.inr ⟨hrefused.1, hquiet.inventory_eq⟩
  | executed d w₁ r w' hchecks hquiet _ hfound _ hdone =>
      have hinv : w₁.inventory = w.inventory := hquiet.inventory_eq
      cases hdone with
      | committed now es _ _ =>
          obtain ⟨pre, post, stamp, hsplit, hpre, hcommit⟩ := Operation.commit_split now hfound
          refine Or.inl ⟨op.success_status d, pre, d, post, stamp, hsplit,
            List.find?_some hfound, hpre, ?_⟩
          rw [hinv]
          exact hcommit
      | rolledBack e es _ _ =>
          have hself : setFirst d.id.same d w.inventory.drivers = w.inventory.drivers :=
            Operation.restore_eq_self hfound
          refine Or.inr ⟨rfl, ?_⟩
          rw [hinv, hself]

/-- What a call may do to the inventory.  A failed call leaves it as it was, and
one that failed in its checks wrote nothing at all; the message of the result
tells such a failure from one that was rolled back.  A completed call changed
the status of the entry that its lookup finds, and the time of the last scan. -/
structure InventoryFrame (engine : DriverExecutionEngine) (env : Env) (op : Operation)
    (w : World) (r : OperationResult) (w' : World) : Prop where
  ended : r.status = .failed ∨ r.status = .completed
  failed : r.status = .failed → w'.inventory = w.inventory
  failedEarly : r.status = .failed →
    (∀ d, ¬ engine.Admits env op w.fresh d) ∨ r.message ∉ rolledBackMessages →
    w'.kernel = w.kernel ∧ w'.fs = w.fs ∧ ∀ e ∈ w'.trace, e.isWrite = false
  completed : r.status = .completed →
    ∃ pre d post status now, w.inventory.drivers = pre ++ d :: post ∧
      op.wants d = true ∧ (∀ e ∈ pre, op.wants e = false) ∧
      w'.inventory = { w.inventory with
        drivers := pre ++ { d with status := status } :: post
        lastScanTimestamp := now }

/-- Every call respects the frame. -/
theorem inventoryFrame_of_performed {engine : DriverExecutionEngine} {env : Env}
    {op : Operation} {w w' : World} {r : OperationResult}
    (h : engine.Performed env op w.fresh r w') : InventoryFrame engine env op w r w' := by
  rcases inventory_of_performed h with ⟨hcompleted, pre, d, post, stamp, hsplit, hd, hpre, hinv⟩ |
    ⟨hfailed, hinv⟩
  · refine ⟨Or.inr hcompleted, fun hf => ?_, fun hf => ?_, fun _ => ?_⟩
    · rw [hcompleted] at hf
      cases hf
    · rw [hcompleted] at hf
      cases hf
    · exact ⟨pre, d, post, op.newStatus, stamp, hsplit, hd, hpre, hinv⟩
  · refine ⟨Or.inl hfailed, fun _ => hinv, fun _ hmsg => ?_, fun hc => ?_⟩
    · cases h with
      | refused r w' hquiet =>
          obtain ⟨es, htrace, hes⟩ := hquiet.trace_eq
          refine ⟨hquiet.kernel_eq, hquiet.fs_eq, fun e he => ?_⟩
          rw [htrace] at he
          exact Event.isWrite_of_isQuiet (hes e (by simpa [World.fresh] using he))
      | executed d w₁ r w' hchecks _ _ _ _ hdone =>
          cases hdone with
          | committed now es _ _ =>
              rw [op.success_status d] at hfailed
              cases hfailed
          | rolledBack e es _ _ =>
              rcases hmsg with hnone | hmsg
              · exact absurd hchecks (hnone d)
              · exact absurd op.failure_mem hmsg
    · rw [hfailed] at hc
      cases hc

/-- In every run of a new engine, every call leaves the inventory as it was when
it fails, and changes no more than the status of one entry when it completes. -/
theorem calls_respect_inventory (engine : DriverExecutionEngine)
    (inventory : DriverInventory) (sequence : UInt64) (kernel : Kernel)
    (moduleDirs : ModuleDirs) (fs : FileSystem) (inputs : List Input) :
    ∀ t ∈ transitions engine.next (World.boot inventory sequence kernel moduleDirs fs) inputs,
      ∀ env op, t.input = .call env op →
        InventoryFrame engine env op t.before (engine.result env op t.before) t.after :=
  fun t ht env op hinput => inventoryFrame_of_performed
    (engine.performed_of_run inventory sequence kernel moduleDirs fs inputs t ht env op hinput)

/-- The removal of `e1000e`, among two entries of that name. -/
theorem removal_respects_inventory :
    InventoryFrame .strict .smooth (.remove ⟨"E1000E", true⟩ ":1.5")
      (World.boot ⟨[nvidiaDriver, e1000eDriver .active, e1000eDriver .available], [], 0⟩ 0
        (.ofNames [e1000eModule]) inTreeModules .empty)
      (DriverExecutionEngine.strict.result .smooth (.remove ⟨"E1000E", true⟩ ":1.5")
        (World.boot ⟨[nvidiaDriver, e1000eDriver .active, e1000eDriver .available], [], 0⟩ 0
          (.ofNames [e1000eModule]) inTreeModules .empty))
      (DriverExecutionEngine.strict.next (.call .smooth (.remove ⟨"E1000E", true⟩ ":1.5"))
        (World.boot ⟨[nvidiaDriver, e1000eDriver .active, e1000eDriver .available], [], 0⟩ 0
          (.ofNames [e1000eModule]) inTreeModules .empty)) :=
  calls_respect_inventory .strict
    ⟨[nvidiaDriver, e1000eDriver .active, e1000eDriver .available], [], 0⟩ 0
    (.ofNames [e1000eModule]) inTreeModules .empty
    [.call .smooth (.remove ⟨"E1000E", true⟩ ":1.5")] _ List.mem_cons_self _ _ rfl

end MissionOs.Driverd
