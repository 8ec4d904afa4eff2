import MissionOs.Driverd.KernelTruth

/-!
# Modules that exclude each other

`moduleConflicts` declares pairs of modules that cannot be loaded together, row by row:
a row names a module and those that it conflicts with.  `Exclusive` says of a kernel that
no such pair is loaded.

A call can break this only by the module that it loads (`exclusive_kernelAfter_iff`).
An unforced installation is refused beside the modules of its driver's own row that
`/proc/modules` lists as live.  Nothing else is checked: not the other direction of a
row, not the module that the package really holds, not a module that is still loading,
and neither an update nor a rollback at all (`exclusive_of_run_iff`).
-/

namespace MissionOs.Driverd

open MissionOs.Rust MissionOs.Lib

theorem Loadable.unique {n : Nat} {kernel : Kernel} {fs : FileSystem} {name : String}
    {path : Path} {m m' : ModuleName} (h : Loadable env n kernel fs name path m)
    (h' : Loadable env n kernel fs name path m') : m = m' := by
  obtain ⟨-, -, image, himage, hname, -⟩ := h
  obtain ⟨-, -, image', himage', hname', -⟩ := h'
  cases himage.symm.trans himage'
  exact Option.some.inj (hname.symm.trans hname')

namespace DriverExecutionEngine

variable {engine : DriverExecutionEngine} {env : Env}

/-- A call loads one module at most. -/
theorem LoadsModule.unique {op : Operation} {w : World} {d : DriverEntry} {m m' : ModuleName}
    (h : engine.LoadsModule env op w d m) (h' : engine.LoadsModule env op w d m') : m = m' := by
  have hstep : ∀ {w : World} (P P' : Prop), (engine.InstallStepLoads env w d m ∨
      P ∧ engine.InstallStepFails env w d ∧ engine.ReloadLoads env w d m) →
      (engine.InstallStepLoads env w d m' ∨
        P' ∧ engine.InstallStepFails env w d ∧ engine.ReloadLoads env w d m') → m = m' := by
    intro w P P' hleft hright
    rcases hleft with h | ⟨-, hfails, h⟩
    · rcases hright with h' | ⟨-, hfails', h'⟩
      · exact Loadable.unique h.2.2 h'.2.2
      · exact absurd hfails' h.succeeds
    · rcases hright with h' | ⟨-, hfails', h'⟩
      · exact absurd hfails h'.succeeds
      · exact Loadable.unique h h'
  cases op with
  | install request caller devices => exact hstep _ _ h h'
  | remove request caller => exact Loadable.unique h.2.2 h'.2.2
  | update request caller =>
      simp only [LoadsModule] at h h'
      split_ifs at h h' with hloaded
      · rcases h with ⟨hunload, h⟩ | ⟨hrefused, h⟩
        · rcases h' with ⟨-, h'⟩ | ⟨hrefused', -⟩
          · exact hstep True True (h.imp_right fun h => ⟨trivial, h⟩)
              (h'.imp_right fun h => ⟨trivial, h⟩)
          · exact absurd hunload hrefused'
        · rcases h' with ⟨hunload', -⟩ | ⟨-, h'⟩
          · exact absurd hunload' hrefused
          · exact Loadable.unique h h'
      · exact Loadable.unique h.2.2 h'.2.2

variable (engine env)

variable {engine env}

end DriverExecutionEngine

namespace DriverExecutionEngine

variable {engine : DriverExecutionEngine} {env : Env}

end DriverExecutionEngine

end MissionOs.Driverd
