import MissionOs.Driverd.Conflict
import MissionOs.Driverd.Scanner
import MissionOs.Lib.FirstMatch

/-!
# Duplicate installations

`check_duplicate` stops at the first operational entry with the name and the provider of a driver,
and looks at the version of no other.

`checksDuplicates_iff` says for which inventories the check finds exactly the duplicates, in every
order of the list.
-/

namespace MissionOs.Driverd

open MissionOs.Rust MissionOs.Lib

/-- An operational entry with the name and the provider of the driver, up to ASCII case. -/
def DriverEntry.Installs (d driver : DriverEntry) : Prop :=
  eqIgnoreAsciiCase d.id.name driver.id.name = true ∧
    eqIgnoreAsciiCase d.id.provider driver.id.provider = true ∧ d.status.isOperational = true

/-- The test of `check_duplicate` for an entry. -/
def installsTest (driver d : DriverEntry) : Bool :=
  eqIgnoreAsciiCase d.id.name driver.id.name &&
    eqIgnoreAsciiCase d.id.provider driver.id.provider &&
    (d.status.isOperational || d.status = .installed)

theorem installsTest_iff {driver d : DriverEntry} :
    installsTest driver d = true ↔ d.Installs driver := by
  have hinstalled : d.status = .installed → d.status.isOperational = true := by
    intro h
    rw [h]
    rfl
  simp only [installsTest, DriverEntry.Installs, Bool.and_eq_true, Bool.or_eq_true,
    decide_eq_true_eq, and_assoc, or_iff_left_of_imp hinstalled]

namespace ConflictDetector

variable (driver : DriverEntry) (inventoryDrivers : List DriverEntry)

/-- What the check answers for an entry at which it stops. -/
def duplicateAt (d : DriverEntry) : ConflictResult :=
  if d.id.version = driver.id.version then
    .single ⟨.duplicateInstallation,
      "Driver '" ++ driver.id.provider ++ "/" ++ driver.id.name ++ "' is already installed",
      "Current version: " ++ d.id.version.display ++ ". Use update to upgrade."⟩
  else .none

theorem checkDuplicate_eq :
    checkDuplicate driver inventoryDrivers =
      ((inventoryDrivers.find? (installsTest driver)).map (duplicateAt driver)).getD .none := by
  cases hfind : inventoryDrivers.find? (installsTest driver) with
  | none =>
      unfold installsTest at hfind
      rw [checkDuplicate, hfind]
      rfl
  | some d =>
      unfold installsTest at hfind
      rw [checkDuplicate, hfind]
      rfl

theorem reports_duplicateAt_iff {d : DriverEntry} :
    (duplicateAt driver d).Reports .duplicateInstallation ↔ d.id.version = driver.id.version := by
  unfold duplicateAt
  split_ifs with h
  · exact iff_of_true (ConflictResult.reports_single_iff.mpr rfl) h
  · exact iff_of_false (ConflictResult.not_reports_none _) h

/-- Two entries with the same answer to whether they have the version are answered alike. -/
theorem duplicateAt_eq_iff {d d' : DriverEntry} :
    duplicateAt driver d = duplicateAt driver d' ↔
      (d.id.version = driver.id.version ↔ d'.id.version = driver.id.version) := by
  constructor
  · intro h
    rw [← reports_duplicateAt_iff, h, reports_duplicateAt_iff]
  · intro h
    unfold duplicateAt
    by_cases hd : d.id.version = driver.id.version
    · rw [if_pos hd, if_pos (h.mp hd), hd, h.mp hd]
    · rw [if_neg hd, if_neg (fun hd' => hd (h.mpr hd'))]

/-- The check reports a duplicate exactly if an operational entry of the name and the provider has
the version, and its answer does not depend on the order of the list. -/
structure ChecksDuplicates : Prop where
  exact : (checkDuplicate driver inventoryDrivers).Reports .duplicateInstallation ↔
    ∃ d ∈ inventoryDrivers, d.Installs driver ∧ d.id.version = driver.id.version
  unordered : ∀ l, l.Perm inventoryDrivers →
    checkDuplicate driver l = checkDuplicate driver inventoryDrivers

/-- The first entry at which the check stops decides. -/
theorem reports_checkDuplicate_iff :
    (checkDuplicate driver inventoryDrivers).Reports .duplicateInstallation ↔
      ∃ d, inventoryDrivers.find? (installsTest driver) = some d ∧
        d.id.version = driver.id.version := by
  rw [checkDuplicate_eq]
  cases inventoryDrivers.find? (installsTest driver) with
  | none => exact iff_of_false (ConflictResult.not_reports_none _) (by simp)
  | some d => simpa using reports_duplicateAt_iff driver

/-- The check is right, in every order, exactly if the operational entries of the name and the
provider all have the version of the driver, or none has it. -/
theorem checksDuplicates_iff :
    ChecksDuplicates driver inventoryDrivers ↔
      (∀ d ∈ inventoryDrivers, d.Installs driver → d.id.version = driver.id.version) ∨
        ∀ d ∈ inventoryDrivers, d.Installs driver → d.id.version ≠ driver.id.version := by
  constructor
  · intro h
    by_contra hmixed
    push Not at hmixed
    obtain ⟨⟨d, hd, hinstalls, hother⟩, ⟨d', hd', hinstalls', hsame⟩⟩ := hmixed
    -- The order with the other version in front is answered differently.
    obtain ⟨l, hl, hfind⟩ := exists_perm_find? hd (installsTest_iff.mpr hinstalls)
    have hreports := h.exact.mpr ⟨d', hd', hinstalls', hsame⟩
    rw [← h.unordered l hl, reports_checkDuplicate_iff] at hreports
    obtain ⟨d'', hfind', hversion⟩ := hreports
    cases hfind.symm.trans hfind'
    exact hother hversion
  · intro h
    have hagree : ∀ d ∈ inventoryDrivers, installsTest driver d = true →
        ∀ d' ∈ inventoryDrivers, installsTest driver d' = true →
        duplicateAt driver d = duplicateAt driver d' := by
      intro d hd hinstalls d' hd' hinstalls'
      rw [installsTest_iff] at hinstalls hinstalls'
      rw [duplicateAt_eq_iff]
      rcases h with hall | hnone
      · exact iff_of_true (hall d hd hinstalls) (hall d' hd' hinstalls')
      · exact iff_of_false (hnone d hd hinstalls) (hnone d' hd' hinstalls')
    constructor
    · rw [reports_checkDuplicate_iff]
      constructor
      · intro hright
        obtain ⟨d, hfind, hversion⟩ := hright
        refine ⟨d, List.mem_of_find?_eq_some hfind, ?_, hversion⟩
        exact installsTest_iff.mp (List.find?_some hfind)
      · intro hright
        obtain ⟨d, hd, hinstalls, hversion⟩ := hright
        obtain ⟨d', hfind⟩ : ∃ d', inventoryDrivers.find? (installsTest driver) = some d' := by
          apply Option.isSome_iff_exists.mp
          exact List.find?_isSome.mpr ⟨d, hd, installsTest_iff.mpr hinstalls⟩
        refine ⟨d', hfind, ?_⟩
        have hsame := hagree d hd (installsTest_iff.mpr hinstalls) d'
          (List.mem_of_find?_eq_some hfind) (List.find?_some hfind)
        exact ((duplicateAt_eq_iff driver).mp hsame).mp hversion
    · intro l hl
      rw [checkDuplicate_eq, checkDuplicate_eq, find?_map_perm_iff.mpr hagree l hl]

end ConflictDetector

/-- With `e1000e` 6.9.0 listed before 6.8.0, no duplicate of 6.8.0 is found. -/
theorem second_version_not_found :
    ¬ ∀ (driver : DriverEntry) (inventoryDrivers : List DriverEntry),
      ConflictDetector.ChecksDuplicates driver inventoryDrivers := by
  intro h
  have hexact := (h (e1000eDriver .active)
    [{ e1000eDriver .active with id := { (e1000eDriver .active).id with version := .new 6 9 0 } },
      e1000eDriver .active]).exact
  have hreports := hexact.mpr ⟨e1000eDriver .active, by decide,
    installsTest_iff.mp (by decide), rfl⟩
  rw [ConflictDetector.reports_checkDuplicate_iff] at hreports
  revert hreports
  decide

end MissionOs.Driverd
