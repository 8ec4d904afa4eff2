import Mathlib.Order.Nat
import MissionOs.Driverd.CompatibilityJudges
import MissionOs.Lib.PaddedLex
import MissionOs.Rust.Decimal

/-!
# Ranges of kernels

The matcher and the conflict detector compare the numbers in a kernel version with those of a
range in two loops, one for the minimum and one for the maximum.  `Contains` says what a range
is in terms of the zero-padded lexicographic order, in which the maximum counts for as many
numbers as it has: `6.8` is not below `6.8.12`.

For a valid range and a kernel version whose numbers can be read, the two judges accept
exactly what the range contains, and that is an interval (`kernel_checks_iff`).
-/

namespace MissionOs.Driverd

open MissionOs.Rust MissionOs.Lib

/-! ## Valid ranges -/

/-- The loop over the components of a version in `KernelCompatibility::validate`, with the
text of its error. -/
def validateComponents (text : String) : List (List Char) → ServiceResult Unit
  | [] => .ok ()
  | part :: rest =>
      match parseU64 part with
      | .error _ => .error (.invalidArgument (text ++ String.ofList part))
      | .ok _ => validateComponents text rest

/-- `KernelCompatibility::validate`. -/
def KernelCompatibility.validate (compat : KernelCompatibility) : ServiceResult Unit := do
  if trimIsEmpty compat.minVersion then
    throw (.invalidArgument "min_version must not be empty")
  validateComponents "invalid kernel version component: " (compat.minVersion.toList.splitOn '.')
  match compat.maxVersion with
  | none => pure ()
  | some max =>
    validateComponents "invalid kernel max version component: " (max.toList.splitOn '.')

/-- Every component of a version that passes is a number. -/
theorem parseU64_of_validateComponents {text : String} {parts : List (List Char)}
    (h : validateComponents text parts = .ok ()) :
    ∀ part ∈ parts, ∃ n, parseU64 part = .ok n := by
  induction parts with
  | nil => simp
  | cons part rest ih =>
      rw [validateComponents] at h
      rw [List.forall_mem_cons]
      cases hpart : parseU64 part with
      | error e =>
          rw [hpart] at h
          cases h
      | ok n =>
          rw [hpart] at h
          exact ⟨⟨n, rfl⟩, ih h⟩

theorem KernelCompatibility.components_of_validate {range : KernelCompatibility}
    (h : range.validate = .ok ()) :
    (∀ part ∈ range.minVersion.toList.splitOn '.', ∃ n, parseU64 part = .ok n) ∧
      ∀ max ∈ range.maxVersion, ∀ part ∈ max.toList.splitOn '.', ∃ n, parseU64 part = .ok n := by
  rw [validate] at h
  split at h
  · cases h
  · cases hmin : validateComponents "invalid kernel version component: "
        (range.minVersion.toList.splitOn '.') with
    | error e =>
        rw [hmin] at h
        cases h
    | ok u =>
        rw [hmin] at h
        refine ⟨parseU64_of_validateComponents hmin, fun max hmax => ?_⟩
        rw [Option.mem_def.mp hmax] at h
        exact parseU64_of_validateComponents h

/-! ## Numbers -/

/-- The number of a component: a `+` before it does not count. -/
def componentNumber (part : List Char) : Nat := decimal (part.filter Char.isDigit)

/-- The components of a version of a range. -/
def components (version : String) : List Nat := (version.toList.splitOn '.').map componentNumber

/-- The runs of digits in the version of a kernel, as numbers. -/
def digitRuns (version : String) : List Nat :=
  ((version.toList.splitOnP fun c => !c.isDigit).filter (· ≠ [])).map decimal

/-- The version of a kernel has a number, and all its numbers fit in 64 bits. -/
def Readable (runs : List Nat) : Prop := runs ≠ [] ∧ ∀ n ∈ runs, n < 2 ^ 64

theorem componentNumber_of_parseU64 {part : List Char} {n : UInt64}
    (h : parseU64 part = .ok n) : componentNumber part = n.toNat := by
  obtain ⟨digits, htext, hdigits, hvalue⟩ := parseU64_eq_ok_iff.mp h
  have hfilter : part.filter Char.isDigit = digits := by
    rcases htext with rfl | rfl
    · exact List.filter_eq_self.mpr hdigits.2
    · rw [List.filter_cons_of_neg (by decide)]
      exact List.filter_eq_self.mpr hdigits.2
  rw [componentNumber, hfilter, hvalue]

/-- Of a version whose components are all numbers, none is skipped. -/
theorem toNat_versionNumbers {parts : List (List Char)}
    (h : ∀ part ∈ parts, ∃ n, parseU64 part = .ok n) :
    (versionNumbers parts).map UInt64.toNat = parts.map componentNumber := by
  induction parts with
  | nil => rfl
  | cons part rest ih =>
      obtain ⟨⟨n, hn⟩, hrest⟩ := List.forall_mem_cons.mp h
      have hhead : versionNumbers (part :: rest) = n :: versionNumbers rest := by
        simp [versionNumbers, hn, Except.toOption]
      rw [hhead, List.map_cons, List.map_cons, componentNumber_of_parseU64 hn, ih hrest]

/-- Of the runs of digits in a text, those that fit are read, and nothing else is. -/
theorem toNat_versionNumbers_runs {runs : List (List Char)}
    (hdigits : ∀ run ∈ runs, ∀ c ∈ run, c.isDigit = true)
    (hfit : ∀ n ∈ (runs.filter (· ≠ [])).map decimal, n < 2 ^ 64) :
    (versionNumbers runs).map UInt64.toNat = (runs.filter (· ≠ [])).map decimal := by
  induction runs with
  | nil => rfl
  | cons run runs ih =>
      obtain ⟨hrun, hrest⟩ := List.forall_mem_cons.mp hdigits
      by_cases hempty : run = []
      · have hskip : versionNumbers (run :: runs) = versionNumbers runs := by
          rw [hempty]
          rfl
        rw [List.filter_cons_of_neg (by simpa using hempty)] at hfit ⊢
        rw [hskip, ih hrest hfit]
      · rw [List.filter_cons_of_pos (by simpa using hempty), List.map_cons] at hfit ⊢
        obtain ⟨hhead, htail⟩ := List.forall_mem_cons.mp hfit
        have hread : versionNumbers (run :: runs) =
            UInt64.ofNat (decimal run) :: versionNumbers runs := by
          simp [versionNumbers, parseU64_of_isDecimal ⟨hempty, hrun⟩ hhead, Except.toOption]
        rw [hread, List.map_cons, ih hrest htail, UInt64.toNat_ofNat_of_lt' hhead]

theorem toNat_kernelNumbers {system : SystemInfo}
    (h : ∀ n ∈ digitRuns system.kernelVersion, n < 2 ^ 64) :
    system.kernelNumbers.map UInt64.toNat = digitRuns system.kernelVersion := by
  apply toNat_versionNumbers_runs
  · intro run hrun c hc
    simpa using not_of_mem_splitOnP hrun c hc
  · exact h

/-! ## The loops -/

section Loops

variable {sys : List UInt64}

/-- The number of a system at a place is the first of those from there on. -/
theorem headD_drop (sys : List UInt64) (i : Nat) :
    ((sys.drop i).map UInt64.toNat).headD ⊥ = (sys.getD i 0).toNat := by
  rw [List.getD_eq_getElem?_getD, ← List.head?_drop]
  cases sys.drop i <;> rfl

theorem tail_drop (sys : List UInt64) (i : Nat) :
    ((sys.drop i).map UInt64.toNat).tail = (sys.drop (i + 1)).map UInt64.toNat := by
  rw [← List.map_tail, List.tail_drop]

/-- The loop over a minimum decides the order. -/
theorem olderThan_eq_false_iff (i : Nat) (parts : List UInt64) :
    olderThan sys i parts = false ↔
      padded (parts.map UInt64.toNat) ≤ padded ((sys.drop i).map UInt64.toNat) := by
  induction parts generalizing i with
  | nil => exact iff_of_true rfl (padded_nil_le _)
  | cons part parts ih =>
      rw [padded_le_iff, headD_drop, tail_drop, olderThan]
      simp only [List.map_cons, List.headD_cons, List.tail_cons]
      rw [← ih]
      split_ifs with hless hmore
      · rw [UInt64.lt_iff_toNat_lt] at hless
        simp only [false_iff]
        omega
      · rw [UInt64.lt_iff_toNat_lt] at hmore
        exact iff_of_true rfl (Or.inl hmore)
      · rw [UInt64.lt_iff_toNat_lt] at hless hmore
        constructor
        · intro h
          exact Or.inr ⟨by omega, h⟩
        · intro hright
          rcases hright with hlt | ⟨-, h⟩
          · exact absurd hlt hmore
          · exact h

/-- The loop over a maximum decides the order of as many numbers as the maximum has. -/
theorem newerThan_eq_false_iff (i : Nat) (parts : List UInt64) :
    newerThan sys i parts = false ↔
      padded (((sys.drop i).map UInt64.toNat).take parts.length) ≤
        padded (parts.map UInt64.toNat) := by
  induction parts generalizing i with
  | nil => exact iff_of_true rfl (padded_nil_le _)
  | cons part parts ih =>
      have hhead : (((sys.drop i).map UInt64.toNat).take (parts.length + 1)).headD ⊥ =
          (sys.getD i 0).toNat := by
        rw [← headD_drop]
        cases (sys.drop i).map UInt64.toNat <;> rfl
      have htail : (((sys.drop i).map UInt64.toNat).take (parts.length + 1)).tail =
          ((sys.drop (i + 1)).map UInt64.toNat).take parts.length := by
        rw [← tail_drop]
        cases (sys.drop i).map UInt64.toNat <;> simp
      rw [List.length_cons, padded_le_iff, hhead, htail, newerThan]
      simp only [List.map_cons, List.headD_cons, List.tail_cons]
      rw [← ih]
      split_ifs with hmore hless
      · rw [UInt64.lt_iff_toNat_lt] at hmore
        simp only [false_iff]
        omega
      · rw [UInt64.lt_iff_toNat_lt] at hless
        exact iff_of_true rfl (Or.inl hless)
      · rw [UInt64.lt_iff_toNat_lt] at hless hmore
        constructor
        · intro h
          exact Or.inr ⟨by omega, h⟩
        · intro hright
          rcases hright with hlt | ⟨-, h⟩
          · exact absurd hlt hless
          · exact h

end Loops

/-! ## Ranges -/

namespace KernelCompatibility

/-- What a range contains: the versions from the minimum on whose first numbers, as many as
the maximum has, are at most the maximum. -/
structure Contains (range : KernelCompatibility) (version : List Nat) : Prop where
  min : padded (components range.minVersion) ≤ padded version
  max : ∀ max ∈ range.maxVersion,
    padded (version.take (components max).length) ≤ padded (components max)

variable {range : KernelCompatibility}

/-- A version between two versions of a range is in it. -/
theorem Contains.between {a b c : List Nat} (ha : range.Contains a) (hc : range.Contains c)
    (hab : padded a ≤ padded b) (hbc : padded b ≤ padded c) : range.Contains b where
  min := ha.min.trans hab
  max max hmax := (padded_take_le hbc _).trans (hc.max max hmax)

theorem contains_iff (hvalid : range.validate = .ok ()) {system : SystemInfo}
    (hfit : ∀ n ∈ digitRuns system.kernelVersion, n < 2 ^ 64) :
    range.Contains (digitRuns system.kernelVersion) ↔
      olderThan system.kernelNumbers 0 (versionNumbers (range.minVersion.toList.splitOn '.')) =
          false ∧
        ∀ max ∈ range.maxVersion,
          newerThan system.kernelNumbers 0 (versionNumbers (max.toList.splitOn '.')) =
            false := by
  obtain ⟨hmin, hmax⟩ := components_of_validate hvalid
  have hcomponents : ∀ version : String,
      (∀ part ∈ version.toList.splitOn '.', ∃ n, parseU64 part = .ok n) →
      (versionNumbers (version.toList.splitOn '.')).map UInt64.toNat = components version :=
    fun _ h => toNat_versionNumbers h
  rw [← toNat_kernelNumbers hfit]
  constructor
  · intro h
    constructor
    · rw [olderThan_eq_false_iff, hcomponents _ hmin]
      exact h.min
    · intro max hsome
      have hle := h.max max hsome
      rw [newerThan_eq_false_iff, hcomponents _ (hmax max hsome)]
      rwa [← hcomponents _ (hmax max hsome), List.length_map, hcomponents _ (hmax max hsome)]
        at hle
  · intro hright
    obtain ⟨holder, hnewer⟩ := hright
    constructor
    · rwa [olderThan_eq_false_iff, hcomponents _ hmin] at holder
    · intro max hsome
      have hle := hnewer max hsome
      rw [newerThan_eq_false_iff, hcomponents _ (hmax max hsome)] at hle
      rwa [← hcomponents _ (hmax max hsome), List.length_map, hcomponents _ (hmax max hsome)]

end KernelCompatibility

/-! ## The judges -/

section Judges

variable {range : KernelCompatibility} {system : SystemInfo}

theorem kernelNumbers_ne_nil (h : Readable (digitRuns system.kernelVersion)) :
    system.kernelNumbers ≠ [] := by
  intro hnil
  have hmap := toNat_kernelNumbers h.2
  rw [hnil] at hmap
  exact h.1 hmap.symm

theorem kernelInRange_iff (hvalid : range.validate = .ok ())
    (hreadable : Readable (digitRuns system.kernelVersion)) :
    kernelInRange system.kernelNumbers range = true ↔
      range.Contains (digitRuns system.kernelVersion) := by
  have hne : system.kernelNumbers.isEmpty = false :=
    List.isEmpty_eq_false_iff.mpr (kernelNumbers_ne_nil hreadable)
  rw [KernelCompatibility.contains_iff hvalid hreadable.2, kernelInRange, hne]
  cases range.maxVersion <;> simp

/-- The matcher knows a kernel with a number. -/
theorem checkKernelCompatibility_ne_unknown (h : system.kernelNumbers ≠ [])
    (driver : DriverEntry) :
    (⟨system⟩ : HardwareMatcher).checkKernelCompatibility driver ≠ .unknown := by
  rw [HardwareMatcher.checkKernelCompatibility]
  dsimp only
  rw [if_neg (by simpa [SystemInfo.kernelNumbers] using h)]
  split_ifs
  · exact KernelCheckResult.noConfusion
  · cases driver.id.kernelCompat.maxVersion with
    | none => exact KernelCheckResult.noConfusion
    | some max =>
        dsimp only
        split_ifs
        · exact KernelCheckResult.noConfusion
        · exact KernelCheckResult.noConfusion

theorem checkKernelCompatibility_eq_iff (h : system.kernelNumbers ≠ []) (driver : DriverEntry) :
    (⟨system⟩ : HardwareMatcher).checkKernelCompatibility driver = .compatible ↔
      kernelInRange system.kernelNumbers driver.id.kernelCompat = true := by
  rw [← matcher_accepts_kernel]
  cases hcheck : (⟨system⟩ : HardwareMatcher).checkKernelCompatibility driver with
  | compatible => exact iff_of_true rfl rfl
  | incompatible reason => exact iff_of_false (fun h => nomatch h) Bool.false_ne_true
  | unknown => exact absurd hcheck (checkKernelCompatibility_ne_unknown h driver)

end Judges

/-- For a valid range, the matcher and the detector accept a kernel whose numbers can be read
exactly if the range contains it, and the range is an interval of versions. -/
theorem kernel_checks_iff (range : KernelCompatibility) (hvalid : range.validate = .ok ()) :
    (∀ (system : SystemInfo) (driver : DriverEntry),
      Readable (digitRuns system.kernelVersion) → driver.id.kernelCompat = range →
        ((⟨system⟩ : HardwareMatcher).checkKernelCompatibility driver = .compatible ↔
          range.Contains (digitRuns system.kernelVersion)) ∧
        ∀ unicode, (((⟨system, unicode⟩ : ConflictDetector).checkKernel driver).hasConflicts =
            false ↔ range.Contains (digitRuns system.kernelVersion))) ∧
    ∀ a b c : List Nat, range.Contains a → range.Contains c →
      padded a ≤ padded b → padded b ≤ padded c → range.Contains b := by
  constructor
  · intro system driver hreadable heq
    subst heq
    rw [← kernelInRange_iff hvalid hreadable]
    constructor
    · exact checkKernelCompatibility_eq_iff (kernelNumbers_ne_nil hreadable) driver
    · intro unicode
      rw [← detector_accepts_kernel ⟨system, unicode⟩ driver, Bool.not_eq_true']
  · intro a b c ha hc hab hbc
    exact ha.between hc hab hbc

/-- The kernel `6.8.12-generic` is in the range from 5.4.0 to 6.8. -/
theorem kernel_6_8_12_in_range :
    KernelCompatibility.Contains ⟨"5.4.0", some "6.8", []⟩ [6, 8, 12] := by
  have hruns : digitRuns "6.8.12-generic" = [6, 8, 12] := by decide
  have hreadable : Readable (digitRuns "6.8.12-generic") := ⟨by decide, by decide⟩
  rw [← hruns]
  apply ((kernel_checks_iff ⟨"5.4.0", some "6.8", []⟩ rfl).1
    ⟨"6.8.12-generic", "x86_64", []⟩ (judgedDriver ⟨"5.4.0", some "6.8", []⟩ "x86_64")
    hreadable rfl).1.mp
  decide

end MissionOs.Driverd
