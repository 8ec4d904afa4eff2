import MissionOs.Driverd.SelectionPolicy
import MissionOs.Rust.Decimal

/-!
# The judges of compatibility

Three parts of a selection and an installation judge kernels and architectures: the
matcher, the conflict detector and the selector.  The matcher and the detector judge by
the system that they were given.  The selector has such a matcher, but its own checks
ask the running machine.

So the three agree on every range and every architecture exactly if the given system and
the running machine cannot be told apart (`judges_agree_iff`): the numbers in their kernel
versions are the same up to zeros at the end, and their architectures have the same usual
name.
-/

namespace MissionOs.Driverd

open MissionOs.Rust MissionOs.Lib

/-! ## Versions -/

section Digits

/-- The version string with the given numbers. -/
def versionString (numbers : List UInt64) : String :=
  String.ofList (['.'].intercalate (numbers.map fun n => Nat.toDigits 10 n.toNat))

/-- Every list of numbers is that of a version string. -/
theorem versionNumbers_versionString {numbers : List UInt64} (hne : numbers ≠ []) :
    versionNumbers ((versionString numbers).toList.splitOn '.') = numbers := by
  rw [versionString, String.toList_ofList, List.splitOn_intercalate]
  · rw [versionNumbers, List.filterMap_map]
    have hread : ((fun p => (parseU64 p).toOption) ∘ fun n : UInt64 =>
        Nat.toDigits 10 n.toNat) = some := by
      funext n
      simp only [Function.comp_apply, parseU64_toDigits]
      rfl
    rw [hread, List.filterMap_some]
  · intro l hl hdot
    obtain ⟨n, -, rfl⟩ := List.mem_map.mp hl
    exact absurd (Nat.isDigit_of_mem_toDigits (by decide) (by decide) hdot) (by decide)
  · simpa using hne

end Digits

section Numbers

variable {s t : List UInt64}

/-- Only the numbers of the system count, filled up with zeros. -/
theorem olderThan_congr (h : ∀ i, s.getD i 0 = t.getD i 0) (i : Nat) (parts : List UInt64) :
    olderThan s i parts = olderThan t i parts := by
  induction parts generalizing i with
  | nil => rfl
  | cons p parts ih => rw [olderThan, olderThan, h i, ih]

theorem newerThan_congr (h : ∀ i, s.getD i 0 = t.getD i 0) (i : Nat) (parts : List UInt64) :
    newerThan s i parts = newerThan t i parts := by
  induction parts generalizing i with
  | nil => rfl
  | cons p parts ih => rw [newerThan, newerThan, h i, ih]

/-- A system is not older than its own numbers. -/
theorem olderThan_self (s : List UInt64) (i n : Nat) :
    olderThan s i ((List.range' i n).map (s.getD · 0)) = false := by
  induction n generalizing i with
  | zero => rfl
  | succ n ih =>
      rw [List.range'_succ, List.map_cons, olderThan, if_neg (UInt64.lt_irrefl _),
        if_neg (UInt64.lt_irrefl _), ih]

/-- A system is older than numbers that agree with its own up to `n` places and are larger
in the next. -/
theorem olderThan_of_lt {f : Nat → UInt64} {i n : Nat}
    (heq : ∀ j < n, s.getD (i + j) 0 = f (i + j)) (hlt : s.getD (i + n) 0 < f (i + n)) :
    olderThan s i ((List.range' i (n + 1)).map f) = true := by
  induction n generalizing i with
  | zero =>
      rw [Nat.add_zero] at hlt
      rw [List.range'_one, List.map_singleton, olderThan, if_pos hlt]
  | succ n ih =>
      have hhead : s.getD i 0 = f i := heq 0 (by omega)
      rw [List.range'_succ, List.map_cons, olderThan, hhead, if_neg (UInt64.lt_irrefl _),
        if_neg (UInt64.lt_irrefl _)]
      apply ih
      · intro j hj
        rw [Nat.add_right_comm]
        exact heq (j + 1) (by omega)
      · rw [Nat.add_right_comm]
        exact hlt

end Numbers

/-! ## Architectures -/

/-- The usual name of an architecture, as `normalized_architecture` gives it. -/
def usualArchitecture : String → String
  | "amd64" => "x86_64"
  | "arm64" => "aarch64"
  | arch => arch

/-- The checks for an architecture compare usual names. -/
theorem architecture_fits_iff (a b : String) :
    (a = b || architectureAliases.contains (a, b)) = true ↔
      usualArchitecture a = usualArchitecture b := by
  unfold usualArchitecture
  split <;> split <;> simp_all [architectureAliases]
  · grind
  · grind

theorem usualArchitecture_usualArchitecture (a : String) :
    usualArchitecture (usualArchitecture a) = usualArchitecture a := by
  fun_cases usualArchitecture a with
  | case1 => rfl
  | case2 => rfl
  | case3 h₁ h₂ => rw [usualArchitecture] <;> assumption

/-! ## The judges -/

/-- A kernel is let through unless it is found to be incompatible. -/
def KernelCheckResult.accepts : KernelCheckResult → Bool
  | .incompatible _ => false
  | _ => true

/-- The detector for a system. -/
def Host.detectorFor (host : Host) (system : SystemInfo) : ConflictDetector :=
  ⟨system, host.unicodeLowercase⟩

/-- The numbers in the kernel version of a system. -/
def SystemInfo.kernelNumbers (system : SystemInfo) : List UInt64 :=
  versionNumbers (system.kernelVersion.toList.splitOnP fun c => !c.isDigit)

/-- Whether a kernel with the numbers `sys` is in a range; a kernel without numbers is in
every range. -/
def kernelInRange (sys : List UInt64) (range : KernelCompatibility) : Bool :=
  sys.isEmpty ||
    !olderThan sys 0 (versionNumbers (range.minVersion.toList.splitOn '.')) &&
      match range.maxVersion with
      | none => true
      | some max => !newerThan sys 0 (versionNumbers (max.toList.splitOn '.'))

section Judges

variable (host : Host) (system : SystemInfo)

theorem matcher_accepts_kernel (driver : DriverEntry) :
    ((⟨system⟩ : HardwareMatcher).checkKernelCompatibility driver).accepts =
      kernelInRange system.kernelNumbers driver.id.kernelCompat := by
  simp only [HardwareMatcher.checkKernelCompatibility, kernelInRange,
    SystemInfo.kernelNumbers]
  split_ifs with hempty hmin
  · simp [KernelCheckResult.accepts, hempty]
  · simp [KernelCheckResult.accepts, hempty, hmin]
  · cases driver.id.kernelCompat.maxVersion with
    | none => simp [KernelCheckResult.accepts, hempty, hmin]
    | some max =>
        simp only [hempty, hmin]
        split_ifs with hmax <;> simp [KernelCheckResult.accepts, hmax]

theorem detector_accepts_kernel (detector : ConflictDetector) (driver : DriverEntry) :
    (!(detector.checkKernel driver).hasConflicts) =
      kernelInRange detector.system.kernelNumbers driver.id.kernelCompat := by
  simp only [ConflictDetector.checkKernel, kernelInRange, SystemInfo.kernelNumbers]
  by_cases hempty : (versionNumbers
      (detector.system.kernelVersion.toList.splitOnP fun c => !c.isDigit)).isEmpty = true
  · simp [hempty, ConflictResult.none]
  · rw [if_neg hempty, Bool.eq_false_of_not_eq_true hempty, Bool.false_or]
    split
    · rename_i hmin
      simp [hmin, ConflictResult.single]
    · rename_i hmin
      rw [Bool.eq_false_of_not_eq_true hmin, Bool.not_false, Bool.true_and]
      cases driver.id.kernelCompat.maxVersion with
      | none => rfl
      | some max =>
          simp only
          split
          · rename_i hmax
            simp [hmax, ConflictResult.single]
          · rename_i hmax
            simp [hmax, ConflictResult.none]

theorem selector_accepts_kernel (range : KernelCompatibility) :
    DriverSelector.isKernelCompatible host range =
      kernelInRange host.detect.kernelNumbers range := by
  simp only [DriverSelector.isKernelCompatible, kernelInRange, SystemInfo.kernelNumbers]
  split_ifs with hempty hmin
  · simp [hempty]
  · simp [hempty, hmin]
  · simp only [hempty, hmin]
    rfl

theorem matcher_accepts_architecture (driver : DriverEntry) :
    (⟨system⟩ : HardwareMatcher).checkArchitectureMatch host driver = true ↔
      usualArchitecture (host.lower system.architecture) =
        usualArchitecture (host.lower driver.id.arch) :=
  architecture_fits_iff _ _

theorem detector_accepts_architecture (driver : DriverEntry) :
    (!((host.detectorFor system).checkArchitecture driver).hasConflicts) = true ↔
      usualArchitecture (host.lower system.architecture) =
        usualArchitecture (host.lower driver.id.arch) := by
  rw [← architecture_fits_iff]
  simp only [ConflictDetector.checkArchitecture]
  split_ifs with hfits
  · exact iff_of_true rfl hfits
  · exact iff_of_false (by simp [ConflictResult.single]) hfits

theorem selector_accepts_architecture (p : PackageMetadata) :
    DriverSelector.isArchitectureCompatible host p = true ↔
      usualArchitecture (host.lower host.detect.architecture) =
        usualArchitecture (host.lower p.architecture) := by
  rw [← usualArchitecture_usualArchitecture (host.lower p.architecture)]
  exact architecture_fits_iff _ _

/-- A driver that the matcher finds compatible passes the matcher's own two checks. -/
theorem accepts_of_compatible {matcher : HardwareMatcher} {driver : DriverEntry}
    {device : HardwareDevice}
    (h : (matcher.evaluateCompatibility host driver device).compatible = true) :
    (matcher.checkKernelCompatibility driver).accepts = true ∧
      matcher.checkArchitectureMatch host driver = true := by
  simp only [HardwareMatcher.evaluateCompatibility] at h
  constructor
  · cases hkernel : matcher.checkKernelCompatibility driver with
    | compatible => rfl
    | unknown => rfl
    | incompatible reason =>
        rw [hkernel] at h
        cases h
  · by_contra harch
    simp only [harch, if_false] at h
    split at h <;> cases h

end Judges

/-! ## Agreement -/

/-- The three judges of a selection for `system`, which runs on `host`. -/
structure JudgesAgree (host : Host) (system : SystemInfo) : Prop where
  /-- They accept and reject the same ranges of kernels. -/
  kernel : ∀ driver : DriverEntry,
    (!((host.detectorFor system).checkKernel driver).hasConflicts) =
        ((⟨system⟩ : HardwareMatcher).checkKernelCompatibility driver).accepts ∧
      DriverSelector.isKernelCompatible host driver.id.kernelCompat =
        ((⟨system⟩ : HardwareMatcher).checkKernelCompatibility driver).accepts
  /-- They accept and reject the same architectures. -/
  architecture : ∀ (driver : DriverEntry) (p : PackageMetadata), p.architecture = driver.id.arch →
    (!((host.detectorFor system).checkArchitecture driver).hasConflicts) =
        (⟨system⟩ : HardwareMatcher).checkArchitectureMatch host driver ∧
      DriverSelector.isArchitectureCompatible host p =
        (⟨system⟩ : HardwareMatcher).checkArchitectureMatch host driver
  /-- What is selected, the driver and what its package says, passes the detector. -/
  selected : ∀ (selector : DriverSelector) (device : HardwareDevice)
    (drivers : List DriverEntry) (packages : List PackageMetadata) (offer : Offer),
    selector.matcher = ⟨system⟩ → selector.Selects host device drivers packages offer →
    ∀ judged : DriverEntry,
      judged = offer.1 ∨
        (judged.id.kernelCompat = offer.2.kernelCompat ∧
          judged.id.arch = offer.2.architecture) →
      ((host.detectorFor system).checkKernel judged).hasConflicts = false ∧
        ((host.detectorFor system).checkArchitecture judged).hasConflicts = false

/-- No range and no architecture tells two systems apart. -/
structure SystemInfo.Alike (host : Host) (a b : SystemInfo) : Prop where
  known : a.kernelNumbers = [] ↔ b.kernelNumbers = []
  numbers : ∀ i, a.kernelNumbers.getD i 0 = b.kernelNumbers.getD i 0
  architecture : usualArchitecture (host.lower a.architecture) =
    usualArchitecture (host.lower b.architecture)

section Agreement

variable {host : Host} {system : SystemInfo}

theorem SystemInfo.Alike.kernelInRange_eq {a b : SystemInfo} (h : a.Alike host b)
    (range : KernelCompatibility) :
    kernelInRange a.kernelNumbers range = kernelInRange b.kernelNumbers range := by
  have hempty : a.kernelNumbers.isEmpty = b.kernelNumbers.isEmpty := by
    rw [Bool.eq_iff_iff, List.isEmpty_iff, List.isEmpty_iff]
    exact h.known
  simp only [kernelInRange, hempty, olderThan_congr h.numbers, newerThan_congr h.numbers]

/-- The range of all kernels from a version on. -/
def kernelsFrom (numbers : List UInt64) : KernelCompatibility :=
  ⟨versionString numbers, none, []⟩

theorem kernelInRange_kernelsFrom {sys numbers : List UInt64} (hne : numbers ≠ []) :
    kernelInRange sys (kernelsFrom numbers) = (sys.isEmpty || !olderThan sys 0 numbers) := by
  simp only [kernelInRange, kernelsFrom, versionNumbers_versionString hne, Bool.and_true]

/-- A kernel without numbers is in every range, any other kernel is not. -/
theorem nil_of_ranges {a b : List UInt64}
    (h : ∀ range, kernelInRange a range = kernelInRange b range) (ha : a = []) : b = [] := by
  subst ha
  by_contra hb
  -- a later version than that of `b`
  have hlater : olderThan b 0 ((List.range' 0 (b.length + 1)).map fun j => b.getD j 1) = true := by
    apply olderThan_of_lt
    · intro j hj
      simp [List.getD_eq_getElem?_getD, hj]
    · simp [List.getD_eq_getElem?_getD]
  have hrange := h (kernelsFrom ((List.range' 0 (b.length + 1)).map fun j => b.getD j 1))
  rw [kernelInRange_kernelsFrom (by simp), kernelInRange_kernelsFrom (by simp), hlater] at hrange
  simp [hb] at hrange

/-- Of two kernels that no range tells apart, neither has a larger number in the first place
where they differ. -/
theorem not_lt_of_ranges {a b : List UInt64}
    (h : ∀ range, kernelInRange a range = kernelInRange b range) {n : Nat}
    (heq : ∀ j < n, a.getD j 0 = b.getD j 0) : ¬a.getD n 0 < b.getD n 0 := by
  intro hlt
  have hrange := h (kernelsFrom ((List.range' 0 (n + 1)).map (b.getD · 0)))
  have holder : olderThan a 0 ((List.range' 0 (n + 1)).map (b.getD · 0)) = true := by
    apply olderThan_of_lt
    · simpa using heq
    · simpa using hlt
  rw [kernelInRange_kernelsFrom (by simp), kernelInRange_kernelsFrom (by simp), holder,
    olderThan_self] at hrange
  have ha : a = [] := by simpa using hrange
  have hb := nil_of_ranges h ha
  subst ha hb
  exact absurd hlt (UInt64.lt_irrefl _)

theorem getD_eq_of_ranges {a b : List UInt64}
    (h : ∀ range, kernelInRange a range = kernelInRange b range) (n : Nat) :
    a.getD n 0 = b.getD n 0 := by
  induction n using Nat.strongRecOn with
  | ind n ih =>
      apply UInt64.le_antisymm
      · exact UInt64.not_lt.mp
          (not_lt_of_ranges (fun range => (h range).symm) fun j hj => (ih j hj).symm)
      · exact UInt64.not_lt.mp (not_lt_of_ranges h ih)

/-- The detector's entry for a range and an architecture. -/
def judgedDriver (range : KernelCompatibility) (arch : String) : DriverEntry :=
  { e1000eDriver .available with
    id := { (e1000eDriver .available).id with kernelCompat := range, arch := arch } }

/-- The three judges agree exactly if nothing tells the system of the matcher and of the
detector from the running machine. -/
theorem judges_agree_iff (host : Host) (system : SystemInfo) :
    JudgesAgree host system ↔ system.Alike host host.detect := by
  constructor
  · intro h
    have hranges : ∀ range, kernelInRange system.kernelNumbers range =
        kernelInRange host.detect.kernelNumbers range := by
      intro range
      have hselector := (h.kernel (judgedDriver range "x86_64")).2
      rw [matcher_accepts_kernel, selector_accepts_kernel] at hselector
      exact hselector.symm
    refine ⟨⟨nil_of_ranges hranges, nil_of_ranges fun range => (hranges range).symm⟩,
      getD_eq_of_ranges hranges, ?_⟩
    -- the system's own architecture is one that the matcher accepts
    have harch := (h.architecture (judgedDriver ⟨"", none, []⟩ system.architecture)
      { e1000ePackage none "" with architecture := system.architecture } rfl).2
    rw [(matcher_accepts_architecture host system _).mpr rfl,
      selector_accepts_architecture] at harch
    exact harch.symm
  · intro h
    have hkernel : ∀ driver : DriverEntry,
        DriverSelector.isKernelCompatible host driver.id.kernelCompat =
          ((⟨system⟩ : HardwareMatcher).checkKernelCompatibility driver).accepts := by
      intro driver
      rw [matcher_accepts_kernel, selector_accepts_kernel, h.kernelInRange_eq]
    refine ⟨fun driver => ⟨?_, hkernel driver⟩, ?_, ?_⟩
    · rw [detector_accepts_kernel, matcher_accepts_kernel]
      rfl
    · intro driver p hp
      constructor
      · rw [Bool.eq_iff_iff, matcher_accepts_architecture, detector_accepts_architecture]
      · rw [Bool.eq_iff_iff, matcher_accepts_architecture, selector_accepts_architecture, hp,
          h.architecture]
    · intro selector device drivers packages offer hmatcher hselects judged hjudged
      obtain ⟨-, hpasses⟩ := DriverSelector.mem_passing.mp
        (mem_of_lastMax (DriverSelector.selects_iff.mp hselects))
      have hcompatible := hpasses.compatible
      rw [hmatcher] at hcompatible
      obtain ⟨hdriver, harch⟩ := accepts_of_compatible host hcompatible
      have hjudgedKernel : (!((host.detectorFor system).checkKernel judged).hasConflicts) =
          true := by
        rw [detector_accepts_kernel]
        rcases hjudged with rfl | ⟨hrange, -⟩
        · rw [matcher_accepts_kernel] at hdriver
          exact hdriver
        · have hpackage := hpasses.kernel
          rw [selector_accepts_kernel, ← h.kernelInRange_eq] at hpackage
          rw [hrange]
          exact hpackage
      have hjudgedArch : (!((host.detectorFor system).checkArchitecture judged).hasConflicts) =
          true := by
        rw [detector_accepts_architecture]
        rcases hjudged with rfl | ⟨-, hname⟩
        · exact (matcher_accepts_architecture host system _).mp harch
        · rw [hname, h.architecture]
          exact (selector_accepts_architecture host _).mp hpasses.architecture
      exact ⟨by simpa using hjudgedKernel, by simpa using hjudgedArch⟩

end Agreement

/-- On a machine with kernel 6.8.0, a selection for kernel 4.0.0 lets packages for 5.0.0
through that its detector rejects. -/
theorem selector_judges_running_kernel :
    ¬∀ host system, JudgesAgree host system := by
  intro h
  have hkernel := (h recentHost ⟨"4.0.0", "x86_64", []⟩).kernel
    (judgedDriver ⟨"5.0.0", none, []⟩ "x86_64")
  exact absurd hkernel.2 (by decide)

end MissionOs.Driverd
