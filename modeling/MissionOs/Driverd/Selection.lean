import MissionOs.Driverd.Selector
import Mathlib.Data.List.ProdSigma

/-!
# What is selected

`Passes` lists the hard gates of the selection, and `Better` is its order of precedence;
both speak of a driver and a package, not of a candidate.  `selected_eq` says that the
selector picks the last of the best passing pairs, in the order in which the two lists
put them, and every result about the selection is read off it.
-/

namespace MissionOs.Driverd

open Std MissionOs.Rust MissionOs.Lib

/-- A driver and a package for it. -/
abbrev Offer := DriverEntry × PackageMetadata

namespace DriverSelector

variable (host : Host) (selector : DriverSelector) (device : HardwareDevice)

/-! ## The gates and the order -/

/-- A driver and a package that pass every hard gate. -/
structure Passes (offer : Offer) : Prop where
  compatible : (selector.matcher.evaluateCompatibility host offer.1 device).compatible = true
  named : eqIgnoreAsciiCase offer.2.packageId.driverName offer.1.id.name = true
  enabled : selector.sourceRegistry.isSourceEnabled offer.2.sourceId = true
  architecture : isArchitectureCompatible host offer.2 = true
  kernel : isKernelCompatible host offer.2.kernelCompat = true
  trusted : selector.isSourceTrusted offer.2.sourceId offer.2.signingKeyId = true

/-- `Passes`, evaluated. -/
def passes (offer : Offer) : Bool :=
  (selector.matcher.evaluateCompatibility host offer.1 device).compatible &&
    selector.matchesPackage offer.1 offer.2 &&
    (selector.rejectionReasons host offer.1 offer.2).isEmpty

/-- The compatibility score of an offer. -/
def score (offer : Offer) : Rat :=
  (selector.matcher.evaluateCompatibility host offer.1 device).score

/-- `a` is strictly better than `b`: by the trust in the manifest, then by the score, by the
priority of the source, by the version of the package, and by the name of the driver. -/
def Better (a b : Offer) : Prop :=
  selector.manifestTrustScore b.2.sourceId < selector.manifestTrustScore a.2.sourceId ∨
  selector.manifestTrustScore a.2.sourceId = selector.manifestTrustScore b.2.sourceId ∧
  (selector.score host device b < selector.score host device a ∨
  selector.score host device a = selector.score host device b ∧
  (selector.sourcePriority a.2.sourceId < selector.sourcePriority b.2.sourceId ∨
  selector.sourcePriority a.2.sourceId = selector.sourcePriority b.2.sourceId ∧
  (b.2.packageId.version.cmp a.2.packageId.version = .lt ∨
  a.2.packageId.version = b.2.packageId.version ∧
  b.1.id.name < a.1.id.name)))

/-- Neither of two offers is strictly better. -/
def Level (a b : Offer) : Prop :=
  ¬selector.Better host device a b ∧ ¬selector.Better host device b a

/-- The candidate that an offer becomes. -/
def candidate (offer : Offer) : SelectionCandidate :=
  selector.packageCandidate host offer.1 (selector.score host device offer) offer.2

/-- The offers of two lists that pass, in the order of the pipeline. -/
def passing (drivers : List DriverEntry) (packages : List PackageMetadata) : List Offer :=
  (drivers ×ˢ packages).filter (selector.passes host device)

/-- The order of the candidates, read on offers. -/
def compareOffers (a b : Offer) : Ordering :=
  selector.compareCandidates (selector.candidate host device a) (selector.candidate host device b)

/-- The selector picks an offer. -/
def Selects (drivers : List DriverEntry) (packages : List PackageMetadata) (offer : Offer) :
    Prop :=
  ∃ c, (selector.selectForDevice host device drivers packages).selected = some c ∧
    c.driver = offer.1 ∧ c.metadata = some offer.2

variable {host selector device}

theorem rejectionReasons_isEmpty {driver : DriverEntry} {p : PackageMetadata} :
    (selector.rejectionReasons host driver p).isEmpty = true ↔
      isArchitectureCompatible host p = true ∧ isKernelCompatible host p.kernelCompat = true ∧
        selector.isSourceTrusted p.sourceId p.signingKeyId = true := by
  simp only [rejectionReasons]
  split_ifs with ha hk ht ht hk ht <;> simp_all

theorem passes_iff {offer : Offer} :
    selector.passes host device offer = true ↔ selector.Passes host device offer := by
  rw [passes, matchesPackage, Bool.and_eq_true, Bool.and_eq_true, Bool.and_eq_true,
    rejectionReasons_isEmpty]
  constructor
  · intro h
    obtain ⟨⟨hc, hn, he⟩, ha, hk, ht⟩ := h
    exact ⟨hc, hn, he, ha, hk, ht⟩
  · intro h
    exact ⟨⟨h.compatible, h.named, h.enabled⟩, h.architecture, h.kernel, h.trusted⟩

instance : DecidablePred (selector.Passes host device) :=
  fun _ => decidable_of_iff _ passes_iff

theorem mem_passing {drivers : List DriverEntry} {packages : List PackageMetadata}
    {offer : Offer} :
    offer ∈ selector.passing host device drivers packages ↔
      (offer.1 ∈ drivers ∧ offer.2 ∈ packages) ∧ selector.Passes host device offer := by
  rw [passing, List.mem_filter, passes_iff, ← List.mem_product]

/-! ## The candidates that are not rejected -/

theorem rejected_isNone (driver : DriverEntry) (score : Rat) (reason : String) :
    (SelectionCandidate.rejected driver score reason).rejectionReason.isNone = false := rfl

theorem candidate_isNone (driver : DriverEntry) (score : Rat) (p : PackageMetadata) :
    (selector.packageCandidate host driver score p).rejectionReason.isNone =
      (selector.rejectionReasons host driver p).isEmpty := by
  simp only [packageCandidate]
  split_ifs with h <;> simp_all

/-- One driver's candidates that are not rejected are those of its passing offers. -/
theorem driverCandidates_filter (packages : List PackageMetadata) (driver : DriverEntry) :
    (selector.driverCandidates host device packages driver).filter (·.rejectionReason.isNone) =
      ((packages.map (Prod.mk driver)).filter (selector.passes host device)).map
        (selector.candidate host device) := by
  have hpasses (p : PackageMetadata) : selector.passes host device (driver, p) =
      ((selector.matcher.evaluateCompatibility host driver device).compatible &&
        selector.matchesPackage driver p && (selector.rejectionReasons host driver p).isEmpty) :=
    rfl
  rw [driverCandidates, List.filter_map, List.map_map]
  simp only [Function.comp_def, hpasses]
  split_ifs with hc hm
  · simp only [Bool.not_eq_true'] at hc
    simp [hc, rejected_isNone]
  · have hnone : ∀ p ∈ packages, selector.matchesPackage driver p = false := by
      simpa [List.filter_eq_nil_iff] using hm
    simp only [List.filter_singleton, rejected_isNone, Bool.cond_false]
    rw [eq_comm, List.map_eq_nil_iff, List.filter_eq_nil_iff]
    intro p hp
    simp [hnone p hp]
  · simp only [Bool.not_eq_true, Bool.not_eq_false'] at hc
    rw [List.filter_map, List.filter_filter]
    simp only [Function.comp_def, candidate_isNone, hc, Bool.true_and]
    rw [List.filter_congr fun p _ => Bool.and_comm _ _]
    rfl

theorem candidates_filter (drivers : List DriverEntry) (packages : List PackageMetadata) :
    (drivers.flatMap (selector.driverCandidates host device packages)).filter
        (·.rejectionReason.isNone) =
      (selector.passing host device drivers packages).map (selector.candidate host device) := by
  rw [List.filter_flatMap, passing]
  simp only [driverCandidates_filter]
  induction drivers with
  | nil => rfl
  | cons driver drivers ih =>
      rw [List.flatMap_cons, ih, List.product_cons, List.filter_append, List.map_append]

/-- The selector picks the last of the best passing offers. -/
theorem selected_eq (drivers : List DriverEntry) (packages : List PackageMetadata) :
    (selector.selectForDevice host device drivers packages).selected =
      (lastMax (selector.compareOffers host device)
        (selector.passing host device drivers packages)).map
          (selector.candidate host device) := by
  rw [selectForDevice, selectBestCandidate, candidates_filter, lastMax_map]
  rfl

/-! ## The comparison -/

/-- Scores are totally ordered: there is no NaN among them. -/
theorem transCmp_score : TransCmp fun a b : Rat => compareOfLessAndEq a b :=
  TransOrd.compareOfLessAndEq_of_antisymm_of_trans_of_total_of_not_le
    Rat.le_antisymm Rat.le_trans (fun _ _ => Rat.le_total) Rat.not_le

/-- Every key of the comparison is an order, so the comparison is one. -/
instance : TransCmp selector.compareCandidates :=
  have : TransCmp fun a b : SelectionCandidate => compareOfLessAndEq a.score b.score :=
    have := transCmp_score
    transCmp_on (fun a b : Rat => compareOfLessAndEq a b) SelectionCandidate.score
  have : TransCmp fun a b : SelectionCandidate =>
      (compare (selector.sourcePriority a.sourceId) (selector.sourcePriority b.sourceId)).swap :=
    transCmp_on (fun a b : UInt32 => (compare a b).swap)
      fun c : SelectionCandidate => selector.sourcePriority c.sourceId
  have : TransCmp fun a b : SelectionCandidate =>
      strCmp a.driver.id.name.toList b.driver.id.name.toList :=
    transCmp_on strCmp fun c : SelectionCandidate => c.driver.id.name.toList
  inferInstanceAs (TransCmp
    (compareLex (compareOn fun c : SelectionCandidate => c.trusted.toNat)
      (compareLex (compareOn fun c => selector.manifestTrustScore c.sourceId)
        (compareLex (fun a b => compareOfLessAndEq a.score b.score)
          (compareLex (fun a b =>
              (compare (selector.sourcePriority a.sourceId)
                (selector.sourcePriority b.sourceId)).swap)
            (compareLex (compareOn fun c => c.metadata.map (·.packageId.version))
              fun a b => strCmp a.driver.id.name.toList b.driver.id.name.toList))))))

instance : TransCmp (selector.compareOffers host device) :=
  transCmp_on selector.compareCandidates (selector.candidate host device)

theorem cmp_eq_iff {a b : DriverVersion} : a.cmp b = .eq ↔ a = b := by
  rw [DriverVersion.cmp, Ordering.then_eq_eq, Ordering.then_eq_eq, Ordering.then_eq_eq,
    LawfulEqOrd.compare_eq_iff_eq, LawfulEqOrd.compare_eq_iff_eq,
    LawfulEqOrd.compare_eq_iff_eq]
  obtain ⟨major, minor, patch, pre⟩ := a
  obtain ⟨major', minor', patch', pre'⟩ := b
  cases pre <;> cases pre' <;>
    simp [DriverVersion.cmpPreRelease, strCmp_eq_iff, String.toList_inj]

/-- What the comparison of two passing offers is made of: both are trusted, so that key
never decides. -/
theorem compareOffers_eq {a b : Offer} (ha : selector.Passes host device a)
    (hb : selector.Passes host device b) :
    selector.compareOffers host device a b =
      ((compare (selector.manifestTrustScore a.2.sourceId)
        (selector.manifestTrustScore b.2.sourceId)).then <|
      (compareOfLessAndEq (selector.score host device a) (selector.score host device b)).then <|
      (compare (selector.sourcePriority a.2.sourceId)
        (selector.sourcePriority b.2.sourceId)).swap.then <|
      (a.2.packageId.version.cmp b.2.packageId.version).then <|
      strCmp a.1.id.name.toList b.1.id.name.toList) := by
  have htrust : compare (selector.candidate host device a).trusted.toNat
      (selector.candidate host device b).trusted.toNat = .eq := by
    rw [candidate, candidate, packageCandidate, packageCandidate, ha.trusted, hb.trusted]
    rfl
  rw [compareOffers, compareCandidates, htrust]
  rfl

theorem compareOffers_eq_gt {a b : Offer} (ha : selector.Passes host device a)
    (hb : selector.Passes host device b) :
    selector.compareOffers host device a b = .gt ↔ selector.Better host device a b := by
  have hscore : compareOfLessAndEq (selector.score host device a)
      (selector.score host device b) = .gt ↔
        selector.score host device b < selector.score host device a :=
    compareOfLessAndEq_eq_gt Rat.le_antisymm (fun _ _ => Rat.le_total) Rat.not_le _ _
  have hlevel : compareOfLessAndEq (selector.score host device a)
      (selector.score host device b) = .eq ↔
        selector.score host device a = selector.score host device b :=
    compareOfLessAndEq_eq_eq (fun _ => Rat.le_refl) Rat.not_le
  have hversion : a.2.packageId.version.cmp b.2.packageId.version = .gt ↔
      b.2.packageId.version.cmp a.2.packageId.version = .lt := OrientedCmp.gt_iff_lt
  have hname : strCmp a.1.id.name.toList b.1.id.name.toList = .gt ↔ b.1.id.name < a.1.id.name :=
    OrientedCmp.gt_iff_lt.trans strCmp_eq_lt_iff
  have hpriority : compare (selector.sourcePriority a.2.sourceId)
      (selector.sourcePriority b.2.sourceId) = .lt ↔
        selector.sourcePriority a.2.sourceId < selector.sourcePriority b.2.sourceId :=
    compareOfLessAndEq_eq_lt
  rw [compareOffers_eq ha hb, Better, Ordering.then_eq_gt, Ordering.then_eq_gt,
    Ordering.then_eq_gt, Ordering.then_eq_gt, Nat.compare_eq_gt, Nat.compare_eq_eq, hscore,
    hlevel, Ordering.swap_eq_gt, Ordering.swap_eq_eq, hpriority, LawfulEqOrd.compare_eq_iff_eq,
    hversion, cmp_eq_iff, hname]

theorem compareOffers_eq_lt {a b : Offer} (ha : selector.Passes host device a)
    (hb : selector.Passes host device b) :
    selector.compareOffers host device a b = .lt ↔ selector.Better host device b a := by
  rw [← compareOffers_eq_gt hb ha, OrientedCmp.gt_iff_lt]

/-- Nothing is above an offer exactly if nothing is strictly better. -/
theorem compareOffers_isLE {a b : Offer} (ha : selector.Passes host device a)
    (hb : selector.Passes host device b) :
    (selector.compareOffers host device a b).isLE = true ↔ ¬selector.Better host device a b := by
  rw [← compareOffers_eq_gt ha hb, Ordering.isLE_iff_ne_gt]

theorem compareOffers_eq_eq {a b : Offer} (ha : selector.Passes host device a)
    (hb : selector.Passes host device b) :
    selector.compareOffers host device a b = .eq ↔ selector.Level host device a b := by
  rw [Level, ← compareOffers_eq_gt ha hb, ← compareOffers_eq_lt ha hb]
  cases selector.compareOffers host device a b <;> simp

/-! ## What the selector picks -/

theorem selects_iff {drivers : List DriverEntry} {packages : List PackageMetadata}
    {offer : Offer} :
    selector.Selects host device drivers packages offer ↔
      lastMax (selector.compareOffers host device)
        (selector.passing host device drivers packages) = some offer := by
  rw [Selects, selected_eq]
  constructor
  · intro h
    obtain ⟨c, hc, hdriver, hmetadata⟩ := h
    rw [Option.map_eq_some_iff] at hc
    obtain ⟨found, hfound, rfl⟩ := hc
    have hp : found.2 = offer.2 := Option.some.inj hmetadata
    rw [hfound, Prod.ext hdriver hp]
  · intro h
    rw [h]
    exact ⟨_, rfl, rfl, rfl⟩

/-- Something is selected exactly if something passes every hard gate, and then it passes
itself and nothing that passes is strictly better. -/
theorem selected_iff_passes (host : Host) (selector : DriverSelector) (device : HardwareDevice)
    (drivers : List DriverEntry) (packages : List PackageMetadata) :
    ((selector.selectForDevice host device drivers packages).selected.isSome = true ↔
      ∃ driver ∈ drivers, ∃ p ∈ packages, selector.Passes host device (driver, p)) ∧
    ∀ c, (selector.selectForDevice host device drivers packages).selected = some c →
      ∃ driver ∈ drivers, ∃ p ∈ packages, selector.Passes host device (driver, p) ∧
        c.driver = driver ∧ c.metadata = some p ∧
        ∀ driver' ∈ drivers, ∀ p' ∈ packages, selector.Passes host device (driver', p') →
          ¬selector.Better host device (driver', p') (driver, p) := by
  rw [selected_eq]
  constructor
  · rw [Option.isSome_map, lastMax_isSome]
    constructor
    · intro h
      obtain ⟨offer, hoffer⟩ := h
      obtain ⟨⟨hd, hp⟩, hpass⟩ := mem_passing.mp hoffer
      exact ⟨offer.1, hd, offer.2, hp, hpass⟩
    · intro h
      obtain ⟨driver, hd, p, hp, hpass⟩ := h
      exact ⟨(driver, p), mem_passing.mpr ⟨⟨hd, hp⟩, hpass⟩⟩
  · intro c hc
    rw [Option.map_eq_some_iff] at hc
    obtain ⟨offer, hmax, rfl⟩ := hc
    obtain ⟨⟨hd, hp⟩, hpass⟩ := mem_passing.mp (mem_of_lastMax hmax)
    refine ⟨offer.1, hd, offer.2, hp, hpass, rfl, rfl, ?_⟩
    intro driver' hd' p' hp' hpass'
    have hmem : (driver', p') ∈ selector.passing host device drivers packages :=
      mem_passing.mpr ⟨⟨hd', hp'⟩, hpass'⟩
    exact (compareOffers_isLE hpass' hpass).mp (isLE_of_lastMax hmax hmem)

end DriverSelector

end MissionOs.Driverd
