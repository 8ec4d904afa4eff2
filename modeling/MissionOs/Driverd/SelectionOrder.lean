import MissionOs.Driverd.SelectionPolicy

/-!
# The order of the inputs

Two passing offers that no passing offer is strictly better than are told apart by nothing
but their places in the two lists.  So the selection is a function of the sets of drivers
and packages exactly if there is one such offer at most.
-/

namespace MissionOs.Driverd

open Std MissionOs.Rust MissionOs.Lib

namespace DriverSelector

/-- A passing offer than which no passing offer is strictly better. -/
def Unbeaten (host : Host) (selector : DriverSelector) (device : HardwareDevice)
    (drivers : List DriverEntry) (packages : List PackageMetadata) (a : Offer) : Prop :=
  a ∈ selector.passing host device drivers packages ∧
    ∀ b ∈ selector.passing host device drivers packages, ¬selector.Better host device b a

variable {host : Host} {selector : DriverSelector} {device : HardwareDevice}
  {drivers drivers' : List DriverEntry} {packages packages' : List PackageMetadata}

/-- The passing offers are those of the sets of drivers and packages. -/
theorem mem_passing_of_perm (hd : drivers'.Perm drivers) (hp : packages'.Perm packages)
    {a : Offer} : a ∈ selector.passing host device drivers' packages' ↔
      a ∈ selector.passing host device drivers packages := by
  rw [mem_passing, mem_passing, hd.mem_iff, hp.mem_iff]

/-- With its driver and its package at the ends of the lists, a passing offer is the last. -/
theorem passing_concat {driver : DriverEntry} {p : PackageMetadata}
    (h : selector.Passes host device (driver, p)) :
    ∃ pre, selector.passing host device (drivers ++ [driver]) (packages ++ [p]) =
      pre ++ [(driver, p)] := by
  have hproduct : (drivers ++ [driver]) ×ˢ (packages ++ [p]) =
      (drivers ×ˢ (packages ++ [p]) ++ packages.map (Prod.mk driver)) ++ [(driver, p)] := by
    induction drivers with
    | nil => simp
    | cons d drivers ih => simp [List.product_cons, ih]
  rw [passing, hproduct, List.filter_append]
  exact ⟨_, by rw [List.filter_singleton, passes_iff.mpr h]; rfl⟩

/-- Every passing offer is the last one for some order of the lists. -/
theorem exists_perm_passing {a : Offer}
    (ha : a ∈ selector.passing host device drivers packages) :
    ∃ drivers' packages', drivers'.Perm drivers ∧ packages'.Perm packages ∧
      ∃ pre, selector.passing host device drivers' packages' = pre ++ [a] := by
  obtain ⟨⟨hd, hp⟩, hpass⟩ := mem_passing.mp ha
  obtain ⟨before, after, hdrivers⟩ := List.append_of_mem hd
  obtain ⟨before', after', hpackages⟩ := List.append_of_mem hp
  refine ⟨(before ++ after) ++ [a.1], (before' ++ after') ++ [a.2], ?_, ?_, ?_⟩
  · rw [hdrivers]
    exact (List.perm_append_singleton _ _).trans List.perm_middle.symm
  · rw [hpackages]
    exact (List.perm_append_singleton _ _).trans List.perm_middle.symm
  · exact passing_concat hpass

/-- Nothing is above an offer of a list exactly if it is unbeaten. -/
theorem unbeaten_iff {a : Offer} :
    selector.Unbeaten host device drivers packages a ↔
      a ∈ selector.passing host device drivers packages ∧
        ∀ b ∈ selector.passing host device drivers packages,
          (selector.compareOffers host device b a).isLE = true := by
  rw [Unbeaten]
  refine and_congr_right fun ha => forall₂_congr fun b hb => ?_
  rw [compareOffers_isLE (mem_passing.mp hb).2 (mem_passing.mp ha).2]

/-- The selection does not depend on the order of the drivers and packages exactly if there
are no two unbeaten offers. -/
theorem selects_perm_iff (host : Host) (selector : DriverSelector) (device : HardwareDevice)
    (drivers : List DriverEntry) (packages : List PackageMetadata) :
    (∀ drivers' packages', drivers'.Perm drivers → packages'.Perm packages →
        ∀ offer, selector.Selects host device drivers' packages' offer ↔
          selector.Selects host device drivers packages offer) ↔
      ∀ a b, selector.Unbeaten host device drivers packages a →
        selector.Unbeaten host device drivers packages b → a = b := by
  -- The family of all orders of the two lists.
  let Order := { ls : List DriverEntry × List PackageMetadata //
    ls.1.Perm drivers ∧ ls.2.Perm packages }
  let L : Order → List Offer := fun o => selector.passing host device o.1.1 o.1.2
  have hmem : ∀ i j a, a ∈ L i → a ∈ L j := by
    intro i j a ha
    exact (mem_passing_of_perm (i.2.1.trans j.2.1.symm) (i.2.2.trans j.2.2.symm)).mp ha
  have hlast : ∀ i a, a ∈ L i → ∃ j pre, L j = pre ++ [a] := by
    intro i a ha
    obtain ⟨ds, ps, hd, hp, hpre⟩ := exists_perm_passing ha
    exact ⟨⟨(ds, ps), hd.trans i.2.1, hp.trans i.2.2⟩, hpre⟩
  let here : Order := ⟨(drivers, packages), .refl _, .refl _⟩
  have hconst : (∀ j, lastMax (selector.compareOffers host device) (L j) =
      lastMax (selector.compareOffers host device) (L here)) ↔ _ :=
    lastMax_const_iff hmem hlast here
  calc (∀ drivers' packages', drivers'.Perm drivers → packages'.Perm packages →
          ∀ offer, selector.Selects host device drivers' packages' offer ↔
            selector.Selects host device drivers packages offer)
      ↔ ∀ j, lastMax (selector.compareOffers host device) (L j) =
          lastMax (selector.compareOffers host device) (L here) := by
        simp only [selects_iff, ← Option.ext_iff]
        constructor
        · intro h j
          exact h j.1.1 j.1.2 j.2.1 j.2.2
        · intro h drivers' packages' hd hp
          exact h ⟨(drivers', packages'), hd, hp⟩
    _ ↔ _ := hconst
    _ ↔ ∀ a b, selector.Unbeaten host device drivers packages a →
          selector.Unbeaten host device drivers packages b → a = b := by
        simp only [unbeaten_iff]
        constructor
        · intro h a b ha hb
          exact h a ha.1 b hb.1 ha.2 hb.2
        · intro h a ha b hb hmaxa hmaxb
          exact h a b ⟨ha, hmaxa⟩ ⟨hb, hmaxb⟩

end DriverSelector

/-- Of two packages that differ in their address only, the one that is listed last is
selected. -/
theorem order_decides :
    ¬∀ packages', packages'.Perm
        [e1000ePackage (some "mission-os-release-key") "a.ko",
          e1000ePackage (some "mission-os-release-key") "b.ko"] →
      ∀ offer, defaultSelector.Selects recentHost ethernetController [e1000eDriver .available]
          packages' offer ↔
        defaultSelector.Selects recentHost ethernetController [e1000eDriver .available]
          [e1000ePackage (some "mission-os-release-key") "a.ko",
            e1000ePackage (some "mission-os-release-key") "b.ko"] offer := by
  intro h
  have hperm := h _ (.swap _ _ _) (e1000eDriver .available,
    e1000ePackage (some "mission-os-release-key") "a.ko")
  simp only [DriverSelector.selects_iff] at hperm
  exact absurd (hperm.mp (by decide +kernel)) (by decide +kernel)

end MissionOs.Driverd
