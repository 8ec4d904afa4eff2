import Mathlib.Data.Finset.Card
import Mathlib.Data.Finset.Range

/-!
# Lists of ranges

A set of numbers written down as ranges, one above the other.  There are as many numbers in it
as its last number says, counted from zero, exactly if nothing is missing below.
-/

namespace MissionOs.Lib

/-! ## Increasing lists of numbers -/

/-- The last number of an increasing list is the greatest. -/
theorem le_of_getLast?_of_pairwise {l : List Nat} (h : l.Pairwise (· < ·)) {last : Nat}
    (hlast : l.getLast? = some last) {n : Nat} (hn : n ∈ l) : n ≤ last := by
  obtain ⟨init, rfl⟩ := List.getLast?_eq_some_iff.mp hlast
  rcases List.mem_append.mp hn with hinit | hend
  · have hlt := (List.pairwise_append.mp h).2.2 n hinit last List.mem_cons_self
    omega
  · rw [List.mem_singleton] at hend
    omega

/-- An increasing list has one number more than its last number says exactly if it is
complete. -/
theorem length_eq_iff_of_pairwise {l : List Nat} (h : l.Pairwise (· < ·)) {last : Nat}
    (hlast : l.getLast? = some last) : l.length = last + 1 ↔ ∀ n ≤ last, n ∈ l := by
  have hnodup : l.Nodup := h.imp Nat.ne_of_lt
  have hcard : l.toFinset.card = l.length := List.toFinset_card_of_nodup hnodup
  have hsub : l.toFinset ⊆ Finset.range (last + 1) := by
    intro n hn
    rw [List.mem_toFinset] at hn
    have hle := le_of_getLast?_of_pairwise h hlast hn
    rw [Finset.mem_range]
    omega
  rw [← hcard]
  constructor
  · intro hlength n hn
    have hall : l.toFinset = Finset.range (last + 1) := by
      apply Finset.eq_of_subset_of_card_le hsub
      rw [Finset.card_range]
      omega
    rw [← List.mem_toFinset, hall, Finset.mem_range]
    omega
  · intro hmem
    have hall : l.toFinset = Finset.range (last + 1) := by
      apply Finset.Subset.antisymm hsub
      intro n hn
      rw [Finset.mem_range] at hn
      exact List.mem_toFinset.mpr (hmem n (by omega))
    rw [hall, Finset.card_range]

/-! ## Ranges -/

/-- The numbers from the first to the last. -/
structure NatRange where
  first : Nat
  last : Nat
  le : first ≤ last
deriving DecidableEq, Repr

/-- The numbers of a range. -/
def NatRange.members (r : NatRange) : List Nat := List.range' r.first (r.last - r.first + 1)

theorem NatRange.mem_members {r : NatRange} {n : Nat} :
    n ∈ r.members ↔ r.first ≤ n ∧ n ≤ r.last := by
  have hle := r.le
  rw [members, List.mem_range'_1]
  omega

theorem NatRange.pairwise_members (r : NatRange) : r.members.Pairwise (· < ·) :=
  List.pairwise_lt_range'

theorem NatRange.getLast?_members (r : NatRange) : r.members.getLast? = some r.last := by
  have hle := r.le
  rw [members, List.range'_concat, List.getLast?_append, List.getLast?_singleton]
  show some (r.first + 1 * (r.last - r.first)) = some r.last
  congr 1
  omega

/-- Every range begins after the one before it has ended. -/
def Ascending (rs : List NatRange) : Prop := rs.Pairwise fun a b => a.last < b.first

instance (rs : List NatRange) : Decidable (Ascending rs) :=
  inferInstanceAs (Decidable (rs.Pairwise fun a b => a.last < b.first))

/-- The numbers of all the ranges. -/
def membersOf (rs : List NatRange) : List Nat := rs.flatMap NatRange.members

theorem mem_membersOf {rs : List NatRange} {n : Nat} :
    n ∈ membersOf rs ↔ ∃ r ∈ rs, r.first ≤ n ∧ n ≤ r.last := by
  simp only [membersOf, List.mem_flatMap, NatRange.mem_members]

/-- The numbers increase from range to range. -/
theorem Ascending.pairwise_membersOf {rs : List NatRange} (h : Ascending rs) :
    (membersOf rs).Pairwise (· < ·) := by
  induction rs with
  | nil => exact List.Pairwise.nil
  | cons r rs ih =>
      obtain ⟨hhead, htail⟩ := List.pairwise_cons.mp h
      show (r.members ++ membersOf rs).Pairwise (· < ·)
      apply List.pairwise_append.mpr
      constructor
      · exact r.pairwise_members
      · constructor
        · exact ih htail
        · intro m hm n hn
          have hlow := NatRange.mem_members.mp hm
          obtain ⟨r', hr', hhigh⟩ := mem_membersOf.mp hn
          have hgap := hhead r' hr'
          omega

/-- The last number is that of the last range. -/
theorem getLast?_membersOf (rs : List NatRange) :
    (membersOf rs).getLast? = rs.getLast?.map NatRange.last := by
  induction rs with
  | nil => rfl
  | cons r rs ih =>
      show (r.members ++ membersOf rs).getLast? = _
      rw [List.getLast?_append, ih, r.getLast?_members, List.getLast?_cons]
      cases rs.getLast? <;> rfl

/-- The ranges have one number more than the last of them says exactly if nothing is missing
below it. -/
theorem Ascending.length_membersOf_eq_iff {rs : List NatRange} (h : Ascending rs)
    {r : NatRange} (hlast : rs.getLast? = some r) :
    (membersOf rs).length = r.last + 1 ↔ ∀ n ≤ r.last, n ∈ membersOf rs := by
  have hend : (membersOf rs).getLast? = some r.last := by
    rw [getLast?_membersOf, hlast]
    rfl
  exact length_eq_iff_of_pairwise h.pairwise_membersOf hend

end MissionOs.Lib
