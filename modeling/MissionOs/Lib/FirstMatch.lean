import Mathlib.Data.List.Basic

/-!
# Searching a list and writing the entry back

Code that keeps records in a vector often looks an entry up by one predicate
and writes it back at the position that another predicate finds.  The two
agree as soon as the second predicate holds of the entry and implies the
first: every search then stops at the same index.

`firstMatch_split` names the two parts of the list around the first match, and
the other lemmas read `List.findIdx?`, `List.set` and `updateFirst` off that
split.
-/

namespace MissionOs.Lib

variable {α : Type}

/-- Change the first entry that satisfies `p`. -/
def updateFirst (p : α → Bool) (f : α → α) : List α → List α
  | [] => []
  | a :: l => if p a then f a :: l else a :: updateFirst p f l

/-- Store `b` at the position where `p` first holds, if there is one. -/
def setFirst (p : α → Bool) (b : α) (l : List α) : List α :=
  match l.findIdx? p with
  | some i => l.set i b
  | none => l

/-- The list around its first match: nothing before it matches. -/
theorem firstMatch_split {p : α → Bool} {l : List α} {d : α}
    (h : l.find? p = some d) :
    p d = true ∧ ∃ pre post, l = pre ++ d :: post ∧ ∀ a ∈ pre, p a = false := by
  rw [List.find?_eq_some_iff_append] at h
  obtain ⟨hd, pre, post, hl, hpre⟩ := h
  exact ⟨hd, pre, post, hl, fun a ha => by simpa using hpre a ha⟩

theorem findIdx?_split {p : α → Bool} {pre post : List α} {d : α}
    (hpre : ∀ a ∈ pre, p a = false) (hd : p d = true) :
    (pre ++ d :: post).findIdx? p = some pre.length := by
  induction pre with
  | nil => simp [List.findIdx?_cons, hd]
  | cons a pre ih =>
      have ha : p a = false := hpre a (by simp)
      have htail := ih fun b hb => hpre b (by simp [hb])
      simp [List.findIdx?_cons, ha, htail]

/-- Storing at the first match replaces that entry and nothing else. -/
theorem setFirst_split {p : α → Bool} {pre post : List α} {d : α} (b : α)
    (hpre : ∀ a ∈ pre, p a = false) (hd : p d = true) :
    setFirst p b (pre ++ d :: post) = pre ++ b :: post := by
  rw [setFirst, findIdx?_split hpre hd]
  simp

/-- Changing the first match changes that entry and nothing else. -/
theorem updateFirst_split {p : α → Bool} {pre post : List α} {d : α} (f : α → α)
    (hpre : ∀ a ∈ pre, p a = false) (hd : p d = true) :
    updateFirst p f (pre ++ d :: post) = pre ++ f d :: post := by
  induction pre with
  | nil => simp [updateFirst, hd]
  | cons a pre ih =>
      have ha : p a = false := hpre a (by simp)
      have htail := ih fun b hb => hpre b (by simp [hb])
      simp [updateFirst, ha, htail]

/-- Erasing the first match erases that entry and nothing else. -/
theorem eraseP_split {p : α → Bool} {pre post : List α} {d : α}
    (hpre : ∀ a ∈ pre, p a = false) (hd : p d = true) :
    (pre ++ d :: post).eraseP p = pre ++ post := by
  rw [List.eraseP_append_right _ fun a ha => by simp [hpre a ha], List.eraseP_cons_of_pos hd]

/-- The first match behind entries that do not match. -/
theorem find?_split {p : α → Bool} {pre post : List α} {d : α}
    (hpre : ∀ a ∈ pre, p a = false) (hd : p d = true) :
    (pre ++ d :: post).find? p = some d := by
  have hnone : pre.find? p = none := by
    rw [List.find?_eq_none]
    intro a ha
    simp [hpre a ha]
  rw [List.find?_append, hnone, Option.none_or, List.find?_cons, hd]

/-- A search for the only match finds it. -/
theorem find?_eq_some_of_unique {p : α → Bool} {l : List α} {d : α} (hd : d ∈ l)
    (hp : p d = true) (hunique : ∀ a ∈ l, p a = true → a = d) : l.find? p = some d := by
  cases hfind : l.find? p with
  | none => exact absurd hp (List.find?_eq_none.mp hfind d hd)
  | some a => rw [hunique a (List.mem_of_find?_eq_some hfind) (List.find?_some hfind)]

/-- A search does not see an entry that does not match be replaced by another. -/
theorem find?_replace {p : α → Bool} (pre post : List α) {a b : α} (ha : p a = false)
    (hb : p b = false) : (pre ++ b :: post).find? p = (pre ++ a :: post).find? p := by
  rw [List.find?_append, List.find?_append, List.find?_cons, List.find?_cons, ha, hb]

/-- A predicate that implies `p` fails before the first match of `p`. -/
theorem false_of_imp {p q : α → Bool} {pre : List α}
    (hqp : ∀ a, q a = true → p a = true) (hpre : ∀ a ∈ pre, p a = false) :
    ∀ a ∈ pre, q a = false := by
  intro a ha
  by_contra hq
  have hp := hqp a (by simpa using hq)
  rw [hpre a ha] at hp
  exact Bool.false_ne_true hp

/-- Storing an entry back where a narrower search finds it changes nothing. -/
theorem setFirst_eq_self {p q : α → Bool} {l : List α} {d : α}
    (hfind : l.find? p = some d) (hqd : q d = true)
    (hqp : ∀ a, q a = true → p a = true) : setFirst q d l = l := by
  obtain ⟨_, pre, post, rfl, hpre⟩ := firstMatch_split hfind
  exact setFirst_split d (false_of_imp hqp hpre) hqd

/-! ## The order of the list -/

/-- A member that matches is the first match of some order of the list. -/
theorem exists_perm_find? {p : α → Bool} {l : List α} {a : α} (ha : a ∈ l) (hp : p a = true) :
    ∃ l' : List α, l'.Perm l ∧ l'.find? p = some a := by
  obtain ⟨pre, post, rfl⟩ := List.append_of_mem ha
  refine ⟨a :: (pre ++ post), List.perm_middle.symm, ?_⟩
  rw [List.find?_cons, hp]

/-- What is read off the first match does not depend on the order of the list exactly if it is the
same for every match. -/
theorem find?_map_perm_iff {β : Type} {p : α → Bool} {f : α → β} {l : List α} :
    (∀ l' : List α, l'.Perm l → (l'.find? p).map f = (l.find? p).map f) ↔
      ∀ a ∈ l, p a = true → ∀ b ∈ l, p b = true → f a = f b := by
  constructor
  · intro h a ha hpa b hb hpb
    obtain ⟨la, hla, hfinda⟩ := exists_perm_find? ha hpa
    obtain ⟨lb, hlb, hfindb⟩ := exists_perm_find? hb hpb
    have hsame := (h la hla).trans (h lb hlb).symm
    rw [hfinda, hfindb] at hsame
    exact Option.some.inj hsame
  · intro h l' hperm
    cases hfind : l.find? p with
    | none =>
        have hnone : l'.find? p = none :=
          List.find?_eq_none.mpr fun a ha => List.find?_eq_none.mp hfind a (hperm.mem_iff.mp ha)
        rw [hnone]
    | some a =>
        have ha : a ∈ l := List.mem_of_find?_eq_some hfind
        have hpa : p a = true := List.find?_some hfind
        obtain ⟨b, hfind'⟩ : ∃ b, l'.find? p = some b := by
          apply Option.isSome_iff_exists.mp
          exact List.find?_isSome.mpr ⟨a, hperm.mem_iff.mpr ha, hpa⟩
        have hb : b ∈ l := hperm.mem_iff.mp (List.mem_of_find?_eq_some hfind')
        have hsame := h b hb (List.find?_some hfind') a ha hpa
        rw [hfind', Option.map_some, Option.map_some, hsame]

end MissionOs.Lib
