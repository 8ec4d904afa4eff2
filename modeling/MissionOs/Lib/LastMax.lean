import Mathlib.Data.List.Basic
import Mathlib.Data.List.Induction

/-!
# The last maximum of a list

`lastMax cmp l` is the last of the elements of `l` that compare greatest, as a
fold that replaces its best element by every element that is not below it.

`lastMax_eq_some_iff` says where that element stands: what is before it is not
above it, and what is after it is below it.  `lastMax_avoids_iff` says when the
last maximum keeps out of a set, and `lastMax_const_iff` when it does not depend
on the order in which a family of lists puts the same elements.
-/

namespace MissionOs.Lib

open Std

variable {α β : Type} {cmp : α → α → Ordering}

/-- An order of images is an order of the elements. -/
theorem transCmp_on (cmp : α → α → Ordering) [TransCmp cmp] (f : β → α) :
    TransCmp fun a b => cmp (f a) (f b) where
  eq_swap := OrientedCmp.eq_swap
  isLE_trans := TransCmp.isLE_trans

/-- The other way round, an order is an order. -/
instance transCmp_swap [TransCmp cmp] : TransCmp fun a b => (cmp a b).swap := by
  have hswap : (fun a b => (cmp a b).swap) = fun a b => cmp b a := by
    funext a b
    exact OrientedCmp.eq_swap.symm
  rw [hswap]
  infer_instance

/-- The last of the elements that compare greatest. -/
def lastMax (cmp : α → α → Ordering) : List α → Option α
  | [] => none
  | a :: l => some (l.foldl (fun best b => if cmp best b = .gt then best else b) a)

@[simp] theorem lastMax_nil : lastMax cmp [] = none := rfl

/-- One more element replaces the best one unless it is below it. -/
theorem lastMax_concat (l : List α) (b : α) :
    lastMax cmp (l ++ [b]) =
      some (match lastMax cmp l with
        | none => b
        | some m => if cmp m b = .gt then m else b) := by
  cases l with
  | nil => rfl
  | cons a l => simp [lastMax, List.foldl_append]

theorem lastMax_eq_none {l : List α} : lastMax cmp l = none ↔ l = [] := by
  cases l with
  | nil => simp
  | cons a l => simp [lastMax]

theorem lastMax_isSome {l : List α} : (lastMax cmp l).isSome = true ↔ ∃ a, a ∈ l := by
  cases l with
  | nil => simp
  | cons a l =>
      rw [lastMax]
      exact ⟨fun _ => ⟨a, List.mem_cons_self⟩, fun _ => rfl⟩

/-- The last maximum of an image, where the order is that of the images. -/
theorem lastMax_map (f : β → α) (l : List β) :
    lastMax cmp (l.map f) = (lastMax (fun a b => cmp (f a) (f b)) l).map f := by
  induction l using List.reverseRecOn with
  | nil => rfl
  | append_singleton l b ih =>
      rw [List.map_append, List.map_singleton, lastMax_concat, lastMax_concat, ih]
      cases lastMax (fun a b => cmp (f a) (f b)) l with
      | none => rfl
      | some m =>
          simp only [Option.map_some]
          split_ifs <;> rfl

theorem mem_of_lastMax {l : List α} {m : α} (h : lastMax cmp l = some m) : m ∈ l := by
  induction l using List.reverseRecOn generalizing m with
  | nil => simp at h
  | append_singleton l b ih =>
      rw [lastMax_concat, Option.some.injEq] at h
      rw [List.mem_append, List.mem_singleton]
      cases hl : lastMax cmp l with
      | none =>
          rw [hl] at h
          exact Or.inr h.symm
      | some best =>
          simp only [hl] at h
          split_ifs at h
          · exact Or.inl (h ▸ ih hl)
          · exact Or.inr h.symm

section Ordered

variable [TransCmp cmp]

/-- The last maximum exactly is an element with nothing above it before it, and nothing
but what is below it after it. -/
theorem lastMax_eq_some_iff {l : List α} {m : α} :
    lastMax cmp l = some m ↔
      ∃ pre post, l = pre ++ m :: post ∧ (∀ a ∈ pre, (cmp a m).isLE = true) ∧
        ∀ a ∈ post, cmp a m = .lt := by
  constructor
  · intro h
    induction l using List.reverseRecOn generalizing m with
    | nil => simp at h
    | append_singleton l b ih =>
        rw [lastMax_concat] at h
        cases hl : lastMax cmp l with
        | none =>
            rw [hl] at h
            cases h
            exact ⟨l, [], rfl, by simp [lastMax_eq_none.mp hl], by simp⟩
        | some best =>
            obtain ⟨pre, post, rfl, hpre, hpost⟩ := ih hl
            simp only [hl, Option.some.injEq] at h
            split_ifs at h with hgt
            · subst h
              refine ⟨pre, post ++ [b], by simp, hpre, ?_⟩
              rw [List.forall_mem_append]
              exact ⟨hpost, by simpa using OrientedCmp.lt_of_gt hgt⟩
            · subst h
              have hle : (cmp best b).isLE = true := Ordering.isLE_iff_ne_gt.mpr hgt
              refine ⟨pre ++ best :: post, [], rfl, ?_, by simp⟩
              rw [List.forall_mem_append, List.forall_mem_cons]
              exact ⟨fun a ha => TransCmp.isLE_trans (hpre a ha) hle, hle,
                fun a ha => TransCmp.isLE_trans (Ordering.isLE_of_eq_lt (hpost a ha)) hle⟩
  · intro hright
    obtain ⟨pre, post, rfl, hpre, hpost⟩ := hright
    induction post using List.reverseRecOn with
    | nil =>
        rw [lastMax_concat]
        cases hl : lastMax cmp pre with
        | none => rfl
        | some best =>
            have hle : cmp best m ≠ .gt :=
              Ordering.isLE_iff_ne_gt.mp (hpre best (mem_of_lastMax hl))
            simp [hle]
    | append_singleton post b ih =>
        rw [List.forall_mem_append] at hpost
        have hb : cmp m b = .gt := OrientedCmp.gt_of_lt (hpost.2 b (by simp))
        rw [← List.cons_append, ← List.append_assoc, lastMax_concat, ih hpost.1]
        simp [hb]

/-- Nothing is above the last maximum. -/
theorem isLE_of_lastMax {l : List α} {m a : α} (h : lastMax cmp l = some m) (ha : a ∈ l) :
    (cmp a m).isLE = true := by
  obtain ⟨pre, post, rfl, hpre, hpost⟩ := lastMax_eq_some_iff.mp h
  rw [List.mem_append, List.mem_cons] at ha
  rcases ha with ha | rfl | ha
  · exact hpre a ha
  · exact ReflCmp.isLE_rfl
  · exact Ordering.isLE_of_eq_lt (hpost a ha)

/-- At the end of a list, an element with nothing above it is the last maximum. -/
theorem lastMax_concat_of_isLE {l : List α} {b : α} (h : ∀ a ∈ l, (cmp a b).isLE = true) :
    lastMax cmp (l ++ [b]) = some b :=
  lastMax_eq_some_iff.mpr ⟨l, [], rfl, h, by simp⟩

/-- The last maximum keeps out of `B` exactly if each element of `B` is beaten from outside:
by something above it, or by something level with it further on. -/
theorem lastMax_avoids_iff {l : List α} {B : α → Prop} :
    (∀ m, lastMax cmp l = some m → ¬B m) ↔
      ∀ pre a post, l = pre ++ a :: post → B a →
        (∃ b ∈ l, ¬B b ∧ cmp a b = .lt) ∨ ∃ b ∈ post, ¬B b ∧ cmp a b = .eq := by
  constructor
  · intro havoid pre a post hl hBa
    have ha : a ∈ l := by simp [hl]
    have hsome : (lastMax cmp l).isSome = true := lastMax_isSome.mpr ⟨a, ha⟩
    obtain ⟨m, hm⟩ := Option.isSome_iff_exists.mp hsome
    have hBm : ¬B m := havoid m hm
    cases hcmp : cmp a m with
    | lt => exact Or.inl ⟨m, mem_of_lastMax hm, hBm, hcmp⟩
    | gt =>
        have hle := isLE_of_lastMax hm ha
        simp [hcmp] at hle
    | eq =>
        -- The last maximum stands after `a`: it is not `a`, and what follows it is below it.
        obtain ⟨pre', post', hl', -, hpost'⟩ := lastMax_eq_some_iff.mp hm
        rw [hl, List.append_eq_append_iff] at hl'
        rcases hl' with ⟨as, -, has⟩ | ⟨bs, -, hbs⟩
        · cases as with
          | nil =>
              rw [List.nil_append, List.cons.injEq] at has
              exact absurd (has.1 ▸ hBa) hBm
          | cons c as =>
              rw [List.cons_append, List.cons.injEq] at has
              exact Or.inr ⟨m, by simp [has.2], hBm, hcmp⟩
        · cases bs with
          | nil =>
              rw [List.nil_append, List.cons.injEq] at hbs
              exact absurd (hbs.1 ▸ hBa) hBm
          | cons c bs =>
              rw [List.cons_append, List.cons.injEq] at hbs
              have hlt := hpost' a (by simp [hbs.2])
              rw [hlt] at hcmp
              cases hcmp
  · intro hbeaten m hm hBm
    obtain ⟨pre, post, hl, -, hpost⟩ := lastMax_eq_some_iff.mp hm
    rcases hbeaten pre m post hl hBm with ⟨b, hb, -, hlt⟩ | ⟨b, hb, -, heq⟩
    · have hle := isLE_of_lastMax hm hb
      rw [OrientedCmp.gt_of_lt hlt] at hle
      cases hle
    · have hlt := hpost b hb
      rw [OrientedCmp.eq_symm heq] at hlt
      cases hlt

/-- In a family of lists of the same elements, each of which comes last in one of the lists,
the last maximum is the same everywhere exactly if only one element has nothing above it. -/
theorem lastMax_const_iff {ι : Type} {L : ι → List α} (hmem : ∀ i j a, a ∈ L i → a ∈ L j)
    (hlast : ∀ i a, a ∈ L i → ∃ j pre, L j = pre ++ [a]) (i : ι) :
    (∀ j, lastMax cmp (L j) = lastMax cmp (L i)) ↔
      ∀ a ∈ L i, ∀ b ∈ L i, (∀ c ∈ L i, (cmp c a).isLE = true) →
        (∀ c ∈ L i, (cmp c b).isLE = true) → a = b := by
  constructor
  · intro hconst
    have hpick : ∀ a ∈ L i, (∀ c ∈ L i, (cmp c a).isLE = true) →
        lastMax cmp (L i) = some a := by
      intro a ha hmax
      obtain ⟨j, pre, hj⟩ := hlast i a ha
      rw [← hconst j, hj]
      apply lastMax_concat_of_isLE
      intro c hc
      exact hmax c (hmem j i c (by simp [hj, hc]))
    intro a ha b hb hmaxa hmaxb
    exact Option.some.inj ((hpick a ha hmaxa).symm.trans (hpick b hb hmaxb))
  · intro hunique j
    cases hi : lastMax cmp (L i) with
    | none =>
        rw [lastMax_eq_none] at hi ⊢
        rw [List.eq_nil_iff_forall_not_mem]
        intro a ha
        simpa [hi] using hmem j i a ha
    | some m =>
        have hm := mem_of_lastMax hi
        have hsome : (lastMax cmp (L j)).isSome = true := lastMax_isSome.mpr ⟨m, hmem i j m hm⟩
        obtain ⟨m', hm'⟩ := Option.isSome_iff_exists.mp hsome
        rw [hm', Option.some.injEq]
        apply hunique m' (hmem j i m' (mem_of_lastMax hm')) m hm
        · intro c hc
          exact isLE_of_lastMax hm' (hmem i j c hc)
        · intro c hc
          exact isLE_of_lastMax hi hc

end Ordered

end MissionOs.Lib
