import Mathlib.Data.List.Basic

/-!
# The first difference of two lists

A lexicographic comparison of two lists is decided where they first differ, or by their lengths
if one begins with the other.  So two such comparisons agree on two lists exactly if they agree
on the first elements in which these differ.
-/

namespace MissionOs.Lib

variable {α : Type}

/-- `a` and `b` first differ where `x` with the rest `xs` stands in `a`, and `y` with the rest
`ys` in `b`. -/
def FirstDiffer (a b : List α) (x : α) (xs : List α) (y : α) (ys : List α) : Prop :=
  x ≠ y ∧ ∃ common, a = common ++ x :: xs ∧ b = common ++ y :: ys

namespace FirstDiffer

variable {a b xs ys : List α} {x y z : α}

theorem symm (h : FirstDiffer a b x xs y ys) : FirstDiffer b a y ys x xs := by
  obtain ⟨hne, common, ha, hb⟩ := h
  exact ⟨hne.symm, common, hb, ha⟩

theorem cons (z : α) (h : FirstDiffer a b x xs y ys) :
    FirstDiffer (z :: a) (z :: b) x xs y ys := by
  obtain ⟨hne, common, ha, hb⟩ := h
  refine ⟨hne, z :: common, ?_, ?_⟩
  · rw [ha, List.cons_append]
  · rw [hb, List.cons_append]

/-- What stands after the two lists does not matter. -/
theorem append (h : FirstDiffer a b x xs y ys) (s t : List α) :
    FirstDiffer (a ++ s) (b ++ t) x (xs ++ s) y (ys ++ t) := by
  obtain ⟨hne, common, ha, hb⟩ := h
  refine ⟨hne, common, ?_, ?_⟩
  · rw [ha, List.append_assoc, List.cons_append]
  · rw [hb, List.append_assoc, List.cons_append]

theorem mem_left (h : FirstDiffer a b x xs y ys) : x ∈ a := by
  obtain ⟨-, common, ha, -⟩ := h
  simp [ha]

theorem mem_right (h : FirstDiffer a b x xs y ys) : y ∈ b := h.symm.mem_left

theorem not_nil_left : ¬FirstDiffer [] b x xs y ys := by
  intro h
  cases h.mem_left

theorem not_nil_right : ¬FirstDiffer a [] x xs y ys := by
  intro h
  cases h.mem_right

/-- Lists that begin with different elements differ there. -/
theorem cons_cons {z w : α} (hne : z ≠ w) (h : FirstDiffer (z :: a) (w :: b) x xs y ys) :
    x = z ∧ xs = a ∧ y = w ∧ ys = b := by
  obtain ⟨-, common, ha, hb⟩ := h
  cases common with
  | nil =>
      cases ha
      cases hb
      exact ⟨rfl, rfl, rfl, rfl⟩
  | cons u common =>
      cases ha
      cases hb
      exact absurd rfl hne

end FirstDiffer

/-- Two lists are equal, or one begins with the other, or they differ somewhere first. -/
theorem firstDiffer_cases (a b : List α) :
    a = b ∨ (∃ z zs, b = a ++ z :: zs) ∨ (∃ z zs, a = b ++ z :: zs) ∨
      ∃ x xs y ys, FirstDiffer a b x xs y ys := by
  induction a generalizing b with
  | nil =>
      cases b with
      | nil => exact Or.inl rfl
      | cons y b => exact Or.inr (Or.inl ⟨y, b, rfl⟩)
  | cons x a ih =>
      cases b with
      | nil => exact Or.inr (Or.inr (Or.inl ⟨x, a, rfl⟩))
      | cons y b =>
          by_cases hxy : x = y
          · subst hxy
            rcases ih b with heq | ⟨z, zs, hb⟩ | ⟨z, zs, ha⟩ | ⟨u, us, v, vs, h⟩
            · exact Or.inl (congrArg (x :: ·) heq)
            · exact Or.inr (Or.inl ⟨z, zs, congrArg (x :: ·) hb⟩)
            · exact Or.inr (Or.inr (Or.inl ⟨z, zs, congrArg (x :: ·) ha⟩))
            · exact Or.inr (Or.inr (Or.inr ⟨u, us, v, vs, h.cons x⟩))
          · exact Or.inr (Or.inr (Or.inr ⟨x, a, y, b, hxy, [], rfl, rfl⟩))

/-- Two comparisons that go on alike agree unless they go on. -/
theorem then_eq_then_iff {a p q : Ordering} : a.then p = a.then q ↔ (a = .eq → p = q) := by
  cases a with
  | lt => simp
  | eq => simp
  | gt => simp

section CompareLex

variable {cmp cmp' : α → α → Ordering} {a b xs ys : List α} {x y : α}

/-- What two lists begin with does not matter. -/
theorem compareLex_append_left (hself : ∀ x ∈ a, cmp x x = .eq) (b c : List α) :
    List.compareLex cmp (a ++ b) (a ++ c) = List.compareLex cmp b c := by
  induction a with
  | nil => rfl
  | cons x a ih =>
      rw [List.forall_mem_cons] at hself
      rw [List.cons_append, List.cons_append, List.compareLex_cons_cons, hself.1,
        Ordering.eq_then, ih hself.2]

/-- A list is below one that goes on where it ends. -/
theorem compareLex_append_self (hself : ∀ x ∈ a, cmp x x = .eq) (z : α) (zs : List α) :
    List.compareLex cmp a (a ++ z :: zs) = .lt := by
  have h := compareLex_append_left hself [] (z :: zs)
  rwa [List.append_nil] at h

theorem compareLex_self_append (hself : ∀ x ∈ a, cmp x x = .eq) (z : α) (zs : List α) :
    List.compareLex cmp (a ++ z :: zs) a = .gt := by
  have h := compareLex_append_left hself (z :: zs) []
  rwa [List.append_nil] at h

theorem compareLex_map {β : Type} (f : β → α) (as bs : List β) :
    List.compareLex cmp (as.map f) (bs.map f) =
      List.compareLex (fun a b => cmp (f a) (f b)) as bs := by
  induction as generalizing bs with
  | nil =>
      cases bs with
      | nil => rfl
      | cons b bs => rfl
  | cons a as ih =>
      cases bs with
      | nil => rfl
      | cons b bs =>
          rw [List.map_cons, List.map_cons, List.compareLex_cons_cons,
            List.compareLex_cons_cons, ih]

/-- The first difference decides. -/
theorem compareLex_of_firstDiffer (hself : ∀ x ∈ a, cmp x x = .eq)
    (h : FirstDiffer a b x xs y ys) (hne : cmp x y ≠ .eq) :
    List.compareLex cmp a b = cmp x y := by
  obtain ⟨-, common, ha, hb⟩ := h
  have hcommon : ∀ z ∈ common, cmp z z = .eq := by
    intro z hz
    exact hself z (by rw [ha]; exact List.mem_append_left _ hz)
  rw [ha, hb, compareLex_append_left hcommon, List.compareLex_cons_cons]
  cases hcmp : cmp x y with
  | eq => exact absurd hcmp hne
  | lt => rfl
  | gt => rfl

/-- Two comparisons that tell different elements apart agree on two lists exactly if they agree
where these first differ. -/
theorem compareLex_eq_compareLex_iff (hself : ∀ x ∈ a, cmp x x = .eq)
    (hself' : ∀ x ∈ a, cmp' x x = .eq) (hne : ∀ x ∈ a, ∀ y ∈ b, x ≠ y → cmp x y ≠ .eq)
    (hne' : ∀ x ∈ a, ∀ y ∈ b, x ≠ y → cmp' x y ≠ .eq) :
    List.compareLex cmp a b = List.compareLex cmp' a b ↔
      ∀ x xs y ys, FirstDiffer a b x xs y ys → cmp x y = cmp' x y := by
  have hdecide : ∀ {x xs y ys}, FirstDiffer a b x xs y ys →
      List.compareLex cmp a b = cmp x y ∧ List.compareLex cmp' a b = cmp' x y := by
    intro x xs y ys h
    exact ⟨compareLex_of_firstDiffer hself h (hne x h.mem_left y h.mem_right h.1),
      compareLex_of_firstDiffer hself' h (hne' x h.mem_left y h.mem_right h.1)⟩
  constructor
  · intro heq x xs y ys h
    rw [← (hdecide h).1, ← (hdecide h).2, heq]
  · intro hagree
    rcases firstDiffer_cases a b with rfl | ⟨z, zs, rfl⟩ | ⟨z, zs, rfl⟩ | ⟨x, xs, y, ys, h⟩
    · have h := compareLex_append_left hself [] []
      have h' := compareLex_append_left hself' [] []
      rw [List.append_nil] at h h'
      rw [h, h', List.compareLex_nil_nil, List.compareLex_nil_nil]
    · rw [compareLex_append_self hself, compareLex_append_self hself']
    · have hb : ∀ x ∈ b, x ∈ b ++ z :: zs := fun x hx => List.mem_append_left _ hx
      rw [compareLex_self_append fun x hx => hself x (hb x hx),
        compareLex_self_append fun x hx => hself' x (hb x hx)]
    · rw [(hdecide h).1, (hdecide h).2, hagree x xs y ys h]

end CompareLex

end MissionOs.Lib
