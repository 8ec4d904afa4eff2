import MissionOs.Core.VersionPrecedence
import MissionOs.Driverd.VersionLaws

/-!
# The orders of releases and of drivers

The prerelease of a `Version` is a list of identifiers, that of a `DriverVersion` one text.
Both orders begin with the three numbers.  After them the one compares identifier by identifier
and takes some of them for numbers, the other compares the characters, dots included.
`Reordered` says at which identifiers the two disagree.
-/

namespace MissionOs.Driverd

open Std MissionOs.Rust MissionOs.Lib MissionOs.Core

namespace DriverVersion

/-- The identifier `x`, before `xs`, ends at a dot where `y` goes on with a dash. -/
def EndsAtDash (x : List Char) (xs : List (List Char)) (y : List Char) : Prop :=
  xs ≠ [] ∧ x ++ ['-'] <+: y

/-- The identifiers `x` and `y`, before `xs` and `ys`, are in another order by their characters:
a number and a longer one, a number and an identifier that is none, or an identifier that ends
at a dot where the other goes on with a dash. -/
def Reordered (x : List Char) (xs : List (List Char)) (y : List Char) (ys : List (List Char)) :
    Prop :=
  (Version.IsU64 x ∧ Version.IsU64 y ∧ (x.length < y.length ∧ asciiOrder x y = .gt ∨
      y.length < x.length ∧ asciiOrder x y = .lt)) ∨
    (Version.IsU64 x ∧ ¬Version.IsU64 y ∧ asciiOrder x y = .gt) ∨
    (¬Version.IsU64 x ∧ Version.IsU64 y ∧ asciiOrder x y = .lt) ∨
    EndsAtDash x xs y ∨ EndsAtDash y ys x

instance (x : List Char) (xs : List (List Char)) (y : List Char) :
    Decidable (EndsAtDash x xs y) := inferInstanceAs (Decidable (_ ∧ _))

instance (x : List Char) (xs : List (List Char)) (y : List Char) (ys : List (List Char)) :
    Decidable (Reordered x xs y ys) := inferInstanceAs (Decidable (_ ∨ _))

/-! ## Identifiers with dots between them -/

section Dots

variable {x y : List Char} {xs ys : List (List Char)}

/-- Identifiers with a dot before each. -/
def dots (ids : List (List Char)) : List Char := ids.flatMap ('.' :: ·)

theorem intercalate_cons (x : List Char) (xs : List (List Char)) :
    ['.'].intercalate (x :: xs) = x ++ dots xs := by
  induction xs generalizing x with
  | nil => rw [List.intercalate_singleton, dots, List.flatMap_nil, List.append_nil]
  | cons y xs ih =>
      rw [List.intercalate_cons_cons, ih, dots, dots, List.flatMap_cons]
      simp

theorem intercalate_append (common : List (List Char)) (x : List Char)
    (xs : List (List Char)) : ['.'].intercalate (common ++ x :: xs) =
      common.flatMap (· ++ ['.']) ++ (x ++ dots xs) := by
  induction common with
  | nil => exact intercalate_cons x xs
  | cons c common ih =>
      have hcons : ∃ d rest, common ++ x :: xs = d :: rest := by
        cases common with
        | nil => exact ⟨x, xs, rfl⟩
        | cons d common => exact ⟨d, common ++ x :: xs, rfl⟩
      obtain ⟨d, rest, hrest⟩ := hcons
      rw [List.cons_append, hrest, List.intercalate_cons_cons, ← hrest, ih, List.flatMap_cons]
      simp

theorem asciiOrder_append_left (s t u : List Char) :
    asciiOrder (s ++ t) (s ++ u) = asciiOrder t u :=
  compareLex_append_left (fun c _ => Nat.compare_eq_eq (a := c.toNat).mpr rfl) t u

/-- A text with more after it is above. -/
theorem asciiOrder_of_append (s : List Char) (c : Char) (t : List Char) :
    asciiOrder s (s ++ c :: t) = .lt := by
  have h := asciiOrder_append_left s [] (c :: t)
  rwa [List.append_nil] at h

/-- A dot is above a dash, and below what else an identifier can go on with. -/
theorem dot_lt_of_ne_dash {c : Char} (hc : isIdentifierChar c = true) (hne : c ≠ '-') :
    '.'.toNat < c.toNat := by
  have hdash : c.toNat ≠ 45 := by
    intro h
    exact hne (Char.toNat_inj.mp h)
  have hdot : '.'.toNat = 46 := rfl
  have hrange := toNat_of_isIdentifierChar hc
  omega

theorem asciiOrder_of_endsAtDash (h : EndsAtDash x xs y) (t : List Char) :
    asciiOrder x y = .lt ∧ asciiOrder (x ++ dots xs) (y ++ t) = .gt := by
  obtain ⟨hxs, rest, rfl⟩ := h
  rw [List.append_assoc, List.append_assoc, asciiOrder_append_left]
  refine ⟨asciiOrder_of_append x '-' rest, ?_⟩
  cases xs with
  | nil => exact absurd rfl hxs
  | cons z zs => rfl

/-- An identifier is below one that goes on after it with no dash. -/
theorem asciiOrder_dots_of_beginning {d : Char} {ds : List Char} (hd : isIdentifierChar d = true)
    (hdash : xs ≠ [] → d ≠ '-') (t : List Char) :
    asciiOrder (x ++ dots xs) (x ++ d :: ds ++ t) = .lt := by
  rw [List.append_assoc, asciiOrder_append_left]
  cases xs with
  | nil => rfl
  | cons z zs =>
      have hlt := dot_lt_of_ne_dash hd (hdash (List.cons_ne_nil z zs))
      show asciiOrder ('.' :: (z ++ dots zs)) (d :: (ds ++ t)) = .lt
      rw [asciiOrder_cons, Nat.compare_eq_lt.mpr hlt]
      rfl

/-- The characters from the first identifiers on that differ. -/
theorem asciiOrder_dots (hx : IsBuild x) (hy : IsBuild y) (hne : x ≠ y)
    (hxd : ¬EndsAtDash x xs y) (hyd : ¬EndsAtDash y ys x) :
    asciiOrder (x ++ dots xs) (y ++ dots ys) = asciiOrder x y := by
  rcases firstDiffer_cases x y with heq | ⟨d, ds, rfl⟩ | ⟨d, ds, rfl⟩ | ⟨c, cs, d, ds, h⟩
  · exact absurd heq hne
  · have hd : isIdentifierChar d = true := hy.identifierChar d (by simp)
    have hdash : xs ≠ [] → d ≠ '-' := by
      intro hxs heq
      subst heq
      exact hxd ⟨hxs, ds, by simp⟩
    rw [asciiOrder_dots_of_beginning hd hdash, asciiOrder_of_append]
  · have hd : isIdentifierChar d = true := hx.identifierChar d (by simp)
    have hdash : ys ≠ [] → d ≠ '-' := by
      intro hys heq
      subst heq
      exact hyd ⟨hys, ds, by simp⟩
    rw [asciiOrder_swap, asciiOrder_dots_of_beginning hd hdash, asciiOrder_swap _ y,
      asciiOrder_of_append]
  · have hself : ∀ s : List Char, ∀ e ∈ s, compareOn Char.toNat e e = .eq := fun _ e _ =>
      Nat.compare_eq_eq.mpr rfl
    have hcd : compareOn Char.toNat c d ≠ .eq := by
      rw [compareOn, ne_eq, Nat.compare_eq_eq, Char.toNat_inj]
      exact h.1
    rw [asciiOrder, compareLex_of_firstDiffer (hself _) (h.append _ _) hcd,
      compareLex_of_firstDiffer (hself _) h hcd]

theorem not_isU64_of_endsAtDash (h : EndsAtDash x xs y) : ¬Version.IsU64 y := by
  intro h
  obtain ⟨hdigits, -⟩ := h
  obtain ⟨-, rest, rfl⟩ := h
  have hdash := hdigits.2 '-' (by simp)
  revert hdash
  decide

/-- Where two lists of identifiers first differ, the characters and the identifiers are in the
same order unless the identifiers are reordered. -/
theorem asciiOrder_dots_eq_iff (hx : IsPreRelease x) (hy : IsPreRelease y) (hne : x ≠ y) :
    asciiOrder (x ++ dots xs) (y ++ dots ys) =
        Version.comparePreReleaseId (String.ofList x) (String.ofList y) ↔
      ¬Reordered x xs y ys := by
  rw [Version.comparePreReleaseId_ofList hx.isBuild hy.isBuild]
  by_cases hxd : EndsAtDash x xs y
  · obtain ⟨hlt, hgt⟩ := asciiOrder_of_endsAtDash hxd (dots ys)
    rw [hgt, hlt, if_neg (not_isU64_of_endsAtDash hxd), if_neg (not_isU64_of_endsAtDash hxd),
      ite_self]
    exact iff_of_false (by decide) (by simp [Reordered, hxd])
  by_cases hyd : EndsAtDash y ys x
  · obtain ⟨hlt, hgt⟩ := asciiOrder_of_endsAtDash hyd (dots xs)
    rw [asciiOrder_swap, hgt, asciiOrder_swap x, hlt, if_neg (not_isU64_of_endsAtDash hyd)]
    refine iff_of_false ?_ (by simp [Reordered, hyd])
    split
    · decide
    · decide
  rw [asciiOrder_dots hx.isBuild hy.isBuild hne hxd hyd, Reordered]
  by_cases hxu : Version.IsU64 x
  · by_cases hyu : Version.IsU64 y
    · rw [if_pos hxu, if_pos hyu,
        asciiOrder_eq_compare_iff (hx.isNumeric hxu.1) (hy.isNumeric hyu.1)]
      simp [hxu, hyu, hxd, hyd]
    · rw [if_pos hxu, if_neg hyu, asciiOrder_eq_lt_iff hne]
      simp [hxu, hyu, hxd, hyd]
  · by_cases hyu : Version.IsU64 y
    · rw [if_neg hxu, if_pos hyu, asciiOrder_eq_gt_iff hne]
      simp [hxu, hyu, hxd, hyd]
    · simp [hxu, hyu, hxd, hyd]

end Dots

/-! ## Prereleases -/

section PreReleases

variable {a b : List (List Char)}

theorem strCmp_intercalate_of_append (ha : a ≠ []) (z : List Char) (zs : List (List Char)) :
    strCmp (['.'].intercalate a) (['.'].intercalate (a ++ z :: zs)) = .lt := by
  cases a with
  | nil => exact absurd rfl ha
  | cons x xs =>
      rw [List.cons_append, intercalate_cons, intercalate_cons, dots, dots, List.flatMap_append,
        ← List.append_assoc, Version.strCmp_eq_asciiOrder]
      exact asciiOrder_of_append _ '.' _

theorem comparePreRelease_of_append (a : List (List Char)) (z : List Char)
    (zs : List (List Char)) : Version.comparePreRelease (a.map String.ofList)
      ((a ++ z :: zs).map String.ofList) = .lt := by
  rw [Version.comparePreRelease_eq, List.map_append]
  exact compareLex_append_self (fun x _ => Version.comparePreReleaseId_self x) _ _

/-- Two prereleases are in the same order as texts and as lists of identifiers exactly if the
identifiers in which they first differ are not reordered. -/
theorem strCmp_intercalate_eq_iff (ha : ∀ id ∈ a, IsPreRelease id)
    (hb : ∀ id ∈ b, IsPreRelease id) (hane : a ≠ []) (hbne : b ≠ []) :
    strCmp (['.'].intercalate a) (['.'].intercalate b) =
        Version.comparePreRelease (a.map String.ofList) (b.map String.ofList) ↔
      ∀ x xs y ys, FirstDiffer a b x xs y ys → ¬Reordered x xs y ys := by
  have hat : ∀ x xs y ys, FirstDiffer a b x xs y ys →
      (strCmp (['.'].intercalate a) (['.'].intercalate b) =
          Version.comparePreRelease (a.map String.ofList) (b.map String.ofList) ↔
        ¬Reordered x xs y ys) := by
    intro x xs y ys h
    have hx := ha x h.mem_left
    have hy := hb y h.mem_right
    have hdecide : List.compareLex (fun x y => Version.comparePreReleaseId (String.ofList x)
        (String.ofList y)) a b =
          Version.comparePreReleaseId (String.ofList x) (String.ofList y) :=
      compareLex_of_firstDiffer (fun _ _ => Version.comparePreReleaseId_self _) h
        (Version.comparePreReleaseId_ne_eq hx hy h.1)
    rw [Version.comparePreRelease_eq, compareLex_map, hdecide,
      ← asciiOrder_dots_eq_iff hx hy h.1]
    obtain ⟨-, common, rfl, rfl⟩ := h
    rw [intercalate_append, intercalate_append, Version.strCmp_eq_asciiOrder,
      asciiOrder_append_left]
  constructor
  · intro heq x xs y ys h
    exact (hat x xs y ys h).mp heq
  · intro hall
    rcases firstDiffer_cases a b with rfl | ⟨z, zs, rfl⟩ | ⟨z, zs, rfl⟩ | ⟨x, xs, y, ys, h⟩
    · have hself : Version.comparePreRelease (a.map String.ofList) (a.map String.ofList) = .eq :=
        ReflCmp.compare_self
      rw [strCmp_eq_iff.mpr rfl, hself]
    · rw [strCmp_intercalate_of_append hane, comparePreRelease_of_append]
    · rw [OrientedCmp.gt_of_lt (strCmp_intercalate_of_append hbne z zs),
        OrientedCmp.gt_of_lt (comparePreRelease_of_append b z zs)]
    · exact (hat x xs y ys h).mpr (hall x xs y ys h)

theorem cmpPreRelease_eq_iff (ha : ∀ id ∈ a, IsPreRelease id) (hb : ∀ id ∈ b, IsPreRelease id) :
    cmpPreRelease ((Version.joined a).map String.ofList)
        ((Version.joined b).map String.ofList) =
        Version.cmpPre (a.map String.ofList) (b.map String.ofList) ↔
      ∀ x xs y ys, FirstDiffer a b x xs y ys → ¬Reordered x xs y ys := by
  cases a with
  | nil =>
      refine iff_of_true ?_ fun x xs y ys h => absurd h FirstDiffer.not_nil_left
      cases b with
      | nil => rfl
      | cons y b => rfl
  | cons x a =>
      cases b with
      | nil => exact iff_of_true rfl fun x xs y ys h => absurd h FirstDiffer.not_nil_right
      | cons y b =>
          rw [← strCmp_intercalate_eq_iff ha hb (List.cons_ne_nil x a) (List.cons_ne_nil y b)]
          rw [Version.joined, if_neg (List.cons_ne_nil x a), Version.joined,
            if_neg (List.cons_ne_nil y b), Option.map_some, Option.map_some, cmpPreRelease,
            String.toList_ofList, String.toList_ofList]
          rfl

end PreReleases

/-! ## Versions -/

/-- The driver version that a semantic version without build metadata is read as. -/
def ofSemVer (v : SemVer) : DriverVersion where
  major := .ofNat (number v.major)
  minor := .ofNat (number v.minor)
  patch := .ofNat (number v.patch)
  preRelease := (Version.joined v.preRelease).map String.ofList

section Versions

variable {v w : SemVer}

theorem isWhitespace_of_isIdentifierChar {c : Char} (h : isIdentifierChar c = true) :
    isWhitespace c = false := by
  have hrange := toNat_of_isIdentifierChar h
  simp only [isWhitespace, Bool.or_eq_false_iff, Bool.and_eq_false_iff, decide_eq_false_iff_not,
    beq_eq_false_iff_ne]
  omega

theorem isWhitespace_of_mem_marked {mark : Char} (hmark : isWhitespace mark = false)
    {ids : List (List Char)} (hids : ∀ id ∈ ids, IsBuild id) :
    ∀ c ∈ marked mark ids, isWhitespace c = false := by
  intro c hc
  rw [marked] at hc
  split at hc
  · cases hc
  · rcases List.mem_cons.mp hc with rfl | hc
    · exact hmark
    · rcases mem_intercalate hc with rfl | ⟨id, hid, hmem⟩
      · decide
      · exact isWhitespace_of_isIdentifierChar ((hids id hid).identifierChar c hmem)

/-- A semantic version has no white space. -/
theorem trim_text (v : SemVer) : trim v.text = v.text := by
  have hdigits : ∀ {s : List Char}, IsNumeric s → ∀ c ∈ s, isWhitespace c = false :=
    fun hs c hc => isWhitespace_of_isDigit (hs.1.2 c hc)
  apply trim_eq_self_of_forall
  simp only [SemVer.text, dotted, List.forall_mem_append, List.forall_mem_cons]
  refine ⟨⟨⟨hdigits v.major_numeric, by decide, hdigits v.minor_numeric, by decide,
    hdigits v.patch_numeric⟩, ?_⟩, ?_⟩
  · exact isWhitespace_of_mem_marked (by decide)
      fun id hid => (v.preRelease_valid id hid).isBuild
  · exact isWhitespace_of_mem_marked (by decide) v.build_valid

/-- A semantic version without build metadata is read as a driver version. -/
theorem parse_text (hbuild : v.build = []) (hfits : Version.Fits v) :
    parse (String.ofList v.text) = .ok (ofSemVer v) := by
  apply parse_of_denotes
  refine ⟨v.major, v.minor, v.patch, ?_, ?_, ?_, ?_, ?_⟩
  · rw [String.toList_ofList, trim_text, SemVer.text, hbuild, marked, marked, if_pos rfl,
      List.append_nil, ofSemVer, Version.joined]
    split
    · rfl
    · rw [Option.map_some, preReleaseText, String.toList_ofList]
      rfl
  · exact ⟨v.major_numeric.1, (UInt64.toNat_ofNat_of_lt' hfits.1).symm⟩
  · exact ⟨v.minor_numeric.1, (UInt64.toNat_ofNat_of_lt' hfits.2.1).symm⟩
  · exact ⟨v.patch_numeric.1, (UInt64.toNat_ofNat_of_lt' hfits.2.2).symm⟩
  · rw [ofSemVer, Version.joined]
    split
    · intro hempty
      cases hempty
    · rename_i hne
      intro hempty
      rw [Option.map_some, Option.some.injEq, String.ofList_eq_empty_iff] at hempty
      exact Version.intercalate_ne_nil
        (fun id hid => (v.preRelease_valid id hid).isBuild) hne hempty

/-- Two driver versions are in the order of the releases with the same texts exactly if they
have different numbers or the identifiers in which they first differ are not reordered. -/
theorem cmp_agrees_iff (v w : SemVer) (hv : v.build = []) (hw : w.build = [])
    (hvf : Version.Fits v) (hwf : Version.Fits w) :
    (∃ a b a' b', parse (String.ofList v.text) = .ok a ∧ parse (String.ofList w.text) = .ok b ∧
        Version.parse (String.ofList v.text) = .ok a' ∧
        Version.parse (String.ofList w.text) = .ok b' ∧ a.cmp b = a'.cmp b') ↔
      (v.SameNumbers w → ∀ x xs y ys,
        FirstDiffer v.preRelease w.preRelease x xs y ys → ¬Reordered x xs y ys) := by
  have hcmp : (ofSemVer v).cmp (ofSemVer w) =
        (Version.ofSemVer v).cmp (Version.ofSemVer w) ↔
      (v.SameNumbers w → ∀ x xs y ys,
        FirstDiffer v.preRelease w.preRelease x xs y ys → ¬Reordered x xs y ys) := by
    rw [cmp, Version.cmp, ofSemVer, ofSemVer, Version.ofSemVer, Version.ofSemVer,
      then_eq_then_iff, then_eq_then_iff, then_eq_then_iff,
      Version.compare_ofNat hvf.1 hwf.1, Version.compare_ofNat hvf.2.1 hwf.2.1,
      Version.compare_ofNat hvf.2.2 hwf.2.2,
      Version.compare_number_eq_iff v.major_numeric w.major_numeric,
      Version.compare_number_eq_iff v.minor_numeric w.minor_numeric,
      Version.compare_number_eq_iff v.patch_numeric w.patch_numeric,
      cmpPreRelease_eq_iff v.preRelease_valid w.preRelease_valid, SemVer.SameNumbers, and_imp,
      and_imp]
  have hv' : Version.parse (String.ofList v.text) = .ok (Version.ofSemVer v) :=
    Version.parse_text_iff.mpr ⟨hvf, rfl⟩
  have hw' : Version.parse (String.ofList w.text) = .ok (Version.ofSemVer w) :=
    Version.parse_text_iff.mpr ⟨hwf, rfl⟩
  rw [← hcmp, parse_text hv hvf, parse_text hw hwf, hv', hw']
  constructor
  · intro h
    obtain ⟨a, b, a', b', ⟨⟩, ⟨⟩, ⟨⟩, ⟨⟩, h⟩ := h
    exact h
  · intro h
    exact ⟨_, _, _, _, rfl, rfl, rfl, rfl, h⟩

/-- The first alpha comes before the beta in both orders. -/
theorem cmp_agrees_alpha_beta :
    let v := Version.preReleaseOfOne ["alpha".toList, ['1']] (by decide)
    let w := Version.preReleaseOfOne ["beta".toList] (by decide)
    ∃ a b a' b', parse (String.ofList v.text) = .ok a ∧ parse (String.ofList w.text) = .ok b ∧
      Version.parse (String.ofList v.text) = .ok a' ∧
      Version.parse (String.ofList w.text) = .ok b' ∧ a.cmp b = a'.cmp b' := by
  refine (cmp_agrees_iff (Version.preReleaseOfOne ["alpha".toList, ['1']] (by decide))
    (Version.preReleaseOfOne ["beta".toList] (by decide)) rfl rfl (by decide)
    (by decide)).mpr ?_
  intro _ x xs y ys h
  obtain ⟨rfl, rfl, rfl, rfl⟩ := h.cons_cons (by decide)
  decide

/-- `1.0.0-rc.10` is a later release than `1.0.0-rc.2`, but an earlier driver. -/
theorem tenth_candidate_before_second :
    ¬ ∀ v w : SemVer, v.build = [] → w.build = [] → Version.Fits v → Version.Fits w →
      ∃ a b a' b', parse (String.ofList v.text) = .ok a ∧ parse (String.ofList w.text) = .ok b ∧
        Version.parse (String.ofList v.text) = .ok a' ∧
        Version.parse (String.ofList w.text) = .ok b' ∧ a.cmp b = a'.cmp b' := by
  intro h
  let v := Version.preReleaseOfOne ["rc".toList, ['2']] (by decide)
  let w := Version.preReleaseOfOne ["rc".toList, ['1', '0']] (by decide)
  obtain ⟨a, b, a', b', ha, hb, ha', hb', hcmp⟩ := h v w rfl rfl (by decide) (by decide)
  rw [parse_text rfl (by decide)] at ha hb
  cases ha
  cases hb
  rw [(Version.parse_text_iff.mp ha').2, (Version.parse_text_iff.mp hb').2] at hcmp
  revert hcmp
  decide

end Versions

end DriverVersion

end MissionOs.Driverd
