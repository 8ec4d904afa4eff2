import MissionOs.Core.Version
import MissionOs.Lib.LastMax

/-!
# The order of versions

Identifiers that can be read as a `u64` are in the order of their numbers and below the others,
which are in the order of texts.  Lists of identifiers are in lexicographic order, and the
versions in that of their three numbers and of what follows these.  Each of them is transitive,
and so is the whole.
-/

namespace MissionOs.Core

open Std MissionOs.Rust MissionOs.Lib

namespace Version

instance : TransCmp comparePreReleaseId where
  eq_swap {a b} := by
    simp only [comparePreReleaseId]
    cases parseU64 a.toList with
    | error e =>
        cases parseU64 b.toList with
        | error e' =>
            show strCmp a.toList b.toList = (strCmp b.toList a.toList).swap
            exact OrientedCmp.eq_swap
        | ok n => rfl
    | ok m =>
        cases parseU64 b.toList with
        | error e => rfl
        | ok n =>
            show compare m n = (compare n m).swap
            exact OrientedCmp.eq_swap
  isLE_trans {a b c} hab hbc := by
    simp only [comparePreReleaseId] at hab hbc ⊢
    cases ha : parseU64 a.toList with
    | error e =>
        rw [ha] at hab
        cases hb : parseU64 b.toList with
        | ok n =>
            rw [hb] at hab
            cases hab
        | error e' =>
            rw [hb] at hab hbc
            cases hc : parseU64 c.toList with
            | ok n =>
                rw [hc] at hbc
                cases hbc
            | error e'' =>
                rw [hc] at hbc
                show (strCmp a.toList c.toList).isLE = true
                exact TransCmp.isLE_trans hab hbc
    | ok m =>
        cases hc : parseU64 c.toList with
        | error e => rfl
        | ok n =>
            rw [ha] at hab
            rw [hc] at hbc
            cases hb : parseU64 b.toList with
            | ok k =>
                rw [hb] at hab hbc
                show (compare m n).isLE = true
                exact TransCmp.isLE_trans hab hbc
            | error e =>
                rw [hb] at hbc
                cases hbc

/-- Lists of identifiers are in lexicographic order. -/
theorem comparePreRelease_eq : comparePreRelease = List.compareLex comparePreReleaseId := by
  funext a b
  induction a generalizing b with
  | nil =>
      cases b with
      | nil => rfl
      | cons y b =>
          rw [List.compareLex_nil_cons, comparePreRelease, Nat.compare_eq_lt]
          · exact Nat.zero_lt_succ _
          · intro _ _ _ _ h
            cases h
  | cons x a ih =>
      cases b with
      | nil =>
          rw [List.compareLex_cons_nil, comparePreRelease, Nat.compare_eq_gt]
          · exact Nat.zero_lt_succ _
          · intro _ _ _ _ _ h
            cases h
      | cons y b =>
          rw [List.compareLex_cons_cons, comparePreRelease, ← ih]
          cases comparePreReleaseId x y with
          | lt => rfl
          | eq => rfl
          | gt => rfl

instance : TransCmp comparePreRelease := by
  rw [comparePreRelease_eq]
  infer_instance

instance : TransCmp cmpPre where
  eq_swap {a b} := by
    cases a with
    | nil =>
        cases b with
        | nil => rfl
        | cons y b => rfl
    | cons x a =>
        cases b with
        | nil => rfl
        | cons y b =>
            show comparePreRelease (x :: a) (y :: b) =
              (comparePreRelease (y :: b) (x :: a)).swap
            exact OrientedCmp.eq_swap
  isLE_trans {a b c} hab hbc := by
    cases c with
    | nil =>
        cases a with
        | nil => rfl
        | cons x a => rfl
    | cons z c =>
        cases b with
        | nil => cases hbc
        | cons y b =>
            cases a with
            | nil => cases hab
            | cons x a =>
                show (comparePreRelease (x :: a) (z :: c)).isLE = true
                exact TransCmp.isLE_trans hab hbc

instance : TransCmp cmp :=
  have : TransCmp fun a b : Version => cmpPre a.pre b.pre := transCmp_on cmpPre pre
  inferInstanceAs (TransCmp (compareLex (compareOn major) (compareLex (compareOn minor)
    (compareLex (compareOn patch) fun a b => cmpPre a.pre b.pre))))

end Version

end MissionOs.Core
