import Mathlib.Data.List.Basic

/-!
# The collected difference of two byte strings

A comparison that does not stop at the first difference runs over both strings and collects
the bits in which they differ.  Nothing is collected only if the strings are equal.
-/

namespace MissionOs.Lib

/-- The collected difference is zero only if it was zero before and no two bytes differ. -/
theorem foldl_xor_eq_zero_iff (as bs : List UInt8) (h : bs.length = as.length) (acc : UInt8) :
    (as.zip bs).foldl (fun acc ab => acc ||| (ab.1 ^^^ ab.2)) acc = 0 ↔ acc = 0 ∧ as = bs := by
  induction as generalizing bs acc with
  | nil =>
      have hbs : bs = [] := List.length_eq_zero_iff.mp h
      simp [hbs]
  | cons a as ih =>
      cases bs with
      | nil => simp at h
      | cons b bs =>
          have hlen : bs.length = as.length := by simpa using h
          have hbyte : acc ||| (a ^^^ b) = 0 ↔ acc = 0 ∧ a = b := by
            rw [UInt8.or_eq_zero_iff, UInt8.xor_eq_zero_iff]
          rw [List.zip_cons_cons, List.foldl_cons, ih bs hlen, hbyte, List.cons.injEq, and_assoc]

end MissionOs.Lib
