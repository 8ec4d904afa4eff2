import MissionOs.Lib.CallProg

/-!
# Interleaved programs

Two programs whose calls are answered over one state, in the order of a schedule (`weave`).

A program that shares its state is compared with the same program run alone: `Simulates` says
that its calls are answered alike in related states, and that the states stay related,
whichever of the two programs makes a call.  Then each program returns what it returns alone,
under every schedule (`weave_eq_run`).
-/

namespace MissionOs.Lib

variable {I J : Interface} {α β σ τ ρ : Type}

namespace CallProg

/-- The run of two programs over one state.  The schedule says whose call is next, `true` for
the first program; a turn of a program that has ended is passed over.  What is left at the end
of the schedule is run to its end, the first program before the second. -/
def weave (h : Handler I σ) (h' : Handler J σ) :
    List Bool → CallProg I α → CallProg J β → σ → (α × β) × σ
  | [], p, q, s =>
    let left := p.run h s
    let right := q.run h' left.2
    ((left.1, right.1), right.2)
  | true :: turns, call c k, q, s => weave h h' turns (k (h c s).1) q (h c s).2
  | true :: turns, ret a, q, s => weave h h' turns (ret a) q s
  | false :: turns, p, call c k, s => weave h h' turns p (k (h' c s).1) (h' c s).2
  | false :: turns, p, ret b, s => weave h h' turns p (ret b) s

end CallProg

/-- Where `R` relates the state `a` of a program alone to the state `s` that it shares, its
calls are answered alike and keep `R`; and they keep `F`, which relates the shared state to
the state of the other program alone. -/
structure Simulates (alone : Handler I τ) (shared : Handler I σ) (P : I.Call → τ → Prop)
    (R : τ → σ → Prop) (F : ρ → σ → Prop) : Prop where
  reply : ∀ {c a s}, P c a → R a s → (shared c s).1 = (alone c a).1
  keeps : ∀ {c a s}, P c a → R a s → R (alone c a).2 (shared c s).2
  frame : ∀ {c a b s}, P c a → R a s → F b s → F b (shared c s).2

namespace CallProg

/-- A program that runs undisturbed over the shared state. -/
theorem run_simulates {alone : Handler I τ} {shared : Handler I σ} {P : I.Call → τ → Prop}
    {R : τ → σ → Prop} {F : ρ → σ → Prop} (hsim : Simulates alone shared P R F)
    (p : CallProg I α) {a : τ} {b : ρ} {s : σ} (hp : p.Along alone P a) (hR : R a s)
    (hF : F b s) :
    (p.run shared s).1 = (p.run alone a).1 ∧ R (p.run alone a).2 (p.run shared s).2 ∧
      F b (p.run shared s).2 := by
  induction p generalizing a s with
  | ret x => exact ⟨rfl, hR, hF⟩
  | call c k ih =>
      rw [run, run, hsim.reply hp.1 hR]
      exact ih (alone c a).1 hp.2 (hsim.keeps hp.1 hR) (hsim.frame hp.1 hR hF)

/-- Under every schedule two programs that do not disturb each other return what they return
alone. -/
theorem weave_eq_run {alone : Handler I τ} {alone' : Handler J ρ} {shared : Handler I σ}
    {shared' : Handler J σ} {P : I.Call → τ → Prop} {P' : J.Call → ρ → Prop}
    {R : τ → σ → Prop} {R' : ρ → σ → Prop} (hsim : Simulates alone shared P R R')
    (hsim' : Simulates alone' shared' P' R' R) (turns : List Bool) (p : CallProg I α)
    (q : CallProg J β) {a : τ} {b : ρ} {s : σ} (hp : p.Along alone P a)
    (hq : q.Along alone' P' b) (hR : R a s) (hR' : R' b s) :
    (weave shared shared' turns p q s).1 = ((p.run alone a).1, (q.run alone' b).1) ∧
      R (p.run alone a).2 (weave shared shared' turns p q s).2 ∧
        R' (q.run alone' b).2 (weave shared shared' turns p q s).2 := by
  induction turns generalizing p q a b s with
  | nil =>
      obtain ⟨hleft, hR₁, hR'₁⟩ := run_simulates hsim p hp hR hR'
      obtain ⟨hright, hR'₂, hR₂⟩ := run_simulates hsim' q hq hR'₁ hR₁
      exact ⟨Prod.ext hleft hright, hR₂, hR'₂⟩
  | cons turn turns ih =>
      cases turn with
      | true =>
          cases p with
          | ret x => exact ih (ret x) q hp hq hR hR'
          | call c k =>
              rw [weave, run, hsim.reply hp.1 hR]
              exact ih (k (alone c a).1) q hp.2 hq (hsim.keeps hp.1 hR)
                (hsim.frame hp.1 hR hR')
      | false =>
          cases q with
          | ret y => exact ih p (ret y) hp hq hR hR'
          | call c k =>
              rw [weave, run, hsim'.reply hq.1 hR']
              exact ih p (k (alone' c b).1) hp hq.2 (hsim'.frame hq.1 hR' hR)
                (hsim'.keeps hq.1 hR')

end CallProg

end MissionOs.Lib
