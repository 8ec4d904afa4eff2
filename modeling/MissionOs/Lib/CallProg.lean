import Mathlib.Logic.Relation

/-!
# Programs over an interface of calls

`CallProg I α` is a program that reaches its surroundings only through the calls
of the interface `I`, and returns an `α`.  A `Handler` answers the calls and
keeps a state; `run` puts a program and a handler together.  What a program asks
for and what the answers are is so kept apart, and one program can be run against
any surroundings.

`Fallible I ε α` is a program that can also end with an error.  `Ensures h P p Q E s`
says that `p`, answered by `h` from the state `s`, makes only calls that satisfy `P`, each
in the state in which it is made, and ends with a value that satisfies `Q` or with an error
that satisfies `E`.  There is one rule for each construct, so that a proof about a program
follows its text.

`Makes C p Q` says which calls are in the text of `p`, whatever the answers are; a frame
condition follows from it, call by call (`Keeps.of_makes`).
-/

namespace MissionOs.Lib

/-- The calls that a program can make, and what it is answered. -/
structure Interface where
  Call : Type
  Reply : Call → Type

/-- A program over the calls of `I`. -/
inductive CallProg (I : Interface) (α : Type) where
  | ret (a : α)
  | call (c : I.Call) (k : I.Reply c → CallProg I α)

/-- The answer to a call in a state, and the state after it. -/
abbrev Handler (I : Interface) (σ : Type) := (c : I.Call) → σ → I.Reply c × σ

variable {I : Interface} {α β ε σ : Type}

namespace CallProg

/-- One program after the other. -/
def bind : CallProg I α → (α → CallProg I β) → CallProg I β
  | ret a, f => f a
  | call c k, f => call c fun r => bind (k r) f

instance : Monad (CallProg I) where
  pure := ret
  bind := bind

theorem bind_ret (p : CallProg I α) : p >>= ret = p := by
  induction p with
  | ret a => rfl
  | call c k ih => exact congrArg (call c) (funext ih)

theorem bind_bind {γ : Type} (p : CallProg I α) (f : α → CallProg I β) (g : β → CallProg I γ) :
    (p >>= f) >>= g = p >>= fun a => f a >>= g := by
  induction p with
  | ret a => rfl
  | call c k ih => exact congrArg (call c) (funext ih)

instance : LawfulMonad (CallProg I) :=
  LawfulMonad.mk' _ bind_ret (fun _ _ => rfl) bind_bind

/-- The program that makes one call and returns the answer. -/
def perform (c : I.Call) : CallProg I (I.Reply c) := call c ret

/-- What a program returns, and the state that it leaves behind. -/
def run (h : Handler I σ) : CallProg I α → σ → α × σ
  | ret a, s => (a, s)
  | call c k, s => run h (k (h c s).1) (h c s).2

/-- A sequence runs its second part where the first one ended. -/
theorem run_bind (h : Handler I σ) (p : CallProg I α) (f : α → CallProg I β) (s : σ) :
    (p >>= f).run h s = (f (p.run h s).1).run h (p.run h s).2 := by
  induction p generalizing s with
  | ret a => rfl
  | call c k ih => exact ih (h c s).1 (h c s).2

/-- Every call that the run of a program from `s` makes satisfies `P`, in the state in which
it is made. -/
def Along (h : Handler I σ) (P : I.Call → σ → Prop) : CallProg I α → σ → Prop
  | ret _, _ => True
  | call c k, s => P c s ∧ Along h P (k (h c s).1) (h c s).2

theorem along_bind {h : Handler I σ} {P : I.Call → σ → Prop} (p : CallProg I α)
    (f : α → CallProg I β) (s : σ) :
    (p >>= f).Along h P s ↔
      p.Along h P s ∧ (f (p.run h s).1).Along h P (p.run h s).2 := by
  induction p generalizing s with
  | ret a => exact (iff_of_eq (true_and _)).symm
  | call c k ih =>
      have hrest := ih (h c s).1 (h c s).2
      exact (and_congr_right fun _ => hrest).trans and_assoc.symm

theorem along_mono {h : Handler I σ} {P P' : I.Call → σ → Prop} {p : CallProg I α} {s : σ}
    (hp : p.Along h P s) (hP : ∀ c s, P c s → P' c s) : p.Along h P' s := by
  induction p generalizing s with
  | ret a => trivial
  | call c k ih => exact ⟨hP c s hp.1, ih _ hp.2⟩

/-- Of two facts about each call the second may rest on the first. -/
theorem along_mp {h : Handler I σ} {P P' : I.Call → σ → Prop} {p : CallProg I α} {s : σ}
    (himp : p.Along h (fun c s => P c s → P' c s) s) (hp : p.Along h P s) : p.Along h P' s := by
  induction p generalizing s with
  | ret a => trivial
  | call c k ih => exact ⟨himp.1 hp.1, ih _ himp.2 hp.2⟩

/-- Whatever the answers are, every call of a program satisfies `C` and every value that it
returns satisfies `Q`. -/
def Makes (C : I.Call → Prop) (Q : α → Prop) : CallProg I α → Prop
  | ret a => Q a
  | call c k => C c ∧ ∀ r, Makes C Q (k r)

theorem Makes.bind {C : I.Call → Prop} {Q : α → Prop} {Q' : β → Prop} {p : CallProg I α}
    {f : α → CallProg I β} (hp : p.Makes C Q) (hf : ∀ a, Q a → (f a).Makes C Q') :
    (p >>= f).Makes C Q' := by
  induction p with
  | ret a => exact hf a hp
  | call c k ih => exact ⟨hp.1, fun r => ih r (hp.2 r)⟩

theorem Makes.mono {C C' : I.Call → Prop} {Q Q' : α → Prop} {p : CallProg I α}
    (hp : p.Makes C Q) (hC : ∀ c, C c → C' c) (hQ : ∀ a, Q a → Q' a) : p.Makes C' Q' := by
  induction p with
  | ret a => exact hQ a hp
  | call c k ih => exact ⟨hC c hp.1, fun r => ih r (hp.2 r)⟩

theorem Makes.along {C : I.Call → Prop} {Q : α → Prop} {p : CallProg I α}
    (hp : p.Makes C Q) (h : Handler I σ) (s : σ) : p.Along h (fun c _ => C c) s := by
  induction p generalizing s with
  | ret a => trivial
  | call c k ih => exact ⟨hp.1, ih _ (hp.2 _) _⟩

theorem Makes.returns {C : I.Call → Prop} {Q : α → Prop} {p : CallProg I α}
    (hp : p.Makes C Q) (h : Handler I σ) (s : σ) : Q (p.run h s).1 := by
  induction p generalizing s with
  | ret a => exact hp
  | call c k ih => exact ih _ (hp.2 _) _

/-- An invariant that every call of a run keeps holds in every state of the run. -/
theorem along_invariant {J : σ → Prop} {h : Handler I σ} {p : CallProg I α} {s : σ}
    (hp : p.Along h (fun c s => J s → J (h c s).2) s) (hs : J s) :
    p.Along h (fun _ s => J s) s ∧ J (p.run h s).2 := by
  induction p generalizing s with
  | ret a => exact ⟨trivial, hs⟩
  | call c k ih =>
      have hrest := ih _ hp.2 (hp.1 hs)
      exact ⟨⟨hs, hrest.1⟩, hrest.2⟩

section Translate

variable {J : Interface} {τ : Type}

/-- A program over the calls of `J` that are named by those of `I`, and answered for them. -/
def translate (f : I.Call → J.Call) (g : ∀ c, J.Reply (f c) → I.Reply c) :
    CallProg I α → CallProg J α
  | ret a => ret a
  | call c k => call (f c) fun r => translate f g (k (g c r))

variable {f : I.Call → J.Call} {g : ∀ c, J.Reply (f c) → I.Reply c}

/-- The calls of a translated program are the names of its calls. -/
theorem Makes.translate {C : J.Call → Prop} {Q : α → Prop} {p : CallProg I α}
    (hp : p.Makes (fun c => C (f c)) Q) : (p.translate f g).Makes C Q := by
  induction p with
  | ret a => exact hp
  | call c k ih => exact ⟨hp.1, fun r => ih _ (hp.2 _)⟩

/-- A translated program runs like the program, if its calls are answered alike. -/
theorem run_translate {h : Handler I σ} {h' : Handler J τ} {C : I.Call → Prop}
    {Q : α → Prop} {R : τ → σ → Prop}
    (hstep : ∀ c t s, C c → R t s →
      g c (h' (f c) t).1 = (h c s).1 ∧ R (h' (f c) t).2 (h c s).2)
    {p : CallProg I α} (hp : p.Makes C Q) {t : τ} {s : σ} (hR : R t s) :
    ((p.translate f g).run h' t).1 = (p.run h s).1 ∧
      R ((p.translate f g).run h' t).2 (p.run h s).2 := by
  induction p generalizing t s with
  | ret a => exact ⟨rfl, hR⟩
  | call c k ih =>
      obtain ⟨hreply, hkeeps⟩ := hstep c t s hp.1 hR
      rw [CallProg.translate, run, run, hreply]
      exact ih _ (hp.2 _) hkeeps

end Translate

/-- What every call keeps, the run keeps. -/
theorem run_keeps {R : σ → σ → Prop} [Std.Refl R] [IsTrans σ R] {h : Handler I σ}
    {p : CallProg I α} {s : σ} (hp : p.Along h (fun c s => R s (h c s).2) s) :
    R s (p.run h s).2 := by
  induction p generalizing s with
  | ret a => exact Std.Refl.refl s
  | call c k ih => exact IsTrans.trans _ _ _ hp.1 (ih _ hp.2)

end CallProg

/-! ## Programs that can fail -/

/-- A program that ends with a value or with an error. -/
abbrev Fallible (I : Interface) (ε α : Type) := ExceptT ε (CallProg I) α

namespace Fallible

/-- Make a call, of which any answer is fine. -/
def perform (c : I.Call) : Fallible I ε (I.Reply c) :=
  ExceptT.mk (Except.ok <$> CallProg.perform c)

/-- Run a program to its end, and look whether it failed. -/
def attempt (p : Fallible I ε α) : Fallible I ε (Except ε α) :=
  ExceptT.mk (Except.ok <$> p.run)

/-- Go on with the value of a result, or fail with its error, read by `f`. -/
def orFail {δ : Type} (f : δ → ε) : Except δ α → Fallible I ε α
  | .ok a => pure a
  | .error e => throw (f e)

theorem run_bind (h : Handler I σ) (p : Fallible I ε α) (f : α → Fallible I ε β) (s : σ) :
    CallProg.run h (p >>= f).run s =
      CallProg.run h (ExceptT.bindCont f (CallProg.run h p.run s).1)
        (CallProg.run h p.run s).2 :=
  CallProg.run_bind h p.run (ExceptT.bindCont f) s

theorem run_attempt (h : Handler I σ) (p : Fallible I ε α) (s : σ) :
    CallProg.run h (attempt p).run s =
      (Except.ok (CallProg.run h p.run s).1, (CallProg.run h p.run s).2) :=
  CallProg.run_bind h p.run (fun r => .ret (Except.ok (ε := ε) r)) s

/-! ## Postconditions -/

/-- `p`, answered by `h` from `s`, makes only calls that satisfy `P` where they are made,
and ends with a value and a state that satisfy `Q`, or with an error and a state that
satisfy `E`. -/
def Ensures (h : Handler I σ) (P : I.Call → σ → Prop) (p : Fallible I ε α)
    (Q : α → σ → Prop) (E : ε → σ → Prop) (s : σ) : Prop :=
  p.run.Along h P s ∧
    match CallProg.run h p.run s with
    | (.ok a, s') => Q a s'
    | (.error e, s') => E e s'

/-- Any call is fine. -/
abbrev AnyCall : I.Call → σ → Prop := fun _ _ => True

variable {h : Handler I σ} {P : I.Call → σ → Prop} {Q : α → σ → Prop} {E : ε → σ → Prop}
  {s : σ}

theorem ensures_pure {a : α} : Ensures h P (pure a : Fallible I ε α) Q E s ↔ Q a s :=
  iff_of_eq (true_and _)

theorem ensures_throw {e : ε} : Ensures h P (throw e : Fallible I ε α) Q E s ↔ E e s :=
  iff_of_eq (true_and _)

theorem ensures_perform {c : I.Call} {Q : I.Reply c → σ → Prop} :
    Ensures h P (perform c : Fallible I ε (I.Reply c)) Q E s ↔
      P c s ∧ Q (h c s).1 (h c s).2 :=
  and_congr_left fun _ => iff_of_eq (and_true _)

/-- The rule for a sequence: an error of the first part is the error of the whole. -/
theorem ensures_bind {p : Fallible I ε α} {f : α → Fallible I ε β} {Q : β → σ → Prop} :
    Ensures h P (p >>= f) Q E s ↔
      Ensures h P p (fun a s' => Ensures h P (f a) Q E s') E s := by
  have halong : (p >>= f).run.Along h P s ↔ _ :=
    CallProg.along_bind p.run (ExceptT.bindCont f) s
  unfold Ensures
  rw [run_bind, halong]
  rcases CallProg.run h p.run s with ⟨e | a, s'⟩
  · exact and_congr_left fun _ => iff_of_eq (and_true _)
  · exact and_assoc

theorem ensures_discard {p : Fallible I ε α} {Q : PUnit → σ → Prop} :
    Ensures h P (discard p) Q E s ↔ Ensures h P p (fun _ s' => Q ⟨⟩ s') E s := by
  have hdiscard : (discard p : Fallible I ε PUnit) = p >>= fun _ => pure ⟨⟩ := rfl
  rw [hdiscard, ensures_bind]
  simp only [ensures_pure]

/-- An attempt does not fail: the error is a value of it. -/
theorem ensures_attempt {p : Fallible I ε α} {Q : Except ε α → σ → Prop} :
    Ensures h P (attempt p) Q E s ↔
      Ensures h P p (fun a s' => Q (.ok a) s') (fun e s' => Q (.error e) s') s := by
  have halong : (attempt p).run.Along h P s ↔ _ :=
    CallProg.along_bind p.run (fun r => .ret (Except.ok (ε := ε) r)) s
  unfold Ensures
  rw [run_attempt, halong]
  rcases CallProg.run h p.run s with ⟨e | a, s'⟩
  · exact and_congr_left fun _ => iff_of_eq (and_true _)
  · exact and_congr_left fun _ => iff_of_eq (and_true _)

theorem ensures_orFail {δ : Type} {f : δ → ε} {r : Except δ α} :
    Ensures h P (orFail f r : Fallible I ε α) Q E s ↔
      (∀ a, r = .ok a → Q a s) ∧ ∀ e, r = .error e → E (f e) s := by
  cases r with
  | ok a => simp [orFail, ensures_pure]
  | error e => simp [orFail, ensures_throw]

theorem ensures_ite {c : Prop} [Decidable c] {p q : Fallible I ε α} :
    Ensures h P (if c then p else q) Q E s ↔
      (c → Ensures h P p Q E s) ∧ (¬c → Ensures h P q Q E s) := by
  by_cases hc : c <;> simp [hc]

/-- The rule of consequence, for the calls as for the end. -/
theorem ensures_weaken {p : Fallible I ε α} {P' : I.Call → σ → Prop} {Q' : α → σ → Prop}
    {E' : ε → σ → Prop} (hp : Ensures h P p Q E s) (hQ : ∀ a s', Q a s' → Q' a s')
    (hE : ∀ e s', E e s' → E' e s') (hP : ∀ c s, P c s → P' c s) :
    Ensures h P' p Q' E' s := by
  refine ⟨CallProg.along_mono hp.1 hP, ?_⟩
  have hend := hp.2
  rcases hrun : CallProg.run h p.run s with ⟨e | a, s'⟩
  · rw [hrun] at hend
    exact hE _ _ hend
  · rw [hrun] at hend
    exact hQ _ _ hend

/-- The rule of consequence. -/
theorem ensures_mono {p : Fallible I ε α} {Q' : α → σ → Prop} {E' : ε → σ → Prop}
    (hp : Ensures h P p Q E s) (hQ : ∀ a s', Q a s' → Q' a s')
    (hE : ∀ e s', E e s' → E' e s') : Ensures h P p Q' E' s :=
  ensures_weaken hp hQ hE fun _ _ hc => hc

/-- Two facts about one run hold together. -/
theorem ensures_and {p : Fallible I ε α} {P' : I.Call → σ → Prop} {Q' : α → σ → Prop}
    {E' : ε → σ → Prop} (hp : Ensures h P p Q E s) (hp' : Ensures h P' p Q' E' s) :
    Ensures h P p (fun a s' => Q a s' ∧ Q' a s') (fun e s' => E e s' ∧ E' e s') s := by
  refine ⟨hp.1, ?_⟩
  have hend := hp.2
  have hend' := hp'.2
  rcases hrun : CallProg.run h p.run s with ⟨e | a, s'⟩
  · rw [hrun] at hend hend'
    exact ⟨hend, hend'⟩
  · rw [hrun] at hend hend'
    exact ⟨hend, hend'⟩

/-- Of the calls and the end of any program nothing need be known. -/
theorem ensures_any (p : Fallible I ε α) :
    Ensures h AnyCall p (fun _ _ => True) (fun _ _ => True) s := by
  refine ⟨?_, ?_⟩
  · generalize p.run = q
    induction q generalizing s with
    | ret a => trivial
    | call c k ih => exact ⟨trivial, ih _⟩
  · rcases CallProg.run h p.run s with ⟨e | a, s'⟩ <;> trivial

/-- What holds of the last state of a run holds however the program ends. -/
theorem ensures_of_run {p : Fallible I ε α} {R : σ → Prop} (hend : R (CallProg.run h p.run s).2) :
    Ensures h AnyCall p (fun _ s' => R s') (fun _ s' => R s') s := by
  refine ⟨(ensures_any p).1, ?_⟩
  rcases hrun : CallProg.run h p.run s with ⟨e | a, s'⟩
  · rw [hrun] at hend
    exact hend
  · rw [hrun] at hend
    exact hend

/-- A first part of which nothing is known, and then the rest. -/
theorem ensures_seq {p : Fallible I ε α} {f : α → Fallible I ε β} {Q : β → σ → Prop}
    (hf : ∀ a s', Ensures h AnyCall (f a) Q E s') (hE : ∀ e s', E e s') :
    Ensures h AnyCall (p >>= f) Q E s :=
  ensures_bind.mpr (ensures_mono (ensures_any p) (fun a s' _ => hf a s') fun e s' _ => hE e s')

/-- What a program ensures holds of a run that ended with a value. -/
theorem Ensures.of_ok {p : Fallible I ε α} (hp : Ensures h P p Q E s) {a : α} {s' : σ}
    (hrun : CallProg.run h p.run s = (.ok a, s')) : Q a s' := by
  have hend := hp.2
  rw [hrun] at hend
  exact hend

/-- What a program ensures holds of a run that ended with an error. -/
theorem Ensures.of_error {p : Fallible I ε α} (hp : Ensures h P p Q E s) {e : ε} {s' : σ}
    (hrun : CallProg.run h p.run s = (.error e, s')) : E e s' := by
  have hend := hp.2
  rw [hrun] at hend
  exact hend

/-- What a program ensures of its last state, however it ends, holds of that state. -/
theorem Ensures.final {R : σ → Prop} {p : Fallible I ε α}
    (hp : Ensures h P p (fun _ s' => R s') (fun _ s' => R s') s) :
    R (CallProg.run h p.run s).2 := by
  have hend := hp.2
  rcases hrun : CallProg.run h p.run s with ⟨e | a, s'⟩
  · rw [hrun] at hend
    exact hend
  · rw [hrun] at hend
    exact hend

/-! ## The calls of a program -/

/-- Whatever the answers are, every call of `p` satisfies `C`, and so does every value that
it ends with satisfy `Q`. -/
def Makes (C : I.Call → Prop) (p : Fallible I ε α) (Q : α → Prop) : Prop :=
  p.run.Makes C fun r => ∀ a, r = .ok a → Q a

section Makes

variable {C : I.Call → Prop} {Q : α → Prop}

theorem makes_pure {a : α} (ha : Q a) : Makes C (pure a : Fallible I ε α) Q := by
  intro a' h
  cases h
  exact ha

theorem makes_throw (e : ε) : Makes C (throw e : Fallible I ε α) Q := by
  intro a h
  cases h

theorem makes_perform {c : I.Call} {Q : I.Reply c → Prop} (hc : C c) (hQ : ∀ r, Q r) :
    Makes C (perform c : Fallible I ε (I.Reply c)) Q :=
  ⟨hc, fun _ _ _ => hQ _⟩

theorem makes_orFail {δ : Type} {f : δ → ε} {r : Except δ α} (hQ : ∀ a, r = .ok a → Q a) :
    Makes C (orFail f r : Fallible I ε α) Q := by
  cases r with
  | ok a => exact makes_pure (hQ a rfl)
  | error e => exact makes_throw (f e)

theorem makes_bind {p : Fallible I ε α} {f : α → Fallible I ε β} {Q' : β → Prop}
    (hp : Makes C p Q) (hf : ∀ a, Q a → Makes C (f a) Q') : Makes C (p >>= f) Q' := by
  refine CallProg.Makes.bind hp fun r hr => ?_
  cases r with
  | ok a => exact hf a (hr a rfl)
  | error e => exact makes_throw e

/-- A first part whose value does not matter, and then the rest. -/
theorem makes_seq {p : Fallible I ε α} {f : α → Fallible I ε β} {Q' : β → Prop}
    (hp : Makes C p fun _ => True) (hf : ∀ a, Makes C (f a) Q') : Makes C (p >>= f) Q' :=
  makes_bind hp fun a _ => hf a

/-- A part of which the error is passed on. -/
theorem makes_checked {δ : Type} {p : Fallible I ε (Except δ α)} {f : δ → ε}
    (hp : Makes C p fun _ => True) : Makes C (p >>= orFail f) fun _ => True :=
  makes_seq hp fun _ => makes_orFail fun _ _ => trivial

theorem makes_attempt {p : Fallible I ε α} (hp : Makes C p Q) :
    Makes C p.attempt (fun r => ∀ a, r = .ok a → Q a) := by
  refine CallProg.Makes.bind hp fun r hr => ?_
  intro r' h
  cases h
  exact hr

theorem makes_discard {p : Fallible I ε α} (hp : Makes C p Q) :
    Makes C (discard p : Fallible I ε PUnit) (fun _ => True) :=
  makes_bind (f := fun _ => (pure ⟨⟩ : Fallible I ε PUnit)) hp fun _ _ => makes_pure trivial

theorem makes_ite {c : Prop} [Decidable c] {p q : Fallible I ε α} (hp : Makes C p Q)
    (hq : Makes C q Q) : Makes C (if c then p else q) Q := by
  by_cases hc : c
  · simpa only [if_pos hc] using hp
  · simpa only [if_neg hc] using hq

theorem makes_mono {C' : I.Call → Prop} {Q' : α → Prop} {p : Fallible I ε α}
    (hp : Makes C p Q) (hC : ∀ c, C c → C' c) (hQ : ∀ a, Q a → Q' a) : Makes C' p Q' :=
  CallProg.Makes.mono hp hC fun _ hr a ha => hQ a (hr a ha)

/-- The calls of a program and its values, in a run. -/
theorem Makes.ensures {p : Fallible I ε α} (hp : Makes C p Q) (h : Handler I σ)
    {P : I.Call → σ → Prop} (hC : ∀ c s, C c → P c s) (s : σ) :
    Ensures h P p (fun a _ => Q a) (fun _ _ => True) s := by
  refine ⟨CallProg.along_mono (hp.along h s) hC, ?_⟩
  have hreturns := CallProg.Makes.returns hp h s
  rcases hrun : CallProg.run h p.run s with ⟨e | a, s'⟩
  · trivial
  · rw [hrun] at hreturns
    exact hreturns a rfl

end Makes

/-! ## Two-state relations -/

/-- However `p` ends, the state before and the state after are related by `R`. -/
structure Keeps (h : Handler I σ) (R : σ → σ → Prop) (p : Fallible I ε α) : Prop where
  run : ∀ s, R s (CallProg.run h p.run s).2

namespace Keeps

variable {R : σ → σ → Prop}

/-- What each call of a program keeps, the program keeps. -/
theorem of_makes [Std.Refl R] [IsTrans σ R] {C : I.Call → Prop} {Q : α → Prop}
    {p : Fallible I ε α} (hp : Makes C p Q) (hC : ∀ c s, C c → R s (h c s).2) : Keeps h R p := by
  refine ⟨fun s => CallProg.run_keeps (CallProg.along_mono (hp.along h s) ?_)⟩
  intro c s hc
  exact hC c s hc

theorem ensures {p : Fallible I ε α} (hp : Keeps h R p) (s : σ) :
    Ensures h AnyCall p (fun _ s' => R s s') (fun _ s' => R s s') s :=
  ensures_of_run (hp.run s)

/-- A program of which only the frame is known, and then the rest. -/
theorem ensures_bind {p : Fallible I ε α} {f : α → Fallible I ε β} {Q : β → σ → Prop}
    (hp : Keeps h R p) (hf : ∀ a s', R s s' → Ensures h AnyCall (f a) Q E s')
    (hE : ∀ e s', R s s' → E e s') : Ensures h AnyCall (p >>= f) Q E s :=
  Fallible.ensures_bind.mpr (ensures_mono (hp.ensures s) hf hE)

end Keeps

end Fallible

end MissionOs.Lib
