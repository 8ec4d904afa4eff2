import Mathlib.Logic.Relation

/-!
# Postconditions of state programs

A program over a state `σ` is a `StateM σ α`: it returns a value and a new
state.  `wp p Q s` says that `p`, started in `s`, ends with a value and a
state that satisfy `Q`.  The rules follow the constructs of `do` notation, one
rule a construct, so that a proof about a program follows its text.

`Keeps R p` is the two-state form: every run of `p` relates the state before
to the state after by `R`.  For a reflexive and transitive `R` the rules for
`Keeps` are the usual ones, and a frame condition ("this field is unchanged")
is the `Keeps` of an equality of two projections.
-/

namespace MissionOs.Lib

variable {σ α β : Type}

/-! ## One-state postconditions -/

/-- `p`, started in `s`, ends with a value and a state that satisfy `Q`. -/
def wp (p : StateM σ α) (Q : α → σ → Prop) (s : σ) : Prop :=
  Q (p.run s).1 (p.run s).2

theorem wp_def {p : StateM σ α} {Q : α → σ → Prop} {s : σ} :
    wp p Q s ↔ Q (p.run s).1 (p.run s).2 := Iff.rfl

theorem wp_pure {a : α} {Q : α → σ → Prop} {s : σ} :
    wp (pure a : StateM σ α) Q s ↔ Q a s := Iff.rfl

theorem wp_bind {p : StateM σ α} {f : α → StateM σ β} {Q : β → σ → Prop} {s : σ} :
    wp (p >>= f) Q s ↔ wp p (fun a s' => wp (f a) Q s') s := Iff.rfl

theorem wp_discard {p : StateM σ α} {Q : PUnit → σ → Prop} {s : σ} :
    wp (discard p) Q s ↔ wp p (fun _ s' => Q ⟨⟩ s') s := Iff.rfl

theorem wp_get {Q : σ → σ → Prop} {s : σ} :
    wp (get : StateM σ σ) Q s ↔ Q s s := Iff.rfl

theorem wp_set {t : σ} {Q : PUnit → σ → Prop} {s : σ} :
    wp (set t : StateM σ PUnit) Q s ↔ Q ⟨⟩ t := Iff.rfl

theorem wp_modify {f : σ → σ} {Q : PUnit → σ → Prop} {s : σ} :
    wp (modify f : StateM σ PUnit) Q s ↔ Q ⟨⟩ (f s) := Iff.rfl

theorem wp_ite {c : Prop} [Decidable c] {p q : StateM σ α} {Q : α → σ → Prop} {s : σ} :
    wp (if c then p else q) Q s ↔ (c → wp p Q s) ∧ (¬c → wp q Q s) := by
  by_cases hc : c <;> simp [hc]

/-- The rule of consequence. -/
theorem wp_mono {p : StateM σ α} {Q Q' : α → σ → Prop} {s : σ}
    (h : wp p Q s) (hQ : ∀ a s', Q a s' → Q' a s') : wp p Q' s :=
  hQ _ _ h

/-- A program of which a postcondition is known, and then the rest. -/
theorem wp_bind_of {p : StateM σ α} {f : α → StateM σ β} {P : α → σ → Prop}
    {Q : β → σ → Prop} {s : σ} (hp : wp p P s) (hf : ∀ a s', P a s' → wp (f a) Q s') :
    wp (p >>= f) Q s :=
  hf _ _ hp

/-- Two facts about one program hold together. -/
theorem wp_and {p : StateM σ α} {Q Q' : α → σ → Prop} {s : σ}
    (h : wp p Q s) (h' : wp p Q' s) : wp p (fun a s' => Q a s' ∧ Q' a s') s :=
  ⟨h, h'⟩

/-- A run is its value and its last state. -/
theorem run_of_fst {p : StateM σ α} {s : σ} {a : α} (h : (p.run s).1 = a) :
    p.run s = (a, (p.run s).2) := Prod.ext h rfl

/-! ## Two-state relations -/

/-- Every run of `p` relates the state before to the state after by `R`. -/
structure Keeps (R : σ → σ → Prop) (p : StateM σ α) : Prop where
  wp : ∀ s, wp p (fun _ s' => R s s') s

namespace Keeps

variable {R : σ → σ → Prop}

theorem pure [Std.Refl R] (a : α) : Keeps R (Pure.pure a : StateM σ α) :=
  ⟨fun s => Std.Refl.refl s⟩

theorem get [Std.Refl R] : Keeps R (MonadState.get : StateM σ σ) :=
  ⟨fun s => Std.Refl.refl s⟩

theorem bind [IsTrans σ R] {p : StateM σ α} {f : α → StateM σ β}
    (hp : Keeps R p) (hf : ∀ a, Keeps R (f a)) : Keeps R (p >>= f) :=
  ⟨fun s => IsTrans.trans s _ _ (hp.wp s) ((hf _).wp _)⟩

theorem ite {c : Prop} [Decidable c] {p q : StateM σ α}
    (hp : Keeps R p) (hq : Keeps R q) : Keeps R (if c then p else q) := by
  by_cases hc : c
  · simpa only [if_pos hc] using hp
  · simpa only [if_neg hc] using hq

/-- A program of which only the frame is known, and then the rest. -/
theorem wp_bind {p : StateM σ α} {f : α → StateM σ β} {Q : β → σ → Prop} {s : σ}
    (hp : Keeps R p) (hf : ∀ a s', R s s' → Lib.wp (f a) Q s') :
    Lib.wp (p >>= f) Q s :=
  hf _ _ (hp.wp s)

end Keeps

end MissionOs.Lib
