import MissionOs.Lib.StateProg

/-!
# Programs that share their state

A program over a state that another party changes, too.  The other party acts in turns, each of
them a list of steps: `turn` lets it take the next one, and `alone` is a program that is not
interrupted.  If a program is written with a turn before each of its accesses, a theorem for
every list of turns is a theorem for every interleaving.

`RunsAlone` says that a program is another one, if the other party does nothing.
-/

namespace MissionOs.Lib

variable {σ τ α β : Type}

/-- A state, and the turns that the other party is still to take. -/
structure WithTurns (σ τ : Type) where
  state : σ
  turns : List (List τ)

namespace WithTurns

/-- The other party takes its next turn, of which `act` says what it does. -/
def turn (act : List τ → σ → σ) : StateM (WithTurns σ τ) Unit :=
  modify fun s => ⟨act (s.turns.headD []) s.state, s.turns.tail⟩

/-- A program that is not interrupted. -/
def alone (p : StateM σ α) : StateM (WithTurns σ τ) α := do
  let s ← get
  let r := p.run s.state
  set { s with state := r.2 }
  return r.1

theorem wp_turn {act : List τ → σ → σ} {Q : Unit → WithTurns σ τ → Prop} {s : WithTurns σ τ} :
    wp (turn act) Q s ↔ Q () ⟨act (s.turns.headD []) s.state, s.turns.tail⟩ := Iff.rfl

theorem wp_alone {p : StateM σ α} {Q : α → WithTurns σ τ → Prop} {s : WithTurns σ τ} :
    wp (alone p) Q s ↔ wp p (fun a t => Q a { s with state := t }) s.state := Iff.rfl

/-- From `s`, `q` does what `p` does, if the other party takes no turn. -/
def RunsAlone (q : StateM (WithTurns σ τ) α) (p : StateM σ α) (s : σ) : Prop :=
  q.run ⟨s, []⟩ = ((p.run s).1, ⟨(p.run s).2, []⟩)

/-- From `s`, `q` finds `a`, if the other party takes no turn. -/
def FindsAlone (q : StateM (WithTurns σ τ) α) (a : α) (s : σ) : Prop :=
  q.run ⟨s, []⟩ = (a, ⟨s, []⟩)

section Alone

variable {p : StateM σ α} {q : StateM (WithTurns σ τ) α} {s : σ}

theorem runsAlone_alone (p : StateM σ α) (s : σ) :
    RunsAlone (alone p : StateM (WithTurns σ τ) α) p s := rfl

theorem findsAlone_get (s : σ) : FindsAlone (alone get : StateM (WithTurns σ τ) σ) s s := rfl

theorem RunsAlone.bind {f : α → StateM σ β} {g : α → StateM (WithTurns σ τ) β}
    (h : RunsAlone q p s) (hf : ∀ a s', RunsAlone (g a) (f a) s') :
    RunsAlone (q >>= g) (p >>= f) s := by
  show (g (q.run ⟨s, []⟩).1).run (q.run ⟨s, []⟩).2 = _
  rw [h]
  exact hf _ _

theorem RunsAlone.get {f : σ → StateM σ α} (h : RunsAlone q (f s) s) :
    RunsAlone q (get >>= f) s := h

/-- What is found is gone on with. -/
theorem FindsAlone.bind {a : α} {p : StateM σ β} {g : α → StateM (WithTurns σ τ) β}
    (h : FindsAlone q a s) (hg : RunsAlone (g a) p s) : RunsAlone (q >>= g) p s := by
  show (g (q.run ⟨s, []⟩).1).run (q.run ⟨s, []⟩).2 = _
  rw [h]
  exact hg

theorem FindsAlone.find {a : α} {b : β} {g : α → StateM (WithTurns σ τ) β}
    (h : FindsAlone q a s) (hg : FindsAlone (g a) b s) : FindsAlone (q >>= g) b s := by
  show (g (q.run ⟨s, []⟩).1).run (q.run ⟨s, []⟩).2 = _
  rw [h]
  exact hg

/-- An empty turn is no step. -/
theorem runsAlone_turn {act : List τ → σ → σ} (hact : act [] s = s) (h : RunsAlone q p s) :
    RunsAlone (turn act >>= fun _ => q) p s := by
  show q.run ⟨act [] s, []⟩ = _
  rw [hact]
  exact h

theorem findsAlone_turn {act : List τ → σ → σ} {a : α} (hact : act [] s = s)
    (h : FindsAlone q a s) : FindsAlone (turn act >>= fun _ => q) a s := by
  show q.run ⟨act [] s, []⟩ = _
  rw [hact]
  exact h

end Alone

end WithTurns

end MissionOs.Lib
