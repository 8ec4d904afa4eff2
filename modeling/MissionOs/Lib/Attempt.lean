import Mathlib.Data.List.Induction

/-!
# Attempts

A program that takes one step after the other, of which any may fail.  `Attempt` is what a step
leaves and where it raised an exception.  A program goes on after a step that did not raise
(`andThen`), or goes on in any case and raises at its end (`collect`).

The second half is about programs that carry out a plan.  A plan says what is to stand at which
place, and a step of the program takes care of a piece of it: whatever happens, it only begins
what the piece says, it raises exactly if something in the piece does not go through, and if it
does not raise, the piece is done (`Writing.Takes`).  Pieces compose, and an attempt that ends
leaves what it would have left at once, after any attempts that did not (`Writing.Takes.resume`).
-/

namespace MissionOs.Lib

/-- What a step leaves, and where it raised an exception. -/
structure Attempt (σ ε : Type) where
  state : σ
  raised : Option ε

namespace Attempt

variable {σ ε : Type}

/-- One step after the other. -/
def andThen (o : Attempt σ ε) (k : σ → Attempt σ ε) : Attempt σ ε :=
  match o.raised with
  | none => k o.state
  | some _ => o

/-- A second step in any case.  What was raised by either is raised at the end. -/
def collect (o : Attempt σ ε) (k : σ → Attempt σ ε) : Attempt σ ε where
  state := (k o.state).state
  raised := o.raised <|> (k o.state).raised

/-- A loop. -/
def forEach {α : Type} (act : σ → α → Attempt σ ε) (s : σ) : List α → Attempt σ ε
  | [] => ⟨s, none⟩
  | x :: xs => (act s x).andThen fun s => forEach act s xs

theorem raised_andThen {o : Attempt σ ε} {k : σ → Attempt σ ε} :
    (o.andThen k).raised = none ↔ o.raised = none ∧ (k o.state).raised = none := by
  obtain ⟨s, raised⟩ := o
  cases raised with
  | none => simp [andThen]
  | some e => simp [andThen]

theorem raised_collect {o : Attempt σ ε} {k : σ → Attempt σ ε} :
    (o.collect k).raised = none ↔ o.raised = none ∧ (k o.state).raised = none := by
  rw [collect, Option.orElse_eq_orElse, Option.orElse_eq_or, Option.or_eq_none_iff]

theorem andThen_assoc (o : Attempt σ ε) (k k' : σ → Attempt σ ε) :
    (o.andThen k).andThen k' = o.andThen fun s => (k s).andThen k' := by
  obtain ⟨s, raised⟩ := o
  cases raised with
  | none => rfl
  | some e => rfl

theorem forEach_append {α : Type} (act : σ → α → Attempt σ ε) (s : σ) (xs ys : List α) :
    forEach act s (xs ++ ys) = (forEach act s xs).andThen fun s => forEach act s ys := by
  induction xs generalizing s with
  | nil => rfl
  | cons x xs ih =>
      rw [List.cons_append, forEach, forEach, andThen_assoc]
      congr 1
      exact funext ih

theorem forEach_singleton {α : Type} (act : σ → α → Attempt σ ε) (s : σ) (x : α) :
    forEach act s [x] = act s x := by
  rw [forEach, andThen]
  split
  · next h => rw [forEach, ← h]
  · rfl

/-- A loop that finds nothing to do. -/
theorem forEach_of_idle {α : Type} {act : σ → α → Attempt σ ε} {s : σ} {xs : List α}
    (h : ∀ x ∈ xs, act s x = ⟨s, none⟩) : forEach act s xs = ⟨s, none⟩ := by
  induction xs with
  | nil => rfl
  | cons x xs ih =>
      obtain ⟨hx, hxs⟩ := List.forall_mem_cons.mp h
      rw [forEach, hx]
      exact ih hxs

end Attempt

/-! ## Writing -/

/-- What stands where, what a write may leave when it is interrupted, and where it goes through,
by what stands there before.  What was begun is no obstacle to a write that goes through. -/
structure Writing (σ κ ν : Type) where
  look : σ → κ → Option ν
  begun : ν → ν → Prop
  goes : Option ν → κ → ν → Prop
  begun_self : ∀ n, begun n n
  goes_begun : ∀ v q n n', begun n n' → goes v q n → goes (some n') q n

/-- What is to stand where. -/
abbrev Plan (κ ν : Type) := κ → ν → Prop

namespace Plan

variable {κ ν : Type}

/-- Two plans that say the same where both say something. -/
def Agrees (plan plan' : Plan κ ν) : Prop := ∀ q n n', plan q n → plan' q n' → n = n'

/-- Both plans. -/
def both (plan plan' : Plan κ ν) : Plan κ ν := fun q n => plan q n ∨ plan' q n

/-- The plan with one place. -/
def just (q : κ) (n : ν) : Plan κ ν := fun q' n' => q' = q ∧ n' = n

/-- The plan without places. -/
def nothing : Plan κ ν := fun _ _ => False

variable {plan plan' plan'' : Plan κ ν}

theorem Agrees.symm (h : plan.Agrees plan') : plan'.Agrees plan :=
  fun q n n' hq hq' => (h q n' n hq' hq).symm

theorem Agrees.both_left (h : plan.Agrees plan'') (h' : plan'.Agrees plan'') :
    (plan.both plan').Agrees plan'' := by
  rintro q n n' (hq | hq) hq'
  · exact h q n n' hq hq'
  · exact h' q n n' hq hq'

theorem Agrees.both_right (h : plan.Agrees plan') (h' : plan.Agrees plan'') :
    plan.Agrees (plan'.both plan'') :=
  (h.symm.both_left h'.symm).symm

/-- Two plans for different places. -/
theorem agrees_of_apart (h : ∀ q n n', plan q n → ¬ plan' q n') : plan.Agrees plan' :=
  fun q n n' hq hq' => absurd hq' (h q n n' hq)

theorem agrees_just (q : κ) (n : ν) : (just q n).Agrees (just q n) := by
  rintro q' n' n'' ⟨-, hn'⟩ ⟨-, hn''⟩
  exact hn'.trans hn''.symm

/-- Two parts that agree, each with itself and with the other. -/
theorem Agrees.both (h : plan.Agrees plan) (h' : plan'.Agrees plan') (hboth : plan.Agrees plan') :
    (plan.both plan').Agrees (plan.both plan') :=
  (h.both_left hboth.symm).both_right (hboth.both_left h')

end Plan

namespace Writing

variable {σ κ ν ε : Type} (w : Writing σ κ ν)

/-- From `s` to `s'` nothing changed but places of the plan, where something was begun. -/
def Toward (plan : Plan κ ν) (s s' : σ) : Prop :=
  ∀ q, w.look s' q = w.look s q ∨ ∃ n n', plan q n ∧ w.begun n n' ∧ w.look s' q = some n'

/-- A step that takes care of a piece of a plan. -/
structure Takes (piece : Plan κ ν) (s : σ) (o : Attempt σ ε) : Prop where
  toward : w.Toward piece s o.state
  done : o.raised = none → ∀ q n, piece q n → w.look o.state q = some n
  raised : o.raised = none ↔ ∀ q n, piece q n → w.goes (w.look s q) q n

variable {w} {plan piece piece' : Plan κ ν} {s s' s'' : σ} {o o' : Attempt σ ε}

theorem Toward.refl (w : Writing σ κ ν) (plan : Plan κ ν) (s : σ) : w.Toward plan s s :=
  fun _ => Or.inl rfl

theorem Toward.trans (h : w.Toward plan s s') (h' : w.Toward plan s' s'') :
    w.Toward plan s s'' := by
  intro q
  rcases h' q with hsame | hbegun
  · rw [hsame]
    exact h q
  · exact Or.inr hbegun

theorem Toward.mono (h : w.Toward piece s s') (hsub : ∀ q n, piece q n → plan q n) :
    w.Toward plan s s' := by
  intro q
  rcases h q with hsame | ⟨n, n', hpiece, hbegun⟩
  · exact Or.inl hsame
  · exact Or.inr ⟨n, n', hsub q n hpiece, hbegun⟩

/-- Where the plan says nothing, nothing changed. -/
theorem Toward.look_eq (h : w.Toward plan s s') {q : κ} (hq : ∀ n, ¬ plan q n) :
    w.look s' q = w.look s q := by
  rcases h q with hsame | ⟨n, -, hplan, -⟩
  · exact hsame
  · exact absurd hplan (hq n)

theorem Takes.congr (h : w.Takes piece s o) (heq : ∀ q n, piece q n ↔ piece' q n) :
    w.Takes piece' s o := by
  have hpiece : piece = piece' := by
    funext q n
    exact propext (heq q n)
  rwa [← hpiece]

/-- Nothing to do. -/
theorem takes_nothing (w : Writing σ κ ν) (s : σ) :
    w.Takes Plan.nothing s (⟨s, none⟩ : Attempt σ ε) where
  toward := Toward.refl w _ s
  done _ _ _ h := h.elim
  raised := iff_of_true rfl fun _ _ h => h.elim

/-- What was done stays done. -/
theorem Takes.done_both (h : w.Takes piece s o) (h' : w.Takes piece' o.state o')
    (hagrees : piece.Agrees piece') (hend : o.raised = none) (hend' : o'.raised = none) (q : κ)
    (n : ν) (hq : piece.both piece' q n) : w.look o'.state q = some n := by
  rcases hq with hq | hq
  · rcases h'.toward q with hsame | ⟨n', -, hpiece, -⟩
    · rw [hsame]
      exact h.done hend q n hq
    · rw [hagrees q n n' hq hpiece]
      exact h'.done hend' q n' hpiece
  · exact h'.done hend' q n hq

/-- The second piece goes through after the first one exactly if both go through at once. -/
theorem Takes.raised_both (h : w.Takes piece s o)
    (h' : o.raised = none → w.Takes piece' o.state o') (hagrees : piece.Agrees piece') :
    o.raised = none ∧ o'.raised = none ↔
      ∀ q n, piece.both piece' q n → w.goes (w.look s q) q n := by
  constructor
  · rintro ⟨hend, hend'⟩ q n (hq | hq)
    · exact h.raised.mp hend q n hq
    · rcases h.toward q with hsame | ⟨n₀, -, hpiece, -⟩
      · rw [← hsame]
        exact (h' hend).raised.mp hend' q n hq
      · rw [← hagrees q n₀ n hpiece hq]
        exact h.raised.mp hend q n₀ hpiece
  · intro hall
    have hend := h.raised.mpr fun q n hq => hall q n (Or.inl hq)
    refine ⟨hend, (h' hend).raised.mpr ?_⟩
    intro q n hq
    have hgoes := hall q n (Or.inr hq)
    rcases h.toward q with hsame | ⟨n₀, -, hpiece, -⟩
    · rwa [hsame]
    · have heq := hagrees q n₀ n hpiece hq
      subst heq
      rw [h.done hend q n₀ hpiece]
      exact w.goes_begun _ q n₀ n₀ (w.begun_self n₀) hgoes

/-- One piece after the other. -/
theorem Takes.andThen {k : σ → Attempt σ ε} (h : w.Takes piece s o)
    (hk : o.raised = none → w.Takes piece' o.state (k o.state)) (hagrees : piece.Agrees piece') :
    w.Takes (piece.both piece') s (o.andThen k) where
  toward := by
    have hfirst := h.toward.mono fun q n (hq : piece q n) => (Or.inl hq : piece.both piece' q n)
    rw [Attempt.andThen]
    split
    · next hend => exact hfirst.trans ((hk hend).toward.mono fun _ _ => Or.inr)
    · exact hfirst
  done hend := by
    obtain ⟨hfirst, hsecond⟩ := Attempt.raised_andThen.mp hend
    rw [Attempt.andThen, hfirst]
    exact h.done_both (hk hfirst) hagrees hfirst hsecond
  raised := Attempt.raised_andThen.trans (h.raised_both hk hagrees)

/-- Where the second piece says nothing, there is what the first one left. -/
theorem Takes.look_andThen {k : σ → Attempt σ ε}
    (hk : o.raised = none → w.Takes piece' o.state (k o.state)) {q : κ} (hq : ∀ n, ¬ piece' q n) :
    w.look (o.andThen k).state q = w.look o.state q := by
  rw [Attempt.andThen]
  split
  · next hend => exact (hk hend).toward.look_eq hq
  · rfl

/-- What a second piece has begun tells that the first one is done. -/
theorem Takes.done_of_begun {k : σ → Attempt σ ε} (h : w.Takes piece s o)
    (hk : o.raised = none → w.Takes piece' o.state (k o.state)) {q q' : κ} {n : ν}
    (hq : ∀ n, ¬ piece q n) (hbegun : w.look (o.andThen k).state q ≠ w.look s q)
    (hn : piece q' n) (hq' : ∀ n, ¬ piece' q' n) : w.look (o.andThen k).state q' = some n := by
  rw [look_andThen hk hq']
  cases hend : o.raised with
  | none => exact h.done hend q' n hn
  | some e =>
      rw [Attempt.andThen, hend] at hbegun
      exact absurd (h.toward.look_eq hq) hbegun

/-- Two pieces of which the second is tried in any case. -/
theorem Takes.collect {k : σ → Attempt σ ε} (h : w.Takes piece s o)
    (hk : w.Takes piece' o.state (k o.state)) (hagrees : piece.Agrees piece') :
    w.Takes (piece.both piece') s (o.collect k) where
  toward := by
    have hfirst := h.toward.mono fun q n (hq : piece q n) => (Or.inl hq : piece.both piece' q n)
    exact hfirst.trans (hk.toward.mono fun _ _ => Or.inr)
  done hend := by
    obtain ⟨hfirst, hsecond⟩ := Attempt.raised_collect.mp hend
    have hdone := h.done_both hk hagrees hfirst hsecond
    exact hdone
  raised := Attempt.raised_collect.trans (h.raised_both (fun _ => hk) hagrees)

/-- A loop whose rounds take care of pieces that agree.  A round may rely on what the rounds
before it can have begun. -/
theorem takes_forEach {α : Type} {act : σ → α → Attempt σ ε} {piece : α → Plan κ ν} {s₀ : σ}
    {xs : List α} (hagrees : xs.Pairwise fun x y => (piece x).Agrees (piece y))
    (hact : ∀ x ∈ xs, ∀ s, w.Toward (fun q n => ∃ y, piece y q n) s₀ s →
      w.Takes (piece x) s (act s x))
    (hs : w.Toward (fun q n => ∃ y, piece y q n) s₀ s) :
    w.Takes (fun q n => ∃ x ∈ xs, piece x q n) s (Attempt.forEach act s xs) := by
  induction xs generalizing s with
  | nil => exact (takes_nothing w s).congr fun q n => by simp [Plan.nothing]
  | cons x xs ih =>
      obtain ⟨hx, hxs⟩ := List.pairwise_cons.mp hagrees
      obtain ⟨hactx, hactxs⟩ := List.forall_mem_cons.mp hact
      have hfirst := hactx s hs
      have hnext := hs.trans (hfirst.toward.mono fun q n hq => ⟨x, hq⟩)
      have hsecond := ih hxs hactxs hnext
      have hrest : (piece x).Agrees fun q n => ∃ y ∈ xs, piece y q n := by
        rintro q n n' hq ⟨y, hy, hq'⟩
        exact hx y hy q n n' hq hq'
      exact (hfirst.andThen (fun _ => hsecond) hrest).congr fun q n => by simp [Plan.both]

/-- Attempts that each begin something of the plan. -/
theorem toward_foldl {ι : Type} {act : σ → ι → σ}
    (hact : ∀ i s', w.Toward plan s s' → w.Toward plan s' (act s' i)) (attempts : List ι) :
    w.Toward plan s (attempts.foldl act s) := by
  induction attempts using List.reverseRecOn with
  | nil => exact Toward.refl w plan s
  | append_singleton attempts i ih =>
      rw [List.foldl_append]
      exact ih.trans (hact i _ ih)

/-- What goes through at once goes through where something of a plan that agrees was begun. -/
theorem Takes.ends_after (h : w.Takes piece s o) (hend : o.raised = none)
    (hs : w.Toward plan s s') (hagrees : plan.Agrees piece)
    (hsame : ∀ q n, piece q n → w.look s'' q = w.look s' q) (h' : w.Takes piece s'' o') :
    o'.raised = none := by
  rw [h'.raised]
  intro q n hq
  have hgoes := h.raised.mp hend q n hq
  rw [hsame q n hq]
  rcases hs q with hlook | ⟨n₀, n', hq₀, hbegun, hlook⟩
  · rwa [hlook]
  · rw [hagrees q n₀ n hq₀ hq] at hbegun
    rw [hlook]
    exact w.goes_begun _ q n n' hbegun hgoes

/-- After attempts that only began what the plan says, the whole attempt goes through if it went
through at once, and leaves the same. -/
theorem Takes.resume (hplan : plan.Agrees plan) (h : w.Takes plan s o) (hend : o.raised = none)
    (hs : w.Toward plan s s') (h' : w.Takes plan s' o') :
    o'.raised = none ∧ ∀ q, w.look o'.state q = w.look o.state q := by
  have hend' := h.ends_after hend hs hplan (fun _ _ _ => rfl) h'
  refine ⟨hend', fun q => ?_⟩
  by_cases hq : ∃ n, plan q n
  · obtain ⟨n, hq⟩ := hq
    rw [h'.done hend' q n hq, h.done hend q n hq]
  · have hnot : ∀ n, ¬ plan q n := not_exists.mp hq
    rw [h'.toward.look_eq hnot, hs.look_eq hnot, h.toward.look_eq hnot]

end Writing

end MissionOs.Lib
