import MissionOs.Lib.CallProg
import MissionOs.Lib.Runs
import Mathlib.Data.List.Nodup
import Mathlib.Data.List.Perm.Subperm
import Mathlib.Logic.Function.Basic

/-!
# A pool of programs

Any number of programs over one state, which make their calls one at a time in the order of a
schedule.  The pool keeps a log of the calls and of their answers.

Under every schedule, what the log holds of one task is a dialogue of its own program
(`dialogue_said`).  Two rules carry a property of the text of the programs to the log of a pool.
`Utters` is for what a program tells whatever it is answered: a task then tells the same under
every schedule (`told_of_returned`).  `Thrifty` is for tokens that are handed out in answers:
where no answer hands out a token twice, no token is spent twice (`spent_nodup`).
-/

namespace MissionOs.Lib

variable {I : Interface} {α β γ σ τ ι : Type}

/-- A call with its answer. -/
structure Exchange (I : Interface) where
  call : I.Call
  reply : I.Reply call

namespace CallProg

/-! ## The dialogues of a program -/

/-- The program `p` goes through the exchanges `d` and goes on as `q`. -/
inductive Dialogue : CallProg I α → List (Exchange I) → CallProg I α → Prop
  | nil (p : CallProg I α) : Dialogue p [] p
  | cons {c : I.Call} {k : I.Reply c → CallProg I α} (r : I.Reply c) {d : List (Exchange I)}
      {q : CallProg I α} (h : Dialogue (k r) d q) : Dialogue (call c k) (⟨c, r⟩ :: d) q

theorem Dialogue.trans {p q q' : CallProg I α} {d d' : List (Exchange I)} (h : Dialogue p d q)
    (h' : Dialogue q d' q') : Dialogue p (d ++ d') q' := by
  induction h with
  | nil => exact h'
  | cons r _ ih => exact .cons r (ih h')

/-- One more exchange. -/
theorem Dialogue.snoc {p : CallProg I α} {d : List (Exchange I)} {c : I.Call}
    {k : I.Reply c → CallProg I α} (h : Dialogue p d (call c k)) (r : I.Reply c) :
    Dialogue p (d ++ [⟨c, r⟩]) (k r) :=
  h.trans (.cons r (.nil _))

/-! ## What a program tells -/

/-- Of the calls of a program, those that `f` looks at tell `out`, in this order and whatever
the answers are; and every value that it returns satisfies `Q`. -/
def Utters (f : I.Call → Option γ) (Q : α → Prop) : CallProg I α → List γ → Prop
  | ret a, out => out = [] ∧ Q a
  | call c k, out =>
    match f c with
    | none => ∀ r, Utters f Q (k r) out
    | some g => ∃ rest, out = g :: rest ∧ ∀ r, Utters f Q (k r) rest

variable {f : I.Call → Option γ} {Q : α → Prop} {Q' : β → Prop}

theorem utters_silent {c : I.Call} {k : I.Reply c → CallProg I α} {out : List γ}
    (hc : f c = none) (h : ∀ r, (k r).Utters f Q out) : (call c k).Utters f Q out := by
  rw [Utters, hc]
  exact h

theorem utters_tell {c : I.Call} {k : I.Reply c → CallProg I α} {g : γ} {out : List γ}
    (hc : f c = some g) (h : ∀ r, (k r).Utters f Q out) :
    (call c k).Utters f Q (g :: out) := by
  rw [Utters, hc]
  exact ⟨out, rfl, h⟩

theorem Utters.bind {p : CallProg I α} {next : α → CallProg I β} {out out' : List γ}
    (hp : p.Utters f Q out) (hnext : ∀ a, Q a → (next a).Utters f Q' out') :
    (p >>= next).Utters f Q' (out ++ out') := by
  induction p generalizing out with
  | ret a =>
      rw [hp.1]
      exact hnext a hp.2
  | call c k ih =>
      rw [Utters] at hp
      cases hc : f c with
      | none =>
          rw [hc] at hp
          exact utters_silent hc fun r => ih r (hp r)
      | some g =>
          rw [hc] at hp
          obtain ⟨rest, hout, hrest⟩ := hp
          rw [hout]
          exact utters_tell hc fun r => ih r (hrest r)

/-- What is told in a dialogue is the first part of what the program tells. -/
theorem Utters.after {p q : CallProg I α} {d : List (Exchange I)} {out : List γ}
    (hp : p.Utters f Q out) (hd : Dialogue p d q) :
    ∃ rest, out = d.filterMap (fun x => f x.call) ++ rest ∧ q.Utters f Q rest := by
  induction hd generalizing out with
  | nil p => exact ⟨out, rfl, hp⟩
  | @cons c k r d q _ ih =>
      rw [Utters] at hp
      cases hc : f c with
      | none =>
          rw [hc] at hp
          rw [List.filterMap_cons_none (by exact hc)]
          exact ih (hp r)
      | some g =>
          rw [hc] at hp
          obtain ⟨rest, hout, hrest⟩ := hp
          obtain ⟨left, hleft, hq⟩ := ih (hrest r)
          refine ⟨left, ?_, hq⟩
          rw [hout, hleft, List.filterMap_cons_some (by exact hc), List.cons_append]

/-! ## Tokens -/

section Tokens

variable [DecidableEq τ]

/-- A program that holds the tokens `held` spends only tokens that it holds, and none of them
twice; it returns with tokens that satisfy `Q`. -/
def Thrifty (handed : (c : I.Call) → I.Reply c → Option τ) (spends : I.Call → Option τ)
    (Q : α → List τ → Prop) : CallProg I α → List τ → Prop
  | ret a, held => Q a held
  | call c k, held =>
    match spends c with
    | none => ∀ r, Thrifty handed spends Q (k r) (held ++ (handed c r).toList)
    | some t => t ∈ held ∧
        ∀ r, Thrifty handed spends Q (k r) (held.erase t ++ (handed c r).toList)

variable {handed : (c : I.Call) → I.Reply c → Option τ} {spends : I.Call → Option τ}

theorem Thrifty.bind {R : α → List τ → Prop} {R' : β → List τ → Prop} {p : CallProg I α}
    {next : α → CallProg I β} {held : List τ} (hp : p.Thrifty handed spends R held)
    (hnext : ∀ a left, R a left → (next a).Thrifty handed spends R' left) :
    (p >>= next).Thrifty handed spends R' held := by
  induction p generalizing held with
  | ret a => exact hnext a held hp
  | call c k ih =>
      show Thrifty handed spends R' (call c fun r => k r >>= next) held
      rw [Thrifty] at hp ⊢
      cases hc : spends c with
      | none =>
          rw [hc] at hp
          exact fun r => ih r (hp r)
      | some t =>
          rw [hc] at hp
          exact ⟨hp.1, fun r => ih r (hp.2 r)⟩

/-- What a dialogue spends and what is held after it is what was held before and what the
dialogue handed out. -/
theorem Thrifty.after {R : α → List τ → Prop} {p q : CallProg I α} {d : List (Exchange I)}
    {held : List τ} (hp : p.Thrifty handed spends R held) (hd : Dialogue p d q) :
    ∃ left, q.Thrifty handed spends R left ∧
      (d.filterMap (fun x => spends x.call) ++ left).Perm
        (held ++ d.filterMap fun x => handed x.call x.reply) := by
  induction hd generalizing held with
  | nil p => exact ⟨held, hp, by simp⟩
  | @cons c k r d q _ ih =>
      have hhanded : ∀ l : List τ, l ++ (handed c r).toList ++
          d.filterMap (fun x => handed x.call x.reply) =
            l ++ (⟨c, r⟩ :: d : List (Exchange I)).filterMap
              fun x => handed x.call x.reply := by
        intro l
        cases hr : handed c r <;> simp [hr]
      rw [Thrifty] at hp
      cases hc : spends c with
      | none =>
          rw [hc] at hp
          obtain ⟨left, hq, hperm⟩ := ih (hp r)
          refine ⟨left, hq, ?_⟩
          rw [List.filterMap_cons_none (by exact hc), ← hhanded held]
          exact hperm
      | some t =>
          rw [hc] at hp
          obtain ⟨left, hq, hperm⟩ := ih (hp.2 r)
          refine ⟨left, hq, ?_⟩
          rw [List.filterMap_cons_some (by exact hc), ← hhanded held]
          have hswap : (t :: held.erase t ++ (handed c r).toList ++
              d.filterMap fun x => handed x.call x.reply).Perm
                (held ++ (handed c r).toList ++
                  d.filterMap fun x => handed x.call x.reply) :=
            ((List.perm_cons_erase hp.1).symm.append_right _).append_right _
          exact (hperm.cons t).trans hswap

/-- A program that holds nothing at first spends no more than it is handed. -/
theorem Thrifty.spent_subperm {R : α → List τ → Prop} {p q : CallProg I α}
    {d : List (Exchange I)} (hp : p.Thrifty handed spends R []) (hd : Dialogue p d q) :
    (d.filterMap fun x => spends x.call).Subperm
      (d.filterMap fun x => handed x.call x.reply) := by
  obtain ⟨left, -, hperm⟩ := hp.after hd
  exact (List.sublist_append_left _ left).subperm.trans hperm.subperm

end Tokens

end CallProg

/-! ## Pools -/

/-- Programs, what they share, and the calls they have made. -/
structure Pool (ι : Type) (I : Interface) (α σ : Type) where
  tasks : ι → CallProg I α
  state : σ
  log : List (ι × Exchange I)

/-- What a log holds of one task. -/
def saidBy [DecidableEq ι] (i : ι) (log : List (ι × Exchange I)) : List (Exchange I) :=
  (log.filter fun x => x.1 = i).map (·.2)

namespace Pool

variable [DecidableEq ι]

/-- The task `i` makes its next call; a task that has returned is passed over. -/
def turn (h : Handler I σ) (i : ι) (pool : Pool ι I α σ) : Pool ι I α σ :=
  match pool.tasks i with
  | .ret _ => pool
  | .call c k =>
    let answer := h c pool.state
    ⟨Function.update pool.tasks i (k answer.1), answer.2, pool.log ++ [(i, ⟨c, answer.1⟩)]⟩

/-- The pool after the turns of a schedule. -/
def run (h : Handler I σ) (tasks : ι → CallProg I α) (s : σ) (schedule : List ι) :
    Pool ι I α σ :=
  final (turn h) ⟨tasks, s, []⟩ schedule

/-- What holds of the empty log and is kept by every call of a task that satisfies `C`. -/
theorem run_invariant {h : Handler I σ} {tasks : ι → CallProg I α} {s : σ}
    {J : Pool ι I α σ → Prop} (hstart : J ⟨tasks, s, []⟩)
    (hturn : ∀ pool i c k, J pool → pool.tasks i = .call c k →
      J ⟨Function.update pool.tasks i (k (h c pool.state).1), (h c pool.state).2,
        pool.log ++ [(i, ⟨c, (h c pool.state).1⟩)]⟩)
    (schedule : List ι) : J (run h tasks s schedule) := by
  refine final_invariant (C := fun _ _ => True) ?_ hstart fun _ _ => trivial
  intro pool i hpool _
  unfold turn
  cases htask : pool.tasks i with
  | ret a => exact hpool
  | call c k => exact hturn pool i c k hpool htask

/-- Under every schedule, what the log holds of a task is a dialogue of its program. -/
theorem dialogue_said (h : Handler I σ) (tasks : ι → CallProg I α) (s : σ)
    (schedule : List ι) (i : ι) :
    CallProg.Dialogue (tasks i) (saidBy i (run h tasks s schedule).log)
      ((run h tasks s schedule).tasks i) := by
  refine run_invariant (J := fun pool => ∀ i, CallProg.Dialogue (tasks i)
    (saidBy i pool.log) (pool.tasks i)) (fun i => .nil _) ?_ schedule i
  intro pool j c k hpool htask i
  by_cases hij : i = j
  · subst hij
    have hd := hpool i
    rw [htask] at hd
    simpa [saidBy] using hd.snoc (h c pool.state).1
  · have hji : ¬j = i := fun hji => hij hji.symm
    simpa [saidBy, hij, hji] using hpool i

/-- What is common to the log and the state: the state is what the calls of the log make of the
first one, and each answer is the one of the state at its time. -/
inductive Answered (h : Handler I σ) (s : σ) : List (ι × Exchange I) → σ → Prop
  | nil : Answered h s [] s
  | snoc {log : List (ι × Exchange I)} {t : σ} (hlog : Answered h s log t) (i : ι) (c : I.Call) :
      Answered h s (log ++ [(i, ⟨c, (h c t).1⟩)]) (h c t).2

theorem answered_run (h : Handler I σ) (tasks : ι → CallProg I α) (s : σ) (schedule : List ι) :
    Answered h s (run h tasks s schedule).log (run h tasks s schedule).state :=
  run_invariant (J := fun pool => Answered h s pool.log pool.state) .nil
    (fun _ i c _ hpool _ => hpool.snoc i c) schedule

/-! ## Every schedule -/

variable {h : Handler I σ} {tasks : ι → CallProg I α} {s : σ} {schedule : List ι} {i : ι}

/-- A task has told the first part of what its program tells. -/
theorem told_before_return {f : I.Call → Option γ} {Q : α → Prop} {out : List γ}
    (hp : (tasks i).Utters f Q out) :
    (saidBy i (run h tasks s schedule).log).filterMap (fun x => f x.call) <+: out := by
  obtain ⟨rest, hout, -⟩ := hp.after (dialogue_said h tasks s schedule i)
  exact ⟨rest, hout.symm⟩

/-- A task that has returned has told all that its program tells. -/
theorem told_of_returned {f : I.Call → Option γ} {Q : α → Prop} {out : List γ} {a : α}
    (hp : (tasks i).Utters f Q out) (ha : (run h tasks s schedule).tasks i = .ret a) :
    (saidBy i (run h tasks s schedule).log).filterMap (fun x => f x.call) = out ∧ Q a := by
  obtain ⟨rest, hout, hrest⟩ := hp.after (dialogue_said h tasks s schedule i)
  rw [ha] at hrest
  rw [hrest.1, List.append_nil] at hout
  exact ⟨hout.symm, hrest.2⟩

end Pool

/-! ## Tokens in a pool -/

section Tokens

variable [DecidableEq ι]

/-- Pairs of a task and a token, where no task has a token twice and no two tasks have the same
one. -/
theorem nodup_tokens {l : List (ι × τ)}
    (hsame : ∀ x ∈ l, ∀ y ∈ l, x.2 = y.2 → x.1 = y.1)
    (heach : ∀ i, ((l.filter fun x => x.1 = i).map (·.2)).Nodup) : (l.map (·.2)).Nodup := by
  induction l with
  | nil => exact List.nodup_nil
  | cons x l ih =>
      rw [List.map_cons, List.nodup_cons]
      constructor
      · intro hmem
        obtain ⟨y, hy, hyx⟩ := List.mem_map.mp hmem
        have htask : y.1 = x.1 :=
          hsame y (List.mem_cons_of_mem _ hy) x List.mem_cons_self hyx
        have hnodup := heach x.1
        rw [List.filter_cons_of_pos (by simp), List.map_cons, List.nodup_cons] at hnodup
        refine hnodup.1 (List.mem_map.mpr ⟨y, List.mem_filter.mpr ⟨hy, ?_⟩, hyx⟩)
        simpa using htask
      · refine ih (fun a ha b hb => hsame a (List.mem_cons_of_mem _ ha) b
          (List.mem_cons_of_mem _ hb)) fun i => ?_
        exact (heach i).sublist
          (((List.sublist_cons_self x l).filter _).map _)

/-- The tokens that the calls of a log concern, each with the task. -/
def tokensOfLog (f : Exchange I → Option τ) (log : List (ι × Exchange I)) : List (ι × τ) :=
  log.filterMap fun x => (f x.2).map (x.1, ·)

theorem mem_tokensOfLog {f : Exchange I → Option τ} {log : List (ι × Exchange I)} {i : ι} {t : τ} :
    (i, t) ∈ tokensOfLog f log ↔ t ∈ (saidBy i log).filterMap f := by
  simp only [tokensOfLog, saidBy, List.mem_filterMap, List.mem_map, List.mem_filter,
    Option.map_eq_some_iff, Prod.mk.injEq, decide_eq_true_eq]
  constructor
  · rintro ⟨x, hx, u, hu, hi, rfl⟩
    exact ⟨x.2, ⟨x, ⟨hx, hi⟩, rfl⟩, hu⟩
  · rintro ⟨e, ⟨x, ⟨hx, hi⟩, rfl⟩, hu⟩
    exact ⟨x, hx, t, hu, hi, rfl⟩

theorem tokensOfLog_filter (f : Exchange I → Option τ) (log : List (ι × Exchange I)) (i : ι) :
    ((tokensOfLog f log).filter fun x => x.1 = i).map (·.2) = (saidBy i log).filterMap f := by
  induction log with
  | nil => rfl
  | cons x log ih =>
      cases hf : f x.2 <;> by_cases hi : x.1 = i <;>
        simp_all [tokensOfLog, saidBy]

end Tokens

namespace Pool

variable [DecidableEq ι] [DecidableEq τ] {h : Handler I σ} {tasks : ι → CallProg I α} {s : σ}
  {schedule : List ι} {handed : (c : I.Call) → I.Reply c → Option τ}
  {spends : I.Call → Option τ} {Q : α → List τ → Prop}

/-- A token that a task spends is one that it was handed. -/
theorem spent_handed (hthrifty : ∀ i, (tasks i).Thrifty handed spends Q []) {i : ι} {t : τ}
    (ht : (i, t) ∈ tokensOfLog (fun x => spends x.call) (run h tasks s schedule).log) :
    (i, t) ∈ tokensOfLog (fun x => handed x.call x.reply) (run h tasks s schedule).log := by
  rw [mem_tokensOfLog] at ht ⊢
  exact ((hthrifty i).spent_subperm (dialogue_said h tasks s schedule i)).subset ht

/-- Where no token is handed out twice, none is spent twice. -/
theorem spent_nodup (hthrifty : ∀ i, (tasks i).Thrifty handed spends Q [])
    (hnodup : ((tokensOfLog (fun x => handed x.call x.reply)
      (run h tasks s schedule).log).map (·.2)).Nodup) :
    ((tokensOfLog (fun x => spends x.call) (run h tasks s schedule).log).map (·.2)).Nodup := by
  refine nodup_tokens ?_ fun i => ?_
  · intro x hx y hy hxy
    have hx' := spent_handed hthrifty (i := x.1) (t := x.2) hx
    have hy' := spent_handed hthrifty (i := y.1) (t := y.2) hy
    exact congrArg Prod.fst (List.inj_on_of_nodup_map hnodup hx' hy' hxy)
  · rw [tokensOfLog_filter]
    have hspent := (hthrifty i).spent_subperm (dialogue_said h tasks s schedule i)
    obtain ⟨l, hperm, hsub⟩ := hspent
    rw [← hperm.nodup_iff]
    refine List.Nodup.sublist hsub ?_
    rw [← tokensOfLog_filter]
    exact hnodup.sublist (List.filter_sublist.map _)

end Pool

end MissionOs.Lib
