import Mathlib.Data.List.AList
import Mathlib.Data.List.Induction
import Mathlib.Data.Set.Basic

/-!
# Trees of files

A file system without links: finitely many places, each with a file or a directory, such that
whatever there is stands in a directory.  The last is a field of the type, so that no operation
leaves a file without the directories above it.

What an operation does is said by `node`, place by place.  `prune` takes away as much of a set of
places as can go, from the leaves upwards: a directory with something left in it stays.  Removing
one file and removing a directory with all that is in it are cases of it.  `put` writes one file.
-/

namespace MissionOs.Lib

/-- A place in the tree: the names on the way from the root. -/
abbrev Place := List String

/-- What stands at a place. -/
inductive FileNode (β : Type) where
  | file (content : β)
  | dir
deriving DecidableEq, Repr

/-- A tree of files.  What is in it stands in a directory of it. -/
structure FileTree (β : Type) where
  entries : AList fun _ : Place => FileNode β
  root : entries.lookup [] = some .dir
  parents : ∀ (p : Place) (name : String), p ++ [name] ∈ entries → entries.lookup p = some .dir

/-- How a write to a file ends: with the whole content, with the file as it was, or with the
beginning of the content. -/
inductive WriteOutcome where
  | done
  | refused
  | cut (n : Nat)
deriving DecidableEq, Repr

/-- The content that a write leaves in a file. -/
def WriteOutcome.leaves {α : Type} (w : WriteOutcome) (old new : List α) : List α :=
  match w with
  | .done => new
  | .refused => old
  | .cut n => new.take n

namespace FileTree

variable {β : Type}

/-! ## Looking -/

/-- What stands at a place. -/
def node (t : FileTree β) (p : Place) : Option (FileNode β) := t.entries.lookup p

def isdir (t : FileTree β) (p : Place) : Bool :=
  match t.node p with
  | some .dir => true
  | _ => false

def isfile (t : FileTree β) (p : Place) : Bool :=
  match t.node p with
  | some (.file _) => true
  | _ => false

/-- The content of the file at a place. -/
def content (t : FileTree β) (p : Place) : Option β :=
  match t.node p with
  | some (.file c) => some c
  | _ => none

/-- The name of a place in a directory. -/
def nameIn (p q : Place) : Option String :=
  q.getLast?.filter fun name => q = p ++ [name]

/-- The names in a directory. -/
def listdir (t : FileTree β) (p : Place) : List String := t.entries.keys.filterMap (nameIn p)

theorem isdir_iff {t : FileTree β} {p : Place} : t.isdir p = true ↔ t.node p = some .dir := by
  unfold isdir
  split <;> simp_all

theorem isfile_iff {t : FileTree β} {p : Place} :
    t.isfile p = true ↔ ∃ c, t.node p = some (.file c) := by
  unfold isfile
  split <;> simp_all

theorem content_eq_some_iff {t : FileTree β} {p : Place} {c : β} :
    t.content p = some c ↔ t.node p = some (.file c) := by
  unfold content
  split <;> simp_all

theorem isdir_congr {t t' : FileTree β} {p : Place} (h : t.node p = t'.node p) :
    t.isdir p = t'.isdir p := by
  rw [isdir, isdir, h]

theorem isfile_congr {t t' : FileTree β} {p : Place} (h : t.node p = t'.node p) :
    t.isfile p = t'.isfile p := by
  rw [isfile, isfile, h]

theorem node_ne_none_iff {t : FileTree β} {p : Place} : t.node p ≠ none ↔ p ∈ t.entries.keys := by
  rw [node, ne_eq, AList.lookup_eq_none, not_not, AList.mem_keys]

/-- What is there is a file or a directory. -/
theorem isfile_or_isdir {t : FileTree β} {p : Place} (h : t.node p ≠ none) :
    t.isfile p = true ∨ t.isdir p = true := by
  rw [isfile_iff, isdir_iff]
  cases hnode : t.node p with
  | none => exact absurd hnode h
  | some n =>
      cases n with
      | file c => exact Or.inl ⟨c, rfl⟩
      | dir => exact Or.inr rfl

theorem not_isfile_of_isdir {t : FileTree β} {p : Place} (h : t.isdir p = true) :
    t.isfile p = false := by
  rw [isdir_iff] at h
  rw [isfile, h]

theorem nameIn_eq_some_iff {p q : Place} {name : String} :
    nameIn p q = some name ↔ q = p ++ [name] := by
  rw [nameIn, Option.filter_eq_some_iff]
  constructor
  · rintro ⟨-, heq⟩
    exact of_decide_eq_true heq
  · rintro rfl
    exact ⟨List.getLast?_concat, decide_eq_true rfl⟩

theorem mem_listdir {t : FileTree β} {p : Place} {name : String} :
    name ∈ t.listdir p ↔ t.node (p ++ [name]) ≠ none := by
  rw [node_ne_none_iff, listdir, List.mem_filterMap]
  simp only [nameIn_eq_some_iff, exists_eq_right]

theorem nodup_listdir (t : FileTree β) (p : Place) : (t.listdir p).Nodup := by
  refine t.entries.keys_nodup.filterMap ?_
  intro q q' name hq hq'
  rw [Option.mem_def, nameIn_eq_some_iff] at hq hq'
  rw [hq, hq']

/-- All that stands below a place stands in a directory. -/
theorem isdir_of_below {t : FileTree β} {p : Place} {name : String} {rest : Place}
    (h : t.node (p ++ name :: rest) ≠ none) : t.isdir p = true := by
  induction rest using List.reverseRecOn with
  | nil =>
      rw [node_ne_none_iff] at h
      exact isdir_iff.mpr (t.parents p name h)
  | append_singleton rest last ih =>
      apply ih
      have hmem := node_ne_none_iff.mp h
      rw [← List.cons_append, ← List.append_assoc] at hmem
      rw [node, t.parents _ last hmem]
      exact Option.some_ne_none _

/-- Nothing stands below a file. -/
theorem eq_of_isfile {t : FileTree β} {p q : Place} (hfile : t.isfile p = true) (hpq : p <+: q)
    (hq : t.node q ≠ none) : q = p := by
  obtain ⟨rest, rfl⟩ := hpq
  cases rest with
  | nil => exact List.append_nil p
  | cons name rest =>
      have hdir := isdir_of_below hq
      rw [not_isfile_of_isdir hdir] at hfile
      cases hfile

/-- What stands somewhere has all the places above it. -/
theorem node_ne_none_of_isPrefix {t : FileTree β} {p q : Place} (hpq : p <+: q)
    (hq : t.node q ≠ none) : t.node p ≠ none := by
  obtain ⟨rest, rfl⟩ := hpq
  cases rest with
  | nil => rwa [List.append_nil] at hq
  | cons name rest =>
      rw [isdir_iff.mp (isdir_of_below hq)]
      exact Option.some_ne_none _

/-! ## Taking away -/

/-- A place that has to stay when others are taken away: something at it or below it does. -/
def holds (t : FileTree β) (gone : Place → Bool) (p : Place) : Bool :=
  p = [] || t.entries.keys.any fun q => p.isPrefixOf q && !gone q

theorem holds_iff {t : FileTree β} {gone : Place → Bool} {p : Place} :
    t.holds gone p = true ↔ p = [] ∨ ∃ q, p <+: q ∧ t.node q ≠ none ∧ gone q = false := by
  simp only [holds, Bool.or_eq_true, decide_eq_true_eq, List.any_eq_true, Bool.and_eq_true,
    List.isPrefixOf_iff_prefix, Bool.not_eq_true', node_ne_none_iff]
  constructor
  · rintro (hroot | ⟨q, hq, hpq, hgone⟩)
    · exact Or.inl hroot
    · exact Or.inr ⟨q, hpq, hq, hgone⟩
  · rintro (hroot | ⟨q, hpq, hq, hgone⟩)
    · exact Or.inl hroot
    · exact Or.inr ⟨q, hq, hpq, hgone⟩

/-- What has to stay keeps the places above it. -/
theorem holds_of_isPrefix {t : FileTree β} {gone : Place → Bool} {p q : Place} (hpq : p <+: q)
    (h : t.holds gone q = true) : t.holds gone p = true := by
  rw [holds_iff] at h ⊢
  rcases h with rfl | ⟨r, hqr, hr⟩
  · exact Or.inl (List.prefix_nil.mp hpq)
  · exact Or.inr ⟨r, hpq.trans hqr, hr⟩

/-- A lookup after a selection by keys. -/
theorem dlookup_filter (keep : Place → Bool) (l : List (Sigma fun _ : Place => FileNode β))
    (p : Place) :
    (l.filter fun e => keep e.1).dlookup p = if keep p = true then l.dlookup p else none := by
  induction l with
  | nil => exact (ite_self none).symm
  | cons e l ih =>
      obtain ⟨q, n⟩ := e
      rw [List.filter_cons]
      show List.dlookup p (if keep q = true then _ else _) = _
      by_cases hpq : p = q
      · subst hpq
        split_ifs with hkeep
        · rw [List.dlookup_cons_eq, List.dlookup_cons_eq]
        · rw [ih, if_neg hkeep]
      · have hskip (l' : List (Sigma fun _ : Place => FileNode β)) :
            List.dlookup p (⟨q, n⟩ :: l') = List.dlookup p l' :=
          List.dlookup_cons_ne l' _ hpq
        rw [hskip, ← ih]
        split_ifs with hkeep
        · exact hskip _
        · rfl

/-- The tree without as much of `gone` as can go. -/
def prune (t : FileTree β) (gone : Place → Bool) : FileTree β where
  entries :=
    { entries := t.entries.entries.filter fun e => t.holds gone e.1
      nodupKeys := t.entries.nodupKeys.sublist List.filter_sublist }
  root := by
    show (t.entries.entries.filter fun e => t.holds gone e.1).dlookup [] = _
    rw [dlookup_filter, if_pos (holds_iff.mpr (Or.inl rfl))]
    exact t.root
  parents := by
    intro p name hmem
    show (t.entries.entries.filter fun e => t.holds gone e.1).dlookup p = _
    have hsome := AList.lookup_isSome.mpr hmem
    replace hsome :
        ((t.entries.entries.filter fun e => t.holds gone e.1).dlookup (p ++ [name])).isSome := hsome
    rw [dlookup_filter] at hsome ⊢
    split_ifs at hsome with hholds
    · rw [if_pos (holds_of_isPrefix (List.prefix_append p [name]) hholds)]
      exact t.parents p name (AList.lookup_isSome.mp hsome)
    · cases hsome

theorem node_prune (t : FileTree β) (gone : Place → Bool) (p : Place) :
    (t.prune gone).node p = if t.holds gone p = true then t.node p else none :=
  dlookup_filter (t.holds gone) t.entries.entries p

/-- A file is taken away. -/
def unlink (t : FileTree β) (p : Place) : FileTree β :=
  if t.isfile p then t.prune fun q => q = p else t

theorem node_unlink {t : FileTree β} {p : Place} (h : t.isfile p = true) (q : Place) :
    (t.unlink p).node q = if q = p then none else t.node q := by
  rw [unlink, if_pos h, node_prune]
  by_cases hqp : q = p
  · subst hqp
    rw [if_pos rfl]
    apply if_neg
    rw [holds_iff]
    rintro (rfl | ⟨r, hqr, hr, hgone⟩)
    · rw [not_isfile_of_isdir (isdir_iff.mpr t.root)] at h
      cases h
    · exact absurd (eq_of_isfile h hqr hr) (of_decide_eq_false hgone)
  · rw [if_neg hqp]
    by_cases hnode : t.node q = none
    · rw [hnode, ite_self]
    · exact if_pos (holds_iff.mpr (Or.inr ⟨q, List.prefix_rfl, hnode, decide_eq_false hqp⟩))

/-- Something at a place or below it cannot be removed. -/
def Held (t : FileTree β) (refuses : Place → Bool) (p : Place) : Prop :=
  ∃ q, p <+: q ∧ t.node q ≠ none ∧ refuses q = true

/-- A directory with all that is in it, but for what cannot be removed and the directories above
that. -/
def rmtree (t : FileTree β) (refuses : Place → Bool) (base : Place) : FileTree β :=
  t.prune fun q => base.isPrefixOf q && !refuses q

/-- What stands there holds what is above it, and itself. -/
theorem held_of_refuses {t : FileTree β} {refuses : Place → Bool} {p : Place}
    (hnode : t.node p ≠ none) (h : refuses p = true) : t.Held refuses p :=
  ⟨p, List.prefix_rfl, hnode, h⟩

/-- A file holds itself or is not held. -/
theorem not_held_of_isfile {t : FileTree β} {refuses : Place → Bool} {p : Place}
    (hfile : t.isfile p = true) (h : refuses p = false) : ¬ t.Held refuses p := by
  rintro ⟨q, hpq, hq, hrefuses⟩
  rw [eq_of_isfile hfile hpq hq, h] at hrefuses
  cases hrefuses

theorem held_congr {t t' : FileTree β} {refuses : Place → Bool}
    (h : ∀ q, refuses q = true → (t'.node q ≠ none ↔ t.node q ≠ none)) (p : Place) :
    t'.Held refuses p ↔ t.Held refuses p := by
  constructor
  · rintro ⟨q, hpq, hq, hrefuses⟩
    exact ⟨q, hpq, (h q hrefuses).mp hq, hrefuses⟩
  · rintro ⟨q, hpq, hq, hrefuses⟩
    exact ⟨q, hpq, (h q hrefuses).mpr hq, hrefuses⟩

/-! ## Sweeping

All of a set of places is taken away, but for what is held. -/

/-- `t'` is `t` without the places of `S` that are not held. -/
structure Swept (refuses : Place → Bool) (S : Set Place) (t t' : FileTree β) : Prop where
  gone : ∀ p ∈ S, ¬ t.Held refuses p → t'.node p = none
  stays : ∀ p, p ∉ S ∨ t.Held refuses p → t'.node p = t.node p

section Swept

variable {refuses : Place → Bool}

theorem swept_empty (t : FileTree β) : Swept refuses ∅ t t where
  gone _ hmem _ := absurd hmem (Set.notMem_empty _)
  stays _ _ := rfl

/-- What has to stay below a directory that is removed. -/
theorem holds_rmtree_iff {t : FileTree β} {base p : Place} (hp : p ≠ []) (hbelow : base <+: p) :
    t.holds (fun q => base.isPrefixOf q && !refuses q) p = true ↔ t.Held refuses p := by
  rw [holds_iff, Held]
  constructor
  · rintro (hroot | ⟨q, hpq, hq, hgone⟩)
    · exact absurd hroot hp
    · have hbq := List.isPrefixOf_iff_prefix.mpr (hbelow.trans hpq)
      rw [hbq, Bool.true_and, Bool.not_eq_false'] at hgone
      exact ⟨q, hpq, hq, hgone⟩
  · rintro ⟨q, hpq, hq, hrefuses⟩
    exact Or.inr ⟨q, hpq, hq, by rw [hrefuses, Bool.not_true, Bool.and_false]⟩

theorem swept_rmtree (base : Place) (t : FileTree β) :
    Swept refuses {p | base <+: p ∧ p ≠ []} t (t.rmtree refuses base) where
  gone p hp hheld := by
    rw [rmtree, node_prune]
    exact if_neg (mt (holds_rmtree_iff hp.2 hp.1).mp hheld)
  stays p hp := by
    rw [rmtree, node_prune]
    by_cases hnode : t.node p = none
    · rw [hnode, ite_self]
    apply if_pos
    by_cases hroot : p = []
    · exact holds_iff.mpr (Or.inl hroot)
    by_cases hbelow : base <+: p
    · rw [holds_rmtree_iff hroot hbelow]
      exact hp.resolve_left (not_not_intro ⟨hbelow, hroot⟩)
    · refine holds_iff.mpr (Or.inr ⟨p, List.prefix_rfl, hnode, ?_⟩)
      rw [Bool.and_eq_false_iff]
      exact Or.inl (Bool.eq_false_iff.mpr (mt List.isPrefixOf_iff_prefix.mp hbelow))

theorem swept_unlink {t : FileTree β} {p : Place} (hfile : t.isfile p = true)
    (h : refuses p = false) : Swept refuses {p} t (t.unlink p) where
  gone q hq _ := by
    rw [node_unlink hfile]
    exact if_pos hq
  stays q hq := by
    rw [node_unlink hfile]
    apply if_neg
    rintro rfl
    rcases hq with hq | hheld
    · exact hq rfl
    · exact not_held_of_isfile hfile h hheld

namespace Swept

variable {S S' : Set Place} {t t' t'' : FileTree β}

/-- What is there afterwards was there before. -/
theorem node_eq_of_ne_none (h : Swept refuses S t t') {p : Place} (hp : t'.node p ≠ none) :
    t'.node p = t.node p := by
  by_cases hmem : p ∈ S
  · by_cases hheld : t.Held refuses p
    · exact h.stays p (Or.inr hheld)
    · exact absurd (h.gone p hmem hheld) hp
  · exact h.stays p (Or.inl hmem)

/-- Nothing that is held is taken away, so that the same places are held afterwards. -/
theorem held_iff (h : Swept refuses S t t') (p : Place) :
    t'.Held refuses p ↔ t.Held refuses p := by
  apply held_congr
  intro q hrefuses
  constructor
  · intro hq
    rwa [← h.node_eq_of_ne_none hq]
  · intro hq
    rwa [h.stays q (Or.inr (held_of_refuses hq hrefuses))]

/-- The set may be changed where it makes no difference. -/
theorem congr (h : Swept refuses S t t')
    (heq : ∀ p, t.node p ≠ none → ¬ t.Held refuses p → (p ∈ S ↔ p ∈ S')) :
    Swept refuses S' t t' where
  gone p hp hheld := by
    by_cases hnode : t'.node p = none
    · exact hnode
    · have hbefore : t.node p ≠ none := by rwa [← h.node_eq_of_ne_none hnode]
      exact h.gone p ((heq p hbefore hheld).mpr hp) hheld
  stays p hp := by
    by_cases hnode : t'.node p = none
    · by_contra hne
      rw [hnode] at hne
      have hheld : ¬ t.Held refuses p := by
        intro hheld
        exact hne (hnode.symm.trans (h.stays p (Or.inr hheld)))
      have hmem := mt (heq p (Ne.symm hne) hheld).mp (hp.resolve_right hheld)
      exact hne (hnode.symm.trans (h.stays p (Or.inl hmem)))
    · exact h.node_eq_of_ne_none hnode

/-- One sweep after the other. -/
theorem trans (h : Swept refuses S t t') (h' : Swept refuses S' t' t'') :
    Swept refuses (S ∪ S') t t'' where
  gone p hp hheld := by
    by_cases hnode : t''.node p = none
    · exact hnode
    have hmiddle := h'.node_eq_of_ne_none hnode
    rcases hp with hp | hp
    · exact hmiddle.trans (h.gone p hp hheld)
    · exact h'.gone p hp (mt (h.held_iff p).mp hheld)
  stays p hp := by
    have hboth : (p ∉ S ∨ t.Held refuses p) ∧ (p ∉ S' ∨ t.Held refuses p) := by
      rcases hp with hp | hheld
      · exact ⟨Or.inl fun hmem => hp (Or.inl hmem), Or.inl fun hmem => hp (Or.inr hmem)⟩
      · exact ⟨Or.inr hheld, Or.inr hheld⟩
    rw [h'.stays p (hboth.2.imp_right (h.held_iff p).mpr), h.stays p hboth.1]

end Swept

end Swept

/-! ## Writing -/

/-- The tree without anything in its root. -/
def empty : FileTree β where
  entries := AList.singleton [] .dir
  root := rfl
  parents := by
    intro p name hmem
    rw [AList.mem_keys, AList.keys_singleton, List.mem_singleton] at hmem
    exact absurd hmem (by simp)

/-- The tree with something else at a place, where there is a directory for it and none in its
place. -/
def insert (t : FileTree β) (p : Place) (n : FileNode β) : FileTree β :=
  if h : t.isdir p.dropLast = true ∧ t.isdir p = false then
    { entries := t.entries.insert p n
      root := by
        have hne : [] ≠ p := by
          rintro rfl
          have hfree := h.2
          rw [isdir_iff.mpr t.root] at hfree
          cases hfree
        rw [AList.lookup_insert_ne hne]
        exact t.root
      parents := by
        intro q name hmem
        have hdir : t.isdir q = true := by
          rcases (AList.mem_insert _).mp hmem with heq | hmem
          · have hdrop := h.1
            rwa [← heq, List.dropLast_concat] at hdrop
          · exact isdir_iff.mpr (t.parents q name hmem)
        have hne : q ≠ p := by
          rintro rfl
          rw [h.2] at hdir
          cases hdir
        rw [AList.lookup_insert_ne hne]
        exact isdir_iff.mp hdir }
  else t

/-- The tree with a file written. -/
def put (t : FileTree β) (p : Place) (c : β) : FileTree β := t.insert p (.file c)

/-- The tree with a directory made. -/
def mkdir (t : FileTree β) (p : Place) : FileTree β := t.insert p .dir

theorem node_insert {t : FileTree β} {p : Place} (hdir : t.isdir p.dropLast = true)
    (hfree : t.isdir p = false) (n : FileNode β) (q : Place) :
    (t.insert p n).node q = if q = p then some n else t.node q := by
  rw [insert, dif_pos ⟨hdir, hfree⟩]
  split_ifs with hqp
  · subst hqp
    exact AList.lookup_insert t.entries
  · exact AList.lookup_insert_ne hqp

/-- A file stands in a directory. -/
theorem isdir_dropLast {t : FileTree β} {p : Place} (h : t.isfile p = true) :
    t.isdir p.dropLast = true := by
  have hne : p ≠ [] := by
    rintro rfl
    rw [not_isfile_of_isdir (isdir_iff.mpr t.root)] at h
    cases h
  obtain ⟨c, hc⟩ := isfile_iff.mp h
  rw [← List.dropLast_append_getLast hne] at hc
  exact isdir_of_below (hc ▸ Option.some_ne_none _)

/-- A file that is there is written over. -/
theorem node_put_of_isfile {t : FileTree β} {p : Place} (h : t.isfile p = true) (c : β)
    (q : Place) : (t.put p c).node q = if q = p then some (.file c) else t.node q := by
  apply node_insert (isdir_dropLast h)
  cases hdir : t.isdir p with
  | false => rfl
  | true =>
      rw [not_isfile_of_isdir hdir] at h
      cases h

end FileTree

end MissionOs.Lib
