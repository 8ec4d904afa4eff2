import MissionOs.Rust.OpenFile

/-!
# What a power loss leaves

The files as the programs see them, and what of them has reached the disk.  The bytes of a
file are on the disk once it is synced, and as long as it is not written again; of a file that
is not synced nothing is known.  A directory entry changes at once or not at all, and until
its directory is synced the disk may have any of those that stood there since.

`Untouched` and `Replaced` are the two states of a file that is replaced by renaming another
over it.  In both of them a power loss leaves a complete file.  `Versioned` is what is left of
them where it is replaced again and again, with the directory synced or not: the `versions` of
the file that the disk may have are complete, and a power loss leaves one of them.
-/

namespace MissionOs.Rust

namespace Files

variable {fs fs' : Files} {p q : Path} {n : Inode}

theorem get?_eq (fs : Files) (p : Path) :
    fs.get? p = (fs.entries p.resolve).map fs.contents := by
  rw [get?, at?, Option.map_map]
  rfl

/-- A path with the same file leads to the same inode, with the same bytes. -/
theorem entries_congr_at? (h : fs'.at? p = fs.at? p) :
    fs'.entries p.resolve = fs.entries p.resolve := by
  have hinode (fs : Files) : (fs.at? p).map Prod.fst = fs.entries p.resolve := by
    rw [at?, Option.map_map]
    exact Option.map_id'
  rw [← hinode fs', h, hinode]

theorem contents_congr_at? (h : fs'.at? p = fs.at? p) (hn : fs.entries p.resolve = some n) :
    fs'.contents n = fs.contents n := by
  have hn' := entries_congr_at? h
  rw [at?, at?, hn', hn] at h
  exact congrArg Prod.snd (Option.some.inj h)

/-- A rename changes no bytes. -/
theorem contents_rename (h : fs.rename p q = some fs') : fs'.contents = fs.contents := by
  unfold rename at h
  split at h
  · cases h
  · split_ifs at h <;> cases h <;> rfl

end Files

/-- The files, and what of them is on the disk. -/
structure Disk where
  files : Files
  /-- The files whose bytes are on the disk. -/
  synced : Inode → Bool
  /-- The entries that the disk may have at a place. -/
  stored : List String → List (Option Inode)

namespace Disk

/-- Everything is on the disk. -/
def durable (files : Files) : Disk where
  files := files
  synced n := decide (n < files.fresh)
  stored place := [files.entries place]

/-- The files are changed, and nothing of that has to reach the disk. -/
def follow (d : Disk) (files : Files) : Disk where
  files := files
  synced n := d.synced n && files.contents n == d.files.contents n
  stored place :=
    if files.entries place = d.files.entries place then d.stored place
    else files.entries place :: d.stored place

/-- `File::sync_all`. -/
def sync (d : Disk) (n : Inode) : Disk := { d with synced := Function.update d.synced n true }

/-- `File::sync_all` of a directory. -/
def syncDir (d : Disk) (dir : List String) : Disk :=
  { d with
    stored := fun place =>
      if place ≠ [] ∧ place.dropLast = dir then [d.files.entries place] else d.stored place }

/-- What a power loss may leave at a path: no file, the file as it was, or, if that was not on
the disk, whatever there is. -/
inductive Leaves (d : Disk) (p : Path) : Option Bytes → Prop where
  | nothing (h : none ∈ d.stored p.resolve) : Leaves d p none
  | kept (n : Inode) (h : some n ∈ d.stored p.resolve) (hsynced : d.synced n = true) :
      Leaves d p (some (d.files.contents n))
  | lost (n : Inode) (b : Bytes) (h : some n ∈ d.stored p.resolve)
      (hsynced : d.synced n = false) : Leaves d p (some b)

/-- If all that may be found is on the disk, one of it is left. -/
theorem Leaves.exists_entry {d : Disk} {p : Path} {v : Option Bytes} (h : d.Leaves p v)
    (hsynced : ∀ n, some n ∈ d.stored p.resolve → d.synced n = true) :
    ∃ entry ∈ d.stored p.resolve, v = entry.map d.files.contents := by
  cases h with
  | nothing h => exact ⟨none, h, rfl⟩
  | kept n h _ => exact ⟨some n, h, rfl⟩
  | lost n b h hlost =>
      rw [hsynced n h] at hlost
      cases hlost

variable {d : Disk} {old files : Files} {p q : Path} {n : Inode} {b data : Bytes}

@[simp] theorem files_follow (d : Disk) (files : Files) : (d.follow files).files = files := rfl

@[simp] theorem files_sync (d : Disk) (n : Inode) : (d.sync n).files = d.files := rfl

@[simp] theorem files_syncDir (d : Disk) (dir : List String) :
    (d.syncDir dir).files = d.files := rfl

@[simp] theorem synced_sync (d : Disk) (n : Inode) : (d.sync n).synced n = true := by
  simp [sync]

@[simp] theorem follow_self (d : Disk) : d.follow d.files = d := by
  simp [follow]

/-- Where the bytes are the same, what is on the disk is still there. -/
theorem synced_follow (h : d.synced n = true) (hsame : files.contents n = d.files.contents n) :
    (d.follow files).synced n = true := by
  simp [follow, h, hsame]

theorem mem_stored_follow {place : List String} {entry : Option Inode}
    (h : entry ∈ (d.follow files).stored place) :
    entry = files.entries place ∨ entry ∈ d.stored place := by
  simp only [follow] at h
  split_ifs at h
  · exact Or.inr h
  · exact List.mem_cons.mp h

/-! ## A file that is not touched -/

/-- The file at a path is what it was, here and on the disk. -/
structure Untouched (d : Disk) (old : Files) (p : Path) : Prop where
  at_same : d.files.at? p = old.at? p
  stored : d.stored p.resolve = [old.entries p.resolve]
  synced : ∀ n, old.entries p.resolve = some n → d.synced n = true

theorem untouched_durable (old : Files) (p : Path) : (durable old).Untouched old p where
  at_same := rfl
  stored := rfl
  synced n hn := decide_eq_true (old.sound.in_use _ n hn)

theorem Untouched.entries (h : d.Untouched old p) :
    d.files.entries p.resolve = old.entries p.resolve :=
  Files.entries_congr_at? h.at_same

/-- What is done elsewhere does not touch it. -/
theorem Untouched.follow (h : d.Untouched old p) (hat : files.at? p = d.files.at? p) :
    (d.follow files).Untouched old p where
  at_same := hat.trans h.at_same
  stored := by
    have hentries := Files.entries_congr_at? hat
    show (if files.entries p.resolve = d.files.entries p.resolve then _ else _) = _
    rw [if_pos hentries]
    exact h.stored
  synced n hn := by
    rw [← h.entries] at hn
    exact synced_follow (h.synced n (h.entries ▸ hn)) (Files.contents_congr_at? hat hn)

theorem Untouched.sync (h : d.Untouched old p) (n : Inode) : (d.sync n).Untouched old p where
  at_same := h.at_same
  stored := h.stored
  synced m hm := by
    by_cases hmn : m = n
    · rw [hmn]
      exact synced_sync d n
    · show Function.update d.synced n true m = true
      rw [Function.update_of_ne hmn]
      exact h.synced m hm

/-- A power loss leaves it as it was. -/
theorem Untouched.leaves (h : d.Untouched old p) {v : Option Bytes} (hv : d.Leaves p v) :
    v = old.get? p := by
  have hsynced : ∀ n, some n ∈ d.stored p.resolve → d.synced n = true := by
    intro n hn
    rw [h.stored, List.mem_singleton] at hn
    exact h.synced n hn.symm
  obtain ⟨entry, hentry, rfl⟩ := hv.exists_entry hsynced
  rw [h.stored, List.mem_singleton] at hentry
  rw [hentry, ← h.entries, ← Files.get?_eq]
  exact Files.get?_congr_at? h.at_same

/-! ## A file that is replaced -/

/-- The file at a path is a new one, which is on the disk; its entry on the disk may be the
old one, and then leads to the old file. -/
structure Replaced (d : Disk) (old : Files) (p : Path) (data : Bytes) : Prop where
  now : ∃ n, d.files.at? p = some (n, data) ∧ d.synced n = true ∧
    ∀ entry ∈ d.stored p.resolve, entry = some n ∨ entry = old.entries p.resolve
  kept : ∀ n, old.entries p.resolve = some n →
    d.files.contents n = old.contents n ∧ d.synced n = true

/-- The rename of a file that is on the disk. -/
theorem Untouched.rename (h : d.Untouched old q) (htmp : d.files.at? p = some (n, data))
    (hsynced : d.synced n = true) (hrename : d.files.rename p q = some files) :
    (d.follow files).Replaced old q data := by
  have hnow : files.at? q = some (n, data) := Files.at?_rename_self hrename htmp
  have hcontents : files.contents = d.files.contents := Files.contents_rename hrename
  constructor
  · refine ⟨n, hnow, synced_follow hsynced (congrFun hcontents n), ?_⟩
    intro entry hentry
    rcases mem_stored_follow hentry with hentry | hentry
    · exact Or.inl (hentry.trans (Files.entries_of_at? hnow).1)
    · rw [h.stored, List.mem_singleton] at hentry
      exact Or.inr hentry
  · intro m hm
    have hsame := Files.contents_congr_at? h.at_same hm
    exact ⟨(congrFun hcontents m).trans hsame,
      synced_follow (h.synced m hm) (congrFun hcontents m)⟩

theorem Replaced.get? (h : d.Replaced old p data) : d.files.get? p = some data := by
  obtain ⟨n, hnow, -⟩ := h.now
  exact Files.get?_of_at? hnow

/-- A power loss leaves the old file or the new one. -/
theorem Replaced.leaves (h : d.Replaced old p data) {v : Option Bytes} (hv : d.Leaves p v) :
    v = old.get? p ∨ v = some data := by
  obtain ⟨n, hnow, hsynced, hstored⟩ := h.now
  have hall : ∀ m, some m ∈ d.stored p.resolve → d.synced m = true := by
    intro m hm
    rcases hstored _ hm with heq | heq
    · rw [Option.some.inj heq]
      exact hsynced
    · exact (h.kept m heq.symm).2
  obtain ⟨entry, hentry, rfl⟩ := hv.exists_entry hall
  rcases hstored entry hentry with rfl | rfl
  · right
    show some (d.files.contents n) = some data
    rw [(Files.entries_of_at? hnow).2]
  · left
    rw [Files.get?_eq]
    apply Option.map_congr
    intro m hm
    exact (h.kept m hm).1

/-- Once the directory is synced it is the new one. -/
theorem Replaced.syncDir (h : d.Replaced old p data) (dir : List String) :
    (d.syncDir dir).Replaced old p data := by
  obtain ⟨n, hnow, hsynced, hstored⟩ := h.now
  refine ⟨⟨n, hnow, hsynced, ?_⟩, h.kept⟩
  intro entry hentry
  simp only [Disk.syncDir] at hentry
  split_ifs at hentry with hdir
  · rw [List.mem_singleton, (Files.entries_of_at? hnow).1] at hentry
    exact Or.inl hentry
  · exact hstored entry hentry

theorem Replaced.leaves_syncDir (h : d.Replaced old p data) {dir : List String}
    (hne : p.resolve ≠ []) (hdir : p.resolve.dropLast = dir) {v : Option Bytes}
    (hv : (d.syncDir dir).Leaves p v) : v = some data := by
  obtain ⟨n, hnow, hsynced, hstored⟩ := h.now
  have hone : (d.syncDir dir).stored p.resolve = [some n] := by
    show (if p.resolve ≠ [] ∧ p.resolve.dropLast = dir then _ else _) = _
    rw [if_pos ⟨hne, hdir⟩, (Files.entries_of_at? hnow).1]
  have hall : ∀ m, some m ∈ (d.syncDir dir).stored p.resolve →
      (d.syncDir dir).synced m = true := by
    intro m hm
    rw [hone, List.mem_singleton] at hm
    rw [Option.some.inj hm]
    exact hsynced
  obtain ⟨entry, hentry, rfl⟩ := hv.exists_entry hall
  rw [hone, List.mem_singleton] at hentry
  rw [hentry]
  show some (d.files.contents n) = some data
  rw [(Files.entries_of_at? hnow).2]

/-! ## A file of which several versions may be found -/

/-- What the disk may have at a path. -/
def versions (d : Disk) (p : Path) : List (Option Bytes) :=
  (d.stored p.resolve).map (Option.map d.files.contents)

/-- Whatever the disk may have at a path is the path's own, and all of its bytes are on the
disk. -/
structure Versioned (d : Disk) (p : Path) : Prop where
  current : d.files.entries p.resolve ∈ d.stored p.resolve
  synced : ∀ n, some n ∈ d.stored p.resolve → d.synced n = true
  in_use : ∀ n, some n ∈ d.stored p.resolve → n < d.files.fresh
  own : ∀ n, some n ∈ d.stored p.resolve → ∀ place, d.files.entries place = some n →
    place = p.resolve

theorem versioned_durable (files : Files) (p : Path) : (durable files).Versioned p where
  current := List.mem_singleton.mpr rfl
  synced n hn := decide_eq_true (files.sound.in_use _ n (List.mem_singleton.mp hn).symm)
  in_use n hn := files.sound.in_use _ n (List.mem_singleton.mp hn).symm
  own n hn _ hplace := files.sound.no_links _ _ n hplace (List.mem_singleton.mp hn).symm

@[simp] theorem versions_durable (files : Files) (p : Path) :
    (durable files).versions p = [files.get? p] := by
  rw [Files.get?_eq]
  rfl

@[simp] theorem versions_sync (d : Disk) (n : Inode) (p : Path) :
    (d.sync n).versions p = d.versions p := rfl

/-- A power loss leaves one of the versions, and may leave each of them. -/
theorem Versioned.leaves_iff (h : d.Versioned p) {v : Option Bytes} :
    d.Leaves p v ↔ v ∈ d.versions p := by
  constructor
  · intro hv
    obtain ⟨entry, hentry, rfl⟩ := hv.exists_entry h.synced
    exact List.mem_map_of_mem hentry
  · intro hv
    obtain ⟨entry, hentry, rfl⟩ := List.mem_map.mp hv
    cases entry with
    | none => exact .nothing hentry
    | some n => exact .kept n hentry (h.synced n hentry)

/-- What the programs see may be left, too. -/
theorem Versioned.leaves_now (h : d.Versioned p) : d.Leaves p (d.files.get? p) := by
  rw [h.leaves_iff, Files.get?_eq]
  exact List.mem_map_of_mem h.current

theorem Versioned.sync (h : d.Versioned p) (n : Inode) : (d.sync n).Versioned p where
  current := h.current
  synced m hm := by
    show Function.update d.synced n true m = true
    by_cases hmn : m = n
    · rw [hmn, Function.update_self]
    · rw [Function.update_of_ne hmn]
      exact h.synced m hm
  in_use := h.in_use
  own := h.own

/-- A file of the programs keeps the versions of a path if it is not one of them and is not
put there. -/
structure Beside (d : Disk) (p : Path) (files : Files) : Prop where
  entry : files.entries p.resolve = d.files.entries p.resolve
  contents : ∀ n, some n ∈ d.stored p.resolve → files.contents n = d.files.contents n
  fresh : d.files.fresh ≤ files.fresh
  places : ∀ place n, files.entries place = some n →
    d.files.entries place = some n ∨ d.files.fresh ≤ n

theorem Beside.stored_follow (h : d.Beside p files) :
    (d.follow files).stored p.resolve = d.stored p.resolve := if_pos h.entry

theorem Versioned.follow (h : d.Versioned p) (hbeside : d.Beside p files) :
    (d.follow files).Versioned p where
  current := by
    rw [hbeside.stored_follow, files_follow, hbeside.entry]
    exact h.current
  synced n hn := by
    rw [hbeside.stored_follow] at hn
    exact synced_follow (h.synced n hn) (hbeside.contents n hn)
  in_use n hn := by
    rw [hbeside.stored_follow] at hn
    exact Nat.lt_of_lt_of_le (h.in_use n hn) hbeside.fresh
  own n hn place hplace := by
    rw [hbeside.stored_follow] at hn
    rcases hbeside.places place n hplace with hold | hnew
    · exact h.own n hn place hold
    · exact absurd (h.in_use n hn) (Nat.not_lt.mpr hnew)

theorem Beside.versions_follow (h : d.Beside p files) :
    (d.follow files).versions p = d.versions p := by
  rw [versions, versions, h.stored_follow]
  apply List.map_congr_left
  intro entry hentry
  apply Option.map_congr
  intro n hn
  exact h.contents n (hn ▸ hentry)

/-- A file at another path is none of the versions. -/
theorem Versioned.ne_of_entries (h : d.Versioned p) (hne : p.resolve ≠ q.resolve)
    (hq : d.files.entries q.resolve = some n) {m : Inode} (hm : some m ∈ d.stored p.resolve) :
    m ≠ n := by
  rintro rfl
  exact hne (h.own m hm _ hq).symm

theorem Versioned.beside_create (h : d.Versioned p) (hne : p.resolve ≠ q.resolve) :
    d.Beside p (d.files.create q).2 := by
  unfold Files.create
  split
  · rename_i n hn
    refine ⟨rfl, ?_, Nat.le_refl _, fun _ _ => Or.inl⟩
    intro m hm
    exact Function.update_of_ne (h.ne_of_entries hne hn hm) ..
  · refine ⟨Function.update_of_ne hne .., ?_, Nat.le_succ _, ?_⟩
    · intro m hm
      exact Function.update_of_ne (Nat.ne_of_lt (h.in_use m hm)) ..
    · intro place m hm
      dsimp only at hm
      by_cases hplace : place = q.resolve
      · rw [hplace, Function.update_self] at hm
        exact Or.inr (Nat.le_of_eq (Option.some.inj hm))
      · rw [Function.update_of_ne hplace] at hm
        exact Or.inl hm

theorem Versioned.beside_write (h : d.Versioned p) (hne : p.resolve ≠ q.resolve)
    (hq : d.files.at? q = some (n, b)) (offset : Nat) (b' : Bytes) :
    d.Beside p (d.files.write n offset b') := by
  refine ⟨rfl, ?_, Nat.le_refl _, fun _ _ => Or.inl⟩
  intro m hm
  exact Function.update_of_ne (h.ne_of_entries hne (Files.entries_of_at? hq).1 hm) ..

/-- The rename of a complete file brings a version more. -/
theorem Versioned.rename (h : d.Versioned p) (hne : p.resolve ≠ q.resolve)
    (hq : d.files.at? q = some (n, data)) (hsynced : d.synced n = true)
    (hrename : d.files.rename q p = some files) :
    (d.follow files).Versioned p ∧
      (d.follow files).versions p = some data :: d.versions p := by
  obtain ⟨hentry, hdata⟩ := Files.entries_of_at? hq
  have hcontents : files.contents = d.files.contents := Files.contents_rename hrename
  obtain ⟨hfresh, hentries⟩ : files.fresh = d.files.fresh ∧ files.entries =
      Function.update (Function.update d.files.entries q.resolve none) p.resolve (some n) := by
    unfold Files.rename at hrename
    split at hrename
    · cases hrename
    · rename_i m hm
      rw [hm] at hentry
      cases hentry
      rw [if_neg (Ne.symm hne)] at hrename
      cases hrename
      exact ⟨rfl, rfl⟩
  have hnew : d.files.entries p.resolve ≠ some n := fun hp =>
    hne (d.files.sound.no_links _ _ n hp hentry)
  have hnow : files.entries p.resolve = some n := by rw [hentries, Function.update_self]
  have hstored : (d.follow files).stored p.resolve = some n :: d.stored p.resolve := by
    show (if files.entries p.resolve = d.files.entries p.resolve then _ else _) = _
    rw [hnow, if_neg (Ne.symm hnew)]
  -- where a file is found now it was found before, apart from the one that is renamed
  have hplaces : ∀ place m, files.entries place = some m → place ≠ p.resolve →
      place ≠ q.resolve ∧ d.files.entries place = some m := by
    intro place m hm hplace
    rw [hentries, Function.update_of_ne hplace] at hm
    by_cases hq' : place = q.resolve
    · rw [hq', Function.update_self] at hm
      cases hm
    · rw [Function.update_of_ne hq'] at hm
      exact ⟨hq', hm⟩
  constructor
  · constructor
    · rw [hstored]
      exact List.mem_cons.mpr (Or.inl hnow)
    · intro m hm
      apply synced_follow _ (congrFun hcontents m)
      rw [hstored] at hm
      rcases List.mem_cons.mp hm with heq | hm
      · rw [Option.some.inj heq]
        exact hsynced
      · exact h.synced m hm
    · intro m hm
      rw [files_follow, hfresh]
      rw [hstored] at hm
      rcases List.mem_cons.mp hm with heq | hm
      · rw [Option.some.inj heq]
        exact d.files.sound.in_use _ n hentry
      · exact h.in_use m hm
    · intro m hm place hplace
      by_contra hp
      obtain ⟨hq', hold⟩ := hplaces place m hplace hp
      rw [hstored] at hm
      rcases List.mem_cons.mp hm with heq | hm
      · rw [Option.some.inj heq] at hold
        exact hq' (d.files.sound.no_links _ _ n hold hentry)
      · exact hp (h.own m hm place hold)
  · rw [versions, hstored, files_follow, hcontents, List.map_cons, Option.map_some, hdata]
    rfl

/-- Once the directory is synced there is one version, the one that the programs see. -/
theorem Versioned.syncDir (h : d.Versioned p) {dir : List String} (hp : p.resolve ≠ [])
    (hdir : p.resolve.dropLast = dir) :
    (d.syncDir dir).Versioned p ∧ (d.syncDir dir).versions p = [d.files.get? p] := by
  have hstored : (d.syncDir dir).stored p.resolve = [d.files.entries p.resolve] :=
    if_pos ⟨hp, hdir⟩
  have hmem : ∀ n, some n ∈ (d.syncDir dir).stored p.resolve → some n ∈ d.stored p.resolve := by
    intro n hn
    rw [hstored, List.mem_singleton] at hn
    rw [hn]
    exact h.current
  refine ⟨⟨?_, ?_, ?_, ?_⟩, ?_⟩
  · rw [hstored]
    exact List.mem_singleton.mpr rfl
  · exact fun n hn => h.synced n (hmem n hn)
  · exact fun n hn => h.in_use n (hmem n hn)
  · exact fun n hn => h.own n (hmem n hn)
  · rw [versions, hstored, Files.get?_eq]
    rfl

end Disk

end MissionOs.Rust
