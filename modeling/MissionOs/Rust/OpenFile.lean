import MissionOs.Rust.Path
import Mathlib.Logic.Function.Basic

/-!
# Open files

`FileSystem` is enough for a program that has the files to itself.  Where two programs write
at the same time it matters that a path leads to a file, and that an open file stays the same
one when its path is renamed, or opened and truncated by the other program.

`Files` maps a resolved path to an inode and an inode to its bytes.  No two paths lead to one
inode: there are no hard links.
-/

namespace MissionOs.Rust

/-- What names a file in the file system. -/
abbrev Inode := Nat

/-- The bytes after some were written at an offset; what is before them is filled with
zeros. -/
def writeAt (contents : Bytes) (offset : Nat) (b : Bytes) : Bytes :=
  contents.take offset ++ List.replicate (offset - contents.length) 0 ++ b ++
    contents.drop (offset + b.length)

/-- Writing at the end appends. -/
theorem writeAt_length (contents b : Bytes) :
    writeAt contents contents.length b = contents ++ b := by
  simp [writeAt]

/-! ## Directory entries -/

/-- The inode at each resolved path. -/
abbrev Entries := List String → Option Inode

namespace Entries

variable {entries : Entries} {fresh n : Inode} {p : List String}

/-- Every inode is in use, and reached from one path. -/
structure Sound (entries : Entries) (fresh : Inode) : Prop where
  in_use : ∀ p n, entries p = some n → n < fresh
  no_links : ∀ p q n, entries p = some n → entries q = some n → p = q

theorem Sound.unlink (h : entries.Sound fresh) : Sound (Function.update entries p none) fresh := by
  have hold : ∀ q m, Function.update entries p none q = some m → entries q = some m := by
    intro q m hq
    by_cases hqp : q = p
    · rw [hqp, Function.update_self] at hq
      cases hq
    · rwa [Function.update_of_ne hqp] at hq
  constructor
  · intro q m hq
    exact h.in_use q m (hold q m hq)
  · intro q r m hq hr
    exact h.no_links q r m (hold q m hq) (hold r m hr)

theorem Sound.link (h : entries.Sound fresh) (hn : n < fresh)
    (honly : ∀ q, entries q = some n → q = p) :
    Sound (Function.update entries p (some n)) fresh := by
  have hold : ∀ q m, Function.update entries p (some n) q = some m →
      entries q = some m ∨ q = p ∧ m = n := by
    intro q m hq
    by_cases hqp : q = p
    · rw [hqp, Function.update_self] at hq
      exact Or.inr ⟨hqp, (Option.some.inj hq).symm⟩
    · rw [Function.update_of_ne hqp] at hq
      exact Or.inl hq
  constructor
  · intro q m hq
    rcases hold q m hq with hq | ⟨-, rfl⟩
    · exact h.in_use q m hq
    · exact hn
  · intro q r m hq hr
    rcases hold q m hq with hqold | ⟨hqp, hqn⟩
    · rcases hold r m hr with hrold | ⟨hrp, hrn⟩
      · exact h.no_links q r m hqold hrold
      · exact (honly q (hrn ▸ hqold)).trans hrp.symm
    · rcases hold r m hr with hrold | ⟨hrp, -⟩
      · exact hqp.trans (honly r (hqn ▸ hrold)).symm
      · exact hqp.trans hrp.symm

theorem Sound.grow (h : entries.Sound fresh) : entries.Sound (fresh + 1) :=
  ⟨fun p n hp => Nat.lt_succ_of_lt (h.in_use p n hp), h.no_links⟩

end Entries

/-! ## Files -/

/-- The paths and the files; the inodes from `fresh` on are not in use. -/
structure Files where
  entries : Entries
  contents : Inode → Bytes
  fresh : Inode
  sound : entries.Sound fresh

namespace Files

/-- No files. -/
def empty : Files := ⟨fun _ => none, fun _ => [], 0, ⟨nofun, nofun⟩⟩

/-- The inode at a path, with its bytes. -/
def at? (fs : Files) (p : Path) : Option (Inode × Bytes) :=
  (fs.entries p.resolve).map fun n => (n, fs.contents n)

/-- The bytes at a path. -/
def get? (fs : Files) (p : Path) : Option Bytes := (fs.at? p).map Prod.snd

/-- `File::create`: the file at a path is truncated, or a new one is made. -/
def create (fs : Files) (p : Path) : Inode × Files :=
  match fs.entries p.resolve with
  | some n => (n, { fs with contents := Function.update fs.contents n [] })
  | none =>
    (fs.fresh, {
      entries := Function.update fs.entries p.resolve (some fs.fresh)
      contents := Function.update fs.contents fs.fresh []
      fresh := fs.fresh + 1
      sound := fs.sound.grow.link (Nat.lt_succ_self _) fun q hq =>
        absurd (fs.sound.in_use q _ hq) (Nat.lt_irrefl _) })

/-- A write to an open file. -/
def write (fs : Files) (n : Inode) (offset : Nat) (b : Bytes) : Files :=
  { fs with contents := Function.update fs.contents n (writeAt (fs.contents n) offset b) }

/-- `std::fs::rename`; `none` if there is no file at the first path.  A file that the second
path led to is no longer reached by it. -/
def rename (fs : Files) (p q : Path) : Option Files :=
  match h : fs.entries p.resolve with
  | none => none
  | some n =>
    if p.resolve = q.resolve then some fs
    else some { fs with
      entries := Function.update (Function.update fs.entries p.resolve none) q.resolve (some n)
      sound := by
        refine fs.sound.unlink.link (fs.sound.in_use _ _ h) fun r hr => ?_
        by_cases hrp : r = p.resolve
        · rw [hrp, Function.update_self] at hr
          cases hr
        · rw [Function.update_of_ne hrp] at hr
          exact absurd (fs.sound.no_links _ _ _ hr h) hrp }

/-! ## What the operations do, and what they leave alone -/

variable {fs fs' : Files} {p q r : Path} {n : Inode} {b : Bytes}

theorem get?_of_at? (h : fs.at? p = some (n, b)) : fs.get? p = some b := by
  rw [get?, h]
  rfl

theorem get?_congr_at? (h : fs'.at? p = fs.at? p) : fs'.get? p = fs.get? p := by
  rw [get?, get?, h]

/-- Another path leads to another file. -/
theorem entries_ne (hp : fs.entries p.resolve = some n) (hne : q.resolve ≠ p.resolve)
    {m : Inode} (hq : fs.entries q.resolve = some m) : m ≠ n := by
  intro heq
  subst heq
  exact hne (fs.sound.no_links _ _ _ hq hp)

/-- A change of the file at a path leaves the others alone. -/
theorem at?_update_of_ne (hp : fs.entries p.resolve = some n) (hne : q.resolve ≠ p.resolve) :
    ({ fs with contents := Function.update fs.contents n b } : Files).at? q = fs.at? q := by
  cases hq : fs.entries q.resolve with
  | none => simp [at?, hq]
  | some m => simp [at?, hq, Function.update_of_ne (entries_ne hp hne hq)]

theorem at?_create_self (fs : Files) (p : Path) :
    (fs.create p).2.at? p = some ((fs.create p).1, []) := by
  unfold create
  split
  · rename_i n hn
    simp [at?, hn]
  · simp [at?]

theorem at?_create_of_ne (hne : q.resolve ≠ p.resolve) :
    (fs.create p).2.at? q = fs.at? q := by
  unfold create
  split
  · rename_i n hn
    exact at?_update_of_ne hn hne
  · cases hq : fs.entries q.resolve with
    | none => simp [at?, Function.update_of_ne hne, hq]
    | some m =>
        have hm : m ≠ fs.fresh := Nat.ne_of_lt (fs.sound.in_use _ _ hq)
        simp [at?, Function.update_of_ne hne, hq, Function.update_of_ne hm]

theorem entries_of_at? (h : fs.at? p = some (n, b)) :
    fs.entries p.resolve = some n ∧ fs.contents n = b := by
  unfold at? at h
  cases hp : fs.entries p.resolve with
  | none => simp [hp] at h
  | some m =>
      rw [hp] at h
      cases h
      exact ⟨rfl, rfl⟩

/-- A write at the end of the file at a path appends to it. -/
theorem at?_write_self (h : fs.at? p = some (n, b)) (b' : Bytes) :
    (fs.write n b.length b').at? p = some (n, b ++ b') := by
  obtain ⟨hp, hb⟩ := entries_of_at? h
  simp [at?, write, hp, hb, writeAt_length]

/-- A file that has the beginning of some data has more of it after the next write. -/
theorem at?_write_next {data : Bytes} {written : Nat}
    (h : fs.at? p = some (n, data.take written)) (hle : written ≤ data.length) (k : Nat) :
    (fs.write n written ((data.drop written).take k)).at? p =
      some (n, data.take (written + ((data.drop written).take k).length)) := by
  have hlength : (data.take written).length = written := List.length_take_of_le hle
  have hchunk : (data.drop written).take ((data.drop written).take k).length =
      (data.drop written).take k := by
    rw [List.length_take]
    simp
  have hnow := at?_write_self h ((data.drop written).take k)
  rw [hlength] at hnow
  rw [hnow, List.take_add, hchunk]

theorem at?_write_of_ne (h : fs.at? p = some (n, b)) (hne : q.resolve ≠ p.resolve)
    (offset : Nat) (b' : Bytes) : (fs.write n offset b').at? q = fs.at? q :=
  at?_update_of_ne (entries_of_at? h).1 hne

/-- A file that is renamed to another path is there afterwards. -/
theorem at?_rename_self (h : fs.rename p q = some fs') (hp : fs.at? p = some (n, b)) :
    fs'.at? q = some (n, b) := by
  obtain ⟨hn, hb⟩ := entries_of_at? hp
  unfold rename at h
  split at h
  · cases h
  · rename_i m hm
    rw [hm] at hn
    cases hn
    split_ifs at h with hpq
    · cases h
      simp only [at?] at hp ⊢
      rw [← hpq]
      exact hp
    · cases h
      simp [at?, hb]

theorem at?_rename_of_ne (h : fs.rename p q = some fs') (hrp : r.resolve ≠ p.resolve)
    (hrq : r.resolve ≠ q.resolve) : fs'.at? r = fs.at? r := by
  unfold rename at h
  split at h
  · cases h
  · split_ifs at h with hpq
    · cases h
      rfl
    · cases h
      simp [at?, Function.update_of_ne hrq, Function.update_of_ne hrp]

end Files

end MissionOs.Rust
