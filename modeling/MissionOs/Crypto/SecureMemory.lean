import MissionOs.Lib.Runs
import MissionOs.Rust.Text
import Mathlib.Data.Finset.Image
import Mathlib.Data.List.AList

/-!
# Secure memory

`SecureBuffer` of `secure_memory.rs`, in its Unix build, and a process that has any number of
them.  `mlock` and `munlock` act on whole pages, and a page is locked or not: one `munlock`
undoes every `mlock` before it.

Buffers are as long as their secrets and stand where the allocator puts them, so two of them
may share a page.  Then the unlock or drop of the one unlocks the other.  `protected_iff` says
that this is all that can go wrong.
-/

namespace MissionOs.Crypto

open MissionOs.Lib MissionOs.Rust

/-- `CryptoError`, as far as it is returned here. -/
inductive CryptoError where
  | memoryError
deriving DecidableEq, Repr

/-- `CryptoResult`. -/
abbrev CryptoResult (α : Type) := Except CryptoError α

/-! ## The platform -/

/-- The pages on which the bytes of a region lie. -/
def pagesOf (pageSize addr len : Nat) : Finset Nat :=
  (Finset.range len).image fun k => (addr + k) / pageSize

/-- `mlock`: what it returns, and the locked pages after it.  It is granted by the kernel or
not; a call that fails changes nothing. -/
def mlock (pageSize addr len : Nat) (granted : Bool) (lockedPages : Finset Nat) :
    Int × Finset Nat :=
  if granted then (0, lockedPages ∪ pagesOf pageSize addr len) else (-1, lockedPages)

/-- `munlock`: the locked pages after it. -/
def munlock (pageSize addr len : Nat) (lockedPages : Finset Nat) : Finset Nat :=
  lockedPages \ pagesOf pageSize addr len

/-- `platform::try_lock`. -/
def tryLock (pageSize addr len : Nat) (granted : Bool) (lockedPages : Finset Nat) :
    Bool × Finset Nat :=
  if len = 0 then (true, lockedPages)
  else
    let (ret, lockedPages) := mlock pageSize addr len granted lockedPages
    (ret = 0, lockedPages)

/-- `platform::try_unlock`. -/
def tryUnlock (pageSize addr len : Nat) (lockedPages : Finset Nat) : Finset Nat :=
  if len = 0 then lockedPages else munlock pageSize addr len lockedPages

/-! ## The buffer -/

/-- `SecureBuffer`, with the address of its data. -/
structure SecureBuffer where
  addr : Nat
  data : Bytes
  locked : Bool
deriving DecidableEq, Repr

namespace SecureBuffer

/-- `SecureBuffer::new`, at the address that the allocator chooses. -/
def new (addr size : Nat) : SecureBuffer := ⟨addr, List.replicate size 0, false⟩

/-- `SecureBuffer::len`. -/
def len (b : SecureBuffer) : Nat := b.data.length

/-- `SecureBuffer::is_locked`. -/
def isLocked (b : SecureBuffer) : Bool := b.locked

variable (pageSize : Nat)

/-- The pages of a buffer. -/
def pages (b : SecureBuffer) : Finset Nat := pagesOf pageSize b.addr b.len

/-- `SecureBuffer::lock`: its result, the buffer and the locked pages after it. -/
def lock (b : SecureBuffer) (granted : Bool) (lockedPages : Finset Nat) :
    CryptoResult Unit × SecureBuffer × Finset Nat :=
  if b.locked then (.error .memoryError, b, lockedPages)
  else if b.data.isEmpty then (.ok (), { b with locked := true }, lockedPages)
  else
    let (done, lockedPages) := tryLock pageSize b.addr b.len granted lockedPages
    if done then (.ok (), { b with locked := true }, lockedPages)
    else (.error .memoryError, b, lockedPages)

/-- `SecureBuffer::unlock`. -/
def unlock (b : SecureBuffer) (lockedPages : Finset Nat) : SecureBuffer × Finset Nat :=
  if !b.locked then (b, lockedPages)
  else
    let lockedPages :=
      if !b.data.isEmpty then tryUnlock pageSize b.addr b.len lockedPages else lockedPages
    ({ b with locked := false }, lockedPages)

/-- `Drop::drop`: the locked pages after it. -/
def drop (b : SecureBuffer) (lockedPages : Finset Nat) : Finset Nat :=
  if b.locked then tryUnlock pageSize b.addr b.len lockedPages else lockedPages

/-- `SecureBuffer::new_locked`: a buffer that cannot be locked is dropped. -/
def newLocked (addr size : Nat) (granted : Bool) (lockedPages : Finset Nat) :
    CryptoResult SecureBuffer × Finset Nat :=
  match (new addr size).lock pageSize granted lockedPages with
  | (.ok (), b, lockedPages) => (.ok b, lockedPages)
  | (.error e, b, lockedPages) => (.error e, b.drop pageSize lockedPages)

end SecureBuffer

/-! ## The process -/

/-- What names a buffer in the process. -/
abbrev Handle := Nat

/-- The buffers of a process, and its locked pages. -/
structure Process where
  buffers : AList fun _ : Handle => SecureBuffer
  lockedPages : Finset Nat

/-- A call on one buffer of the process.  The allocator chooses the address, and the kernel
grants a lock or not. -/
inductive Call where
  | new (h : Handle) (addr size : Nat)
  | newLocked (h : Handle) (addr size : Nat) (granted : Bool)
  | lock (h : Handle) (granted : Bool)
  | unlock (h : Handle)
  | drop (h : Handle)
deriving DecidableEq, Repr

namespace Process

/-- A process without buffers. -/
def empty : Process := ⟨∅, ∅⟩

/-- Whether a region has a byte in common with a buffer. -/
def overlaps (addr size : Nat) (b : SecureBuffer) : Bool :=
  max addr b.addr < min (addr + size) (b.addr + b.len)

/-- Whether the allocator can give a region to a new buffer. -/
def canPlace (p : Process) (h : Handle) (addr size : Nat) : Bool :=
  p.buffers.lookup h = none && p.buffers.entries.all fun e => !overlaps addr size e.2

/-- The process after a call.  A call that cannot be made is passed over: on a buffer that is
not there, or an allocation where a buffer is. -/
def next (pageSize : Nat) : Call → Process → Process
  | .new h addr size, p =>
    if p.canPlace h addr size then
      { p with buffers := p.buffers.insert h (.new addr size) }
    else p
  | .newLocked h addr size granted, p =>
    if p.canPlace h addr size then
      match SecureBuffer.newLocked pageSize addr size granted p.lockedPages with
      | (.ok b, lockedPages) => ⟨p.buffers.insert h b, lockedPages⟩
      | (.error _, lockedPages) => { p with lockedPages }
    else p
  | .lock h granted, p =>
    match p.buffers.lookup h with
    | some b =>
      let (_, b, lockedPages) := b.lock pageSize granted p.lockedPages
      ⟨p.buffers.insert h b, lockedPages⟩
    | none => p
  | .unlock h, p =>
    match p.buffers.lookup h with
    | some b =>
      let (b, lockedPages) := b.unlock pageSize p.lockedPages
      ⟨p.buffers.insert h b, lockedPages⟩
    | none => p
  | .drop h, p =>
    match p.buffers.lookup h with
    | some b => ⟨p.buffers.erase h, b.drop pageSize p.lockedPages⟩
    | none => p

end Process

/-! ## How the calls end -/

section Calls

variable {pageSize addr len : Nat} {lockedPages lockedPages' : Finset Nat}

@[simp] theorem pagesOf_zero : pagesOf pageSize addr 0 = ∅ := rfl

theorem tryUnlock_eq (pageSize addr len : Nat) (lockedPages : Finset Nat) :
    tryUnlock pageSize addr len lockedPages = lockedPages \ pagesOf pageSize addr len := by
  rw [tryUnlock, munlock]
  split_ifs with hlen
  · rw [hlen, pagesOf_zero, Finset.sdiff_empty]
  · rfl

namespace SecureBuffer

variable {b : SecureBuffer}

theorem pages_of_empty (h : b.data = []) : b.pages pageSize = ∅ := by
  rw [pages, len, h]
  rfl

/-- A lock succeeds and locks the pages, or it changes nothing. -/
theorem lock_cases (pageSize : Nat) (b : SecureBuffer) (granted : Bool)
    (lockedPages : Finset Nat) :
    b.lock pageSize granted lockedPages =
        (.ok (), { b with locked := true }, lockedPages ∪ b.pages pageSize) ∨
      b.lock pageSize granted lockedPages = (.error .memoryError, b, lockedPages) := by
  unfold lock
  split_ifs with hlocked hempty
  · exact Or.inr rfl
  · left
    rw [pages_of_empty (List.isEmpty_iff.mp hempty), Finset.union_empty]
  · have hlen : b.len ≠ 0 := fun h => hempty (List.isEmpty_iff.mpr (List.length_eq_zero_iff.mp h))
    cases granted with
    | true =>
        left
        simp [tryLock, hlen, mlock, pages]
    | false =>
        right
        simp [tryLock, hlen, mlock]

/-- An unlock gives the pages back, if they were locked. -/
theorem unlock_eq (b : SecureBuffer) (lockedPages : Finset Nat) :
    b.unlock pageSize lockedPages = ({ b with locked := false },
      if b.locked then lockedPages \ b.pages pageSize else lockedPages) := by
  obtain ⟨addr, data, locked⟩ := b
  cases locked with
  | false => rfl
  | true =>
      cases data with
      | nil => simp [unlock, pages_of_empty]
      | cons byte data => simp [unlock, tryUnlock_eq, pages]

theorem drop_eq (b : SecureBuffer) (lockedPages : Finset Nat) :
    b.drop pageSize lockedPages =
      if b.locked then lockedPages \ b.pages pageSize else lockedPages := by
  rw [drop, tryUnlock_eq]
  rfl

/-- A buffer that can be locked is returned; another one leaves no trace. -/
theorem newLocked_cases (pageSize addr size : Nat) (granted : Bool)
    (lockedPages : Finset Nat) :
    let b := new addr size
    newLocked pageSize addr size granted lockedPages =
        (.ok { b with locked := true }, lockedPages ∪ b.pages pageSize) ∨
      newLocked pageSize addr size granted lockedPages = (.error .memoryError, lockedPages) := by
  intro b
  rw [newLocked]
  rcases b.lock_cases pageSize granted lockedPages with h | h
  · rw [h]
    exact Or.inl rfl
  · rw [h]
    exact Or.inr rfl

end SecureBuffer

end Calls

/-! ## What is protected -/

/-- If the buffer says that it is locked, every page that its bytes occupy is locked. -/
def SecureBuffer.IsProtected (pageSize : Nat) (b : SecureBuffer) (lockedPages : Finset Nat) :
    Prop :=
  b.isLocked = true → b.data ≠ [] → ∀ page ∈ b.pages pageSize, page ∈ lockedPages

theorem SecureBuffer.isProtected_iff {pageSize : Nat} {b : SecureBuffer}
    {lockedPages : Finset Nat} :
    b.IsProtected pageSize lockedPages ↔ (b.locked = true → b.pages pageSize ⊆ lockedPages) := by
  constructor
  · intro h hlocked
    by_cases hempty : b.data = []
    · rw [pages_of_empty hempty]
      exact Finset.empty_subset _
    · exact h hlocked hempty
  · intro h hlocked _ page hpage
    exact h hlocked hpage

namespace Process

variable (pageSize : Nat)

/-- Every buffer of the process that says that it is locked is locked. -/
def Protected (p : Process) : Prop :=
  ∀ h b, p.buffers.lookup h = some b → b.IsProtected pageSize p.lockedPages

/-- No other buffer that is locked has a byte on a page of `b`. -/
def OwnsPages (p : Process) (h : Handle) (b : SecureBuffer) : Prop :=
  ∀ h' b', h' ≠ h → p.buffers.lookup h' = some b' → b'.locked = true →
    Disjoint (b'.pages pageSize) (b.pages pageSize)

/-- A call that does not give up a page that another locked buffer has bytes on. -/
def Harmless (p : Process) : Call → Prop
  | .unlock h | .drop h =>
    ∀ b, p.buffers.lookup h = some b → b.locked = true → p.OwnsPages pageSize h b
  | .new _ _ _ | .newLocked _ _ _ _ | .lock _ _ => True

section Step

variable {pageSize} {p : Process} {h : Handle} {b : SecureBuffer} {lockedPages : Finset Nat}

/-- The other buffers of a process, with other pages locked. -/
def OthersProtected (pageSize : Nat) (p : Process) (h : Handle) (lockedPages : Finset Nat) :
    Prop :=
  ∀ h' b', h' ≠ h → p.buffers.lookup h' = some b' → b'.IsProtected pageSize lockedPages

theorem protected_insert_iff :
    Protected pageSize ⟨p.buffers.insert h b, lockedPages⟩ ↔
      OthersProtected pageSize p h lockedPages ∧ b.IsProtected pageSize lockedPages := by
  constructor
  · intro hall
    constructor
    · intro h' b' hne hb'
      exact hall h' b' ((AList.lookup_insert_ne hne).trans hb')
    · exact hall h b (AList.lookup_insert _)
  · intro ⟨hothers, hb⟩ h' b' hb'
    by_cases hne : h' = h
    · rw [hne, AList.lookup_insert] at hb'
      rw [← Option.some.inj hb']
      exact hb
    · rw [AList.lookup_insert_ne hne] at hb'
      exact hothers h' b' hne hb'

theorem protected_erase_iff :
    Protected pageSize ⟨p.buffers.erase h, lockedPages⟩ ↔
      OthersProtected pageSize p h lockedPages := by
  constructor
  · intro hall h' b' hne hb'
    exact hall h' b' ((AList.lookup_erase_ne hne).trans hb')
  · intro hothers h' b' hb'
    by_cases hne : h' = h
    · rw [hne, AList.lookup_erase] at hb'
      cases hb'
    · rw [AList.lookup_erase_ne hne] at hb'
      exact hothers h' b' hne hb'

/-- More locked pages do no harm. -/
theorem Protected.others (hp : p.Protected pageSize) (hsub : p.lockedPages ⊆ lockedPages) :
    OthersProtected pageSize p h lockedPages :=
  fun h' b' _ hb' hlocked hne page hpage => hsub (hp h' b' hb' hlocked hne page hpage)

/-- The others are protected without the pages of a buffer exactly if it owns them. -/
theorem Protected.others_sdiff_iff (hp : p.Protected pageSize) :
    OthersProtected pageSize p h (p.lockedPages \ b.pages pageSize) ↔
      p.OwnsPages pageSize h b := by
  constructor
  · intro hothers h' b' hne hb' hlocked
    have hkept := SecureBuffer.isProtected_iff.mp (hothers h' b' hne hb') hlocked
    exact Finset.disjoint_of_subset_left hkept disjoint_sdiff_self_left
  · intro howns h' b' hne hb'
    rw [SecureBuffer.isProtected_iff]
    intro hlocked
    have hkept := SecureBuffer.isProtected_iff.mp (hp h' b' hb') hlocked
    exact Finset.subset_sdiff.mpr ⟨hkept, howns h' b' hne hb' hlocked⟩

/-- The pages that the release of a buffer gives up. -/
theorem Protected.others_release_iff (hp : p.Protected pageSize) :
    OthersProtected pageSize p h
        (if b.locked then p.lockedPages \ b.pages pageSize else p.lockedPages) ↔
      (b.locked = true → p.OwnsPages pageSize h b) := by
  split_ifs with hlocked
  · rw [hp.others_sdiff_iff]
    exact ⟨fun howns _ => howns, fun howns => howns hlocked⟩
  · constructor
    · intro _ hclaim
      exact absurd hclaim hlocked
    · intro _
      exact hp.others (Finset.Subset.refl _)

/-- A call on a process in which every buffer is protected leaves it so exactly if it is
harmless. -/
theorem protected_next_iff (hp : p.Protected pageSize) (call : Call) :
    (next pageSize call p).Protected pageSize ↔ p.Harmless pageSize call := by
  have hkeep : ∀ h, OthersProtected pageSize p h p.lockedPages := fun h =>
    hp.others (Finset.Subset.refl _)
  have hfree : ∀ {b : SecureBuffer} {lockedPages : Finset Nat}, b.locked = false →
      b.IsProtected pageSize lockedPages := by
    intro b lockedPages hlocked hclaim
    exact absurd hclaim (by simp [SecureBuffer.isLocked, hlocked])
  cases call with
  | new h addr size =>
      have hnew := protected_insert_iff.mpr ⟨hkeep h, hfree (b := .new addr size) rfl⟩
      simp only [next, Harmless, iff_true]
      split_ifs
      · exact hnew
      · exact hp
  | newLocked h addr size granted =>
      simp only [next, Harmless, iff_true]
      split_ifs
      · rcases SecureBuffer.newLocked_cases pageSize addr size granted
          p.lockedPages with hend | hend
        · rw [hend]
          refine protected_insert_iff.mpr ⟨hp.others Finset.subset_union_left, ?_⟩
          exact SecureBuffer.isProtected_iff.mpr fun _ => Finset.subset_union_right
        · rw [hend]
          exact hp
      · exact hp
  | lock h granted =>
      simp only [next, Harmless, iff_true]
      cases hb : p.buffers.lookup h with
      | none => exact hp
      | some b =>
          dsimp only
          rcases b.lock_cases pageSize granted p.lockedPages with hend | hend
          · rw [hend]
            refine protected_insert_iff.mpr ⟨hp.others Finset.subset_union_left, ?_⟩
            exact SecureBuffer.isProtected_iff.mpr fun _ => Finset.subset_union_right
          · rw [hend]
            exact protected_insert_iff.mpr ⟨hkeep h, hp h b hb⟩
  | unlock h =>
      simp only [next, Harmless]
      cases hb : p.buffers.lookup h with
      | none => simpa using hp
      | some b =>
          dsimp only
          rw [SecureBuffer.unlock_eq, protected_insert_iff, hp.others_release_iff]
          simp [hfree]
  | drop h =>
      simp only [next, Harmless]
      cases hb : p.buffers.lookup h with
      | none => simpa using hp
      | some b =>
          dsimp only
          rw [SecureBuffer.drop_eq, protected_erase_iff, hp.others_release_iff]
          simp

end Step

theorem protected_empty (pageSize : Nat) : empty.Protected pageSize := nofun

/-- In a run of any calls on any number of buffers, every buffer that says that it is locked is
locked in every state exactly if no buffer that is unlocked or dropped shares a page with
another locked one. -/
theorem protected_iff (pageSize : Nat) (calls : List Call) :
    (∀ t ∈ transitions (next pageSize) empty calls, t.after.Protected pageSize) ↔
      ∀ t ∈ transitions (next pageSize) empty calls, t.before.Harmless pageSize t.input := by
  refine transitions_iff (A := fun _ => True) (I := Protected pageSize)
    (P := fun _ _ p => p.Protected pageSize) (C := Harmless pageSize) ?_ ?_ ?_ ?_
  · intro p call hp _
    exact protected_next_iff hp call
  · intro p call _ _ hnext
    exact hnext
  · exact protected_empty pageSize
  · exact fun _ _ => trivial

/-- Two keys of 32 bytes on one page; the first is unlocked. -/
def twoKeys : List Call :=
  [.newLocked 0 4096 32 true, .newLocked 1 4128 32 true, .unlock 0]

/-- The second key still says that it is locked, and its page is not. -/
theorem unlock_exposes_other :
    ¬ ∀ t ∈ transitions (next 4096) empty twoKeys, t.after.Protected 4096 := by
  intro h
  have hlast := h _ (List.mem_cons_of_mem _ (List.mem_cons_of_mem _ List.mem_cons_self)) 1
    ⟨4128, List.replicate 32 0, true⟩ (by decide) rfl (by decide) 1 (by decide)
  revert hlast
  decide

end Process

end MissionOs.Crypto
