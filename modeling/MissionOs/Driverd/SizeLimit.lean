import MissionOs.Driverd.DownloadCall

/-!
# The size limit

How large the files of a download become.  Both paths count the bytes of one response
against `max_response_size`; a resumed download counts from the size that the partial file
had at the beginning of the call, also when an interrupted attempt has appended to it since.
So the files stay within the limit if, at every attempt, what the partial file holds and what
is appended to it do (`within_limit_of_starts`).
-/

namespace MissionOs.Driverd

open MissionOs.Rust MissionOs.Lib

/-- The file at `p`, if there is one, has at most `limit` bytes. -/
def Small (limit : Nat) (fs : FileSystem) (p : Path) : Prop :=
  ∀ data, fs.get? p = some data → data.length ≤ limit

/-- Each of the files is as it was in `fs₀`, or has at most `limit` bytes. -/
def WithinLimit (limit : Nat) (files : List Path) (fs₀ fs : FileSystem) : Prop :=
  ∀ p ∈ files, fs.get? p = fs₀.get? p ∨ Small limit fs p

section WithinLimit

variable {limit : Nat} {files : List Path} {fs₀ fs : FileSystem} {p : Path}

theorem WithinLimit.refl (limit : Nat) (files : List Path) (fs : FileSystem) :
    WithinLimit limit files fs fs := fun _ _ => Or.inl rfl

theorem Small.congr {fs' : FileSystem} (h : Small limit fs p) (hp : fs'.get? p = fs.get? p) :
    Small limit fs' p := by
  intro data hdata
  rw [hp] at hdata
  exact h data hdata

theorem WithinLimit.congr {fs' : FileSystem} (h : WithinLimit limit files fs₀ fs)
    (hfiles : ∀ q, fs'.get? q = fs.get? q) : WithinLimit limit files fs₀ fs' := by
  intro q hq
  rcases h q hq with hkept | hsmall
  · left
    rw [hfiles, hkept]
  · exact Or.inr (hsmall.congr (hfiles q))

theorem small_write {data : Bytes} (hdata : data.length ≤ limit) {q : Path}
    (hq : q.resolve = p.resolve) : Small limit (fs.write p data) q := by
  intro data' hdata'
  rw [FileSystem.get?_write, if_pos hq] at hdata'
  cases hdata'
  exact hdata

/-- A file with few bytes is written. -/
theorem WithinLimit.write (h : WithinLimit limit files fs₀ fs) {data : Bytes}
    (hdata : data.length ≤ limit) : WithinLimit limit files fs₀ (fs.write p data) := by
  intro q hq
  by_cases hsame : q.resolve = p.resolve
  · exact Or.inr (small_write hdata hsame)
  · rcases h q hq with hkept | hsmall
    · left
      rw [FileSystem.get?_write_of_ne _ _ hsame, hkept]
    · exact Or.inr (hsmall.congr (FileSystem.get?_write_of_ne _ _ hsame))

theorem Small.remove (h : Small limit fs p) (q : Path) : Small limit (fs.remove q) p := by
  intro data hdata
  by_cases hsame : p.resolve = q.resolve
  · rw [FileSystem.get?_congr _ hsame, FileSystem.get?_remove_self] at hdata
    cases hdata
  · rw [FileSystem.get?_remove_of_ne _ hsame] at hdata
    exact h data hdata

theorem WithinLimit.remove (h : WithinLimit limit files fs₀ fs) (p : Path) :
    WithinLimit limit files fs₀ (fs.remove p) := by
  intro q hq
  by_cases hsame : q.resolve = p.resolve
  · right
    intro data hdata
    rw [FileSystem.get?_congr _ hsame, FileSystem.get?_remove_self] at hdata
    cases hdata
  · rcases h q hq with hkept | hsmall
    · left
      rw [FileSystem.get?_remove_of_ne _ hsame, hkept]
    · exact Or.inr (hsmall.remove p)

end WithinLimit

/-! ## Calls -/

section Calls

variable {env : FetchEnv} {limit : Nat} {files : List Path} {fs₀ fs : FileSystem} {n : Nat}

theorem WithinLimit.of_isRead {c : FetchCall} (h : WithinLimit limit files fs₀ fs)
    (hc : c.changes = []) : WithinLimit limit files fs₀ (env.outcome n fs c).2 :=
  h.congr fun _ => FetchEnv.outcome_get? (by rw [hc]; simp)

theorem WithinLimit.removeFile (h : WithinLimit limit files fs₀ fs) (p : Path) :
    WithinLimit limit files fs₀ (env.outcome n fs (.removeFile p)).2 := by
  rcases FetchEnv.removeFile_cases env n fs p with ⟨e, he⟩ | hok
  · rw [he]
    exact h
  · rw [hok]
    exact h.remove p

theorem WithinLimit.createFile (h : WithinLimit limit files fs₀ fs) (p : Path) :
    WithinLimit limit files fs₀ (env.outcome n fs (.createFile p)).2 := by
  rcases FetchEnv.createFile_cases env n fs p with ⟨e, he⟩ | ⟨-, -, hok⟩
  · rw [he]
    exact h
  · rw [hok]
    exact h.write (Nat.zero_le _)

/-- A small file is moved. -/
theorem WithinLimit.rename (h : WithinLimit limit files fs₀ fs) {src : Path} (dest : Path)
    (hsrc : Small limit fs src) :
    WithinLimit limit files fs₀ (env.outcome n fs (.rename src dest)).2 := by
  rcases FetchEnv.rename_cases env n fs src dest with ⟨e, he⟩ | ⟨data, hdata, hok⟩
  · rw [he]
    exact h
  · rw [hok]
    by_cases hsame : src.resolve = dest.resolve
    · simpa only [if_pos hsame] using h
    · simp only [if_neg hsame]
      exact (h.remove src).write (hsrc data hdata)

/-- How many bytes a write appends. -/
def FetchEnv.writes (env : FetchEnv) (n : Nat) (data : Bytes) : Nat :=
  if (env.fault n).isSome then min (env.written n) data.length else data.length

theorem outcome_writeAll_length (p : Path) (data : Bytes) {old : Bytes}
    (hold : fs.get? p = some old) :
    ∃ new, new.length = old.length + env.writes n data ∧
      (env.outcome n fs (.writeAll p data)).2 = fs.write p new := by
  simp only [FetchEnv.outcome, hold, Option.getD_some, FetchEnv.writes]
  cases env.fault n with
  | some _ => exact ⟨old ++ data.take (env.written n), by simp, rfl⟩
  | none => exact ⟨old ++ data, by simp, rfl⟩

end Calls

/-! ## Bodies -/

/-- How many bytes `stream_body` appends, if `total` bytes are counted already and its first
write has call number `n`. -/
def FetchEnv.appends (env : FetchEnv) (limit : Nat) :
    List (Except FileError Bytes) → Nat → Nat → Nat
  | [], _, _ => 0
  | .error _ :: _, _, _ => 0
  | .ok [] :: _, _, _ => 0
  | .ok (b :: bs) :: body, total, n =>
    if limit < total + (b :: bs).length then 0
    else if (env.fault n).isSome then env.writes n (b :: bs)
    else (b :: bs).length + env.appends limit body (total + (b :: bs).length) (n + 1)

/-- What is counted stays within the limit. -/
theorem FetchEnv.appends_le (env : FetchEnv) (limit : Nat) (body : List (Except FileError Bytes))
    (total n : Nat) (htotal : total ≤ limit) : total + env.appends limit body total n ≤ limit := by
  induction body generalizing total n with
  | nil => exact htotal
  | cons r body ih =>
      match r with
      | .error e => exact htotal
      | .ok [] => exact htotal
      | .ok (b :: bs) =>
          unfold FetchEnv.appends
          split_ifs with hlong hfault
          · omega
          · have hwrites : env.writes n (b :: bs) ≤ (b :: bs).length := by
              rw [FetchEnv.writes, if_pos hfault]
              exact Nat.min_le_right _ _
            omega
          · have hrest := ih (total + (b :: bs).length) (n + 1) (by omega)
            omega

section Programs

variable {env : FetchEnv} {limit : Nat} {files : List Path} {fs₀ : FileSystem} {s : Session}

/-- A call keeps the files within the limit. -/
abbrev KeepsLimit (env : FetchEnv) (limit : Nat) (files : List Path) (fs₀ : FileSystem)
    (c : FetchCall) (s : Session) : Prop :=
  WithinLimit limit files fs₀ s.fs → WithinLimit limit files fs₀ (env.handler c s).2.fs

theorem KeepsLimit.of_changes {c : FetchCall} (s : Session) (h : c.changes = []) :
    KeepsLimit env limit files fs₀ c s := fun hs => hs.of_isRead h

theorem allowsAudit_keepsLimit : AllowsAudit (KeepsLimit env limit files fs₀) :=
  fun s => ⟨.of_changes s rfl, fun _ => .of_changes s rfl⟩

/-- A program whose calls change no file keeps the files within the limit. -/
theorem ensures_of_reads {α : Type} {p : Fetch α} {Q : α → Prop}
    (hp : Fallible.Makes (fun c : FetchCall => c.changes = []) p Q) :
    Fallible.Ensures env.handler (KeepsLimit env limit files fs₀) p
      (fun a s' => Q a ∧ ∀ q, KeepsFile q s s') (fun _ s' => ∀ q, KeepsFile q s s') s := by
  have hkeeps : ∀ q, Fallible.Keeps env.handler (KeepsFile q) p := by
    intro q
    refine Fallible.Keeps.of_makes hp fun c s hc => FetchEnv.outcome_get? ?_
    intro q' hq'
    rw [hc] at hq'
    cases hq'
  refine Fallible.ensures_mono (Fallible.ensures_and
    (hp.ensures env.handler (fun c s hc => KeepsLimit.of_changes s hc) s)
    (Fallible.ensures_of_run (R := fun s' => ∀ q, KeepsFile q s s') fun q => (hkeeps q).run s))
    (fun _ _ h => h) fun _ _ h => h.2

/-- The calls that read, and those that remove a file. -/
def FetchCall.Removes : FetchCall → Prop
  | .removeFile _ => True
  | c => c.changes = []

theorem FetchCall.Removes.keepsLimit {c : FetchCall} (h : c.Removes) (s : Session) :
    KeepsLimit env limit files fs₀ c s := by
  cases c with
  | removeFile p => exact fun hs => hs.removeFile p
  | _ => exact .of_changes s h

theorem ResumeManager.removePartial_removes (manager : ResumeManager) (digest : PackageDigest) :
    Fallible.Makes FetchCall.Removes (manager.removePartial digest) fun _ => True := by
  unfold removePartial
  refine Fallible.makes_seq (call_makes (c := .pathExists _) rfl) fun found => ?_
  refine Fallible.makes_ite ?_ (Fallible.makes_pure trivial)
  exact Fallible.makes_checked (call_makes (c := .removeFile _) trivial)

theorem auditDownload_removes (env : FetchEnv) (tracker : DownloadTracker)
    (sourceId subject action : String) (severity : EventSeverity) :
    Fallible.Makes FetchCall.Removes
      (DownloadManager.auditDownload env tracker sourceId subject action severity)
      fun _ => True :=
  Fallible.makes_seq (call_makes (c := .now) rfl) fun _ => call_makes (c := .audit _) rfl

/-- A program that reads and removes keeps the files within the limit. -/
theorem ensures_of_removes {α : Type} {p : Fetch α} {Q : α → Prop}
    (hp : Fallible.Makes FetchCall.Removes p Q) (hs : WithinLimit limit files fs₀ s.fs) :
    Fallible.Ensures env.handler (KeepsLimit env limit files fs₀) p
      (fun _ s' => WithinLimit limit files fs₀ s'.fs)
      (fun _ s' => WithinLimit limit files fs₀ s'.fs) s := by
  have hcalls := hp.ensures env.handler
    (P := KeepsLimit env limit files fs₀)
    (fun c s hc => FetchCall.Removes.keepsLimit hc s) s
  have hrun := CallProg.along_invariant
    (J := fun s : Session => WithinLimit limit files fs₀ s.fs) hcalls.1 hs
  exact Fallible.ensures_mono (Fallible.ensures_and hcalls (Fallible.ensures_of_run hrun.2))
    (fun _ _ h => h.2) fun _ _ h => h.2

/-- A body is written within the limit, if what is there and what is appended are. -/
theorem streamBody_keepsLimit {atLimit : Fetch Unit} {path : Path}
    (hatLimit : ∀ s, WithinLimit limit files fs₀ s.fs →
      Fallible.Ensures env.handler (KeepsLimit env limit files fs₀) atLimit
        (fun _ s' => WithinLimit limit files fs₀ s'.fs)
        (fun _ s' => WithinLimit limit files fs₀ s'.fs) s)
    (body : List (Except FileError Bytes)) (total : Nat) {data : Bytes}
    (hs : WithinLimit limit files fs₀ s.fs) (hdata : s.fs.get? path = some data)
    (hsize : data.length + env.appends limit body total s.trace.length ≤ limit) :
    Fallible.Ensures env.handler (KeepsLimit env limit files fs₀)
      (streamBody limit atLimit path body total)
      (fun _ s' => WithinLimit limit files fs₀ s'.fs ∧ Small limit s'.fs path)
      (fun _ s' => WithinLimit limit files fs₀ s'.fs) s := by
  have hsmall : data.length ≤ limit → Small limit s.fs path := by
    intro hle data' hdata'
    rw [hdata] at hdata'
    cases hdata'
    exact hle
  induction body generalizing total data s with
  | nil => exact Fallible.ensures_pure.mpr ⟨hs, hsmall hsize⟩
  | cons r body ih =>
      match r with
      | .error e => exact Fallible.ensures_throw.mpr hs
      | .ok [] => exact Fallible.ensures_pure.mpr ⟨hs, hsmall hsize⟩
      | .ok (b :: bs) =>
          have hlength : ∃ new, new.length = data.length + env.writes s.trace.length (b :: bs) ∧
              (env.outcome s.trace.length s.fs (.writeAll path (b :: bs))).2 =
                s.fs.write path new := outcome_writeAll_length path (b :: bs) hdata
          obtain ⟨new, hnew, hwritten⟩ := hlength
          unfold streamBody
          unfold FetchEnv.appends at hsize
          refine Fallible.ensures_ite.mpr ⟨fun _ => ?_, fun hfits => ?_⟩
          · exact Fallible.ensures_bind.mpr (Fallible.ensures_mono (hatLimit s hs)
              (fun _ _ h => Fallible.ensures_throw.mpr h) fun _ _ h => h)
          rw [if_neg hfits] at hsize
          have hnewsize : new.length ≤ limit := by
            cases hfault : env.fault s.trace.length with
            | some e =>
                simp only [hfault, Option.isSome_some, if_true] at hsize
                omega
            | none =>
                simp only [hfault, Option.isSome_none, Bool.false_eq_true, if_false] at hsize
                have hall : env.writes s.trace.length (b :: bs) = (b :: bs).length := by
                  simp [FetchEnv.writes, hfault]
                omega
          have hafter : WithinLimit limit files fs₀
              (env.handler (.writeAll path (b :: bs)) s).2.fs := by
            simp only [FetchEnv.handler]
            rw [hwritten]
            exact hs.write hnewsize
          refine Fallible.ensures_bind.mpr (Fallible.ensures_bind.mpr
            (Fallible.ensures_perform.mpr ⟨fun _ => hafter, Fallible.ensures_orFail.mpr
              ⟨fun _ hok => ?_, fun _ _ => hafter⟩⟩))
          have hnofault : env.fault s.trace.length = none := by
            cases hfault : env.fault s.trace.length with
            | none => rfl
            | some e =>
                simp only [FetchEnv.handler, FetchEnv.outcome, hfault] at hok
                cases hok
          simp only [hnofault, Option.isSome_none, Bool.false_eq_true, if_false] at hsize
          have hall : env.writes s.trace.length (b :: bs) = (b :: bs).length := by
            simp [FetchEnv.writes, hnofault]
          have hthere : (env.handler (.writeAll path (b :: bs)) s).2.fs.get? path = some new := by
            simp only [FetchEnv.handler]
            rw [hwritten]
            exact FileSystem.get?_write_self _ _ _
          refine ih (total + (b :: bs).length) hafter hthere ?_ fun hle data' hdata' => ?_
          · simp only [FetchEnv.handler, List.length_append, List.length_singleton]
            omega
          · rw [hthere] at hdata'
            cases hdata'
            exact hle

/-- After a rename the file that was moved is not there, or is still small. -/
theorem Small.rename {n : Nat} {fs fs' : FileSystem} {src dest : Path} {u : Unit}
    (h : Small limit fs src) (hok : env.outcome n fs (.rename src dest) = (.ok u, fs')) :
    Small limit fs' src := by
  rcases FetchEnv.rename_cases env n fs src dest with ⟨e, he⟩ | ⟨data, hdata, hmoved⟩
  · rw [he] at hok
    cases hok
  · rw [hmoved] at hok
    cases hok
    by_cases hsame : src.resolve = dest.resolve
    · simpa only [if_pos hsame] using h
    · simp only [if_neg hsame]
      exact (h.remove src).congr (FileSystem.get?_write_of_ne _ _ hsame)

/-- A fresh download keeps the files within the limit. -/
theorem fetch_keepsLimit (fetcher : PackageFetcher) (url : String) (destination : Path)
    (expectedSize : Option Nat)
    (hs : WithinLimit fetcher.config.maxResponseSize files fs₀ s.fs) :
    Fallible.Ensures env.handler (KeepsLimit env fetcher.config.maxResponseSize files fs₀)
      (fetcher.download env.hash url destination expectedSize none)
      (fun result s' => WithinLimit fetcher.config.maxResponseSize files fs₀ s'.fs ∧
        Small fetcher.config.maxResponseSize s'.fs result.path)
      (fun _ s' => WithinLimit fetcher.config.maxResponseSize files fs₀ s'.fs) s := by
  have hparent : Fallible.Makes (fun c : FetchCall => c.changes = [])
      (PackageFetcher.ensureParent "cannot create download directory: " destination)
      fun _ => True := Fallible.makes_mono (PackageFetcher.ensureParent_begins _ destination _)
    (fun _ h => h.changes) fun _ h => h
  unfold PackageFetcher.download
  refine Fallible.ensures_bind.mpr (Fallible.ensures_orFail.mpr ⟨fun _ _ => ?_, fun _ _ => hs⟩)
  refine Fallible.ensures_bind.mpr (Fallible.ensures_mono (ensures_of_reads hparent)
    (fun _ s₁ h₁ => ?_) fun _ s₁ h₁ => hs.congr h₁)
  have hs₁ : WithinLimit fetcher.config.maxResponseSize files fs₀ s₁.fs := hs.congr h₁.2
  refine Fallible.ensures_bind.mpr ?_
  unfold PackageFetcher.downloadToFile
  refine Fallible.ensures_bind.mpr (Fallible.ensures_bind.mpr (Fallible.ensures_perform.mpr
    ⟨.of_changes s₁ rfl, Fallible.ensures_orFail.mpr ⟨fun response _ => ?_, fun _ _ => hs₁⟩⟩))
  refine Fallible.ensures_bind.mpr (Fallible.ensures_orFail.mpr ⟨fun _ _ => ?_, fun _ _ => hs₁⟩)
  generalize hs₂ : (env.handler (.request _) s₁).2 = s₂
  have hw₂ : WithinLimit fetcher.config.maxResponseSize files fs₀ s₂.fs := by
    rw [← hs₂]
    exact hs₁
  refine Fallible.ensures_bind.mpr (Fallible.ensures_bind.mpr (Fallible.ensures_perform.mpr
    ⟨fun h => h.createFile _, Fallible.ensures_orFail.mpr ⟨fun _ hok => ?_,
      fun _ _ => hw₂.createFile _⟩⟩))
  generalize hs₃ : (env.handler (.createFile (destination.withExtension "tmp")) s₂).2 = s₃
  have hw₃ : WithinLimit fetcher.config.maxResponseSize files fs₀ s₃.fs := by
    rw [← hs₃]
    exact hw₂.createFile _
  have hempty : s₃.fs.get? (destination.withExtension "tmp") = some [] := by
    rcases FetchEnv.createFile_cases env s₂.trace.length s₂.fs
      (destination.withExtension "tmp") with ⟨e, he⟩ | ⟨-, -, hcreated⟩
    · simp only [FetchEnv.handler, he] at hok
      cases hok
    · rw [← hs₃]
      simp only [FetchEnv.handler, hcreated]
      exact FileSystem.get?_write_self _ _ _
  have hsize : ([] : Bytes).length + env.appends fetcher.config.maxResponseSize response.body 0
      s₃.trace.length ≤ fetcher.config.maxResponseSize :=
    env.appends_le _ _ 0 _ (Nat.zero_le _)
  refine Fallible.ensures_bind.mpr (Fallible.ensures_mono (streamBody_keepsLimit
    (fun s hs => ?_) response.body 0 hw₃ hempty hsize) (fun total s₄ h₄ => ?_) fun _ _ h => h)
  · exact Fallible.ensures_discard.mpr (Fallible.ensures_perform.mpr
      ⟨fun h => h.removeFile _, hs.removeFile _⟩)
  obtain ⟨hw₄, hsmall₄⟩ := h₄
  refine Fallible.ensures_bind.mpr (Fallible.ensures_bind.mpr (Fallible.ensures_perform.mpr
    ⟨.of_changes s₄ rfl, Fallible.ensures_orFail.mpr ⟨fun _ _ => ?_, fun _ _ =>
      hw₄.of_isRead rfl⟩⟩))
  generalize hs₅ : (env.handler (.flush (destination.withExtension "tmp")) s₄).2 = s₅
  have hflushed : ∀ q, s₅.fs.get? q = s₄.fs.get? q := by
    intro q
    rw [← hs₅]
    exact FetchEnv.outcome_get? (by simp [FetchCall.changes])
  have hw₅ : WithinLimit fetcher.config.maxResponseSize files fs₀ s₅.fs := hw₄.congr hflushed
  have hsmall₅ : Small fetcher.config.maxResponseSize s₅.fs (destination.withExtension "tmp") :=
    hsmall₄.congr (hflushed _)
  refine Fallible.ensures_pure.mpr (Fallible.ensures_bind.mpr (Fallible.ensures_pure.mpr ?_))
  have hmoved : WithinLimit fetcher.config.maxResponseSize files fs₀
      (env.handler (.rename (destination.withExtension "tmp") destination) s₅).2.fs :=
    hw₅.rename destination hsmall₅
  refine Fallible.ensures_bind.mpr (Fallible.ensures_bind.mpr (Fallible.ensures_perform.mpr
    ⟨fun _ => hmoved, Fallible.ensures_orFail.mpr ⟨fun _ hrenamed => ?_, fun _ _ => hmoved⟩⟩))
  exact Fallible.ensures_pure.mpr ⟨hmoved, hsmall₅.rename (Prod.ext hrenamed rfl)⟩

end Programs

namespace DownloadCall

variable {c : DownloadCall} {s s₁ : Session} {existing : Option Nat}

/-- The limit of a call. -/
def limit (c : DownloadCall) : Nat := c.manager.fetcher.config.maxResponseSize

/-- A resumed attempt that begins in `s` appends no more to the partial file than fits: its
request has the call number of its beginning, the file is opened by the next call, and
written from the one after that. -/
def Fits (c : DownloadCall) (existing : Option Nat) (s : Session) : Prop :=
  ∀ offset response contentRange range data, existing = some (offset + 1) →
    c.env.server s.trace.length
      ⟨c.url, some ("bytes=" ++ toString (offset + 1) ++ "-"), 0⟩ = .ok response →
    response.status = 206 → response.contentRange = some contentRange →
    validateContentRange contentRange (offset + 1) = .ok range →
    c.env.fault (s.trace.length + 1) = none → s.fs.get? c.partialPath = some data →
    data.length + c.env.appends c.limit response.body (offset + 1) (s.trace.length + 2) ≤ c.limit

/-- A resumed download keeps the files within the limit, if what it appends fits. -/
theorem resume_keepsLimit {offset : Nat} {fs₀ : FileSystem}
    (hfits : c.Fits (some (offset + 1)) s) (hs : WithinLimit c.limit c.files fs₀ s.fs) :
    Fallible.Ensures c.env.handler (KeepsLimit c.env c.limit c.files fs₀)
      (c.manager.resumeDownload c.env c.url c.partialPath (offset + 1) c.destination)
      (fun result s' => WithinLimit c.limit c.files fs₀ s'.fs ∧
        Small c.limit s'.fs result.path)
      (fun _ s' => WithinLimit c.limit c.files fs₀ s'.fs) s := by
  unfold DownloadManager.resumeDownload
  refine Fallible.ensures_bind.mpr (Fallible.ensures_bind.mpr (Fallible.ensures_perform.mpr
    ⟨.of_changes s rfl, Fallible.ensures_orFail.mpr ⟨fun response hresponse => ?_,
      fun _ _ => hs⟩⟩))
  have hlength : (c.env.handler (.request ⟨c.url, some ("bytes=" ++ toString (offset + 1) ++
      "-"), 0⟩) s).2.trace.length = s.trace.length + 1 := by simp [FetchEnv.handler]
  have hfs : (c.env.handler (.request ⟨c.url, some ("bytes=" ++ toString (offset + 1) ++
      "-"), 0⟩) s).2.fs = s.fs := rfl
  generalize hs₁ : (c.env.handler (.request ⟨c.url, some ("bytes=" ++ toString (offset + 1) ++
    "-"), 0⟩) s).2 = s₁ at hlength hfs
  have hw₁ : WithinLimit c.limit c.files fs₀ s₁.fs := by
    rw [hfs]
    exact hs
  refine Fallible.ensures_ite.mpr ⟨fun hstatus => ?_, fun _ => Fallible.ensures_ite.mpr
    ⟨fun _ => ?_, fun _ => Fallible.ensures_throw.mpr hw₁⟩⟩
  · refine Fallible.ensures_bind.mpr (Fallible.ensures_orFail.mpr
      ⟨fun contentRange hrange => ?_, fun _ _ => hw₁⟩)
    refine Fallible.ensures_bind.mpr (Fallible.ensures_orFail.mpr
      ⟨fun range hvalid => ?_, fun _ _ => hw₁⟩)
    refine Fallible.ensures_bind.mpr (Fallible.ensures_bind.mpr (Fallible.ensures_perform.mpr
      ⟨.of_changes s₁ rfl, Fallible.ensures_orFail.mpr ⟨fun _ hopened => ?_, fun _ _ =>
        hw₁.of_isRead rfl⟩⟩))
    have hheader : response.contentRange = some contentRange := by
      cases hcr : response.contentRange with
      | none =>
          rw [hcr] at hrange
          cases hrange
      | some header =>
          rw [hcr] at hrange
          cases hrange
          rfl
    rcases FetchEnv.openAppend_cases c.env s₁.trace.length s₁.fs c.partialPath with
      ⟨e, he⟩ | ⟨hfault, data, hdata, hopen⟩
    · simp only [FetchEnv.handler, he] at hopened
      cases hopened
    generalize hs₂ : (c.env.handler (.openAppend c.partialPath) s₁).2 = s₂
    have hfs₂ : s₂.fs = s₁.fs := by
      rw [← hs₂]
      simp only [FetchEnv.handler, hopen]
    have hlength₂ : s₂.trace.length = s.trace.length + 2 := by
      rw [← hs₂]
      simp only [FetchEnv.handler, List.length_append, List.length_singleton, hlength]
    have hw₂ : WithinLimit c.limit c.files fs₀ s₂.fs := by
      rw [hfs₂]
      exact hw₁
    have hdata₂ : s₂.fs.get? c.partialPath = some data := by
      rw [hfs₂]
      exact hdata
    have hsize : data.length + c.env.appends c.limit response.body (offset + 1)
        s₂.trace.length ≤ c.limit := by
      rw [hlength₂]
      rw [hlength] at hfault
      rw [hfs] at hdata
      exact hfits offset response contentRange range data rfl hresponse hstatus hheader hvalid
        hfault hdata
    refine Fallible.ensures_bind.mpr (Fallible.ensures_mono (streamBody_keepsLimit
      (fun s hs => Fallible.ensures_pure.mpr hs) response.body (offset + 1) hw₂ hdata₂ hsize)
      (fun total s₃ h₃ => ?_) fun _ _ h => h)
    obtain ⟨hw₃, hsmall₃⟩ := h₃
    refine Fallible.ensures_bind.mpr (Fallible.ensures_bind.mpr (Fallible.ensures_perform.mpr
      ⟨.of_changes s₃ rfl, Fallible.ensures_orFail.mpr ⟨fun _ _ => ?_, fun _ _ =>
        hw₃.of_isRead rfl⟩⟩))
    have hsmall₄ : Small c.limit (c.env.handler (.flush c.partialPath) s₃).2.fs c.partialPath :=
      hsmall₃.congr (FetchEnv.outcome_get? (by simp [FetchCall.changes]))
    have hmoved : WithinLimit c.limit c.files fs₀ (c.env.handler (.rename c.partialPath
        c.destination) (c.env.handler (.flush c.partialPath) s₃).2).2.fs :=
      (hw₃.of_isRead rfl).rename c.destination hsmall₄
    refine Fallible.ensures_bind.mpr (Fallible.ensures_bind.mpr (Fallible.ensures_perform.mpr
      ⟨fun _ => hmoved, Fallible.ensures_orFail.mpr ⟨fun _ hrenamed => ?_, fun _ _ => hmoved⟩⟩))
    refine Fallible.ensures_pure.mpr ⟨hmoved, fun data' hdata' => hsmall₄ data' ?_⟩
    exact (FetchEnv.rename_ok hrenamed).symm.trans hdata'
  · refine Fallible.ensures_bind.mpr (Fallible.ensures_discard.mpr (Fallible.ensures_perform.mpr
      ⟨fun h => h.removeFile _, ?_⟩))
    exact fetch_keepsLimit c.manager.fetcher c.url c.destination none (hw₁.removeFile _)

/-- An attempt keeps the files within the limit, if what it appends fits. -/
theorem attempt_keepsLimit {fs₀ : FileSystem} (hfits : c.Fits existing s)
    (hs : WithinLimit c.limit c.files fs₀ s.fs) :
    Fallible.Ensures c.env.handler (KeepsLimit c.env c.limit c.files fs₀) (c.attempt existing)
      (fun result s' => WithinLimit c.limit c.files fs₀ s'.fs ∧
        Small c.limit s'.fs result.path)
      (fun _ s' => WithinLimit c.limit c.files fs₀ s'.fs) s := by
  unfold attempt DownloadManager.performDownloadWithResume
  split
  · exact resume_keepsLimit hfits hs
  · exact fetch_keepsLimit c.manager.fetcher c.url c.destination c.expectedSize hs

/-- A delivered file is looked at, removed or moved. -/
theorem accept_keepsLimit {fs₀ : FileSystem} (t : DownloadTracker) {result : DownloadResult}
    (hs : WithinLimit c.limit c.files fs₀ s.fs) (hsmall : Small c.limit s.fs result.path) :
    Fallible.Ensures c.env.handler (KeepsLimit c.env c.limit c.files fs₀)
      (c.manager.acceptDownload c.env t result c.sourceId c.subject)
      (fun _ s' => WithinLimit c.limit c.files fs₀ s'.fs)
      (fun _ s' => WithinLimit c.limit c.files fs₀ s'.fs) s := by
  have hpart : Fallible.Makes FetchCall.Removes
      (discard (c.manager.resumeManager.removePartial t.digest).attempt : Fetch Unit)
      fun _ => True := Fallible.makes_discard (Fallible.makes_attempt
        (ResumeManager.removePartial_removes _ _))
  unfold DownloadManager.acceptDownload
  refine Fallible.ensures_bind.mpr (Fallible.ensures_perform.mpr ⟨.of_changes s rfl, ?_⟩)
  generalize (c.env.handler (.pathExists result.path) s).1 = found
  have hs₁ : WithinLimit c.limit c.files fs₀ (c.env.handler (.pathExists result.path) s).2.fs :=
    hs
  have hsmall₁ : Small c.limit (c.env.handler (.pathExists result.path) s).2.fs result.path :=
    hsmall
  generalize (c.env.handler (.pathExists result.path) s).2 = s₁ at hs₁ hsmall₁
  -- A path other than the destination is that of the delivered file.
  have hverified : (if found then result.path else t.destination) ≠ t.destination →
      Small c.limit s₁.fs (if found then result.path else t.destination) := by
    intro hne
    cases found with
    | true => exact hsmall₁
    | false => exact absurd rfl hne
  generalize (if found then result.path else t.destination) = verified at hverified
  have hhash : Fallible.Makes (fun call : FetchCall => call.changes = [])
      (StreamingHasher.hashFile c.env.hash t.digest.algorithm verified) fun _ => True :=
    Fallible.makes_mono (StreamingHasher.hashFile_reads c.env.hash t.digest.algorithm verified)
      (fun call hcall => by rcases hcall with rfl | rfl <;> rfl) fun _ h => h
  refine Fallible.ensures_bind.mpr (Fallible.ensures_mono (ensures_of_reads hhash)
    (fun actual s₂ h₂ => ?_) fun _ s₂ h₂ => hs₁.congr h₂)
  have hs₂ : WithinLimit c.limit c.files fs₀ s₂.fs := hs₁.congr h₂.2
  refine Fallible.ensures_ite.mpr ⟨fun _ => ?_, fun _ => Fallible.ensures_ite.mpr
    ⟨fun _ => ?_, fun _ => ?_⟩⟩
  · refine ensures_of_removes (Q := fun _ => True) ?_ hs₂
    refine Fallible.makes_seq (auditDownload_removes _ _ _ _ _ _) fun _ => ?_
    refine Fallible.makes_seq (Fallible.makes_discard
      (call_makes (c := .removeFile verified) trivial)) fun _ => ?_
    exact Fallible.makes_seq hpart fun _ => Fallible.makes_throw _
  · refine ensures_of_removes (Q := fun _ => True) ?_ hs₂
    refine Fallible.makes_seq (auditDownload_removes _ _ _ _ _ _) fun _ => ?_
    exact Fallible.makes_seq (Fallible.makes_discard
      (call_makes (c := .removeFile verified) trivial)) fun _ => Fallible.makes_throw _
  · refine Fallible.ensures_bind.mpr (Fallible.ensures_mono
      (Q := fun _ s' => WithinLimit c.limit c.files fs₀ s'.fs)
      (E := fun _ s' => WithinLimit c.limit c.files fs₀ s'.fs) ?_
      (fun _ s₃ hs₃ => ensures_of_removes (Q := fun _ => True) ?_ hs₃) fun _ _ h => h)
    · unfold DownloadManager.moveVerified
      refine Fallible.ensures_ite.mpr ⟨fun hmoved => ?_, fun _ => Fallible.ensures_pure.mpr hs₂⟩
      have hsmall₂ : Small c.limit s₂.fs verified := (hverified hmoved).congr (h₂.2 verified)
      exact Fallible.ensures_bind.mpr (Fallible.ensures_perform.mpr
        ⟨fun h => h.rename _ hsmall₂, Fallible.ensures_orFail.mpr
          ⟨fun _ _ => hs₂.rename _ hsmall₂, fun _ _ => hs₂.rename _ hsmall₂⟩⟩)
    · refine Fallible.makes_seq hpart fun _ => ?_
      exact Fallible.makes_seq (auditDownload_removes _ _ _ _ _ _) fun _ =>
        Fallible.makes_pure trivial

/-- A partial file that is within the limit at the beginning stays so, and so does every file
that the call writes, if at every attempt what is appended fits. -/
theorem within_limit_of_starts (c : DownloadCall) (s : Session)
    (hfits : ∀ existing s₁, (existing, s₁) ∈ c.starts s → c.Fits existing s₁) :
    c.program.run.Along c.env.handler (fun _ s' => WithinLimit c.limit c.files s.fs s'.fs) s ∧
      WithinLimit c.limit c.files s.fs (c.run s).2.fs := by
  refine CallProg.along_invariant ?_ (WithinLimit.refl _ _ _)
  have hprogram : Fallible.Ensures c.env.handler (KeepsLimit c.env c.limit c.files s.fs)
      c.program (fun _ s' => WithinLimit c.limit c.files s.fs s'.fs)
      (fun _ s' => WithinLimit c.limit c.files s.fs s'.fs) s := by
    have hreads := Fallible.makes_mono (c.manager.prepare_makes c.env c.url c.destination
      c.digest c.expectedSize c.sourceId c.subject) (fun _ h => h.changes) fun _ h => h
    have hbegins : Fallible.Ensures c.env.handler (KeepsLimit c.env c.limit c.files s.fs) _ _ _ s :=
      ensures_of_reads hreads
    unfold program DownloadManager.download
    refine Fallible.ensures_bind.mpr ⟨hbegins.1, ?_⟩
    have hend := hbegins.2
    rcases hprepared : CallProg.run c.env.handler (c.manager.prepare c.env c.url c.destination
      c.digest c.expectedSize c.sourceId c.subject).run s with ⟨e | ⟨tracker, existing⟩, s₁⟩
    · rw [hprepared] at hend
      exact (WithinLimit.refl _ _ _).congr hend
    rw [hprepared] at hend
    have hstarts := starts_of_prepared (c := c) hprepared
    refine DownloadManager.attempts_ensures
      (D := fun result s' => WithinLimit c.limit c.files s.fs s'.fs ∧
        Small c.limit s'.fs result.path)
      (F := fun _ s' => WithinLimit c.limit c.files s.fs s'.fs)
      (I := fun s' => WithinLimit c.limit c.files s.fs s'.fs)
      (C := fun s' => c.Fits existing s') allowsAudit_keepsLimit
      (fun s₂ hs₂ hfits₂ => attempt_keepsLimit hfits₂ hs₂)
      (fun t result s₂ _ h => accept_keepsLimit t h.1 h.2) (fun e s₂ s₃ hs₂ _ haudited => ?_)
      (fun e s₂ s₃ hs₂ haudited => ?_) c.manager.retriesLeft tracker s₁
      (prepared_same hprepared) ((WithinLimit.refl _ _ _).congr hend.2) fun s₂ hs₂ => ?_
    · rw [haudited.1]
      exact hs₂
    · rw [haudited.1]
      exact hs₂
    · refine hfits existing s₂ ?_
      rw [hstarts]
      exact List.mem_map_of_mem hs₂
  exact hprogram.1

/-- An attempt fits if no earlier attempt has appended to the partial file. -/
theorem Fits.of_length (h : ∀ data, s.fs.get? c.partialPath = some data →
      existing = some data.length ∧ data.length ≤ c.limit) : c.Fits existing s := by
  intro offset response contentRange range data hexisting _ _ _ _ _ hdata
  obtain ⟨hlength, hle⟩ := h data hdata
  have hsize : offset + 1 = data.length := Option.some.inj (hexisting.symm.trans hlength)
  have hcounted := c.env.appends_le c.limit response.body (offset + 1) (s.trace.length + 2)
    (by omega)
  omega

/-- A resumed and retried download of `abc` stays within the limit. -/
theorem retried_within_limit :
    (abcCall busyServer).program.run.Along (abcCall busyServer).env.handler
        (fun _ s' => WithinLimit (abcCall busyServer).limit (abcCall busyServer).files
          (abcFiles (utf8 "a")) s'.fs) ⟨abcFiles (utf8 "a"), []⟩ ∧
      WithinLimit (abcCall busyServer).limit (abcCall busyServer).files (abcFiles (utf8 "a"))
        ((abcCall busyServer).run ⟨abcFiles (utf8 "a"), []⟩).2.fs := by
  refine within_limit_of_starts (abcCall busyServer) ⟨abcFiles (utf8 "a"), []⟩
    fun existing s₁ hmem => Fits.of_length fun data hdata => ?_
  have hstarts : ((abcCall busyServer).starts ⟨abcFiles (utf8 "a"), []⟩).all (fun start =>
      start.1 = some 1 ∧ start.2.fs.get? (abcCall busyServer).partialPath =
        some (utf8 "a")) = true := by rfl
  have hstart := List.all_eq_true.mp hstarts _ hmem
  simp only [decide_eq_true_eq] at hstart
  rw [hstart.2] at hdata
  cases hdata
  refine ⟨hstart.1, ?_⟩
  show (utf8 "a").length ≤ 1000000000
  decide

/-- The download of `abc` with room for no more than `abc`. -/
def abcTight (server : Nat → HttpRequest → Except HttpError HttpResponse) : DownloadCall :=
  { abcCall server with
    manager := { DownloadManager.cached with
      fetcher := ⟨{ DownloadConfig.default with maxResponseSize := 3 }⟩ } }

/-- Each retry appends the bytes of the same range again. -/
theorem retries_exceed_limit :
    ¬ ∀ (c : DownloadCall) (s : Session), Small c.limit s.fs c.partialPath →
      WithinLimit c.limit c.files s.fs (c.run s).2.fs := by
  intro h
  have hinitial : Small (abcTight cutServer).limit (abcFiles (utf8 "a"))
      (abcTight cutServer).partialPath := by
    intro data hdata
    have hthere : (abcFiles (utf8 "a")).get? (abcTight cutServer).partialPath =
      some (utf8 "a") := FileSystem.get?_write_self _ _ _
    rw [hthere] at hdata
    cases hdata
    show (utf8 "a").length ≤ 3
    decide
  have hgrown : ((abcTight cutServer).run ⟨abcFiles (utf8 "a"), []⟩).2.fs.get?
      (abcTight cutServer).partialPath = some (utf8 "abcbcbcbc") := by decide +kernel
  have hbefore : (abcFiles (utf8 "a")).get? (abcTight cutServer).partialPath =
      some (utf8 "a") := FileSystem.get?_write_self _ _ _
  rcases h (abcTight cutServer) ⟨abcFiles (utf8 "a"), []⟩ hinitial
    (abcTight cutServer).partialPath (DownloadManager.partial_mem_files _) with hkept | hsmall
  · rw [hgrown] at hkept
    have hsame := hkept.trans hbefore
    revert hsame
    decide
  · have hle := hsmall _ hgrown
    revert hle
    show ¬ (utf8 "abcbcbcbc").length ≤ 3
    decide

end DownloadCall

end MissionOs.Driverd
