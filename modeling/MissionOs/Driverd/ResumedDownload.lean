import MissionOs.Driverd.FailedDownload
import Std.Data.String.ToNat

/-!
# Resumed downloads

A server that always serves the same file, and connections that break.  `existing_size` is
read once, at the beginning of a call, and every retry asks for the range from there; an
attempt that was interrupted has appended to the partial file by then.  So the partial file
stays a prefix of the remote file, and every range begins at its end, exactly if no attempt
begins with a partial file that has grown (`continues_iff`).
-/

namespace MissionOs.Driverd

open MissionOs.Rust MissionOs.Lib

/-! ## Servers -/

/-- The reads of `body` return the bytes `data`, or the first of them and then an error. -/
def Carries (data : Bytes) (body : List (Except FileError Bytes)) : Prop :=
  ∃ chunks : List Bytes, (∀ chunk ∈ chunks, chunk ≠ []) ∧
    (body = chunks.map .ok ∧ chunks.flatten = data ∨
      ∃ e rest, body = chunks.map .ok ++ .error e :: rest ∧ chunks.flatten <+: data)

/-- A request that was interrupted before a response came, or found the server overloaded. -/
def Interrupted (answer : Except HttpError HttpResponse) : Prop :=
  (∃ text, answer = .error (.transport text)) ∨
    ∃ code, 500 ≤ code ∧ answer = .error (.status code)

theorem Interrupted.not_ok {answer : Except HttpError HttpResponse} {response : HttpResponse}
    (h : Interrupted answer) (hok : answer = .ok response) : False := by
  rcases h with ⟨text, herror⟩ | ⟨code, -, herror⟩
  · rw [herror] at hok
    cases hok
  · rw [herror] at hok
    cases hok

/-- The `Range` header for the bytes from `offset` on. -/
def rangeFrom (offset : Nat) : String := "bytes=" ++ toString offset ++ "-"

/-- The server serves the file `remote` at `url`, whole and by ranges. -/
structure Serves (env : FetchEnv) (url : String) (remote : Bytes) : Prop where
  whole : ∀ n r, r.url = url → r.range = none → Interrupted (env.server n r) ∨
    ∃ response, env.server n r = .ok response ∧ response.status = 200 ∧
      Carries remote response.body
  part : ∀ n r offset, r.url = url → 0 < offset → r.range = some (rangeFrom offset) →
    Interrupted (env.server n r) ∨
      (remote.length ≤ offset ∧ env.server n r = .error (.status 416)) ∨
      (offset < remote.length ∧ ∃ response, env.server n r = .ok response ∧
        response.status = 206 ∧ response.contentRange = some ("bytes " ++ toString offset ++
          "-" ++ toString (remote.length - 1) ++ "/" ++ toString remote.length) ∧
        Carries (remote.drop offset) response.body)

section Carries

variable {data : Bytes} {body : List (Except FileError Bytes)}

/-- The first read of a body returns the next bytes of the data. -/
theorem Carries.cons {chunk : Bytes} (h : Carries data (.ok chunk :: body)) :
    chunk ≠ [] ∧ ∃ rest, data = chunk ++ rest ∧ Carries rest body := by
  obtain ⟨chunks, hne, hbody⟩ := h
  cases chunks with
  | nil =>
      rcases hbody with ⟨h, -⟩ | ⟨e, rest, h, -⟩
      · cases h
      · cases h
  | cons c chunks =>
      have hrest : ∀ chunk ∈ chunks, chunk ≠ [] := fun chunk h =>
        hne chunk (List.mem_cons_of_mem _ h)
      rcases hbody with ⟨h, hdata⟩ | ⟨e, rest, h, hdata⟩
      · cases h
        exact ⟨hne chunk List.mem_cons_self, chunks.flatten, hdata.symm,
          chunks, hrest, Or.inl ⟨rfl, rfl⟩⟩
      · cases h
        obtain ⟨more, hmore⟩ := hdata
        refine ⟨hne chunk List.mem_cons_self, chunks.flatten ++ more, ?_, chunks, hrest,
          Or.inr ⟨e, rest, rfl, List.prefix_append _ _⟩⟩
        rw [← hmore, List.flatten_cons, List.append_assoc]

/-- A body that ends has carried everything. -/
theorem Carries.nil (h : Carries data []) : data = [] := by
  obtain ⟨chunks, -, hbody⟩ := h
  cases chunks with
  | nil =>
      rcases hbody with ⟨-, hdata⟩ | ⟨e, rest, hnil, -⟩
      · exact hdata.symm
      · cases hnil
  | cons c chunks =>
      rcases hbody with ⟨hnil, -⟩ | ⟨e, rest, hnil, -⟩
      · cases hnil
      · cases hnil

end Carries

/-! ## Bodies -/

section Bodies

variable {env : FetchEnv} {n : Nat} {fs : FileSystem} {path : Path} {data : Bytes}

/-- A write appends its bytes, or the first of them. -/
theorem FetchEnv.writeAll_cases (env : FetchEnv) (n : Nat) (hdata : fs.get? path = some data)
    (chunk : Bytes) :
    (∃ e k, env.outcome n fs (.writeAll path chunk) =
        (.error e, fs.write path (data ++ chunk.take k))) ∨
      env.outcome n fs (.writeAll path chunk) = (.ok (), fs.write path (data ++ chunk)) := by
  simp only [outcome, hdata, Option.getD_some]
  cases env.fault n with
  | some e => exact Or.inl ⟨e, env.written n, rfl⟩
  | none => exact Or.inr rfl

/-- A body that carries `rest` is appended to the file, up to an interruption. -/
theorem streamBody_carries {P : FetchCall → Session → Prop} {E : ServiceError → Session → Prop}
    {limit : Nat} {atLimit : Fetch Unit} (body : List (Except FileError Bytes)) (total : Nat)
    {rest : Bytes} {s : Session} (hcarries : Carries rest body)
    (hdata : s.fs.get? path = some data) (hP : ∀ chunk s, P (.writeAll path chunk) s)
    (hE : ∀ more e s, more <+: rest → s.fs.get? path = some (data ++ more) → E e s)
    (hatLimit : ∀ more s, more <+: rest → s.fs.get? path = some (data ++ more) →
      Fallible.Ensures env.handler P atLimit (fun _ s' => ∀ e, E e s') E s) :
    Fallible.Ensures env.handler P (streamBody limit atLimit path body total)
      (fun total' s' => total' = total + rest.length ∧
        s'.fs.get? path = some (data ++ rest)) E s := by
  have hdata₀ : s.fs.get? path = some (data ++ []) := by rw [List.append_nil, hdata]
  induction body generalizing total data rest s with
  | nil =>
      rw [hcarries.nil]
      exact Fallible.ensures_pure.mpr ⟨by simp, hdata₀⟩
  | cons r body ih =>
      match r with
      | .error e => exact Fallible.ensures_throw.mpr (hE [] _ s List.nil_prefix hdata₀)
      | .ok [] => exact absurd rfl hcarries.cons.1
      | .ok (b :: bs) =>
          obtain ⟨-, rest', hrest, hcarries'⟩ := hcarries.cons
          have hshift : ∀ {more}, more <+: rest' → (b :: bs) ++ more <+: rest := by
            intro more hmore
            rw [hrest]
            exact (List.prefix_append_right_inj _).mpr hmore
          unfold streamBody
          refine Fallible.ensures_ite.mpr ⟨fun _ => ?_, fun _ => ?_⟩
          · exact Fallible.ensures_bind.mpr (Fallible.ensures_mono
              (hatLimit [] s List.nil_prefix hdata₀)
              (fun _ _ h => Fallible.ensures_throw.mpr (h _)) fun _ _ h => h)
          refine Fallible.ensures_bind.mpr (Fallible.ensures_bind.mpr
            (Fallible.ensures_perform.mpr ⟨hP _ s, ?_⟩))
          rcases env.writeAll_cases s.trace.length hdata (b :: bs) with ⟨e, k, he⟩ | hok
          · simp only [FetchEnv.handler, he]
            refine Fallible.ensures_throw.mpr
              (hE ((b :: bs).take k) _ _ ?_ (FileSystem.get?_write_self _ _ _))
            rw [hrest]
            exact (List.take_prefix k _).trans (List.prefix_append _ _)
          · have hafter : (s.fs.write path (data ++ (b :: bs))).get? path =
                some (data ++ (b :: bs)) := FileSystem.get?_write_self _ _ _
            simp only [FetchEnv.handler, hok]
            refine Fallible.ensures_pure.mpr (Fallible.ensures_mono
              (ih (total + (b :: bs).length) hcarries' hafter
                (fun more e s hmore hs => hE ((b :: bs) ++ more) e s (hshift hmore) ?_)
                (fun more s hmore hs => hatLimit ((b :: bs) ++ more) s (hshift hmore) ?_) ?_)
              (fun total' s' h => ⟨?_, ?_⟩) fun _ _ h => h)
            · rw [hs, List.append_assoc]
            · rw [hs, List.append_assoc]
            · rw [List.append_nil, hafter]
            · rw [h.1, hrest, List.length_append, Nat.add_assoc]
            · rw [h.2, hrest, List.append_assoc]

end Bodies

/-! ## Attempts -/

/-- The header that asks for what follows the bytes of a partial file. -/
def rangeAfter : Option Bytes → Option String
  | some (b :: bs) => some (rangeFrom (b :: bs).length)
  | _ => none

theorem rangeAfter_of_length {data : Bytes} {offset : Nat} (hpos : 0 < offset)
    (hlength : data.length = offset) : rangeAfter (some data) = some (rangeFrom offset) := by
  cases data with
  | nil =>
      rw [List.length_nil] at hlength
      omega
  | cons b bs => rw [rangeAfter, hlength]

theorem rangeFrom_injective {m n : Nat} (h : rangeFrom m = rangeFrom n) : m = n := by
  have hdigits : toString m = toString n := by
    have hchars := congrArg String.toList h
    simp only [rangeFrom, String.toList_append, List.append_cancel_left_eq,
      List.append_cancel_right_eq] at hchars
    exact String.toList_inj.mp hchars
  exact Nat.repr_injective hdigits

/-- The range after the bytes of a file tells how many there are. -/
theorem length_of_rangeAfter {data : Option Bytes} {offset : Nat}
    (h : rangeAfter data = some (rangeFrom offset)) : data.map List.length = some offset := by
  match data, h with
  | some (b :: bs), h => exact congrArg some (rangeFrom_injective (Option.some.inj h))

/-- There is nothing to resume from. -/
theorem rangeAfter_of_none {data : Option Bytes}
    (h : ∀ offset, data.map List.length ≠ some (offset + 1)) : rangeAfter data = none := by
  match data with
  | none => rfl
  | some [] => rfl
  | some (b :: bs) => exact absurd rfl (h bs.length)

/-- The size of a partial file is found, if its two calls do not fail. -/
theorem DownloadManager.findPartial_found {env : FetchEnv} (tracker : DownloadTracker) {p : Path}
    {s : Session} (hexists : env.fault s.trace.length = none)
    (hmetadata : env.fault (s.trace.length + 1) = none)
    (hdir : s.fs.get? p = none → s.fs.isDir p = false) :
    Fallible.Ensures env.handler Fallible.AnyCall (findPartial tracker p)
      (fun found s' => found.2 = (s.fs.get? p).map List.length ∧ s'.fs = s.fs)
      (fun _ _ => False) s := by
  have hthere : (env.handler (.pathExists p) s).1 = (s.fs.get? p).isSome := by
    cases hdata : s.fs.get? p with
    | none =>
        simp [FetchEnv.handler, FetchEnv.outcome, hexists, FileSystem.pathExists, hdata, hdir hdata]
    | some data =>
        simp [FetchEnv.handler, FetchEnv.outcome, hexists, FileSystem.pathExists, hdata]
  unfold findPartial
  refine Fallible.ensures_bind.mpr (Fallible.ensures_perform.mpr ⟨trivial, ?_⟩)
  rw [hthere]
  cases hdata : s.fs.get? p with
  | none => exact Fallible.ensures_pure.mpr ⟨rfl, rfl⟩
  | some data =>
      refine Fallible.ensures_bind.mpr (Fallible.ensures_perform.mpr ⟨trivial, ?_⟩)
      have hsize : (env.handler (.metadata p) (env.handler (.pathExists p) s).2).1 =
          .ok data.length := by
        simp [FetchEnv.handler, FetchEnv.outcome, FetchEnv.faulty, hmetadata, hdata]
      rw [hsize]
      refine Fallible.ensures_pure.mpr ⟨rfl, ?_⟩
      exact FetchEnv.outcome_of_isRead rfl

namespace DownloadCall

variable {c : DownloadCall} {s s₁ s₂ : Session} {remote : Bytes} {existing : Option Nat}

/-- The partial file, if there is one, is a prefix of the remote file. -/
def PrefixOf (c : DownloadCall) (remote : Bytes) (s : Session) : Prop :=
  ∀ data, s.fs.get? c.partialPath = some data → data <+: remote

/-- A request asks for what follows the bytes of the partial file. -/
def AsksForRest (c : DownloadCall) (call : FetchCall) (s : Session) : Prop :=
  ∀ r, call = .request r → r.range = rangeAfter (s.fs.get? c.partialPath)

theorem PrefixOf.congr {s' : Session} (h : c.PrefixOf remote s)
    (hkeeps : KeepsFile c.partialPath s s') : c.PrefixOf remote s' := by
  intro data hdata
  rw [hkeeps] at hdata
  exact h data hdata

theorem PrefixOf.of_get? {data : Bytes} (hdata : s.fs.get? c.partialPath = some data)
    (hpre : data <+: remote) : c.PrefixOf remote s := by
  intro data' hdata'
  rw [hdata] at hdata'
  cases hdata'
  exact hpre

theorem asksForRest_of_ne {call : FetchCall} (h : ∀ r, call ≠ .request r) :
    c.AsksForRest call s := fun r hr => absurd hr (h r)

/-- The remote file was delivered. -/
structure Complete (c : DownloadCall) (remote : Bytes) (result : DownloadResult)
    (s : Session) : Prop where
  size : result.actualSize = remote.length
  data : s.fs.get? c.destination = some remote

/-- A file that is written whole is the remote file. -/
theorem fetch_serves (hserves : ∀ n r, r.url = c.url → r.range = none →
      Interrupted (c.env.server n r) ∨ ∃ response, c.env.server n r = .ok response ∧
        response.status = 200 ∧ Carries remote response.body)
    (expectedSize : Option Nat) (s : Session) :
    Fallible.Ensures c.env.handler Fallible.AnyCall
      (c.manager.fetcher.download c.env.hash c.url c.destination expectedSize none)
      (fun result s' => c.Complete remote result s') (fun _ _ => True) s := by
  unfold PackageFetcher.download
  refine Fallible.ensures_seq (fun _ s₁ => ?_) fun _ _ => trivial
  refine Fallible.ensures_seq (fun _ s₂ => ?_) fun _ _ => trivial
  refine Fallible.ensures_bind.mpr ?_
  unfold PackageFetcher.downloadToFile
  refine Fallible.ensures_bind.mpr (Fallible.ensures_bind.mpr (Fallible.ensures_perform.mpr
    ⟨trivial, Fallible.ensures_orFail.mpr ⟨fun response hresponse => ?_, fun _ _ => trivial⟩⟩))
  have hcarries : Carries remote response.body := by
    generalize hr : (⟨c.url, none, _⟩ : HttpRequest) = r at hresponse
    have hanswer : c.env.server s₂.trace.length r = .ok response := hresponse
    rcases hserves s₂.trace.length r (by rw [← hr]) (by rw [← hr]) with
      hbroken | ⟨response', hok, -, hcarries⟩
    · exact (hbroken.not_ok hanswer).elim
    · rw [hok] at hanswer
      cases hanswer
      exact hcarries
  refine Fallible.ensures_seq (fun _ s₃ => ?_) fun _ _ => trivial
  refine Fallible.ensures_bind.mpr (Fallible.ensures_bind.mpr (Fallible.ensures_perform.mpr
    ⟨trivial, Fallible.ensures_orFail.mpr ⟨fun _ hcreated => ?_, fun _ _ => trivial⟩⟩))
  have hempty : (c.env.handler (.createFile c.tmpPath) s₃).2.fs.get? c.tmpPath = some [] := by
    rcases FetchEnv.createFile_cases c.env s₃.trace.length s₃.fs c.tmpPath with
      ⟨e, he⟩ | ⟨-, -, hok⟩
    · simp only [FetchEnv.handler] at hcreated
      rw [← tmpPath, he] at hcreated
      cases hcreated
    · simp only [FetchEnv.handler, hok]
      exact FileSystem.get?_write_self _ _ _
  refine Fallible.ensures_bind.mpr (Fallible.ensures_mono (streamBody_carries
    response.body 0 hcarries hempty (fun _ _ => trivial) (fun _ _ _ _ _ => trivial)
    fun _ _ _ _ => Fallible.ensures_mono (Fallible.ensures_any _) (fun _ _ _ _ => trivial)
      fun _ _ _ => trivial) (fun total s₄ h₄ => ?_) fun _ _ _ => trivial)
  obtain ⟨htotal, hwritten⟩ := h₄
  refine Fallible.ensures_bind.mpr (Fallible.ensures_bind.mpr (Fallible.ensures_perform.mpr
    ⟨trivial, Fallible.ensures_orFail.mpr ⟨fun _ _ => ?_, fun _ _ => trivial⟩⟩))
  have hflushed : (c.env.handler (.flush c.tmpPath) s₄).2.fs.get? c.tmpPath = some remote := by
    have hkept : (c.env.handler (.flush c.tmpPath) s₄).2.fs.get? c.tmpPath =
        s₄.fs.get? c.tmpPath := FetchEnv.outcome_get? (by simp [FetchCall.changes])
    exact hkept.trans hwritten
  refine Fallible.ensures_pure.mpr (Fallible.ensures_bind.mpr (Fallible.ensures_pure.mpr ?_))
  refine Fallible.ensures_bind.mpr (Fallible.ensures_bind.mpr (Fallible.ensures_perform.mpr
    ⟨trivial, Fallible.ensures_orFail.mpr ⟨fun _ hmoved => ?_, fun _ _ => trivial⟩⟩))
  refine Fallible.ensures_pure.mpr ⟨?_, (FetchEnv.rename_ok hmoved).trans hflushed⟩
  rw [htotal, Nat.zero_add]

/-- A fresh download is about its temporary file and the destination. -/
theorem fetch_within (c : DownloadCall) (expectedSize : Option Nat) :
    MakesWithin (fun r => r.range = none) [c.tmpPath, c.destination] c.destination.parent
      (c.manager.fetcher.download c.env.hash c.url c.destination expectedSize none)
      fun _ => True :=
  Fallible.makes_mono (c.manager.fetcher.download_within c.env.hash expectedSize none
    (fun _ => rfl) List.mem_cons_self (List.mem_cons_of_mem _ (List.mem_singleton_self _)) rfl)
    (fun _ h => h) fun _ _ => trivial

theorem Separate.part_ne_files (h : c.Separate) :
    ∀ q ∈ [c.tmpPath, c.destination], c.partialPath.resolve ≠ q.resolve := by
  intro q hq
  rcases List.mem_cons.mp hq with rfl | hq
  · exact h.tmp_ne_part.symm
  · rw [List.mem_singleton.mp hq]
    exact h.part_ne.symm

/-- A fresh download leaves the partial file alone. -/
theorem fetch_keepsFile (hsep : c.Separate) (expectedSize : Option Nat) :
    Fallible.Keeps c.env.handler (KeepsFile c.partialPath)
      (c.manager.fetcher.download c.env.hash c.url c.destination expectedSize none) :=
  KeepsFile.of_within (c.fetch_within expectedSize) hsep.part_ne_files

/-- A fresh download asks for the whole file, and leaves the partial file alone. -/
theorem fetch_keepsPartial (hsep : c.Separate) (expectedSize : Option Nat) (s : Session)
    (hnone : rangeAfter (s.fs.get? c.partialPath) = none) :
    Fallible.Ensures c.env.handler c.AsksForRest
      (c.manager.fetcher.download c.env.hash c.url c.destination expectedSize none)
      (fun _ s' => KeepsFile c.partialPath s s') (fun _ s' => KeepsFile c.partialPath s s') s := by
  have hkept : ∀ call s', call.Within (fun r => r.range = none) [c.tmpPath, c.destination]
      c.destination.parent → KeepsFile c.partialPath s' (c.env.handler call s').2 :=
    fun call s' hcall => FetchEnv.outcome_get? fun q hq =>
      hsep.part_ne_files q (hcall.mem_of_mem_changes q hq)
  refine ⟨?_, ((fetch_keepsFile hsep expectedSize).ensures s).2⟩
  have hcalls := (c.fetch_within expectedSize).along c.env.handler s
  have hbefore := (CallProg.along_invariant (J := KeepsFile c.partialPath s)
    (CallProg.along_mono hcalls fun call s' hcall h => h.trans' (hkept call s' hcall)) rfl).1
  refine CallProg.along_mp (CallProg.along_mono hcalls fun call s' hcall hs' r hr => ?_) hbefore
  rw [hs', hnone]
  rw [hr] at hcall
  exact hcall

/-- A resumed download completes the partial file, up to an interruption. -/
theorem resume_serves (hserves : Serves c.env c.url remote) (hsep : c.Separate) {offset : Nat}
    {data : Bytes} (hpos : 0 < offset) (hdata : s.fs.get? c.partialPath = some data)
    (hlength : data.length = offset) (hpre : data <+: remote) :
    Fallible.Ensures c.env.handler c.AsksForRest
      (c.manager.resumeDownload c.env c.url c.partialPath offset c.destination)
      (fun result s' => c.Complete remote result s' ∧ c.PrefixOf remote s')
      (fun _ s' => c.PrefixOf remote s') s := by
  obtain ⟨rest, hrest⟩ := hpre
  have hdrop : remote.drop offset = rest := by
    rw [← hrest, ← hlength, List.drop_left]
  have hkept : ∀ {s' : Session}, s'.fs.get? c.partialPath = some data → c.PrefixOf remote s' :=
    fun h => PrefixOf.of_get? h ⟨rest, hrest⟩
  unfold DownloadManager.resumeDownload
  refine Fallible.ensures_bind.mpr (Fallible.ensures_bind.mpr (Fallible.ensures_perform.mpr
    ⟨?_, Fallible.ensures_orFail.mpr ⟨fun response hresponse => ?_, fun e _ => ?_⟩⟩))
  · intro r hr
    cases hr
    rw [hdata, rangeAfter_of_length hpos hlength]
    rfl
  · have hanswer : c.env.server s.trace.length ⟨c.url, some (rangeFrom offset), 0⟩ =
        .ok response := hresponse
    obtain ⟨hstatus, hcarries⟩ : response.status = 206 ∧ Carries rest response.body := by
      rcases hserves.part s.trace.length ⟨c.url, some (rangeFrom offset), 0⟩ offset rfl hpos rfl
        with hbroken | ⟨-, hrefused⟩ | ⟨-, response', hok, hstatus, -, hcarries⟩
      · exact (hbroken.not_ok hanswer).elim
      · rw [hrefused] at hanswer
        cases hanswer
      · rw [hok] at hanswer
        cases hanswer
        rw [hdrop] at hcarries
        exact ⟨hstatus, hcarries⟩
    generalize hs₁ : (c.env.handler (.request _) s).2 = s₁
    have hdata₁ : s₁.fs.get? c.partialPath = some data := by
      rw [← hs₁]
      exact hdata
    refine Fallible.ensures_ite.mpr ⟨fun _ => ?_, fun hno => absurd hstatus hno⟩
    refine Fallible.ensures_bind.mpr (Fallible.ensures_orFail.mpr
      ⟨fun _ _ => ?_, fun _ _ => hkept hdata₁⟩)
    refine Fallible.ensures_bind.mpr (Fallible.ensures_orFail.mpr
      ⟨fun _ _ => ?_, fun _ _ => hkept hdata₁⟩)
    have hopened : (c.env.handler (.openAppend c.partialPath) s₁).2.fs.get? c.partialPath =
        some data := (FetchEnv.outcome_get? (by simp [FetchCall.changes])).trans hdata₁
    refine Fallible.ensures_bind.mpr (Fallible.ensures_bind.mpr (Fallible.ensures_perform.mpr
      ⟨asksForRest_of_ne (by simp), Fallible.ensures_orFail.mpr
        ⟨fun _ _ => ?_, fun _ _ => hkept hopened⟩⟩))
    have hgrown : ∀ {more : Bytes} {s' : Session}, more <+: rest →
        s'.fs.get? c.partialPath = some (data ++ more) → c.PrefixOf remote s' := by
      intro more s' hmore hs'
      refine PrefixOf.of_get? hs' ?_
      rw [← hrest]
      exact (List.prefix_append_right_inj _).mpr hmore
    refine Fallible.ensures_bind.mpr (Fallible.ensures_mono (streamBody_carries
      response.body offset hcarries hopened (fun _ _ => asksForRest_of_ne (by simp))
      (fun _ _ _ hmore hs' => hgrown hmore hs') fun _ _ hmore hs' =>
        Fallible.ensures_pure.mpr fun _ => hgrown hmore hs')
      (fun total s₂ h₂ => ?_) fun _ _ h => h)
    obtain ⟨htotal, hwritten⟩ := h₂
    have hflushed : (c.env.handler (.flush c.partialPath) s₂).2.fs.get? c.partialPath =
        some (data ++ rest) :=
      (FetchEnv.outcome_get? (by simp [FetchCall.changes])).trans hwritten
    refine Fallible.ensures_bind.mpr (Fallible.ensures_bind.mpr (Fallible.ensures_perform.mpr
      ⟨asksForRest_of_ne (by simp), Fallible.ensures_orFail.mpr
        ⟨fun _ _ => ?_, fun _ _ => hgrown (List.prefix_refl rest) hflushed⟩⟩))
    refine Fallible.ensures_bind.mpr (Fallible.ensures_bind.mpr (Fallible.ensures_perform.mpr
      ⟨asksForRest_of_ne (by simp), ?_⟩))
    generalize (c.env.handler (.flush c.partialPath) s₂).2 = s₃ at hflushed ⊢
    rcases FetchEnv.rename_cases c.env s₃.trace.length s₃.fs c.partialPath c.destination with
      ⟨e, he⟩ | ⟨data', hdata', hok⟩
    · simp only [FetchEnv.handler, he]
      exact Fallible.ensures_throw.mpr (hgrown (List.prefix_refl rest) hflushed)
    · rw [hflushed, hrest] at hdata'
      cases hdata'
      simp only [FetchEnv.handler, hok, if_neg hsep.part_ne.symm]
      refine Fallible.ensures_pure.mpr (Fallible.ensures_pure.mpr ⟨⟨?_, ?_⟩, ?_⟩)
      · rw [htotal, ← hrest, List.length_append, hlength]
      · exact FileSystem.get?_write_self _ _ _
      · intro data' hdata'
        have hgone : ((s₃.fs.remove c.partialPath).write c.destination remote).get?
            c.partialPath = none := by
          rw [FileSystem.get?_write_of_ne _ _ hsep.part_ne.symm, FileSystem.get?_remove_self]
        rw [hgone] at hdata'
        cases hdata'
  · exact hkept hdata

/-- An attempt asks for the rest of the partial file and keeps it a prefix, if the partial file
has the size that was found. -/
theorem attempt_serves (hserves : Serves c.env c.url remote) (hsep : c.Separate)
    (hpre : c.PrefixOf remote s)
    (hsize : (s.fs.get? c.partialPath).map List.length = existing) :
    Fallible.Ensures c.env.handler c.AsksForRest (c.attempt existing)
      (fun result s' => c.Complete remote result s' ∧ c.PrefixOf remote s')
      (fun _ s' => c.PrefixOf remote s') s := by
  unfold attempt DownloadManager.performDownloadWithResume
  split
  · rename_i offset
    obtain ⟨data, hdata, hlength⟩ := Option.map_eq_some_iff.mp hsize
    exact resume_serves hserves hsep (Nat.succ_pos offset) hdata hlength (hpre data hdata)
  · rename_i hnone
    have hrange : rangeAfter (s.fs.get? c.partialPath) = none := by
      refine rangeAfter_of_none fun offset hoffset => ?_
      exact hnone offset (hsize.symm.trans hoffset)
    refine Fallible.ensures_mono (Fallible.ensures_and
      (fetch_keepsPartial hsep _ s hrange) (fetch_serves hserves.whole _ s))
      (fun result s' h => ⟨h.2, hpre.congr h.1⟩) fun _ s' h => hpre.congr h.1

/-! ## Calls -/

/-- A call begins with the size of the partial file, if nothing fails when it is looked
for. -/
theorem prepared_found {tracker : DownloadTracker}
    (hlookup : ∀ n, s.trace.length + 2 ≤ n → n ≤ s.trace.length + 3 → c.env.fault n = none)
    (hdir : s.fs.isDir c.partialPath = false)
    (h : c.prepared s = (.ok (tracker, existing), s₁)) :
    existing = (s.fs.get? c.partialPath).map List.length := by
  have hprepare : Fallible.Ensures c.env.handler Fallible.AnyCall
      (c.manager.prepare c.env c.url c.destination c.digest c.expectedSize c.sourceId c.subject)
      (fun found _ => found.2 = (s.fs.get? c.partialPath).map List.length)
      (fun _ _ => True) s := by
    unfold DownloadManager.prepare
    refine Fallible.ensures_bind.mpr (Fallible.ensures_mono
      (DownloadManager.auditDownload_ensures c.env allowsAudit_any _ _ _ _ _ s)
      (fun _ s₁ haudited => ?_) fun _ _ h => h.elim)
    have hlength := haudited.length
    have hfirst : c.env.fault s₁.trace.length = none := hlookup _ (by omega) (by omega)
    have hsecond : c.env.fault (s₁.trace.length + 1) = none := hlookup _ (by omega) (by omega)
    have hpartial := DownloadManager.findPartial_found
      (DownloadTracker.new c.digest c.url c.destination c.expectedSize) (p := c.partialPath)
      hfirst hsecond (fun _ => by rw [haudited.1]; exact hdir)
    rw [haudited.1] at hpartial
    refine Fallible.ensures_bind.mpr (Fallible.ensures_mono hpartial (fun found s₂ hfound =>
      Fallible.ensures_seq (fun _ s₃ => Fallible.ensures_pure.mpr hfound.1) fun _ _ => trivial)
      fun _ _ h => h.elim)
  exact hprepare.of_ok h

/-- The digest and the size that a call expects are those of the file `remote`. -/
structure Expects (c : DownloadCall) (remote : Bytes) : Prop where
  digest : ∃ inner, HashAlgorithm.ofName c.digest.algorithm = some inner ∧
    c.digest.matches (c.env.hash.digest inner remote) = true
  size : ∀ n, c.expectedSize = some n → n = remote.length

/-- A delivered remote file is accepted, if it can be read. -/
theorem run_of_complete {result : DownloadResult} (hsep : c.Separate) (hexpects : c.Expects remote)
    (hmem : (existing, s₁) ∈ c.starts s) (hrun : c.attemptRun existing s₁ = (.ok result, s₂))
    (hreadable : ∀ n, s₂.trace.length + 1 ≤ n → n ≤ s₂.trace.length + 2 → c.env.fault n = none)
    (hcomplete : c.Complete remote result s₂) :
    (c.run s).1 = .ok c.destination ∧ c.Accepted remote c.destination (c.run s).2 := by
  obtain ⟨inner, hinner, hmatches⟩ := hexpects.digest
  have hhash : c.env.hashOf c.digest.algorithm remote (s₂.trace.length + 1) =
      some (c.env.hash.digest inner remote) := by
    simp [FetchEnv.hashOf, hinner, hreadable]
  have hright : c.expectedSize.any (· ≠ result.actualSize) = false := by
    rw [hcomplete.size]
    cases hexpected : c.expectedSize with
    | none => rfl
    | some n => simp [hexpects.size n hexpected]
  have haccepted : c.verdict result remote s₂.trace.length = .accepted := by
    unfold verdict
    rw [hhash]
    simp only [hmatches, hright, Bool.not_false, Bool.and_true, if_true]
  rcases run_of_delivered hsep hmem hrun hcomplete.data with ⟨-, hok⟩ | ⟨hrefused, -⟩
  · exact hok
  · exact absurd haccepted hrefused

/-- A call that downloads the file `remote`, from a server that serves it, where the partial
file is a prefix of it.  Files may fail to be written; but the partial file is found, and a
delivered file can be read. -/
structure Resumes (c : DownloadCall) (remote : Bytes) (s : Session) : Prop where
  serves : Serves c.env c.url remote
  separate : c.Separate
  noDir : s.fs.isDir c.partialPath = false
  prefixOf : c.PrefixOf remote s
  expects : c.Expects remote
  found : ∀ n, s.trace.length + 2 ≤ n → n ≤ s.trace.length + 3 → c.env.fault n = none
  readable : ∀ existing s₁ result s₂, (existing, s₁) ∈ c.starts s →
    c.attemptRun existing s₁ = (.ok result, s₂) → ∀ n, s₂.trace.length + 1 ≤ n →
      n ≤ s₂.trace.length + 2 → c.env.fault n = none

/-- Every attempt asks for what follows the partial file and keeps it a prefix of the remote
file, and an attempt that runs to completion ends the call. -/
structure Continues (c : DownloadCall) (remote : Bytes) (s : Session) : Prop where
  keeps : ∀ existing s₁, (existing, s₁) ∈ c.starts s →
    c.PrefixOf remote s₁ ∧ c.PrefixOf remote (c.attemptRun existing s₁).2
  asks : ∀ existing s₁, (existing, s₁) ∈ c.starts s →
    (c.attempt existing).run.Along c.env.handler c.AsksForRest s₁
  returns : ∀ existing s₁ result s₂, (existing, s₁) ∈ c.starts s →
    c.attemptRun existing s₁ = (.ok result, s₂) → ∃ p, (c.run s).1 = .ok p

/-- Every attempt begins with a partial file as long as it was at the beginning of the call. -/
def Steady (c : DownloadCall) (s : Session) : Prop :=
  ∀ existing s₁, (existing, s₁) ∈ c.starts s →
    (s₁.fs.get? c.partialPath).map List.length = (s.fs.get? c.partialPath).map List.length

namespace Resumes

variable (h : c.Resumes remote s)
include h

theorem found_of_mem_starts (hmem : (existing, s₁) ∈ c.starts s) :
    existing = (s.fs.get? c.partialPath).map List.length := by
  obtain ⟨tracker, s₀, hbegin, -⟩ := prepared_of_mem_starts hmem
  exact prepared_found h.found h.noDir hbegin

/-- While no attempt begins with a longer partial file, it is a prefix whenever one begins. -/
theorem prefix_of_steady (hsteady : c.Steady s) :
    ∀ existing s₁, (existing, s₁) ∈ c.starts s → c.PrefixOf remote s₁ := by
  refine starts_keep (fun tracker existing s₁ hbegin => ?_)
    fun existing s₁ e s₂ s₃ hmem hs₁ hrun haudited => ?_
  · have hbegun := prepared_keepsFile (c := c) (s := s) c.partialPath
    rw [hbegin] at hbegun
    exact h.prefixOf.congr hbegun
  · have hsize := (hsteady existing s₁ hmem).trans (h.found_of_mem_starts hmem).symm
    have hattempt := attempt_serves h.serves h.separate hs₁ hsize
    exact PrefixOf.congr (hattempt.of_error hrun) (KeepsFile.audited haudited)

/-- A call without a partial file to resume from leaves it alone. -/
theorem keepsPartial_of_fresh
    (hfresh : ∀ offset, (s.fs.get? c.partialPath).map List.length ≠ some (offset + 1)) :
    ∀ existing s₁, (existing, s₁) ∈ c.starts s → KeepsFile c.partialPath s s₁ := by
  refine starts_keep (fun tracker existing s₁ hbegin => ?_)
    fun existing s₁ e s₂ s₃ hmem hs₁ hrun haudited => ?_
  · have hbegun := prepared_keepsFile (c := c) (s := s) c.partialPath
    rwa [hbegin] at hbegun
  · have hsize := h.found_of_mem_starts hmem
    have hrange : rangeAfter (s₁.fs.get? c.partialPath) = none := by
      rw [hs₁]
      exact rangeAfter_of_none hfresh
    have hattempt : Fallible.Ensures c.env.handler c.AsksForRest (c.attempt existing)
        (fun _ s' => KeepsFile c.partialPath s₁ s') (fun _ s' => KeepsFile c.partialPath s₁ s')
        s₁ := by
      unfold attempt DownloadManager.performDownloadWithResume
      split
      · exact absurd hsize.symm (hfresh _)
      · exact fetch_keepsPartial h.separate _ s₁ hrange
    exact (hs₁.trans' (hattempt.of_error hrun)).trans' (KeepsFile.audited haudited)

/-- The attempts of a call continue one another exactly if none begins with a partial file
that has grown. -/
theorem continues_iff : c.Continues remote s ↔ c.Steady s := by
  constructor
  · intro hcontinues existing s₁ hmem
    have hfound := h.found_of_mem_starts hmem
    by_cases hresumed : ∃ offset, existing = some (offset + 1)
    · obtain ⟨offset, rfl⟩ := hresumed
      -- The first call of the attempt is its request.
      have hfirst : c.AsksForRest (.request ⟨c.url, some (rangeFrom (offset + 1)), 0⟩) s₁ :=
        (hcontinues.asks _ s₁ hmem).1
      rw [← hfound]
      exact length_of_rangeAfter (hfirst _ rfl).symm
    · have hkept := h.keepsPartial_of_fresh
        (fun offset hoffset => hresumed ⟨offset, hfound.trans hoffset⟩) existing s₁ hmem
      rw [hkept]
  · intro hsteady
    have hattempt : ∀ existing s₁, (existing, s₁) ∈ c.starts s → Fallible.Ensures c.env.handler
        c.AsksForRest (c.attempt existing)
        (fun result s' => c.Complete remote result s' ∧ c.PrefixOf remote s')
        (fun _ s' => c.PrefixOf remote s') s₁ := fun existing s₁ hmem =>
      attempt_serves h.serves h.separate (h.prefix_of_steady hsteady existing s₁ hmem)
        ((hsteady existing s₁ hmem).trans (h.found_of_mem_starts hmem).symm)
    refine ⟨fun existing s₁ hmem => ⟨h.prefix_of_steady hsteady existing s₁ hmem, ?_⟩,
      fun existing s₁ hmem => (hattempt existing s₁ hmem).1,
      fun existing s₁ result s₂ hmem hrun => ?_⟩
    · have hends := hattempt existing s₁ hmem
      rcases hrun : c.attemptRun existing s₁ with ⟨e | result, s₂⟩
      · exact hends.of_error hrun
      · exact (hends.of_ok hrun).2
    · have hcomplete := ((hattempt existing s₁ hmem).of_ok hrun).1
      exact ⟨c.destination, (run_of_complete h.separate h.expects hmem hrun
        (h.readable existing s₁ result s₂ hmem hrun) hcomplete).1⟩

end Resumes

end DownloadCall

/-! ## A server of one file -/

/-- A server of the file `remote` that is overloaded up to call number `busy`.  A connection
that is `cut` breaks after everything is sent. -/
def rangeServer (remote : Bytes) (busy : Nat) (cut : Bool) (n : Nat) (r : HttpRequest) :
    Except HttpError HttpResponse :=
  let bodyOf (data : Bytes) : List (Except FileError Bytes) :=
    data.map (fun b => .ok [b]) ++ if cut then [.error "connection reset"] else []
  if n < busy then .error (.status 503)
  else match r.range with
    | none => .ok ⟨200, r.url, some (toString remote.length), none, none, bodyOf remote⟩
    | some range =>
      match (List.range remote.length).find? (fun offset => rangeFrom offset = range) with
      | none => .error (.status 416)
      | some offset => .ok ⟨206, r.url, some (toString (remote.length - offset)), none,
          some ("bytes " ++ toString offset ++ "-" ++ toString (remote.length - 1) ++ "/" ++
            toString remote.length), bodyOf (remote.drop offset)⟩

theorem carries_singletons (data : Bytes) (cut : Bool) :
    Carries data (data.map (fun b => (.ok [b] : Except FileError Bytes)) ++
      if cut then [.error "connection reset"] else []) := by
  have hflatten : (data.map fun b => [b]).flatten = data := by
    induction data with
    | nil => rfl
    | cons b bs ih => simp [ih]
  refine ⟨data.map fun b => [b], ?_, ?_⟩
  · intro chunk hchunk
    obtain ⟨b, -, rfl⟩ := List.mem_map.mp hchunk
    exact List.cons_ne_nil _ _
  · cases cut with
    | false => exact Or.inl ⟨by simp, hflatten⟩
    | true =>
        refine Or.inr ⟨"connection reset", [], by simp, ?_⟩
        rw [hflatten]

/-- The server serves its file. -/
theorem rangeServer_serves (remote : Bytes) (busy : Nat) (cut : Bool) (url : String) :
    Serves (.serving (rangeServer remote busy cut)) url remote where
  whole n r _ hrange := by
    by_cases hbusy : n < busy
    · exact Or.inl (Or.inr ⟨503, by decide, if_pos hbusy⟩)
    · simp only [FetchEnv.serving, rangeServer, if_neg hbusy, hrange]
      exact Or.inr ⟨_, rfl, rfl, carries_singletons remote cut⟩
  part n r offset _ _ hrange := by
    by_cases hbusy : n < busy
    · exact Or.inl (Or.inr ⟨503, by decide, if_pos hbusy⟩)
    refine Or.inr ?_
    simp only [FetchEnv.serving, rangeServer, if_neg hbusy, hrange]
    cases hfind : (List.range remote.length).find?
        (fun start => rangeFrom start = rangeFrom offset) with
    | none =>
        refine Or.inl ⟨?_, rfl⟩
        by_contra hshort
        have hnone := List.find?_eq_none.mp hfind offset (List.mem_range.mpr (by omega))
        simp at hnone
    | some start =>
        have hstart : rangeFrom start = rangeFrom offset := by
          simpa using List.find?_some hfind
        have hmem := List.mem_range.mp (List.mem_of_find?_eq_some hfind)
        rw [rangeFrom_injective hstart] at hmem ⊢
        exact Or.inr ⟨hmem, _, rfl, rfl, rfl, carries_singletons _ cut⟩

/-- A machine with the first byte of `abc` in the partial file. -/
def abcStarted : Session := ⟨abcFiles (utf8 "a"), []⟩

theorem abcCall_expects (server : Nat → HttpRequest → Except HttpError HttpResponse) :
    (abcCall server).Expects (utf8 "abc") where
  digest := ⟨.sha256, rfl, by
    show PackageDigest.matches ⟨"sha256", abcHash⟩
      (if utf8 "abc" = utf8 "abc" then abcHash else []) = true
    decide⟩
  size n hn := by
    rw [← Option.some.inj hn]
    decide

theorem abcCall_resumes (busy : Nat) (cut : Bool) :
    (abcCall (rangeServer (utf8 "abc") busy cut)).Resumes (utf8 "abc") abcStarted where
  serves := rangeServer_serves _ _ _ _
  separate := abcCall_separate _
  noDir := by
    show abcStarted.fs.isDir
      (DownloadManager.cached.resumeManager.partialPath ⟨"sha256", abcHash⟩) = false
    decide
  prefixOf := by
    intro data hdata
    have hthere : abcStarted.fs.get? (DownloadManager.cached.resumeManager.partialPath
      ⟨"sha256", abcHash⟩) = some (utf8 "a") := FileSystem.get?_write_self _ _ _
    have hsame : some (utf8 "a") = some data := hthere.symm.trans hdata
    rw [← Option.some.inj hsame]
    decide
  expects := abcCall_expects _
  found _ _ _ := rfl
  readable _ _ _ _ _ _ _ _ _ := rfl

/-- A download of `abc` that is resumed, and tried again while the server is overloaded. -/
theorem DownloadCall.overloaded_continues :
    (abcCall (rangeServer (utf8 "abc") 6 false)).Continues (utf8 "abc") abcStarted := by
  refine (Resumes.continues_iff (abcCall_resumes 6 false)).mpr fun existing s₁ hmem => ?_
  have hstarts : ((abcCall (rangeServer (utf8 "abc") 6 false)).starts abcStarted).all
      (fun start => (start.2.fs.get? (abcCall (rangeServer (utf8 "abc") 6 false)).partialPath).map
        List.length = (abcStarted.fs.get?
          (abcCall (rangeServer (utf8 "abc") 6 false)).partialPath).map List.length) = true := by
    decide +kernel
  simpa using List.all_eq_true.mp hstarts _ hmem

/-- After a connection that broke, the same range is asked for and appended again. -/
theorem DownloadCall.retry_repeats_range :
    ¬ ∀ (c : DownloadCall) (remote : Bytes) (s : Session), c.Resumes remote s →
      c.Continues remote s := by
  intro h
  have hcontinues := h _ _ _ (abcCall_resumes 0 true)
  have hgrown : ((abcCall (rangeServer (utf8 "abc") 0 true)).starts abcStarted).any (fun start =>
      !((start.2.fs.get? (abcCall (rangeServer (utf8 "abc") 0 true)).partialPath).getD
        []).isPrefixOf (utf8 "abc")) = true := by
    decide
  obtain ⟨⟨existing, s₁⟩, hmem, hlong⟩ := List.any_eq_true.mp hgrown
  have hpre := (hcontinues.keeps existing s₁ hmem).1
  cases hdata : s₁.fs.get? (abcCall (rangeServer (utf8 "abc") 0 true)).partialPath with
  | none => simp [hdata] at hlong
  | some data =>
      have hkept := List.isPrefixOf_iff_prefix.mpr (hpre data hdata)
      simp [hdata, hkept] at hlong

end MissionOs.Driverd
