import MissionOs.Driverd.DownloadCall

/-!
# The addresses of a download

Which addresses a download sends requests to, and from where it takes bytes.  A fresh
download checks its address, and the address that the last redirect led to; a resumed one
checks neither.  So the policy is kept exactly if the address of a resumed download happens
to be one that a fresh download accepts, and no redirect before the last one leaves HTTPS
(`policy_kept_iff`).
-/

namespace MissionOs.Driverd

open MissionOs.Rust MissionOs.Lib

/-- An address over TLS. -/
def IsHttps (url : List Char) : Prop := "https://".toList <+: url

/-- An address that the agent can send a request to. -/
def IsHttp (url : List Char) : Prop := "http://".toList <+: url ∨ IsHttps url

instance (url : List Char) : Decidable (IsHttps url) :=
  inferInstanceAs (Decidable ("https://".toList <+: url))

instance (url : List Char) : Decidable (IsHttp url) :=
  inferInstanceAs (Decidable ("http://".toList <+: url ∨ IsHttps url))

/-- What the HTTP agent does with redirects: it follows as many as it was told to, to
addresses that it can send a request to, and `get_url` is the last of them. -/
structure FollowsRedirects (env : FetchEnv) : Prop where
  bounded : ∀ n r, (env.hops n r).length ≤ r.redirects.toNat
  sendable : ∀ n r response, env.server n r = .ok response →
    IsHttp (trim r.url.toList) ∧ ∀ u ∈ env.hops n r, IsHttp u.toList
  last : ∀ n r response u, env.server n r = .ok response → (env.hops n r).getLast? = some u →
    response.url = u

/-- The policy: a request goes to an address that `validate_download_url` accepts, and the
file for the body of a response is opened only if the request and every redirect that led to
the response were over TLS. -/
def UrlPolicy (env : FetchEnv) (c : FetchCall) (s : Session) : Prop :=
  match c with
  | .request r => PackageFetcher.validateDownloadUrl r.url = .ok ()
  | .createFile _ | .openAppend _ => ∀ r, s.trace.getLast? = some (.request r) →
      IsHttps (trim r.url.toList) ∧
        ∀ u ∈ env.hops (s.trace.length - 1) r, IsHttps u.toList
  | _ => True

/-- No redirect before the last one leaves TLS, if the body of the response is taken. -/
def SecureDetour (env : FetchEnv) (c : FetchCall) (s : Session) : Prop :=
  match c with
  | .createFile _ | .openAppend _ => ∀ r, s.trace.getLast? = some (.request r) →
      ∀ u ∈ (env.hops (s.trace.length - 1) r).dropLast, IsHttps u.toList
  | _ => True

/-- What is left to check of a call if the redirects before the last one are secure. -/
abbrev KeepsPolicy (env : FetchEnv) (c : FetchCall) (s : Session) : Prop :=
  SecureDetour env c s → UrlPolicy env c s

/-! ## Addresses -/

/-- An accepted address that the agent can send a request to is over TLS. -/
theorem IsHttp.isHttps {url : List Char} (h : IsHttp url)
    (haccepted : isAcceptedScheme url = true) :
    IsHttps url := by
  rcases h with hplain | hsecure
  · -- `http://` is the start of neither accepted scheme.
    obtain ⟨rest, rfl⟩ := hplain
    simp [isAcceptedScheme] at haccepted
  · exact hsecure

/-- A validated address has an accepted scheme. -/
theorem isAcceptedScheme_of_validateDownloadUrl {url : String}
    (h : PackageFetcher.validateDownloadUrl url = .ok ()) :
    isAcceptedScheme (trim url.toList) = true := by
  simp only [PackageFetcher.validateDownloadUrl] at h
  split_ifs at h with hempty hscheme hcredentials hlength
  simpa using hscheme

/-- A response that passes the checks came from an address with an accepted scheme. -/
theorem isAcceptedScheme_of_checkResponse {fetcher : PackageFetcher} {response : HttpResponse}
    {expectedSize : Option Nat} (h : fetcher.checkResponse response expectedSize = .ok ()) :
    isAcceptedScheme response.url.toList = true := by
  by_contra hno
  rw [PackageFetcher.checkResponse, if_pos (by simpa using hno)] at h
  cases h

/-! ## Programs -/

section Programs

variable {env : FetchEnv}

theorem KeepsPolicy.of_settles {files : List Path} {c : FetchCall} (s : Session)
    (h : c.Settles files) : KeepsPolicy env c s := by
  intro _
  cases c <;> trivial

theorem KeepsPolicy.of_begins {partialPath : Path} {dir : Option Path} {c : FetchCall}
    (s : Session) (h : c.Begins partialPath dir) : KeepsPolicy env c s := by
  intro _
  cases c <;> trivial

theorem KeepsPolicy.of_streams {path : Path} {c : FetchCall} (s : Session)
    (h : c.Streams path) : KeepsPolicy env c s := by
  intro _
  cases c <;> trivial

theorem allowsAudit_keepsPolicy : AllowsAudit (KeepsPolicy env) :=
  fun _ => ⟨fun _ => trivial, fun _ _ => trivial⟩

/-- The last hop of a redirect is checked by the code, the hops before it are not. -/
theorem hops_secure {n : Nat} {r : HttpRequest} {response : HttpResponse}
    (hagent : FollowsRedirects env) (hresponse : env.server n r = .ok response)
    (haccepted : isAcceptedScheme response.url.toList = true)
    (hdetour : ∀ u ∈ (env.hops n r).dropLast, IsHttps u.toList) :
    ∀ u ∈ env.hops n r, IsHttps u.toList := by
  intro u hu
  have hsendable := (hagent.sendable n r response hresponse).2 u hu
  have hne : env.hops n r ≠ [] := List.ne_nil_of_mem hu
  have hsplit := List.dropLast_append_getLast hne
  rw [← hsplit] at hu
  rcases List.mem_append.mp hu with hbefore | hlast
  · exact hdetour u hbefore
  · have hu : u = (env.hops n r).getLast hne := List.mem_singleton.mp hlast
    have hurl : response.url = u :=
      hagent.last n r response u hresponse (by rw [hu, List.getLast?_eq_getLast_of_ne_nil hne])
    rw [hurl] at haccepted
    exact hsendable.isHttps haccepted

/-- A fresh download opens its temporary file for a response that came over TLS all the
way. -/
theorem downloadToFile_keepsPolicy (hagent : FollowsRedirects env) (fetcher : PackageFetcher)
    {url : String} (tmpPath : Path) (expectedSize : Option Nat)
    (hurl : PackageFetcher.validateDownloadUrl url = .ok ()) (s : Session) :
    Fallible.Ensures env.handler (KeepsPolicy env)
      (fetcher.downloadToFile url tmpPath expectedSize) (fun _ _ => True) (fun _ _ => True) s := by
  unfold PackageFetcher.downloadToFile
  refine Fallible.ensures_bind.mpr (Fallible.ensures_bind.mpr (Fallible.ensures_perform.mpr
    ⟨fun _ => hurl, Fallible.ensures_orFail.mpr ⟨fun response hresponse => ?_,
      fun _ _ => trivial⟩⟩))
  refine Fallible.ensures_bind.mpr (Fallible.ensures_orFail.mpr
    ⟨fun _ hchecked => ?_, fun _ _ => trivial⟩)
  refine Fallible.ensures_bind.mpr (Fallible.ensures_bind.mpr (Fallible.ensures_perform.mpr
    ⟨?_, Fallible.ensures_orFail.mpr ⟨fun _ _ => ?_, fun _ _ => trivial⟩⟩))
  · -- The request is the last call before the file is created.
    intro hdetour r hr
    have hdetour' := hdetour r hr
    simp only [FetchEnv.handler, List.getLast?_append, List.getLast?_singleton,
      Option.some_or, Option.some.injEq] at hr
    cases hr
    simp only [FetchEnv.handler, List.length_append, List.length_singleton,
      Nat.add_sub_cancel] at hdetour' ⊢
    refine ⟨?_, hops_secure hagent hresponse (isAcceptedScheme_of_checkResponse hchecked)
      hdetour'⟩
    exact (hagent.sendable _ _ response hresponse).1.isHttps
      (isAcceptedScheme_of_validateDownloadUrl hurl)
  · exact (fetcher.body_streams tmpPath response).ensures env.handler
      (fun c s h => KeepsPolicy.of_streams s h) _

theorem fetch_keepsPolicy (hagent : FollowsRedirects env) (fetcher : PackageFetcher)
    (url : String) (destination : Path) (expectedSize : Option Nat) (s : Session) :
    Fallible.Ensures env.handler (KeepsPolicy env)
      (fetcher.download env.hash url destination expectedSize none)
      (fun _ _ => True) (fun _ _ => True) s := by
  unfold PackageFetcher.download
  refine Fallible.ensures_bind.mpr (Fallible.ensures_orFail.mpr
    ⟨fun _ hurl => ?_, fun _ _ => trivial⟩)
  have hparent := PackageFetcher.ensureParent_begins "cannot create download directory: "
    destination destination
  refine Fallible.ensures_bind.mpr (Fallible.ensures_mono
    (hparent.ensures env.handler (fun c s h => KeepsPolicy.of_begins s h) s)
    (fun _ s₁ _ => ?_) fun _ _ _ => trivial)
  refine Fallible.ensures_bind.mpr (Fallible.ensures_mono
    (downloadToFile_keepsPolicy hagent fetcher (destination.withExtension "tmp") expectedSize
      hurl s₁) (fun _ s₂ _ => ?_) fun _ _ _ => trivial)
  refine Fallible.ensures_bind.mpr (Fallible.ensures_pure.mpr ?_)
  exact Fallible.ensures_bind.mpr (Fallible.ensures_bind.mpr (Fallible.ensures_perform.mpr
    ⟨fun _ => trivial, Fallible.ensures_orFail.mpr
      ⟨fun _ _ => Fallible.ensures_pure.mpr trivial, fun _ _ => trivial⟩⟩))

end Programs

namespace DownloadCall

variable {c : DownloadCall} {s : Session}

/-- A resumed download follows no redirect, and keeps the policy if its address does. -/
theorem resume_keepsPolicy (hagent : FollowsRedirects c.env) (offset : Nat)
    (hurl : PackageFetcher.validateDownloadUrl c.url = .ok ()) (s : Session) :
    Fallible.Ensures c.env.handler (KeepsPolicy c.env)
      (c.manager.resumeDownload c.env c.url c.partialPath offset c.destination)
      (fun _ _ => True) (fun _ _ => True) s := by
  unfold DownloadManager.resumeDownload
  refine Fallible.ensures_bind.mpr (Fallible.ensures_bind.mpr (Fallible.ensures_perform.mpr
    ⟨fun _ => hurl, Fallible.ensures_orFail.mpr ⟨fun response hresponse => ?_,
      fun _ _ => trivial⟩⟩))
  refine Fallible.ensures_ite.mpr ⟨fun _ => ?_, fun _ => Fallible.ensures_ite.mpr
    ⟨fun _ => ?_, fun _ => Fallible.ensures_throw.mpr trivial⟩⟩
  · refine Fallible.ensures_bind.mpr (Fallible.ensures_orFail.mpr
      ⟨fun _ _ => ?_, fun _ _ => trivial⟩)
    refine Fallible.ensures_bind.mpr (Fallible.ensures_orFail.mpr
      ⟨fun _ _ => ?_, fun _ _ => trivial⟩)
    refine Fallible.ensures_bind.mpr (Fallible.ensures_bind.mpr (Fallible.ensures_perform.mpr
      ⟨?_, Fallible.ensures_orFail.mpr ⟨fun _ _ => ?_, fun _ _ => trivial⟩⟩))
    · intro _ r hr
      simp only [FetchEnv.handler, List.getLast?_append, List.getLast?_singleton,
        Option.some_or, Option.some.injEq] at hr
      cases hr
      simp only [FetchEnv.handler, List.length_append, List.length_singleton,
        Nat.add_sub_cancel]
      refine ⟨(hagent.sendable _ _ response hresponse).1.isHttps
        (isAcceptedScheme_of_validateDownloadUrl hurl), ?_⟩
      have hnone := hagent.bounded s.trace.length
        ⟨c.url, some ("bytes=" ++ toString offset ++ "-"), 0⟩
      intro u hu
      rw [List.length_eq_zero_iff.mp (Nat.le_zero.mp hnone)] at hu
      cases hu
    · have hbody : Fallible.Makes (FetchCall.Streams c.partialPath)
          (streamBody c.manager.fetcher.config.maxResponseSize (pure ()) c.partialPath
            response.body offset) fun _ => True :=
        streamBody_streams (Fallible.makes_pure trivial) _ _
      refine Fallible.ensures_bind.mpr (Fallible.ensures_mono
        (hbody.ensures c.env.handler (fun c s h => KeepsPolicy.of_streams s h) _)
        (fun total s₁ _ => ?_) fun _ _ _ => trivial)
      refine Fallible.ensures_bind.mpr (Fallible.ensures_bind.mpr (Fallible.ensures_perform.mpr
        ⟨fun _ => trivial, Fallible.ensures_orFail.mpr ⟨fun _ _ => ?_, fun _ _ => trivial⟩⟩))
      exact Fallible.ensures_bind.mpr (Fallible.ensures_bind.mpr (Fallible.ensures_perform.mpr
        ⟨fun _ => trivial, Fallible.ensures_orFail.mpr
          ⟨fun _ _ => Fallible.ensures_pure.mpr trivial, fun _ _ => trivial⟩⟩))
  · refine Fallible.ensures_bind.mpr (Fallible.ensures_discard.mpr (Fallible.ensures_perform.mpr
      ⟨fun _ => trivial, ?_⟩))
    exact fetch_keepsPolicy hagent c.manager.fetcher c.url c.destination none _

theorem attempt_keepsPolicy (hagent : FollowsRedirects c.env) (existing : Option Nat)
    (hurl : ∀ offset, existing = some (offset + 1) →
      PackageFetcher.validateDownloadUrl c.url = .ok ()) (s : Session) :
    Fallible.Ensures c.env.handler (KeepsPolicy c.env) (c.attempt existing)
      (fun result _ => result.path ∈ c.manager.files c.destination c.digest)
      (fun _ _ => True) s := by
  have hcalls : Fallible.Ensures c.env.handler (KeepsPolicy c.env) (c.attempt existing)
      (fun _ _ => True) (fun _ _ => True) s := by
    unfold attempt DownloadManager.performDownloadWithResume
    split
    · exact resume_keepsPolicy hagent _ (hurl _ rfl) s
    · exact fetch_keepsPolicy hagent c.manager.fetcher c.url c.destination c.expectedSize s
  exact Fallible.ensures_mono (Fallible.ensures_and hcalls (c.attempt_path existing s))
    (fun _ _ h => h.2)
    fun _ _ h => h.2

/-- The call keeps the policy at every step at which the redirects before the last one are
secure, if the address of a resumed download is accepted. -/
theorem run_keepsPolicy (hagent : FollowsRedirects c.env) (s : Session)
    (hurl : ∀ tracker offset s₁, c.prepared s = (.ok (tracker, some (offset + 1)), s₁) →
      PackageFetcher.validateDownloadUrl c.url = .ok ()) :
    Fallible.Ensures c.env.handler (KeepsPolicy c.env) c.program (fun _ _ => True)
      (fun _ _ => True) s := by
  have hbegins := (c.manager.prepare_makes c.env c.url c.destination c.digest
    c.expectedSize c.sourceId c.subject).ensures c.env.handler
      (P := KeepsPolicy c.env) (fun c s h => KeepsPolicy.of_begins s h) s
  unfold program DownloadManager.download
  refine Fallible.ensures_bind.mpr ⟨hbegins.1, ?_⟩
  rcases hprepared : CallProg.run c.env.handler (c.manager.prepare c.env c.url c.destination
    c.digest c.expectedSize c.sourceId c.subject).run s with ⟨e | ⟨tracker, existing⟩, s₁⟩
  · trivial
  refine DownloadManager.attempts_ensures
    (D := fun result _ => result.path ∈ c.manager.files c.destination c.digest)
    (F := fun _ _ => True) (I := fun _ => True) (C := fun _ => True) allowsAudit_keepsPolicy
    (fun s₂ _ _ => ?_) (fun t result s₂ ht hpath => ?_) (fun _ _ _ _ _ _ => trivial)
    (fun _ _ _ _ _ => trivial) c.manager.retriesLeft tracker s₁ (prepared_same hprepared)
    trivial fun _ _ => trivial
  · refine attempt_keepsPolicy hagent existing (fun offset hoffset => ?_) s₂
    rw [hoffset] at hprepared
    exact hurl tracker offset s₁ hprepared
  · exact Fallible.ensures_mono ((accept_settles ht hpath).ensures c.env.handler
      (fun c s h => KeepsPolicy.of_settles s h) s₂) (fun _ _ _ => trivial) fun _ _ h => h

/-- A call that resumes sends a request to its address. -/
theorem url_of_resumed (hpolicy : c.program.run.Along c.env.handler (UrlPolicy c.env) s)
    {tracker : DownloadTracker} {offset : Nat} {s₁ : Session}
    (hprepared : c.prepared s = (.ok (tracker, some (offset + 1)), s₁)) :
    PackageFetcher.validateDownloadUrl c.url = .ok () := by
  have hcall : Fallible.Ensures c.env.handler (UrlPolicy c.env) c.program
      (fun _ _ => True) (fun _ _ => True) s := by
    refine ⟨hpolicy, ?_⟩
    rcases CallProg.run c.env.handler c.program.run s with ⟨e | p, s'⟩ <;> trivial
  unfold program DownloadManager.download at hcall
  have hloop := (Fallible.ensures_bind.mp hcall).of_ok hprepared
  have hfirst : ∀ again, Fallible.Ensures c.env.handler (UrlPolicy c.env)
      (c.manager.attemptDownload c.env c.partialPath (some (offset + 1)) c.sourceId c.subject
        again tracker) (fun _ _ => True) (fun _ _ => True) s₁ →
      PackageFetcher.validateDownloadUrl tracker.url = .ok () := by
    intro again hattempt
    unfold DownloadManager.attemptDownload at hattempt
    have hresume := Fallible.ensures_attempt.mp (Fallible.ensures_bind.mp hattempt)
    simp only [DownloadManager.performDownloadWithResume, DownloadManager.resumeDownload]
      at hresume
    exact (Fallible.ensures_perform.mp (Fallible.ensures_bind.mp
      (Fallible.ensures_bind.mp hresume))).1
  have hurl : tracker.url = c.url := (prepared_same hprepared).url
  rw [← hurl]
  dsimp only at hloop
  generalize c.manager.retriesLeft = left at hloop
  cases left with
  | zero => exact hfirst _ hloop
  | succ left => exact hfirst _ hloop

/-- A download keeps the policy exactly if the address of a resumed download is one that a
fresh download accepts, and no redirect before the last one leaves TLS. -/
theorem policy_kept_iff (c : DownloadCall) (s : Session) (hagent : FollowsRedirects c.env) :
    c.program.run.Along c.env.handler (UrlPolicy c.env) s ↔
      (∀ tracker offset s₁, c.prepared s = (.ok (tracker, some (offset + 1)), s₁) →
        PackageFetcher.validateDownloadUrl c.url = .ok ()) ∧
      c.program.run.Along c.env.handler (SecureDetour c.env) s := by
  constructor
  · intro hpolicy
    refine ⟨fun tracker offset s₁ hprepared => url_of_resumed hpolicy hprepared,
      CallProg.along_mono hpolicy fun call s₁ hcall => ?_⟩
    cases call with
    | createFile p => exact fun r hr u hu => (hcall r hr).2 u (List.dropLast_subset _ hu)
    | openAppend p => exact fun r hr u hu => (hcall r hr).2 u (List.dropLast_subset _ hu)
    | _ => trivial
  · intro h
    exact CallProg.along_mp (run_keepsPolicy hagent s h.1).1 h.2

/-! ## Servers -/

/-- A server that is reached over HTTP and HTTPS only. -/
def overHttp (server : Nat → HttpRequest → Except HttpError HttpResponse) (n : Nat)
    (r : HttpRequest) : Except HttpError HttpResponse :=
  if IsHttp (trim r.url.toList) then server n r else .error (.transport "unknown scheme")

theorem followsRedirects_overHttp
    (server : Nat → HttpRequest → Except HttpError HttpResponse) :
    FollowsRedirects (FetchEnv.serving (overHttp server)) where
  bounded n r := Nat.zero_le _
  sendable n r response h := by
    have hanswer : overHttp server n r = .ok response := h
    unfold overHttp at hanswer
    split_ifs at hanswer with hhttp
    refine ⟨hhttp, ?_⟩
    intro u hu
    cases hu
  last n r response u _ hu := by cases hu

/-! ## A redirected download -/

/-- Where `abc` is to be found, as far as redirects are followed. -/
def mirrorHops (r : HttpRequest) : List String :=
  ["https://packages.mission-os.org/current/abc.ko", "https://mirror.mission-os.org/abc.ko"].take
    r.redirects.toNat

theorem isHttps_of_mem_mirrorHops {r : HttpRequest} {u : String} (hu : u ∈ mirrorHops r) :
    IsHttps u.toList := by
  have hall : ∀ u ∈ ["https://packages.mission-os.org/current/abc.ko",
      "https://mirror.mission-os.org/abc.ko"], IsHttps u.toList := by decide
  exact hall u (List.mem_of_mem_take hu)

/-- The server of the file `abc`, behind two redirects. -/
def mirrorServer (n : Nat) (r : HttpRequest) : Except HttpError HttpResponse :=
  (overHttp busyServer n r).map fun response =>
    { response with url := (mirrorHops r).getLast?.getD r.url }

/-- The download of `abc` from behind two redirects. -/
def mirrorCall : DownloadCall :=
  { abcCall mirrorServer with
    env := { FetchEnv.serving mirrorServer with hops := fun _ r => mirrorHops r } }

theorem followsRedirects_mirrorCall : FollowsRedirects mirrorCall.env where
  bounded n r := List.length_take_le _ _
  sendable n r response h := by
    have hanswer : (overHttp busyServer n r).map (fun response =>
        { response with url := (mirrorHops r).getLast?.getD r.url }) = .ok response := h
    unfold overHttp at hanswer
    split_ifs at hanswer with hhttp
    · exact ⟨hhttp, fun u hu => Or.inr (isHttps_of_mem_mirrorHops hu)⟩
    · cases hanswer
  last n r response u h hu := by
    have hlast : (mirrorHops r).getLast? = some u := hu
    have hanswer : (overHttp busyServer n r).map (fun response =>
        { response with url := (mirrorHops r).getLast?.getD r.url }) = .ok response := h
    cases hserved : overHttp busyServer n r with
    | error e =>
        rw [hserved] at hanswer
        cases hanswer
    | ok served =>
        rw [hserved, hlast] at hanswer
        cases hanswer
        rfl

/-- A download over two redirects, all of them over HTTPS, keeps the policy. -/
theorem redirected_keeps_policy :
    (mirrorCall.run ⟨FileSystem.empty, []⟩).1 = .ok abcPath ∧
      mirrorCall.program.run.Along mirrorCall.env.handler (UrlPolicy mirrorCall.env)
        ⟨FileSystem.empty, []⟩ := by
  refine ⟨by decide +kernel, (policy_kept_iff mirrorCall ⟨FileSystem.empty, []⟩
    followsRedirects_mirrorCall).mpr ⟨fun _ _ _ _ => ?_, ?_⟩⟩
  · show PackageFetcher.validateDownloadUrl "https://packages.mission-os.org/abc.ko" = .ok ()
    decide
  · refine CallProg.along_mono (Fallible.ensures_any _).1 fun call s _ => ?_
    cases call with
    | createFile p =>
        exact fun r _ u hu => isHttps_of_mem_mirrorHops (List.dropLast_subset _ hu)
    | openAppend p =>
        exact fun r _ u hu => isHttps_of_mem_mirrorHops (List.dropLast_subset _ hu)
    | _ => trivial

/-! ## A resumed download -/

/-- With a partial file there, a request is sent over plain HTTP. -/
theorem resume_skips_validation :
    ¬ ∀ (c : DownloadCall) (s : Session), FollowsRedirects c.env →
      c.program.run.Along c.env.handler (UrlPolicy c.env) s := by
  intro h
  have hpolicy := h { abcCall (overHttp busyServer) with
    url := "http://packages.mission-os.org/abc.ko" } ⟨abcFiles (utf8 "a"), []⟩
    (followsRedirects_overHttp busyServer)
  have hfound : (DownloadCall.prepared { abcCall (overHttp busyServer) with
      url := "http://packages.mission-os.org/abc.ko" }
      ⟨abcFiles (utf8 "a"), []⟩).1.map Prod.snd = .ok (some 1) := by decide
  rcases hprepared : DownloadCall.prepared { abcCall (overHttp busyServer) with
      url := "http://packages.mission-os.org/abc.ko" }
      ⟨abcFiles (utf8 "a"), []⟩ with ⟨e | ⟨tracker, existing⟩, s₁⟩
  · rw [hprepared] at hfound
    cases hfound
  · rw [hprepared] at hfound
    cases hfound
    have hvalid := url_of_resumed hpolicy hprepared
    revert hvalid
    show PackageFetcher.validateDownloadUrl "http://packages.mission-os.org/abc.ko" ≠ .ok ()
    decide

end DownloadCall

end MissionOs.Driverd
