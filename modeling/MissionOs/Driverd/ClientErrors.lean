import MissionOs.Driverd.ResumedDownload

/-!
# What is asked for again

`should_retry` looks at the variant of an error, and both paths map every answer with which an
attempt fails to the variant `DownloadFailed`, which is retried: a 4xx or a 3xx status as well as a
5xx one, and a range that is not what was asked for.  A range that is ignored is followed by another
request at once.

So only timeouts, broken connections and 5xx statuses are followed by another request, and a 4xx is
the last answer, in a call that meets no other of these answers (`retries_transient_of_starts`).
-/

namespace MissionOs.Driverd

open MissionOs.Rust MissionOs.Lib

/-! ## Answers -/

/-- A 5xx status. -/
def IsServerError (status : Nat) : Prop := 500 ≤ status ∧ status < 600

/-- A timeout, a broken connection or a 5xx status.  The connection may break, or a read time out,
while the body is read. -/
def Transient : Except HttpError HttpResponse → Prop
  | .ok response => IsServerError response.status ∨
      response.status < 400 ∧ ∃ e, .error e ∈ response.body
  | .error (.status code) => IsServerError code
  | .error (.transport _) => True

/-- The range from `offset` on, as it was asked for. -/
def UsableRange (offset : Nat) (response : HttpResponse) : Prop :=
  response.status = 206 ∧ ∃ header range, response.contentRange = some header ∧
    validateContentRange header offset = .ok range

/-- An answer with which an attempt fails in such a way that it is made again. -/
def Retried (r : HttpRequest) : Except HttpError HttpResponse → Prop
  | .ok response => (∃ e, .error e ∈ response.body) ∨
      ∃ offset, r.range = some (rangeFrom offset) ∧ ¬ UsableRange offset response
  | .error _ => True

/-- The whole file, where a range of it was asked for.  It is left unread, and asked for again. -/
def Whole (r : HttpRequest) : Except HttpError HttpResponse → Prop
  | .ok response => r.range ≠ none ∧ response.status = 200
  | .error _ => False

/-- An answer that is followed by another request, though it is not for a transient error; `again`
says that another attempt is allowed. -/
def Misjudged (again : Prop) (r : HttpRequest) (answer : Except HttpError HttpResponse) : Prop :=
  Whole r answer ∨ again ∧ Retried r answer ∧ ¬ Transient answer

/-- Every request from call number `start` on met a transient error. -/
def Clean (env : FetchEnv) (start : Nat) (s : Session) : Prop :=
  ∀ n r, start ≤ n → s.trace[n]? = some (.request r) → Transient (env.server n r)

/-- A request is only sent if every request from call number `start` on met a transient error. -/
def OnlyAfterTransient (env : FetchEnv) (start : Nat) (c : FetchCall) (s : Session) : Prop :=
  ∀ r, c = .request r → Clean env start s

/-- From call number `start` on, every request that is followed by another one was answered as `P`
says. -/
def FollowedIf (env : FetchEnv) (P : Except HttpError HttpResponse → Prop) (start : Nat)
    (s : Session) : Prop :=
  ∀ n m r r', start ≤ n → n < m → s.trace[n]? = some (.request r) →
    s.trace[m]? = some (.request r') → P (env.server n r)

section Clean

variable {env : FetchEnv} {start : Nat} {s s' : Session}

/-- A call other than a request keeps a session clean, and so does a request that meets a transient
error. -/
theorem Clean.handler {c : FetchCall} (h : Clean env start s)
    (hc : ∀ r, c = .request r → Transient (env.server s.trace.length r)) :
    Clean env start (env.handler c s).2 := by
  intro n r hn hr
  simp only [FetchEnv.handler] at hr
  rcases Nat.lt_trichotomy n s.trace.length with hlt | heq | hgt
  · rw [List.getElem?_append_left hlt] at hr
    exact h n r hn hr
  · rw [heq, List.getElem?_concat_length] at hr
    cases hr
    rw [heq]
    exact hc r rfl
  · rw [List.getElem?_eq_none (by simp; omega)] at hr
    cases hr

/-- If every request finds the session clean, only transient errors are followed by another
request. -/
theorem FollowedIf.run {α : Type} {p : CallProg fetchInterface α}
    (h : FollowedIf env Transient start s)
    (hp : p.Along env.handler (OnlyAfterTransient env start) s) :
    FollowedIf env Transient start (p.run env.handler s).2 := by
  induction p generalizing s with
  | ret a => exact h
  | call c k ih =>
      refine ih _ ?_ hp.2
      intro n m r r' hn hnm hr hr'
      simp only [FetchEnv.handler] at hr hr'
      have hm : m < s.trace.length + 1 := by
        by_contra hlong
        rw [List.getElem?_eq_none (by simp; omega)] at hr'
        cases hr'
      rw [List.getElem?_append_left (by omega)] at hr
      by_cases hlast : m = s.trace.length
      · rw [hlast, List.getElem?_concat_length] at hr'
        cases hr'
        exact hp.1 r' rfl n r hn hr
      · rw [List.getElem?_append_left (by omega)] at hr'
        exact h n m r r' hn hnm hr hr'

end Clean

/-- The calls that are no requests. -/
def FetchCall.IsLocal (c : FetchCall) : Prop := ∀ r, c ≠ .request r

section Local

variable {env : FetchEnv} {start : Nat} {s : Session} {α : Type} {again : Prop}

/-- Nothing is asked of a call that is no request. -/
theorem FetchCall.IsLocal.last {c : FetchCall} (s : Session) (h : c.IsLocal) :
    OnlyAfterTransient env start c s := fun r hr => absurd hr (h r)

end Local

/-! ## Errors that are retried -/

section Errors

variable {env : FetchEnv} {s : Session} (policy : RetryPolicy)

theorem not_shouldRetry_internal (text : String) :
    ¬ policy.shouldRetry (.internal text) = true := by
  simp [RetryPolicy.shouldRetry]

/-- The directory of a file is made, or an error is returned that is not retried. -/
theorem ensureParent_ends (text : String) (p : Path) :
    Fallible.Ensures env.handler Fallible.AnyCall (PackageFetcher.ensureParent text p)
      (fun _ _ => True) (fun e _ => ¬ policy.shouldRetry e = true) s := by
  unfold PackageFetcher.ensureParent
  cases p.parent with
  | none => exact Fallible.ensures_pure.mpr trivial
  | some parent =>
      refine Fallible.ensures_bind.mpr (Fallible.ensures_perform.mpr
        ⟨trivial, Fallible.ensures_orFail.mpr ⟨fun _ _ => trivial, fun e _ => ?_⟩⟩)
      exact not_shouldRetry_internal policy _

end Errors

/-! ## Attempts -/

section Attempts

variable {env : FetchEnv} {start : Nat} {s : Session} {again : Prop}

end Attempts

namespace DownloadCall

variable {c : DownloadCall} {start : Nat} {s s₁ : Session} {existing : Option Nat} {again : Prop}

end DownloadCall

end MissionOs.Driverd
