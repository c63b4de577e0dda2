import Dovetail.HttpClient

/-!
# How often a request is sent

Every send but the first follows a failure worth retrying, or the one session
that gave a token after a 401.  The logs a phase can be reached with say so,
and the bounds on sends, refreshes and steps are read off them.
-/

namespace Dovetail.Http

open CodeUnits
open TransitionRun

variable {R : Type*}

/-- A send that failed. -/
def failedSend (request : Outgoing) (error : ApiError) : List (Entry R) :=
  [.sent request, .got (.error error)]

/-- How refreshing the session gives a token: one another request has stored
meanwhile, or the one the refresher has stored. -/
inductive Renewal (token : Text) : List (Entry R) → Prop where
  | shared : Renewal token [.read (.ok (some token))]
  | refreshed (stored : Option Text) :
      Renewal token [.read (.ok stored), .called, .finished (.ok ()),
        .read (.ok (some token))]

/-- How refreshing the session gives no token. -/
inductive Refused : List (Entry R) → Prop where
  | byRefresher (stored : Option Text) {error : ApiError} :
      error.isMissingOrRefused = true →
        Refused [.read (.ok stored), .called, .finished (.error error)]
  | byStore (stored : Option Text) :
      Refused [.read (.ok stored), .called, .finished (.ok ()),
        .read (.ok none)]

/-- How refreshing the session fails. -/
inductive Fails (cause : ApiError) : List (Entry R) → Prop where
  | reading : Fails cause [.read (.error cause)]
  | refreshing (stored : Option Text) :
      cause.isMissingOrRefused = false →
        Fails cause [.read (.ok stored), .called, .finished (.error cause)]
  | rereading (stored : Option Text) :
      Fails cause [.read (.ok stored), .called, .finished (.ok ()),
        .read (.error cause)]

section

variable (client : ApiClient) (call : Call)

/-- The logs that lead up to a send under a bearer, with the retries so far
and whether the session was refreshed. -/
inductive Course : Nat → Bool → Option Text → List (Entry R) → Prop where
  | first (bearer : Option Text) : Course 0 false bearer []
  | retried {attempt : Nat} {refreshed : Bool} {bearer : Option Text}
      {log : List (Entry R)} {error : ApiError} :
      Course attempt refreshed bearer log → error.isRetryable = true →
        attempt < client.config.maxRetries.toNat →
        Course (attempt + 1) refreshed bearer
          (log ++ failedSend (client.outgoing call bearer) error)
  | renewed {attempt : Nat} {bearer : Option Text} {log : List (Entry R)}
      {error : ApiError} {token : Text} {renewal : List (Entry R)} :
      Course attempt false bearer log → error.isUnauthorized = true →
        Renewal token renewal →
        Course attempt true (some token)
          (log ++ failedSend (client.outgoing call bearer) error ++ renewal)

/-- The results a request can return with a log. -/
inductive Ends : Except ApiError R → List (Entry R) → Prop where
  | unsent (error : ApiError) : Ends (.error error) []
  | settled {attempt : Nat} {refreshed : Bool} {bearer : Option Text}
      {log : List (Entry R)} (result : Except ApiError R) :
      Course client call attempt refreshed bearer log →
        Ends result
          (log ++ [.sent (client.outgoing call bearer), .got result])
  | refused {attempt : Nat} {bearer : Option Text}
      {log session : List (Entry R)} {error : ApiError} :
      Course client call attempt false bearer log →
        error.isUnauthorized = true → Refused session →
        Ends (.error error)
          (log ++ failedSend (client.outgoing call bearer) error ++ session)
  | failed {attempt : Nat} {bearer : Option Text}
      {log session : List (Entry R)} {error cause : ApiError} :
      Course client call attempt false bearer log →
        error.isUnauthorized = true → Fails cause session →
        Ends (.error cause)
          (log ++ failedSend (client.outgoing call bearer) error ++ session)

/-- The states of a request. -/
inductive Reaches : Request R → Prop where
  | created : Reaches Request.created
  | sending {attempt : Nat} {refreshed : Bool} {bearer : Option Text}
      {log : List (Entry R)} :
      Course client call attempt refreshed bearer log →
        Reaches ⟨bearer, refreshed, attempt, .sending,
          log ++ [.sent (client.outgoing call bearer)]⟩
  | sleeping {attempt : Nat} {refreshed : Bool} {bearer : Option Text}
      {log : List (Entry R)} {error : ApiError} (delay : Duration) :
      Course client call attempt refreshed bearer log →
        error.isRetryable = true →
        attempt < client.config.maxRetries.toNat →
        Reaches ⟨bearer, refreshed, attempt, .sleeping delay,
          log ++ failedSend (client.outgoing call bearer) error⟩
  | panicked {attempt : Nat} {refreshed : Bool} {bearer : Option Text}
      {log : List (Entry R)} {error : ApiError} :
      Course client call attempt refreshed bearer log →
        attempt < client.config.maxRetries.toNat →
        client.backoffDelay attempt = none →
        Reaches ⟨bearer, refreshed, attempt, .panicked,
          log ++ failedSend (client.outgoing call bearer) error⟩
  | queued {attempt : Nat} {bearer : Option Text} {log : List (Entry R)}
      {error : ApiError} :
      Course client call attempt false bearer log →
        error.isUnauthorized = true →
        Reaches ⟨bearer, true, attempt, .queued error,
          log ++ failedSend (client.outgoing call bearer) error⟩
  | locked {attempt : Nat} {bearer : Option Text} {log : List (Entry R)}
      {error : ApiError} :
      Course client call attempt false bearer log →
        error.isUnauthorized = true →
        Reaches ⟨bearer, true, attempt, .locked error,
          log ++ failedSend (client.outgoing call bearer) error⟩
  | refreshing {attempt : Nat} {bearer : Option Text} {log : List (Entry R)}
      {error : ApiError} (stored : Option Text) :
      Course client call attempt false bearer log →
        error.isUnauthorized = true →
        Reaches ⟨bearer, true, attempt, .refreshing error,
          log ++ failedSend (client.outgoing call bearer) error ++
            [.read (.ok stored), .called]⟩
  | refreshed {attempt : Nat} {bearer : Option Text} {log : List (Entry R)}
      {error : ApiError} (stored : Option Text) :
      Course client call attempt false bearer log →
        error.isUnauthorized = true →
        Reaches ⟨bearer, true, attempt, .refreshed error,
          log ++ failedSend (client.outgoing call bearer) error ++
            [.read (.ok stored), .called, .finished (.ok ())]⟩
  | returned {attempt : Nat} {refreshed : Bool} {bearer : Option Text}
      {log : List (Entry R)} {result : Except ApiError R} :
      Ends client call result log →
        Reaches ⟨bearer, refreshed, attempt, .returned result, log⟩

end

/-! ## Steps -/

section

variable {client : ApiClient} {call : Call} {attempt : Nat}
  {refreshed : Bool} {bearer : Option Text} {log : List (Entry R)}

theorem reaches_start (stored : Except ApiError (Option Text)) :
    Reaches client call
      ((Request.created : Request R).start client call stored) := by
  unfold Request.start
  split
  · exact .returned (.unsent _)
  · split
    · exact .returned (.unsent _)
    · exact .sending (.first _)

theorem reaches_settle (hcourse : Course client call attempt refreshed bearer
      log) (result : Except ApiError R) :
    Reaches client call
      (Request.settle client call
        ⟨bearer, refreshed, attempt, .sending,
          log ++ [.sent (client.outgoing call bearer), .got result]⟩
        result) := by
  cases result with
  | ok value => exact .returned (.settled _ hcourse)
  | error error =>
      simp only [Request.settle]
      split_ifs with hrenews hrefresher hretries
      · simp only [Bool.and_eq_true, Bool.not_eq_true'] at hrenews
        obtain ⟨⟨-, rfl⟩, hunauthorized⟩ := hrenews
        exact .queued hcourse hunauthorized
      · exact .returned (.settled _ hcourse)
      · cases hdelay : client.backoffDelay attempt with
        | none => exact .panicked hcourse hretries.2 hdelay
        | some delay => exact .sleeping delay hcourse hretries.1 hretries.2
      · exact .returned (.settled _ hcourse)

variable {error : ApiError}

theorem reaches_compare (hcourse : Course client call attempt false bearer
      log) (hunauthorized : error.isUnauthorized = true)
    (stored : Except ApiError (Option Text)) :
    Reaches client call
      (Request.compare client call
        ⟨bearer, true, attempt, .locked error,
          log ++ failedSend (client.outgoing call bearer) error ++
            [.read stored]⟩ error stored) := by
  cases stored with
  | error cause =>
      exact .returned (.failed hcourse hunauthorized .reading)
  | ok stored =>
      simp only [Request.compare]
      cases hreplacement : Request.replacement bearer stored with
      | none =>
          simpa [Request.note] using
            Reaches.refreshing stored hcourse hunauthorized
      | some current =>
          obtain ⟨rfl, -⟩ := Request.replacement_eq_some_iff.mp hreplacement
          exact .sending (hcourse.renewed hunauthorized .shared)

theorem reaches_conclude (hcourse : Course client call attempt false bearer
      log) (hunauthorized : error.isUnauthorized = true)
    (stored : Option Text) (outcome : Except ApiError Unit) :
    Reaches client call
      (Request.conclude client call
        ⟨bearer, true, attempt, .refreshing error,
          log ++ failedSend (client.outgoing call bearer) error ++
            [.read (.ok stored), .called, .finished outcome]⟩
        error outcome) := by
  cases outcome with
  | ok done => exact .refreshed stored hcourse hunauthorized
  | error cause =>
      simp only [Request.conclude]
      split_ifs with hrefused
      · exact .returned
          (.refused hcourse hunauthorized (.byRefresher stored hrefused))
      · exact .returned
          (.failed hcourse hunauthorized
            (.refreshing stored (by simpa using hrefused)))

theorem reaches_resume (hcourse : Course client call attempt false bearer
      log) (hunauthorized : error.isUnauthorized = true)
    (stored : Option Text) (renewed : Except ApiError (Option Text)) :
    Reaches client call
      (Request.resume client call
        ⟨bearer, true, attempt, .refreshed error,
          log ++ failedSend (client.outgoing call bearer) error ++
            [.read (.ok stored), .called, .finished (.ok ()), .read renewed]⟩
        error renewed) := by
  match renewed with
  | .error cause =>
      exact .returned (.failed hcourse hunauthorized (.rereading stored))
  | .ok none =>
      exact .returned (.refused hcourse hunauthorized (.byStore stored))
  | .ok (some token) =>
      exact .sending (hcourse.renewed hunauthorized (.refreshed stored))

theorem reaches_step {request next : Request R} {event : Event R}
    (hreaches : Reaches client call request)
    (hstep : request.step client call event = some next) :
    Reaches client call next := by
  cases hreaches with
  | created =>
      obtain ⟨stored, -, rfl⟩ := Request.step_of_created rfl hstep
      exact reaches_start stored
  | sending hcourse =>
      obtain ⟨reply, -, rfl⟩ := Request.step_of_sending rfl hstep
      simpa [Request.note] using reaches_settle hcourse _
  | sleeping delay hcourse hretryable hleft =>
      obtain ⟨-, rfl⟩ := Request.step_of_sleeping rfl hstep
      exact .sending (hcourse.retried hretryable hleft)
  | queued hcourse hunauthorized =>
      obtain ⟨-, rfl⟩ := Request.step_of_queued rfl hstep
      exact .locked hcourse hunauthorized
  | locked hcourse hunauthorized =>
      obtain ⟨stored, -, rfl⟩ := Request.step_of_locked rfl hstep
      exact reaches_compare hcourse hunauthorized stored
  | refreshing stored hcourse hunauthorized =>
      obtain ⟨outcome, -, rfl⟩ := Request.step_of_refreshing rfl hstep
      simpa [Request.note] using
        reaches_conclude hcourse hunauthorized stored outcome
  | refreshed stored hcourse hunauthorized =>
      obtain ⟨renewed, -, rfl⟩ := Request.step_of_refreshed rfl hstep
      simpa [Request.note] using
        reaches_resume hcourse hunauthorized stored renewed
  | panicked | returned =>
      rw [Request.step_of_isOver rfl] at hstep
      cases hstep

theorem reaches_run {events : List (Event R)} {request : Request R}
    (hrun : run (Request.step client call) Request.created events =
      some request) : Reaches client call request :=
  run_invariant .created
    (fun _ _ _ hreaches hstep => reaches_step hreaches hstep) hrun

end

/-! ## Counting -/

def Entry.isSent : Entry R → Bool
  | .sent _ => true
  | _ => false

def Entry.isCalled : Entry R → Bool
  | .called => true
  | _ => false

def sends (log : List (Entry R)) : Nat := log.countP Entry.isSent

def refreshes (log : List (Entry R)) : Nat := log.countP Entry.isCalled

@[simp] theorem sends_nil : sends ([] : List (Entry R)) = 0 := rfl

@[simp] theorem sends_append (before after : List (Entry R)) :
    sends (before ++ after) = sends before + sends after :=
  List.countP_append

@[simp] theorem sends_cons (entry : Entry R) (log : List (Entry R)) :
    sends (entry :: log) = sends log + if entry.isSent then 1 else 0 :=
  List.countP_cons

@[simp] theorem refreshes_nil : refreshes ([] : List (Entry R)) = 0 := rfl

@[simp] theorem refreshes_append (before after : List (Entry R)) :
    refreshes (before ++ after) = refreshes before + refreshes after :=
  List.countP_append

@[simp] theorem refreshes_cons (entry : Entry R) (log : List (Entry R)) :
    refreshes (entry :: log) =
      refreshes log + if entry.isCalled then 1 else 0 :=
  List.countP_cons

theorem Renewal.counts {token : Text} {session : List (Entry R)}
    (hrenewal : Renewal token session) :
    sends session = 0 ∧ refreshes session ≤ 1 := by
  cases hrenewal <;> simp [Entry.isSent, Entry.isCalled]

theorem Refused.counts {session : List (Entry R)}
    (hrefused : Refused session) :
    sends session = 0 ∧ refreshes session ≤ 1 := by
  cases hrefused <;> simp [Entry.isSent, Entry.isCalled]

theorem Fails.counts {cause : ApiError} {session : List (Entry R)}
    (hfails : Fails cause session) :
    sends session = 0 ∧ refreshes session ≤ 1 := by
  cases hfails <;> simp [Entry.isSent, Entry.isCalled]

section

variable {client : ApiClient} {call : Call} {attempt : Nat}
  {refreshed : Bool} {bearer : Option Text} {log : List (Entry R)}

theorem Course.counts
    (hcourse : Course client call attempt refreshed bearer log) :
    attempt ≤ client.config.maxRetries.toNat ∧
      sends log = attempt + refreshed.toNat ∧
      refreshes log ≤ refreshed.toNat := by
  induction hcourse with
  | first => simp
  | retried _ _ hleft ih =>
      obtain ⟨-, hsends, hrefreshes⟩ := ih
      refine ⟨hleft, ?_, ?_⟩ <;>
        simp [failedSend, Entry.isSent, Entry.isCalled] <;> omega
  | renewed _ _ hrenewal ih =>
      obtain ⟨hattempt, hsends, hrefreshes⟩ := ih
      obtain ⟨hnone, honce⟩ := hrenewal.counts
      simp only [Bool.toNat_false, Bool.toNat_true] at *
      refine ⟨hattempt, ?_, ?_⟩ <;>
        simp [failedSend, Entry.isSent, Entry.isCalled] <;> omega

/-- Before a send one more still fits, whatever was refreshed. -/
theorem Course.sends_lt
    (hcourse : Course client call attempt refreshed bearer log) :
    sends log < client.config.maxRetries.toNat + 2 ∧ refreshes log ≤ 1 := by
  obtain ⟨hattempt, hsends, hrefreshes⟩ := hcourse.counts
  have hflag := Bool.toNat_le refreshed
  constructor <;> omega

theorem Course.refreshes_eq_zero
    (hcourse : Course client call attempt false bearer log) :
    refreshes log = 0 := by
  simpa using hcourse.counts.2.2

/-- A session adds at most one refresh to a log without one, and no send. -/
theorem Course.session_counts {error : ApiError} {session : List (Entry R)}
    (hcourse : Course client call attempt false bearer log)
    (hsession : sends session = 0 ∧ refreshes session ≤ 1) :
    sends (log ++ failedSend (client.outgoing call bearer) error ++
        session) ≤ client.config.maxRetries.toNat + 2 ∧
      refreshes (log ++ failedSend (client.outgoing call bearer) error ++
        session) ≤ 1 := by
  obtain ⟨hsends, -⟩ := hcourse.sends_lt
  have hnone := hcourse.refreshes_eq_zero
  constructor <;> simp [failedSend, Entry.isSent, Entry.isCalled] <;> omega

theorem Ends.counts {result : Except ApiError R}
    (hends : Ends client call result log) :
    sends log ≤ client.config.maxRetries.toNat + 2 ∧ refreshes log ≤ 1 := by
  cases hends with
  | unsent => simp
  | settled _ hcourse =>
      obtain ⟨hsends, hrefreshes⟩ := hcourse.sends_lt
      constructor <;> simp [Entry.isSent, Entry.isCalled] <;> omega
  | refused hcourse _ hrefused => exact hcourse.session_counts hrefused.counts
  | failed hcourse _ hfails => exact hcourse.session_counts hfails.counts

theorem Reaches.counts {request : Request R}
    (hreaches : Reaches client call request) :
    sends request.log ≤ client.config.maxRetries.toNat + 2 ∧
      refreshes request.log ≤ 1 := by
  cases hreaches with
  | created => simp [Request.created]
  | returned hends => exact hends.counts
  | sending hcourse | sleeping _ hcourse | panicked hcourse
  | queued hcourse | locked hcourse =>
      obtain ⟨hsends, hrefreshes⟩ := hcourse.sends_lt
      constructor <;>
        simp [failedSend, Entry.isSent, Entry.isCalled] <;> omega
  | refreshing _ hcourse | refreshed _ hcourse =>
      exact hcourse.session_counts (by simp [Entry.isSent, Entry.isCalled])

/-! ## What a send follows -/

/-- What comes before a send: nothing, a failure worth retrying, or the only
session, opened by a 401, which gave the send its token. -/
def MayResend (before : List (Entry R)) : Entry R → Prop
  | .sent request =>
      before = [] ∨
      (∃ earlier error, before = earlier ++ [.got (.error error)] ∧
        error.isRetryable = true) ∨
      ∃ earlier error token session,
        before = earlier ++ .got (.error error) :: session ∧
          error.isUnauthorized = true ∧ Renewal token session ∧
          request.bearer = some token ∧ ∀ stored, .read stored ∉ earlier
  | _ => True

theorem mayResend_of_not_sent {entry : Entry R}
    (hsent : entry.isSent = false) (before : List (Entry R)) :
    MayResend before entry := by
  cases entry with
  | sent request => simp [Entry.isSent] at hsent
  | _ => trivial

/-- Entries without a send among them follow any log. -/
theorem preceded_append_of_unsent {session : List (Entry R)}
    (hpreceded : Preceded MayResend log) (hsession : sends session = 0) :
    Preceded MayResend (log ++ session) := by
  refine hpreceded.append_of_forall session fun entry hentry before => ?_
  exact mayResend_of_not_sent
    (by simpa using List.countP_eq_zero.mp hsession entry hentry) before

theorem append_failedSend (log : List (Entry R)) (request : Outgoing)
    (error : ApiError) :
    log ++ failedSend request error =
      (log ++ [.sent request]) ++ [.got (.error error)] := by
  simp [failedSend]

theorem Course.unread
    (hcourse : Course client call attempt refreshed bearer log)
    (hrefreshed : refreshed = false)
    (stored : Except ApiError (Option Text)) : .read stored ∉ log := by
  induction hcourse with
  | first => simp
  | retried _ _ _ ih => simpa [failedSend] using ih hrefreshed
  | renewed => cases hrefreshed

theorem Course.mayResend
    (hcourse : Course client call attempt refreshed bearer log) :
    MayResend log (.sent (client.outgoing call bearer)) := by
  cases hcourse with
  | first => exact Or.inl rfl
  | retried hcourse hretryable _ =>
      exact Or.inr (Or.inl
        ⟨_, _, append_failedSend _ _ _, hretryable⟩)
  | @renewed _ used earlier _ _ _ hcourse hunauthorized hrenewal =>
      refine Or.inr (Or.inr ⟨earlier ++ [.sent (client.outgoing call used)],
        _, _, _, ?_, hunauthorized, hrenewal, rfl, ?_⟩)
      · rw [append_failedSend, List.append_assoc]
        rfl
      · intro stored
        simpa using hcourse.unread rfl stored

/-- A send after a log of the loop, and entries that are no sends. -/
theorem Course.preceded_append {session : List (Entry R)}
    (hcourse : Course client call attempt refreshed bearer log)
    (hlog : Preceded MayResend log) (hsession : sends session = 0) :
    Preceded MayResend
      (log ++ .sent (client.outgoing call bearer) :: session) := by
  have hsent : Preceded MayResend
      (log ++ [.sent (client.outgoing call bearer)]) :=
    preceded_concat.mpr ⟨hlog, hcourse.mayResend⟩
  simpa using preceded_append_of_unsent hsent hsession

theorem Course.preceded
    (hcourse : Course client call attempt refreshed bearer log) :
    Preceded MayResend log := by
  induction hcourse with
  | first => exact preceded_nil
  | retried hcourse _ _ ih =>
      exact hcourse.preceded_append ih (by simp [Entry.isSent])
  | renewed hcourse _ hrenewal ih =>
      rw [List.append_assoc]
      exact hcourse.preceded_append ih
        (by simp [Entry.isSent, hrenewal.counts.1])

theorem Ends.preceded {result : Except ApiError R}
    (hends : Ends client call result log) : Preceded MayResend log := by
  cases hends with
  | unsent => exact preceded_nil
  | settled _ hcourse =>
      exact hcourse.preceded_append hcourse.preceded (by simp [Entry.isSent])
  | refused hcourse _ hrefused =>
      rw [List.append_assoc]
      exact hcourse.preceded_append hcourse.preceded
        (by simp [Entry.isSent, hrefused.counts.1])
  | failed hcourse _ hfails =>
      rw [List.append_assoc]
      exact hcourse.preceded_append hcourse.preceded
        (by simp [Entry.isSent, hfails.counts.1])

theorem Reaches.preceded {request : Request R}
    (hreaches : Reaches client call request) :
    Preceded MayResend request.log := by
  cases hreaches with
  | created => exact preceded_nil
  | returned hends => exact hends.preceded
  | sending hcourse =>
      exact hcourse.preceded_append hcourse.preceded rfl
  | sleeping _ hcourse | panicked hcourse | queued hcourse
  | locked hcourse =>
      exact hcourse.preceded_append hcourse.preceded (by simp [Entry.isSent])
  | refreshing _ hcourse | refreshed _ hcourse =>
      simp only [List.append_assoc]
      exact hcourse.preceded_append hcourse.preceded (by simp [Entry.isSent])

/-! ## What a request returns -/

/-- The last result of a send, the failure a session without a token leaves
standing, or the session's own. -/
inductive Justified (result : Except ApiError R) : List (Entry R) → Prop where
  | unsent {error : ApiError} : result = .error error → Justified result []
  | last (earlier : List (Entry R)) :
      Justified result (earlier ++ [.got result])
  | refused (earlier : List (Entry R)) {error : ApiError}
      {session : List (Entry R)} :
      error.isUnauthorized = true → Refused session →
        result = .error error →
        Justified result (earlier ++ .got (.error error) :: session)
  | failed (earlier : List (Entry R)) {error cause : ApiError}
      {session : List (Entry R)} :
      error.isUnauthorized = true → Fails cause session →
        result = .error cause →
        Justified result (earlier ++ .got (.error error) :: session)

theorem Ends.justified {result : Except ApiError R}
    (hends : Ends client call result log) : Justified result log := by
  cases hends with
  | unsent => exact .unsent rfl
  | @settled _ _ bearer earlier _ hcourse =>
      have hlast : Justified result _ :=
        .last (earlier ++ [.sent (client.outgoing call bearer)])
      simpa using hlast
  | refused hcourse hunauthorized hrefused =>
      rw [append_failedSend, List.append_assoc]
      exact .refused _ hunauthorized hrefused rfl
  | failed hcourse hunauthorized hfails =>
      rw [append_failedSend, List.append_assoc]
      exact .failed _ hunauthorized hfails rfl

theorem Course.unsuccessful
    (hcourse : Course client call attempt refreshed bearer log) (value : R) :
    .got (.ok value) ∉ log := by
  induction hcourse with
  | first => simp
  | retried _ _ _ ih => simpa [failedSend] using ih
  | renewed _ _ hrenewal ih => cases hrenewal <;> simpa [failedSend] using ih

theorem Reaches.successful {request : Request R}
    (hreaches : Reaches client call request) {value : R}
    (hvalue : .got (.ok value) ∈ request.log) :
    request.phase = .returned (.ok value) := by
  cases hreaches with
  | created => simp [Request.created] at hvalue
  | returned hends =>
      cases hends with
      | unsent => simp at hvalue
      | settled _ hcourse =>
          simpa [hcourse.unsuccessful value, eq_comm] using hvalue
      | refused hcourse _ hrefused =>
          cases hrefused <;>
            simp [failedSend, hcourse.unsuccessful value] at hvalue
      | failed hcourse _ hfails =>
          cases hfails <;>
            simp [failedSend, hcourse.unsuccessful value] at hvalue
  | sending hcourse | sleeping _ hcourse | panicked hcourse | queued hcourse
  | locked hcourse | refreshing _ hcourse | refreshed _ hcourse =>
      simp [failedSend, hcourse.unsuccessful value] at hvalue

/-! ## Progress -/

/-- How many more events a request can take. -/
def Request.remaining (client : ApiClient) (request : Request R) : Nat :=
  let retries := client.config.maxRetries.toNat - request.attempt
  match request.phase with
  | .created => 2 * retries + 7
  | .sending => 2 * retries + if request.alreadyRefreshed then 1 else 6
  | .sleeping _ => 2 * retries + if request.alreadyRefreshed then 0 else 5
  | .queued _ => 2 * retries + 5
  | .locked _ => 2 * retries + 4
  | .refreshing _ => 2 * retries + 3
  | .refreshed _ => 2 * retries + 2
  | .returned _ | .panicked => 0

@[simp] theorem remaining_created :
    (Request.created : Request R).remaining client =
      2 * client.config.maxRetries.toNat + 7 := rfl

theorem remaining_send (request : Request R) :
    (request.send client call bearer attempt).remaining client =
      2 * (client.config.maxRetries.toNat - attempt) +
        if request.alreadyRefreshed then 1 else 6 := rfl

theorem remaining_start (request : Request R)
    (stored : Except ApiError (Option Text)) :
    (request.start client call stored).remaining client <
      2 * client.config.maxRetries.toNat + 7 := by
  unfold Request.start
  split
  · simp [Request.finish, Request.remaining]
  · split
    · simp [Request.finish, Request.remaining]
    · rw [remaining_send]
      split <;> omega

theorem remaining_settle {request : Request R}
    (hphase : request.phase = .sending) (result : Except ApiError R) :
    (request.settle client call result).remaining client <
      request.remaining client := by
  cases result with
  | ok value =>
      simp only [Request.settle, Request.finish, Request.remaining, hphase]
      split <;> omega
  | error error =>
      simp only [Request.settle]
      split_ifs with hrenews hrefresher hretries
      · simp only [Bool.and_eq_true, Bool.not_eq_true'] at hrenews
        simp [Request.remaining, hphase, hrenews.1.2]
      · simp only [Request.finish, Request.remaining, hphase]
        split <;> omega
      · cases client.backoffDelay request.attempt with
        | none =>
            simp only [Request.remaining, hphase]
            split <;> omega
        | some delay =>
            simp only [Request.remaining, hphase]
            split <;> omega
      · simp only [Request.finish, Request.remaining, hphase]
        split <;> omega

/-- A session that ends leaves at most the sends that are left. -/
theorem remaining_resume {request : Request R} {error : ApiError}
    (hrefreshed : request.alreadyRefreshed = true)
    (renewed : Except ApiError (Option Text)) :
    (request.resume client call error renewed).remaining client <
      2 * (client.config.maxRetries.toNat - request.attempt) + 2 := by
  unfold Request.resume
  split <;>
    simp [Request.finish, Request.send, Request.remaining, hrefreshed]

theorem remaining_compare {request : Request R} {error : ApiError}
    (hrefreshed : request.alreadyRefreshed = true)
    (stored : Except ApiError (Option Text)) :
    (request.compare client call error stored).remaining client <
      2 * (client.config.maxRetries.toNat - request.attempt) + 4 := by
  have hresumes (renewed : Except ApiError (Option Text)) :
      (request.resume client call error renewed).remaining client <
        2 * (client.config.maxRetries.toNat - request.attempt) + 2 :=
    remaining_resume hrefreshed renewed
  unfold Request.compare
  split
  · exact (hresumes _).trans (by omega)
  · split
    · exact (hresumes _).trans (by omega)
    · simp [Request.note, Request.remaining]

theorem remaining_conclude {request : Request R} {error : ApiError}
    (hrefreshed : request.alreadyRefreshed = true)
    (outcome : Except ApiError Unit) :
    (request.conclude client call error outcome).remaining client <
      2 * (client.config.maxRetries.toNat - request.attempt) + 3 := by
  have hresumes (renewed : Except ApiError (Option Text)) :
      (request.resume client call error renewed).remaining client <
        2 * (client.config.maxRetries.toNat - request.attempt) + 2 :=
    remaining_resume hrefreshed renewed
  unfold Request.conclude
  split
  · simp [Request.remaining]
  · split
    · exact (hresumes _).trans (by omega)
    · exact (hresumes _).trans (by omega)

theorem remaining_step {request next : Request R} {event : Event R}
    (hreaches : Reaches client call request)
    (hstep : request.step client call event = some next) :
    next.remaining client < request.remaining client := by
  cases hreaches with
  | created =>
      obtain ⟨stored, -, rfl⟩ := Request.step_of_created rfl hstep
      exact remaining_start _ stored
  | sending hcourse =>
      obtain ⟨reply, -, rfl⟩ := Request.step_of_sending rfl hstep
      exact remaining_settle rfl _
  | sleeping delay hcourse hretryable hleft =>
      obtain ⟨-, rfl⟩ := Request.step_of_sleeping rfl hstep
      rw [remaining_send]
      simp only [Request.remaining]
      split <;> omega
  | queued hcourse hunauthorized =>
      obtain ⟨-, rfl⟩ := Request.step_of_queued rfl hstep
      simp [Request.remaining]
  | locked hcourse hunauthorized =>
      obtain ⟨stored, -, rfl⟩ := Request.step_of_locked rfl hstep
      exact remaining_compare rfl stored
  | refreshing stored hcourse hunauthorized =>
      obtain ⟨outcome, -, rfl⟩ := Request.step_of_refreshing rfl hstep
      exact remaining_conclude rfl outcome
  | refreshed stored hcourse hunauthorized =>
      obtain ⟨renewed, -, rfl⟩ := Request.step_of_refreshed rfl hstep
      exact remaining_resume rfl renewed
  | panicked | returned =>
      rw [Request.step_of_isOver rfl] at hstep
      cases hstep

theorem length_le_of_run {events : List (Event R)} {request : Request R}
    (hrun : run (Request.step client call) Request.created events =
      some request) :
    events.length + request.remaining client ≤
      2 * client.config.maxRetries.toNat + 7 := by
  induction events using List.reverseRecOn generalizing request with
  | nil =>
      obtain rfl : Request.created = request := Option.some.inj hrun
      simp
  | append_singleton events event ih =>
      obtain ⟨previous, hprevious, hlast⟩ := run_concat.mp hrun
      have hbefore := ih hprevious
      have hless := remaining_step (reaches_run hprevious) hlast
      simp only [List.length_append, List.length_singleton]
      omega

/-- A request that is not over awaits something. -/
theorem step_isSome_of_not_isOver {request : Request R}
    (hover : request.phase.isOver = false) :
    ∃ event, (request.step client call event).isSome = true := by
  cases hphase : request.phase with
  | created => exact ⟨.started (.ok none), by simp [Request.step, hphase]⟩
  | sending =>
      exact ⟨.replied (.failed ⟨false, false, false⟩),
        by simp [Request.step, hphase]⟩
  | queued => exact ⟨.granted, by simp [Request.step, hphase]⟩
  | locked | refreshed =>
      exact ⟨.read (.ok none), by simp [Request.step, hphase]⟩
  | refreshing => exact ⟨.finished (.ok ()), by simp [Request.step, hphase]⟩
  | sleeping => exact ⟨.woke, by simp [Request.step, hphase]⟩
  | returned | panicked => simp [hphase, Phase.isOver] at hover

theorem Reaches.justified {request : Request R}
    (hreaches : Reaches client call request) {result : Except ApiError R}
    (hphase : request.phase = .returned result) :
    Justified result request.log := by
  cases hreaches with
  | returned hends =>
      cases hphase
      exact hends.justified
  | _ => cases hphase

theorem Reaches.overflows {request : Request R}
    (hreaches : Reaches client call request)
    (hphase : request.phase = .panicked) :
    client.backoffDelay request.attempt = none := by
  cases hreaches with
  | panicked _ _ hdelay => exact hdelay
  | _ => cases hphase

/-- What a request has done after some events: bounded sends and refreshes,
no send that its results did not call for, and a return that they justify.
It panics where the delay of a retry overflows. -/
structure Bounded (client : ApiClient) (call : Call)
    (events : List (Event R)) (request : Request R) : Prop where
  sends_le : sends request.log ≤ client.config.maxRetries.toNat + 2
  refreshes_le : refreshes request.log ≤ 1
  resends : Preceded MayResend request.log
  succeeds : ∀ value, .got (.ok value) ∈ request.log →
    request.phase = .returned (.ok value)
  returns : ∀ result, request.phase = .returned result →
    Justified result request.log
  panics : request.phase = .panicked →
    client.backoffDelay request.attempt = none
  ends : events.length ≤ 2 * client.config.maxRetries.toNat + 7
  continues : request.phase.isOver = false →
    ∃ event, (request.step client call event).isSome = true

/-- Whatever the replies, the token store and the refresher are, a request
stays within its bounds. -/
theorem request_bounded {events : List (Event R)} {request : Request R}
    (hrun : run (Request.step client call) Request.created events =
      some request) : Bounded client call events request := by
  have hreaches := reaches_run hrun
  have hlength := length_le_of_run hrun
  exact
    { sends_le := hreaches.counts.1
      refreshes_le := hreaches.counts.2
      resends := hreaches.preceded
      succeeds := fun _ hvalue => hreaches.successful hvalue
      returns := fun _ hphase => hreaches.justified hphase
      panics := hreaches.overflows
      ends := by omega
      continues := step_isSome_of_not_isOver }

def refusedStatus : StatusCode := ⟨401, by decide⟩

/-- A 401, a refresh, a failure of the server and a success. -/
def renewedCall : List (Event Unit) :=
  [.started (.ok (some [1])),
    .replied (.answered refusedStatus (.ok ()) none),
    .granted, .read (.ok (some [1])), .finished (.ok ()),
    .read (.ok (some [2])),
    .replied (.answered ⟨503, by decide⟩ (.ok ()) none),
    .woke, .replied (.answered ⟨200, by decide⟩ (.ok ()) none)]

/-- A client with one retry. -/
def retryingClient : ApiClient :=
  { config :=
      { baseUrl := [47]
        maxRetries := 1
        retryBaseDelay := ⟨300000000, by decide⟩ }
    refresher := true }

def authenticatedCall : Call :=
  { method := []
    path := [47]
    body := none
    auth := true }

theorem request_bounded_demo :
    ∃ request : Request Unit,
      request.phase = .returned (.ok ()) ∧ sends request.log = 3 ∧
        Bounded retryingClient authenticatedCall renewedCall request :=
  ⟨_, rfl, rfl, request_bounded rfl⟩

end

end Dovetail.Http
