import Dovetail.HttpRetries

/-!
# One refresh for everyone

The requests of a client share its token store and its refresh lock; each is
a machine of its own, and their steps interleave in any order.  A request
that gets the lock compares the stored token with the one it used before it
calls the refresher.
-/

namespace Dovetail.Http

open CodeUnits
open TransitionRun

variable {R : Type*}

namespace Phase

def isWaiting : Phase R → Bool
  | .queued _ | .locked _ => true
  | _ => false

def isRefreshing : Phase R → Bool
  | .refreshing _ => true
  | _ => false

/-- Inside `refresh_session`. -/
def inSession : Phase R → Bool
  | .queued _ | .locked _ | .refreshing _ | .refreshed _ => true
  | _ => false

def holdsLock : Phase R → Bool
  | .locked _ | .refreshing _ | .refreshed _ => true
  | _ => false

end Phase

/-! ## The client and its requests -/

section

variable {Id : Type*}

structure Shared (Id R : Type*) where
  requests : Id → Request R
  stored : Option Text
  lock : Option Id
  /-- Who called the refresher, in order. -/
  callers : List Id

inductive Happening (Id R : Type*) where
  | starts (id : Id) (failure : Option ApiError)
  | replies (id : Id) (reply : Reply R)
  | acquires (id : Id)
  | reads (id : Id) (failure : Option ApiError)
  /-- The refresher that a request awaits writes to the token store. -/
  | writes (id : Id) (token : Option Text)
  | finishes (id : Id) (outcome : Except ApiError Unit)
  | wakes (id : Id)

/-- The happenings that move a session. -/
def Happening.isOfSession : Happening Id R → Bool
  | .acquires _ | .reads _ _ | .finishes _ _ => true
  | _ => false

namespace Shared

/-- No request has begun, and the store holds a token. -/
def holding (token : Text) : Shared Id R :=
  { requests := fun _ => Request.created
    stored := some token
    lock := none
    callers := [] }

/-- What a read of the token store gives. -/
def getToken (shared : Shared Id R) :
    Option ApiError → Except ApiError (Option Text)
  | some failure => .error failure
  | none => .ok shared.stored

variable [DecidableEq Id]

/-- The state after a request has moved: it releases the lock where its
session is over, and calls the refresher where it now awaits it. -/
def put (shared : Shared Id R) (id : Id) (request : Request R) :
    Shared Id R :=
  { shared with
    requests := Function.update shared.requests id request
    lock :=
      if request.phase.holdsLock then some id
      else if shared.lock = some id then none
      else shared.lock
    callers :=
      if request.phase.isRefreshing then shared.callers ++ [id]
      else shared.callers }

def advance (client : ApiClient) (calls : Id → Call) (shared : Shared Id R)
    (id : Id) (event : Event R) : Option (Shared Id R) :=
  ((shared.requests id).step client (calls id) event).map (shared.put id)

def step (client : ApiClient) (calls : Id → Call) (shared : Shared Id R) :
    Happening Id R → Option (Shared Id R)
  | .starts id failure =>
      shared.advance client calls id (.started (shared.getToken failure))
  | .replies id reply => shared.advance client calls id (.replied reply)
  | .acquires id =>
      if shared.lock.isNone then shared.advance client calls id .granted
      else none
  | .reads id failure =>
      shared.advance client calls id (.read (shared.getToken failure))
  | .writes id token =>
      if (shared.requests id).phase.isRefreshing then
        some { shared with stored := token }
      else none
  | .finishes id outcome =>
      shared.advance client calls id (.finished outcome)
  | .wakes id => shared.advance client calls id .woke

end Shared

/-- The requests that a 401 sends into a session were sent under the old
token, and the refresher succeeds once it has stored the new one. -/
def Renews (calls : Id → Call) (old new : Text) (shared : Shared Id R) :
    Happening Id R → Prop
  | .replies id reply =>
      ∀ error, executeOnce reply = .error error →
        error.isUnauthorized = true → (calls id).auth = true →
        (shared.requests id).alreadyRefreshed = false →
        (shared.requests id).bearer = some old
  | .finishes _ outcome => outcome = .ok () ∧ shared.stored = some new
  | _ => True

end

/-! ## One request among them -/

/-- Sent under the token. -/
def Request.RetriedWith (token : Text) (request : Request R) : Prop :=
  ∃ sent, .sent sent ∈ request.log ∧ sent.bearer = some token

/-- Returned because the token store could not be read. -/
def Request.StoreFailed (request : Request R) : Prop :=
  ∃ cause, .read (.error cause) ∈ request.log ∧
    request.phase = .returned (.error cause)

def Request.GotUnauthorized (request : Request R) : Prop :=
  ∃ error, .got (.error error) ∈ request.log ∧ error.isUnauthorized = true

/-- What holds of a request while the old token is replaced; `called` tells
whether the refresher has been called. -/
structure Request.Follows (call : Call) (old new : Text) (called : Prop)
    (request : Request R) : Prop where
  session : request.phase.inSession = true →
    request.bearer = some old ∧ request.alreadyRefreshed = true
  afterCall : request.phase.inSession = true →
    request.phase.isWaiting = false → called
  renewed : request.alreadyRefreshed = true →
    request.phase.inSession = true ∨ (called ∧ request.RetriedWith new) ∨
      request.StoreFailed
  unseen : ¬ called → request.bearer ≠ some new
  answered : call.auth = true → request.GotUnauthorized →
    request.alreadyRefreshed = true

namespace Request

variable {client : ApiClient} {call : Call} {old new : Text} {called : Prop}
  {request : Request R} {refusal : ApiError}

theorem follows_created :
    (created : Request R).Follows call old new called where
  session := by simp [created, Phase.inSession]
  afterCall := by simp [created, Phase.inSession]
  renewed := by simp [created]
  unseen := by simp [created]
  answered := by simp [created, GotUnauthorized]

theorem Follows.of_called {earlier : Prop}
    (hfollows : request.Follows call old new earlier)
    (hcalled : earlier → called) : request.Follows call old new called where
  session := hfollows.session
  afterCall := fun hsession hwaiting =>
    hcalled (hfollows.afterCall hsession hwaiting)
  renewed := fun hrefreshed =>
    (hfollows.renewed hrefreshed).imp_right
      (Or.imp_left (And.imp_left hcalled))
  unseen := fun hnot => hfollows.unseen (mt hcalled hnot)
  answered := hfollows.answered

/-- A step outside the session keeps what the request has been through. -/
theorem Follows.move (hfollows : request.Follows call old new called)
    (hsession : request.phase.inSession = false)
    (hover : request.phase.isOver = false) (next : Request R)
    (hnext : next.phase.inSession = false)
    (hrefreshed : next.alreadyRefreshed = request.alreadyRefreshed)
    (hlog : request.log ⊆ next.log)
    (hunseen : ¬ called → next.bearer ≠ some new)
    (hanswered : call.auth = true → next.GotUnauthorized →
      request.alreadyRefreshed = true) :
    next.Follows call old new called where
  session := by simp [hnext]
  afterCall := by simp [hnext]
  renewed := by
    intro hflag
    rcases hfollows.renewed (hrefreshed ▸ hflag) with
      hin | ⟨hcalled, sent, hsent, hbearer⟩ | ⟨cause, -, hphase⟩
    · simp [hsession] at hin
    · exact Or.inr (Or.inl ⟨hcalled, sent, hlog hsent, hbearer⟩)
    · simp [hphase, Phase.isOver] at hover
  unseen := hunseen
  answered := fun hauth hgot => hrefreshed ▸ hanswered hauth hgot

/-- Leaving the session takes the new token, or a store that fails. -/
theorem follows_of_left (hsession : request.phase.inSession = false)
    (hrefreshed : request.alreadyRefreshed = true)
    (hleft : (called ∧ request.RetriedWith new) ∨ request.StoreFailed)
    (hunseen : ¬ called → request.bearer ≠ some new) :
    request.Follows call old new called where
  session := by simp [hsession]
  afterCall := by simp [hsession]
  renewed := fun _ => Or.inr hleft
  unseen := hunseen
  answered := fun _ _ => hrefreshed

theorem Follows.start (hfollows : request.Follows call old new called)
    (hphase : request.phase = .created)
    {stored : Except ApiError (Option Text)}
    (hunseen : ¬ called → stored ≠ .ok (some new)) :
    (request.start client call stored).Follows call old new called := by
  have hmove := hfollows.move (by rw [hphase]; rfl) (by rw [hphase]; rfl)
  unfold Request.start
  split
  · exact hmove _ rfl rfl (List.Subset.refl _) hfollows.unseen hfollows.answered
  · rename_i bearer hcredential
    split
    · exact hmove _ rfl rfl (List.Subset.refl _) hfollows.unseen
        hfollows.answered
    · refine hmove _ rfl rfl (List.subset_append_left _ _) ?_ ?_
      · rintro hnot rfl
        refine hunseen hnot ?_
        unfold Call.credential at hcredential
        split_ifs at hcredential with hauth
        · split at hcredential <;> simp_all
        · cases hcredential
      · rintro hauth ⟨error, hgot, hunauthorized⟩
        exact hfollows.answered hauth
          ⟨error, by simpa [send] using hgot, hunauthorized⟩

theorem Follows.wake (hfollows : request.Follows call old new called)
    {delay : Duration} (hphase : request.phase = .sleeping delay) :
    (request.send client call request.bearer (request.attempt + 1)).Follows
      call old new called := by
  refine hfollows.move (by rw [hphase]; rfl) (by rw [hphase]; rfl) _ rfl rfl
    (List.subset_append_left _ _) hfollows.unseen ?_
  rintro hauth ⟨error, hgot, hunauthorized⟩
  exact hfollows.answered hauth
    ⟨error, by simpa [send] using hgot, hunauthorized⟩

theorem Follows.settle (hfollows : request.Follows call old new called)
    (hphase : request.phase = .sending) (hrefresher : client.refresher = true)
    {result : Except ApiError R}
    (hold : ∀ error, result = .error error → error.isUnauthorized = true →
      call.auth = true → request.alreadyRefreshed = false →
      request.bearer = some old) :
    ((request.note (.got result)).settle client call result).Follows call
      old new called := by
  have hmove := hfollows.move (by rw [hphase]; rfl) (by rw [hphase]; rfl)
  have hlog := List.subset_append_left request.log [.got result]
  cases result with
  | ok value =>
      refine hmove _ rfl rfl hlog hfollows.unseen ?_
      rintro hauth ⟨error, hgot, hunauthorized⟩
      exact hfollows.answered hauth
        ⟨error, by simpa [Request.settle, finish, note] using hgot,
          hunauthorized⟩
  | error error =>
      have hanswered : ¬ (call.auth && !request.alreadyRefreshed &&
            error.isUnauthorized) = true →
          call.auth = true →
          (request.note (.got (.error error))).GotUnauthorized →
          request.alreadyRefreshed = true := by
        rintro hnot hauth ⟨found, hgot, hunauthorized⟩
        rcases List.mem_append.mp hgot with hgot | hgot
        · exact hfollows.answered hauth ⟨found, hgot, hunauthorized⟩
        · obtain rfl : found = error := by simpa using hgot
          simpa [hauth, hunauthorized] using hnot
      simp only [Request.settle]
      split_ifs with hrenews hretries
      · simp only [Bool.and_eq_true, Bool.not_eq_true'] at hrenews
        obtain ⟨⟨hauth, hfresh⟩, hunauthorized⟩ := hrenews
        have hbearer := hold error rfl hunauthorized hauth hfresh
        exact
          { session := fun _ => ⟨hbearer, rfl⟩
            afterCall := by simp [Phase.isWaiting]
            renewed := fun _ => Or.inl rfl
            unseen := hfollows.unseen
            answered := fun _ _ => rfl }
      · cases client.backoffDelay (request.note _).attempt with
        | none =>
            exact hmove _ rfl rfl hlog hfollows.unseen (hanswered hrenews)
        | some delay =>
            exact hmove _ rfl rfl hlog hfollows.unseen (hanswered hrenews)
      · exact hmove _ rfl rfl hlog hfollows.unseen (hanswered hrenews)

theorem Follows.grant (hfollows : request.Follows call old new called)
    (hphase : request.phase = .queued refusal) :
    ({ request with phase := .locked refusal } : Request R).Follows call old
      new called where
  session := fun _ => hfollows.session (by rw [hphase]; rfl)
  afterCall := by simp [Phase.isWaiting]
  renewed := fun _ => Or.inl rfl
  unseen := hfollows.unseen
  answered := hfollows.answered

theorem Follows.conclude (hfollows : request.Follows call old new called)
    (hphase : request.phase = .refreshing refusal) :
    ((request.note (.finished (.ok ()))).conclude client call refusal
      (.ok ())).Follows call old new called where
  session := fun _ => hfollows.session (by rw [hphase]; rfl)
  afterCall := fun _ _ =>
    hfollows.afterCall (by rw [hphase]; rfl) (by rw [hphase]; rfl)
  renewed := fun _ => Or.inl rfl
  unseen := hfollows.unseen
  answered := fun _ _ => (hfollows.session (by rw [hphase]; rfl)).2

/-- Sending under the new token, from inside the session. -/
theorem Follows.send (hfollows : request.Follows call old new called)
    (hsession : request.phase.inSession = true) (hcalled : called)
    (entry : Entry R) :
    ((request.note entry).send client call (some new)
      request.attempt).Follows call old new called :=
  follows_of_left rfl (hfollows.session hsession).2
    (Or.inl ⟨hcalled, client.outgoing call (some new),
      by simp [Request.send], rfl⟩)
    fun hnot => absurd hcalled hnot

/-- A store that cannot be read ends the session. -/
theorem Follows.fail (hfollows : request.Follows call old new called)
    (hsession : request.phase.inSession = true) (cause : ApiError) :
    ((request.note (.read (.error cause))).finish (.error cause)).Follows
      call old new called :=
  follows_of_left rfl (hfollows.session hsession).2
    (Or.inr ⟨cause, by simp [finish, note], rfl⟩) hfollows.unseen

/-- A request that finds its own token calls the refresher. -/
theorem Follows.refresh (hfollows : request.Follows call old new called)
    (hphase : request.phase = .locked refusal) :
    ({ (request.note (.read (.ok (some old)))).note .called with
      phase := .refreshing refusal } : Request R).Follows call old new
        True where
  session := fun _ => hfollows.session (by rw [hphase]; rfl)
  afterCall := fun _ _ => trivial
  renewed := fun _ => Or.inl rfl
  unseen := by simp
  answered := fun _ _ => (hfollows.session (by rw [hphase]; rfl)).2

end Request

/-! ## All of them -/

section

variable {Id : Type*} {client : ApiClient} {calls : Id → Call}
  {old new : Text} {shared : Shared Id R}

/-- Before the refresher is called the store holds the old token; from the
end of its only call on, the new one. -/
structure Flight (calls : Id → Call) (old new : Text)
    (shared : Shared Id R) : Prop where
  follows : ∀ id, (shared.requests id).Follows (calls id) old new
    (shared.callers ≠ [])
  lock_iff : ∀ id, shared.lock = some id ↔
    (shared.requests id).phase.holdsLock = true
  callers_le : shared.callers.length ≤ 1
  before : shared.callers = [] → shared.stored = some old
  after : shared.callers ≠ [] →
    (∀ id, (shared.requests id).phase.isRefreshing = false) →
      shared.stored = some new

theorem flight_holding :
    Flight calls old new (Shared.holding old : Shared Id R) where
  follows := fun _ => Request.follows_created
  lock_iff := by simp [Shared.holding, Request.created, Phase.holdsLock]
  callers_le := by simp [Shared.holding]
  before := fun _ => rfl
  after := by simp [Shared.holding]

theorem Phase.holdsLock_of_isRefreshing {phase : Phase R}
    (hrefreshing : phase.isRefreshing = true) : phase.holdsLock = true := by
  cases phase <;> simp_all [isRefreshing, holdsLock]

/-- Whoever holds the lock holds it alone. -/
theorem Flight.holder_eq (hflight : Flight calls old new shared) {id other : Id}
    (hid : (shared.requests id).phase.holdsLock = true)
    (hother : (shared.requests other).phase.holdsLock = true) :
    other = id := by
  have hlock := (hflight.lock_iff id).mpr hid
  rw [(hflight.lock_iff other).mpr hother] at hlock
  exact Option.some.inj hlock

/-- Nobody refreshes while another request holds the lock. -/
theorem Flight.stored_of_holder (hflight : Flight calls old new shared)
    {id : Id} (hholds : (shared.requests id).phase.holdsLock = true)
    (hidle : (shared.requests id).phase.isRefreshing = false)
    (hcalled : shared.callers ≠ []) : shared.stored = some new := by
  refine hflight.after hcalled fun other => ?_
  by_contra hrefreshing
  have hother := Phase.holdsLock_of_isRefreshing (by simpa using hrefreshing)
  rw [hflight.holder_eq hholds hother] at hrefreshing
  exact hrefreshing hidle

theorem Flight.getToken_ne (hflight : Flight calls old new shared)
    (hdiffer : old ≠ new) (hcallers : ¬ shared.callers ≠ [])
    (failure : Option ApiError) :
    shared.getToken failure ≠ .ok (some new) := by
  cases failure with
  | some cause => simp [Shared.getToken]
  | none => simpa [Shared.getToken, hflight.before (not_not.mp hcallers)]

variable [DecidableEq Id]

theorem callers_put_ne_nil {id : Id} {next : Request R}
    (hcallers : shared.callers ≠ []) :
    (shared.put id next).callers ≠ [] := by
  simp only [Shared.put]
  split_ifs
  · simp
  · exact hcallers

/-- What the move of one request must keep for the whole to be kept. -/
theorem Flight.put (hflight : Flight calls old new shared) {id : Id}
    {next : Request R}
    (hlock : next.phase.holdsLock = true →
      shared.lock = none ∨ shared.lock = some id)
    (hfirst : next.phase.isRefreshing = true → shared.callers = [])
    (hfinished : (shared.requests id).phase.isRefreshing = true →
      shared.stored = some new)
    (hnext : next.Follows (calls id) old new
      ((shared.put id next).callers ≠ [])) :
    Flight calls old new (shared.put id next) where
  follows := by
    intro other
    by_cases hsame : other = id
    · subst hsame
      simpa [Shared.put] using hnext
    · have hother : (shared.put id next).requests other =
          shared.requests other := Function.update_of_ne hsame _ _
      rw [hother]
      exact (hflight.follows other).of_called callers_put_ne_nil
  lock_iff := by
    intro other
    have hold := hflight.lock_iff other
    by_cases hsame : other = id
    · subst hsame
      simp only [Shared.put, Function.update_self]
      split_ifs with hholds hlocked <;> simp_all
    · simp only [Shared.put, Function.update_of_ne hsame]
      rw [← hold]
      split_ifs with hholds hlocked
      · rcases hlock hholds with hnone | hsome
        · simp [hnone, Ne.symm hsame]
        · simp [hsome]
      · simp [hlocked, Ne.symm hsame]
      · rfl
  callers_le := by
    simp only [Shared.put]
    split
    · rename_i hrefreshing
      simp [hfirst hrefreshing]
    · exact hflight.callers_le
  before := by
    simp only [Shared.put]
    split
    · simp
    · exact hflight.before
  after := by
    intro hcalled hnone
    have hself : next.phase.isRefreshing = false := by
      simpa [Shared.put] using hnone id
    have hcalledBefore : shared.callers ≠ [] := by
      simpa [Shared.put, hself] using hcalled
    by_cases hwas : (shared.requests id).phase.isRefreshing = true
    · exact hfinished hwas
    · refine hflight.after hcalledBefore fun other => ?_
      by_cases hsame : other = id
      · subst hsame
        simpa using hwas
      · simpa [Shared.put, Function.update_of_ne hsame] using hnone other

theorem Phase.isRefreshing_eq_false {phase : Phase R}
    (hholds : phase.holdsLock = false) : phase.isRefreshing = false := by
  cases phase <;> simp_all [holdsLock, isRefreshing]

/-- A request that is without the lock after its move. -/
theorem Flight.put_unlocked (hflight : Flight calls old new shared) {id : Id}
    {next : Request R} (hholds : next.phase.holdsLock = false)
    (hwas : (shared.requests id).phase.isRefreshing = false)
    (hnext : next.Follows (calls id) old new (shared.callers ≠ [])) :
    Flight calls old new (shared.put id next) := by
  have hidle := Phase.isRefreshing_eq_false hholds
  refine hflight.put (by simp [hholds]) (by simp [hidle]) (by simp [hwas]) ?_
  simpa [Shared.put, hidle] using hnext

/-- What the state lets an event be. -/
def Event.Fits (calls : Id → Call) (old new : Text) (shared : Shared Id R)
    (id : Id) : Event R → Prop
  | .started stored | .read stored =>
      ∃ failure, stored = shared.getToken failure
  | .granted => shared.lock = none
  | .replied reply => Renews calls old new shared (.replies id reply)
  | .finished outcome => outcome = .ok () ∧ shared.stored = some new
  | .woke => True

theorem holdsLock_start {call : Call} (request : Request R)
    (stored : Except ApiError (Option Text)) :
    (request.start client call stored).phase.holdsLock = false := by
  unfold Request.start
  split
  · rfl
  · split <;> rfl

theorem holdsLock_settle {call : Call} (request : Request R)
    (result : Except ApiError R) :
    (request.settle client call result).phase.holdsLock = false := by
  cases result with
  | ok value => rfl
  | error error =>
      simp only [Request.settle]
      split_ifs
      · rfl
      · rfl
      · cases client.backoffDelay request.attempt <;> rfl
      · rfl

/-- The first to read the store under the lock calls the refresher; who
reads it later finds the new token. -/
theorem flight_compare (hdiffer : old ≠ new)
    (hflight : Flight calls old new shared) {id : Id} {refusal : ApiError}
    (hphase : (shared.requests id).phase = .locked refusal)
    (failure : Option ApiError) :
    Flight calls old new (shared.put id
      (((shared.requests id).note (.read (shared.getToken failure))).compare
        client (calls id) refusal (shared.getToken failure))) := by
  have hfollows := hflight.follows id
  have hin : (shared.requests id).phase.inSession = true := by
    rw [hphase]; rfl
  have hholds : (shared.requests id).phase.holdsLock = true := by
    rw [hphase]; rfl
  have hidle : (shared.requests id).phase.isRefreshing = false := by
    rw [hphase]; rfl
  obtain ⟨hbearer, -⟩ := hfollows.session hin
  cases failure with
  | some cause =>
      exact hflight.put_unlocked rfl hidle (hfollows.fail hin cause)
  | none =>
      simp only [Shared.getToken, Request.compare]
      by_cases hcallers : shared.callers = []
      · have hnone : Request.replacement (some old) (some old) = none := by
          simp [Request.replacement]
        have hcalled : shared.callers ++ [id] ≠ [] := by simp
        simp only [Request.note, hflight.before hcallers, hbearer, hnone]
        refine hflight.put (fun _ => Or.inr ((hflight.lock_iff id).mpr hholds))
          (fun _ => hcallers) (by simp [hidle]) ?_
        exact hbearer ▸ (hfollows.refresh hphase).of_called fun _ => hcalled
      · have hstored := hflight.stored_of_holder hholds hidle hcallers
        have hsome : Request.replacement (some old) (some new) = some new :=
          Request.replacement_eq_some_iff.mpr ⟨rfl, old, rfl, hdiffer.symm⟩
        simp only [Request.note, hstored, hbearer, hsome]
        exact hflight.put_unlocked rfl hidle
          (hbearer ▸ hfollows.send hin hcallers _)

theorem flight_resume (hflight : Flight calls old new shared) {id : Id}
    {refusal : ApiError}
    (hphase : (shared.requests id).phase = .refreshed refusal)
    (failure : Option ApiError) :
    Flight calls old new (shared.put id
      (((shared.requests id).note (.read (shared.getToken failure))).resume
        client (calls id) refusal (shared.getToken failure))) := by
  have hfollows := hflight.follows id
  have hin : (shared.requests id).phase.inSession = true := by
    rw [hphase]; rfl
  have hidle : (shared.requests id).phase.isRefreshing = false := by
    rw [hphase]; rfl
  cases failure with
  | some cause =>
      exact hflight.put_unlocked rfl hidle (hfollows.fail hin cause)
  | none =>
      have hcalled := hfollows.afterCall hin (by rw [hphase]; rfl)
      have hstored := hflight.stored_of_holder (by rw [hphase]; rfl) hidle
        hcalled
      simp only [Shared.getToken, hstored]
      exact hflight.put_unlocked rfl hidle (hfollows.send hin hcalled _)

theorem flight_advance (hdiffer : old ≠ new)
    (hrefresher : client.refresher = true)
    (hflight : Flight calls old new shared) {id : Id} {event : Event R}
    {next : Request R} (hfits : event.Fits calls old new shared id)
    (hstep : (shared.requests id).step client (calls id) event = some next) :
    Flight calls old new (shared.put id next) := by
  have hfollows := hflight.follows id
  cases hphase : (shared.requests id).phase with
  | created =>
      obtain ⟨stored, rfl, rfl⟩ := Request.step_of_created hphase hstep
      obtain ⟨failure, rfl⟩ := hfits
      exact hflight.put_unlocked (holdsLock_start _ _) (by rw [hphase]; rfl)
        (hfollows.start hphase fun hcallers =>
          hflight.getToken_ne hdiffer hcallers failure)
  | sending =>
      obtain ⟨reply, rfl, rfl⟩ := Request.step_of_sending hphase hstep
      exact hflight.put_unlocked (holdsLock_settle _ _) (by rw [hphase]; rfl)
        (hfollows.settle hphase hrefresher hfits)
  | queued refusal =>
      obtain ⟨rfl, rfl⟩ := Request.step_of_queued hphase hstep
      refine hflight.put (fun _ => Or.inl hfits) (by simp [Phase.isRefreshing])
        (by simp [hphase, Phase.isRefreshing]) ?_
      exact (hfollows.grant hphase).of_called callers_put_ne_nil
  | locked refusal =>
      obtain ⟨stored, rfl, rfl⟩ := Request.step_of_locked hphase hstep
      obtain ⟨failure, rfl⟩ := hfits
      exact flight_compare hdiffer hflight hphase failure
  | refreshing refusal =>
      obtain ⟨outcome, rfl, rfl⟩ := Request.step_of_refreshing hphase hstep
      obtain ⟨rfl, hstored⟩ := hfits
      refine hflight.put (fun _ => Or.inr ?_)
        (by simp [Request.conclude, Phase.isRefreshing]) (fun _ => hstored) ?_
      · exact (hflight.lock_iff id).mpr (by rw [hphase]; rfl)
      · exact (hfollows.conclude hphase).of_called callers_put_ne_nil
  | refreshed refusal =>
      obtain ⟨renewed, rfl, rfl⟩ := Request.step_of_refreshed hphase hstep
      obtain ⟨failure, rfl⟩ := hfits
      exact flight_resume hflight hphase failure
  | sleeping delay =>
      obtain ⟨rfl, rfl⟩ := Request.step_of_sleeping hphase hstep
      exact hflight.put_unlocked rfl (by rw [hphase]; rfl)
        (hfollows.wake hphase)
  | returned | panicked =>
      rw [Request.step_of_isOver (by rw [hphase]; rfl)] at hstep
      cases hstep

theorem flight_step (hdiffer : old ≠ new)
    (hrefresher : client.refresher = true) {happening : Happening Id R}
    {next : Shared Id R} (hflight : Flight calls old new shared)
    (hrenews : Renews calls old new shared happening)
    (hstep : shared.step client calls happening = some next) :
    Flight calls old new next := by
  have hadvance {id : Id} {event : Event R}
      (hmove : shared.advance client calls id event = some next)
      (hfits : event.Fits calls old new shared id) :
      Flight calls old new next := by
    obtain ⟨request, hrequest, rfl⟩ := Option.map_eq_some_iff.mp hmove
    exact flight_advance hdiffer hrefresher hflight hfits hrequest
  cases happening with
  | starts id failure => exact hadvance hstep ⟨failure, rfl⟩
  | replies id reply => exact hadvance hstep hrenews
  | acquires id =>
      simp only [Shared.step, Option.isNone_iff_eq_none,
        Option.ite_none_right_eq_some] at hstep
      exact hadvance hstep.2 hstep.1
  | reads id failure => exact hadvance hstep ⟨failure, rfl⟩
  | finishes id outcome => exact hadvance hstep hrenews
  | wakes id => exact hadvance hstep trivial
  | writes id token =>
      simp only [Shared.step, Option.ite_none_right_eq_some,
        Option.some.injEq] at hstep
      obtain ⟨hrefreshing, rfl⟩ := hstep
      have hcalled : shared.callers ≠ [] :=
        (hflight.follows id).afterCall
          (by cases hphase : (shared.requests id).phase <;>
            simp_all [Phase.isRefreshing, Phase.inSession])
          (by cases hphase : (shared.requests id).phase <;>
            simp_all [Phase.isRefreshing, Phase.isWaiting])
      exact
        { follows := hflight.follows
          lock_iff := hflight.lock_iff
          callers_le := hflight.callers_le
          before := fun hnone => absurd hnone hcalled
          after := fun _ hidle => by simp [hidle id] at hrefreshing }

theorem flight_run (hdiffer : old ≠ new)
    (hrefresher : client.refresher = true) {events : List (Happening Id R)}
    (hrenews : EveryStep (Shared.step client calls) (Shared.holding old)
      (Renews calls old new) events)
    (hrun : run (Shared.step client calls) (Shared.holding old) events =
      some shared) : Flight calls old new shared := by
  induction events using List.reverseRecOn generalizing shared with
  | nil =>
      obtain rfl := Option.some.inj hrun
      exact flight_holding
  | append_singleton events happening ih =>
      obtain ⟨previous, hprevious, hlast⟩ := run_concat.mp hrun
      obtain ⟨hbefore, hhappening⟩ := (everyStep_concat hprevious).mp hrenews
      exact flight_step hdiffer hrefresher (ih hbefore hprevious) hhappening
        hlast

theorem callers_prefix_of_step {happening : Happening Id R}
    {next : Shared Id R}
    (hstep : shared.step client calls happening = some next) :
    shared.callers <+: next.callers := by
  have hadvance {id : Id} {event : Event R}
      (hmove : shared.advance client calls id event = some next) :
      shared.callers <+: next.callers := by
    obtain ⟨request, -, rfl⟩ := Option.map_eq_some_iff.mp hmove
    simp only [Shared.put]
    split_ifs
    · exact List.prefix_append _ _
    · exact List.prefix_rfl
  cases happening with
  | acquires id =>
      simp only [Shared.step, Option.ite_none_right_eq_some] at hstep
      exact hadvance hstep.2
  | writes id token =>
      simp only [Shared.step, Option.ite_none_right_eq_some,
        Option.some.injEq] at hstep
      obtain ⟨-, rfl⟩ := hstep
      exact List.prefix_rfl
  | _ => exact hadvance hstep

theorem callers_prefix_of_run {events : List (Happening Id R)}
    {last : Shared Id R}
    (hrun : run (Shared.step client calls) shared events = some last) :
    shared.callers <+: last.callers :=
  run_invariant (P := fun state => shared.callers <+: state.callers)
    List.prefix_rfl
    (fun _ _ _ hbefore hstep => hbefore.trans (callers_prefix_of_step hstep))
    hrun

/-- While a session is under way some request can take its next step. -/
theorem Flight.progress (hflight : Flight calls old new shared) {id : Id}
    (hsession : (shared.requests id).phase.inSession = true) :
    ∃ happening : Happening Id R, happening.isOfSession = true ∧
      (shared.step client calls happening).isSome = true := by
  cases hlock : shared.lock with
  | none =>
      have hfree := mt (hflight.lock_iff id).mpr (by simp [hlock])
      refine ⟨.acquires id, rfl, ?_⟩
      cases hphase : (shared.requests id).phase <;>
        simp_all [Phase.inSession, Phase.holdsLock, Shared.step,
          Shared.advance, Request.step]
  | some holder =>
      have hholds := (hflight.lock_iff holder).mp hlock
      cases hphase : (shared.requests holder).phase with
      | locked | refreshed =>
          exact ⟨.reads holder none, rfl,
            by simp [Shared.step, Shared.advance, Request.step, hphase]⟩
      | refreshing =>
          exact ⟨.finishes holder (.ok ()), rfl,
            by simp [Shared.step, Shared.advance, Request.step, hphase]⟩
      | _ => simp [hphase, Phase.holdsLock] at hholds

/-- One call of the refresher serves every request. -/
structure SingleFlight (client : ApiClient) (calls : Id → Call)
    (old new : Text) (events : List (Happening Id R))
    (shared : Shared Id R) : Prop where
  callers_le : shared.callers.length ≤ 1
  retries : ∀ id, (calls id).auth = true →
    (shared.requests id).GotUnauthorized →
      (shared.requests id).phase.inSession = true ∨
        (shared.callers.length = 1 ∧
          (shared.requests id).RetriedWith new) ∨
        (shared.requests id).StoreFailed
  /-- Once a request holds the new token nobody calls the refresher. -/
  observed : ∀ before after earlier, events = before ++ after →
    run (Shared.step client calls) (Shared.holding old) before =
      some earlier →
    ∀ id, (earlier.requests id).bearer = some new →
      shared.callers = earlier.callers
  progress : ∀ id, (shared.requests id).phase.inSession = true →
    ∃ happening : Happening Id R, happening.isOfSession = true ∧
      (shared.step client calls happening).isSome = true

/-- However the requests that hold the old token interleave, a refresher that
succeeds is called once, and each of them retries under the new one. -/
theorem single_flight (hdiffer : old ≠ new)
    (hrefresher : client.refresher = true) {events : List (Happening Id R)}
    (hrenews : EveryStep (Shared.step client calls) (Shared.holding old)
      (Renews calls old new) events)
    (hrun : run (Shared.step client calls) (Shared.holding old) events =
      some shared) : SingleFlight client calls old new events shared := by
  have hflight := flight_run hdiffer hrefresher hrenews hrun
  refine
    { callers_le := hflight.callers_le
      retries := ?_
      observed := ?_
      progress := fun id => hflight.progress }
  · intro id hauth hgot
    have hfollows := hflight.follows id
    have hone : shared.callers ≠ [] → shared.callers.length = 1 := by
      intro hcalled
      have hpositive := List.length_pos_iff.mpr hcalled
      have hle := hflight.callers_le
      omega
    exact (hfollows.renewed (hfollows.answered hauth hgot)).imp_right
      (Or.imp_left (And.imp_left hone))
  · rintro before after earlier rfl hearlier id hbearer
    have hbefore := flight_run hdiffer hrefresher hrenews.of_append hearlier
    have hcalled : earlier.callers ≠ [] := by
      by_contra hnone
      exact (hbefore.follows id).unseen (by simpa using hnone) hbearer
    rw [run_append_of_eq_some hearlier] at hrun
    obtain ⟨more, hmore⟩ := callers_prefix_of_run hrun
    have hle := hflight.callers_le
    have hpositive := List.length_pos_iff.mpr hcalled
    rw [← hmore, List.length_append] at hle
    have hnone : more = [] := List.length_eq_zero_iff.mp (by omega)
    simpa [hnone] using hmore.symm

/-- Two requests that are both refused before either gets the lock. -/
def bothRefused : List (Happening Bool Unit) :=
  [.starts true none, .starts false none,
    .replies true (.answered refusedStatus (.ok ()) none),
    .replies false (.answered refusedStatus (.ok ()) none),
    .acquires false, .reads false none, .writes false (some [2]),
    .finishes false (.ok ()), .reads false none,
    .acquires true, .reads true none]

theorem single_flight_demo :
    ∃ shared : Shared Bool Unit, shared.callers = [false] ∧
      (∀ id, (shared.requests id).bearer = some [2]) ∧
      SingleFlight retryingClient (fun _ => authenticatedCall) [1] [2]
        bothRefused shared := by
  refine ⟨_, rfl, by decide, single_flight (by decide) rfl ?_ rfl⟩
  iterate 2 refine (everyStep_cons rfl).mpr ⟨trivial, ?_⟩
  iterate 2
    refine (everyStep_cons rfl).mpr ⟨fun _ _ _ _ _ => rfl, ?_⟩
  iterate 3 refine (everyStep_cons rfl).mpr ⟨trivial, ?_⟩
  refine (everyStep_cons rfl).mpr ⟨⟨rfl, rfl⟩, ?_⟩
  iterate 3 refine (everyStep_cons rfl).mpr ⟨trivial, ?_⟩
  exact everyStep_nil

end

end Dovetail.Http
