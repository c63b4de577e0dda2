import Dovetail.FallibleSteps
import Dovetail.UpdaterFlow

/-!
# Fetching over https

`HttpArtifactFetcher` follows redirects by hand, so that nothing leaves the
machine in the clear, and stops reading a body at its ceiling.  What a server
answers may depend on all it was asked before.  The status of the last answer
is handed on, whatever it is.
-/

namespace Dovetail.Updater

open CodeUnits FallibleSteps

/-! ## What a server does -/

/-- The urls of the language: a relative one takes the scheme of the one it
is resolved against. -/
structure Uris (Uri : Type) where
  scheme : Uri → Text
  toText : Uri → Text
  parse : Text → Except Text Uri
  resolveUri : Uri → Uri → Uri

/-- What becomes of something that is waited for. -/
inductive Settled (α : Type) where
  | value (value : α)
  | failed (description : Text)
  | silent

/-- What a fetch is interrupted by.  Without a timeout it may never end. -/
inductive Interruption where
  | failure (failure : UpdateFailure)
  | timeout (seconds : Nat)
  | other (description : Text)
  | waiting
  deriving DecidableEq

/-- The answer to a request.  The length is negative where the headers name
none; reading the location throws where there is more than one; `ending` is
what follows the last chunk. -/
structure HttpResponse where
  statusCode : Nat
  contentLength : Int
  location : Except Text (Option Text)
  chunks : List Bytes
  ending : Settled Unit
  drained : Settled Unit

/-- A server, and the network before it. -/
structure HttpServer (Uri : Type) where
  connects : List Uri → Uri → Settled Unit
  responds : List Uri → Uri → Settled HttpResponse

/-- What a fetch does that can be seen from outside. -/
inductive FetchEvent (Uri : Type) where
  | requested (uri : Uri)
  | discarded
  | reported (received : Nat) (total : Option Int)

def requests {Uri : Type} (events : List (FetchEvent Uri)) : List Uri :=
  events.filterMap fun
    | .requested uri => some uri
    | _ => none

/-! ## The fetcher -/

structure HttpArtifactFetcher where
  maximumBytes : Int
  timeout : Option Nat

namespace HttpArtifactFetcher

def maximumRedirects : Nat := 5

def isRedirect (status : Nat) : Bool :=
  status == 301 || status == 302 || status == 303 || status == 307 ||
    status == 308

def refuse {α : Type} (message : Text) (remedy : Option Text) :
    Except Interruption α :=
  .error (.failure ⟨message, remedy⟩)

variable {Uri : Type} (uris : Uris Uri) (fetcher : HttpArtifactFetcher)

def bounded {α : Type} : Settled α → Except Interruption α
  | .value value => .ok value
  | .failed description => .error (.other description)
  | .silent =>
      match fetcher.timeout with
      | some seconds => .error (.timeout seconds)
      | none => .error .waiting

/-- The chunks of the body, as long as they stay under the ceiling. -/
def collect (total : Option Int) (ending : Settled Unit) :
    Bytes → List Bytes → Except Interruption Bytes × List (FetchEvent Uri)
  | collected, [] => ((fetcher.bounded ending).map fun _ => collected, [])
  | collected, chunk :: rest =>
      let grown := collected ++ chunk
      if (grown.length : Int) > fetcher.maximumBytes then
        (refuse (text "the download passed the " ++
            text (toString fetcher.maximumBytes) ++
            text " ceiling mid stream.")
          (some (text "Nothing was written to disk.")), [])
      else
        let (body, events) := collect total ending grown rest
        (body, .reported grown.length total :: events)

/-- The length the headers declare. -/
def total (response : HttpResponse) : Option Int :=
  if response.contentLength ≥ 0 then some response.contentLength else none

def read (response : HttpResponse) :
    Except Interruption FetchedBody × List (FetchEvent Uri) :=
  if response.statusCode = 204 then (.ok ⟨204, []⟩, [])
  else if (total response).any (· > fetcher.maximumBytes) then
    (refuse (text "the artefact declares " ++
        text (toString response.contentLength) ++ text " bytes, over the " ++
        text (toString fetcher.maximumBytes) ++ text " ceiling.") none,
      [.discarded])
  else
    let (bytes, events) :=
      fetcher.collect (total response) response.ending [] response.chunks
    (bytes.map fun bytes => ⟨response.statusCode, bytes⟩, events)

/-- The location of a redirect, whose body is drained first. -/
def locationOf (current : Uri) (response : HttpResponse) :
    Except Interruption Text := do
  fetcher.bounded response.drained
  let location ← response.location.mapError .other
  match location with
  | some (unit :: rest) => .ok (unit :: rest)
  | _ =>
      refuse (uris.toText current ++ text " answered " ++
          text (toString response.statusCode) ++ text " with no Location.")
        (some (text "A redirect without a destination is a broken endpoint."))

def nextHop (current : Uri) (location : Text) : Except Interruption Uri := do
  let parsed ← (uris.parse location).mapError .other
  let next := uris.resolveUri current parsed
  if uris.scheme next ≠ text "https" then
    refuse (uris.toText current ++ text " redirected to " ++
        uris.toText next ++ text ", which is not https.")
      (some (text "An update endpoint has to stay on https end to end. A redirect to a cleartext mirror lets anyone on the path rewrite the manifest, and the signature only covers the artefact bytes. Nothing was fetched over the cleartext hop."))
  else .ok next

def exchange (server : HttpServer Uri) (asked : List Uri) (current : Uri) :
    Except Interruption HttpResponse := do
  fetcher.bounded (server.connects asked current)
  fetcher.bounded (server.responds asked current)

/-- The loop over the hops, with those that are left. -/
def follow (server : HttpServer Uri) (url : Uri) :
    Nat → List Uri → Uri →
      Except Interruption FetchedBody × List (FetchEvent Uri)
  | left, asked, current =>
      match fetcher.exchange server asked current with
      | .error interruption => (.error interruption, [.requested current])
      | .ok response =>
          if !isRedirect response.statusCode then
            let (body, events) := fetcher.read response
            (body, .requested current :: events)
          else
            match fetcher.locationOf uris current response, left with
            | .error interruption, _ =>
                (.error interruption, [.requested current])
            | .ok _, 0 =>
                (refuse (uris.toText url ++ text " redirected more than " ++
                    text (toString maximumRedirects) ++ text " times.")
                  (some (text
                    "An endpoint in a redirect loop serves nobody.")),
                  [.requested current])
            | .ok location, left + 1 =>
                match nextHop uris current location with
                | .error interruption =>
                    (.error interruption, [.requested current])
                | .ok next =>
                    let (body, events) :=
                      follow server url left (asked ++ [current]) next
                    (body, .requested current :: events)

def fetch (server : HttpServer Uri) (url : Uri) :
    Except Interruption FetchedBody × List (FetchEvent Uri) :=
  if uris.scheme url ≠ text "https" then
    (refuse (text "refusing to fetch " ++ uris.toText url ++ text " over " ++
        uris.scheme url ++ text ".")
      (some (text "Only https carries an update.")), [])
  else
    let (body, events) := fetcher.follow uris server url maximumRedirects [] url
    (body.mapError fun
      | .timeout seconds =>
          .failure ⟨uris.toText url ++ text " did not answer within " ++
              text (toString seconds) ++ text "s.",
            some (text "Nothing arrived in that window — the host is down, filtered, or that slow. A shipped client would wait as long as the OS lets it.")⟩
      | interruption => interruption, events)

/-! ## The body -/

@[simp] theorem requests_requested (uri : Uri)
    (events : List (FetchEvent Uri)) :
    requests (.requested uri :: events) = uri :: requests events := rfl

variable {uris fetcher}

theorem bounded_eq_ok_iff {α : Type} {settled : Settled α} {value : α} :
    fetcher.bounded settled = .ok value ↔ settled = .value value := by
  unfold bounded
  cases settled with
  | value found => simp
  | failed description => simp
  | silent => cases fetcher.timeout <;> simp

/-- What was collected before is kept, and the ceiling holds after every
chunk. -/
theorem collect_eq {total : Option Int} {ending : Settled Unit}
    {collected : Bytes} {chunks : List Bytes}
    {outcome : Except Interruption Bytes} {events : List (FetchEvent Uri)}
    (hfits : (collected.length : Int) ≤ max fetcher.maximumBytes 0)
    (hcollect : fetcher.collect total ending collected chunks =
      (outcome, events)) :
    requests events = [] ∧ ∀ body, outcome = .ok body →
      body = collected ++ chunks.flatten ∧
        (body.length : Int) ≤ max fetcher.maximumBytes 0 := by
  induction chunks generalizing collected events with
  | nil =>
      simp only [collect, Prod.mk.injEq] at hcollect
      rcases hcollect with ⟨rfl, rfl⟩
      constructor
      · rfl
      · intro body hbody
        cases hending : fetcher.bounded ending with
        | error interruption =>
            rw [hending] at hbody
            cases hbody
        | ok done =>
            rw [hending] at hbody
            cases hbody
            exact ⟨by simp, hfits⟩
  | cons chunk rest ih =>
      unfold collect at hcollect
      dsimp only at hcollect
      split at hcollect
      · cases hcollect
        constructor
        · rfl
        · intro body hbody
          cases hbody
      · next hgrown =>
          rcases Prod.mk.inj hcollect with ⟨houtcome, rfl⟩
          have hrest := ih (by omega) (Prod.ext houtcome rfl)
          rw [List.append_assoc] at hrest
          exact hrest

/-- The body that is returned is the whole one, under the ceiling, with the
status it came with. -/
theorem read_eq {response : HttpResponse}
    {outcome : Except Interruption FetchedBody}
    {events : List (FetchEvent Uri)}
    (hread : fetcher.read response = (outcome, events)) :
    requests events = [] ∧ ∀ body, outcome = .ok body →
      body.statusCode = response.statusCode ∧
        (body.bytes.length : Int) ≤ max fetcher.maximumBytes 0 ∧
        body.bytes =
          if response.statusCode = 204 then [] else response.chunks.flatten := by
  unfold read at hread
  split at hread
  · next hempty =>
      cases hread
      constructor
      · rfl
      · intro body hbody
        cases hbody
        rw [if_pos hempty]
        exact ⟨hempty.symm, le_max_right _ _, rfl⟩
  · next hfilled =>
      rw [if_neg hfilled]
      split at hread
      · cases hread
        constructor
        · rfl
        · intro body hbody
          cases hbody
      · rcases hcollect : fetcher.collect (total response) response.ending []
          response.chunks with ⟨bytes, reported⟩
        rw [hcollect] at hread
        cases hread
        have hcollected := collect_eq (by simp) hcollect
        constructor
        · exact hcollected.1
        · intro body hbody
          cases bytes with
          | error interruption => cases hbody
          | ok bytes =>
              cases hbody
              have hwhole := hcollected.2 bytes rfl
              exact ⟨rfl, hwhole.2, hwhole.1⟩

/-! ## The hops -/

/-- The body is the whole of an answer that is no redirect, under the
ceiling. -/
structure BodyOf (response : HttpResponse) (body : FetchedBody) : Prop where
  last : isRedirect response.statusCode = false
  status : body.statusCode = response.statusCode
  fits : (body.bytes.length : Int) ≤ max fetcher.maximumBytes 0
  whole : body.bytes =
    if response.statusCode = 204 then [] else response.chunks.flatten

variable (uris fetcher)

/-- Requests over https alone, no more of them than are left, and a body
that answers the last. -/
structure Stays (server : HttpServer Uri) (left : Nat) (asked : List Uri)
    (outcome : Except Interruption FetchedBody)
    (events : List (FetchEvent Uri)) : Prop where
  encrypted : ∀ uri ∈ requests events, uris.scheme uri = text "https"
  few : (requests events).length ≤ left + 1
  answered : ∀ body, outcome = .ok body → ∃ before last response,
    requests events = before ++ [last] ∧
      server.responds (asked ++ before) last = .value response ∧
      fetcher.BodyOf response body

variable {uris fetcher}

theorem nextHop_eq_ok {current next : Uri} {location : Text}
    (hnext : nextHop uris current location = .ok next) :
    uris.scheme next = text "https" := by
  rcases bind_eq_ok_iff.mp hnext with ⟨parsed, -, hresolved⟩
  dsimp only at hresolved
  split at hresolved
  · cases hresolved
  · next hscheme =>
      cases hresolved
      simpa using hscheme

section

variable {server : HttpServer Uri} {left : Nat} {asked : List Uri}
  {current : Uri} (hcurrent : uris.scheme current = text "https")
include hcurrent

theorem stays_interrupted (interruption : Interruption) :
    Stays uris fetcher server left asked (.error interruption)
      [.requested current] where
  encrypted uri huri := by
    rw [List.mem_singleton.mp huri]
    exact hcurrent
  few := by simp [requests]
  answered body hbody := by cases hbody

theorem stays_read {response : HttpResponse}
    {outcome : Except Interruption FetchedBody}
    {events : List (FetchEvent Uri)}
    (hexchange : fetcher.exchange server asked current = .ok response)
    (hlast : isRedirect response.statusCode = false)
    (hread : fetcher.read response = (outcome, events)) :
    Stays uris fetcher server left asked outcome
      (.requested current :: events) := by
  rcases bind_eq_ok_iff.mp hexchange with ⟨_, -, hresponds⟩
  rw [bounded_eq_ok_iff] at hresponds
  have hbody := read_eq hread
  constructor
  · intro uri huri
    rw [requests_requested, hbody.1] at huri
    rw [List.mem_singleton.mp huri]
    exact hcurrent
  · simp [hbody.1]
  · intro body houtcome
    have hof := hbody.2 body houtcome
    refine ⟨[], current, response, ?_, ?_, hlast, hof.1, hof.2.1, hof.2.2⟩
    · rw [requests_requested, hbody.1]
      rfl
    · rw [List.append_nil]
      exact hresponds

/-- A hop more is a request more. -/
theorem Stays.cons {outcome : Except Interruption FetchedBody}
    {events : List (FetchEvent Uri)}
    (hstays : Stays uris fetcher server left (asked ++ [current]) outcome
      events) :
    Stays uris fetcher server (left + 1) asked outcome
      (.requested current :: events) := by
  constructor
  · intro uri huri
    rw [requests_requested] at huri
    rcases List.mem_cons.mp huri with rfl | hlater
    · exact hcurrent
    · exact hstays.encrypted uri hlater
  · have hfew := hstays.few
    simp only [requests_requested, List.length_cons]
    omega
  · intro body houtcome
    rcases hstays.answered body houtcome with
      ⟨before, last, response, hrequests, hresponds, hof⟩
    refine ⟨current :: before, last, response, ?_, ?_, hof⟩
    · rw [requests_requested, hrequests]
      rfl
    · rw [List.append_assoc] at hresponds
      exact hresponds

end

/-- A turn of the loop is interrupted, reads the answer or takes one of the
hops that are left. -/
theorem follow_cases {server : HttpServer Uri} {url : Uri} {left : Nat}
    {asked : List Uri} {current : Uri}
    {outcome : Except Interruption FetchedBody}
    {events : List (FetchEvent Uri)}
    (hfollow : fetcher.follow uris server url left asked current =
      (outcome, events)) :
    (∃ interruption, outcome = .error interruption ∧
      events = [.requested current]) ∨
    (∃ response later,
      fetcher.exchange server asked current = .ok response ∧
        isRedirect response.statusCode = false ∧
        fetcher.read response = (outcome, later) ∧
        events = .requested current :: later) ∨
    ∃ rest next later, left = rest + 1 ∧ uris.scheme next = text "https" ∧
      fetcher.follow uris server url rest (asked ++ [current]) next =
        (outcome, later) ∧
      events = .requested current :: later := by
  unfold follow at hfollow
  cases hexchange : fetcher.exchange server asked current with
  | error interruption =>
      rw [hexchange] at hfollow
      cases hfollow
      exact Or.inl ⟨interruption, rfl, rfl⟩
  | ok response =>
      simp only [hexchange] at hfollow
      cases hredirect : isRedirect response.statusCode with
      | false =>
          simp only [hredirect, Bool.not_false, if_true] at hfollow
          cases hfollow
          exact Or.inr (Or.inl ⟨response, _, rfl, hredirect, rfl, rfl⟩)
      | true =>
          simp only [hredirect, Bool.not_true, Bool.false_eq_true,
            if_false] at hfollow
          cases hlocation : fetcher.locationOf uris current response with
          | error interruption =>
              simp only [hlocation] at hfollow
              cases hfollow
              exact Or.inl ⟨interruption, rfl, rfl⟩
          | ok location =>
              cases left with
              | zero =>
                  simp only [hlocation] at hfollow
                  cases hfollow
                  exact Or.inl ⟨_, rfl, rfl⟩
              | succ rest =>
                  cases hnext : nextHop uris current location with
                  | error interruption =>
                      simp only [hlocation, hnext] at hfollow
                      cases hfollow
                      exact Or.inl ⟨interruption, rfl, rfl⟩
                  | ok next =>
                      simp only [hlocation, hnext] at hfollow
                      cases hfollow
                      exact Or.inr (Or.inr ⟨rest, next, _, rfl,
                        nextHop_eq_ok hnext, rfl, rfl⟩)

/-- From a url over https no hop leaves https, and the hops run out. -/
theorem follow_stays (server : HttpServer Uri) (url : Uri) {left : Nat}
    {asked : List Uri} {current : Uri}
    {outcome : Except Interruption FetchedBody}
    {events : List (FetchEvent Uri)}
    (hcurrent : uris.scheme current = text "https")
    (hfollow : fetcher.follow uris server url left asked current =
      (outcome, events)) :
    Stays uris fetcher server left asked outcome events := by
  induction left using Nat.strong_induction_on
    generalizing asked current events with
  | h left ih =>
      rcases follow_cases hfollow with ⟨interruption, rfl, rfl⟩ |
        ⟨response, reported, hexchange, hlast, hread, rfl⟩ |
        ⟨rest, next, later, rfl, hnext, hrest, rfl⟩
      · exact stays_interrupted hcurrent interruption
      · exact stays_read hcurrent hexchange hlast hread
      · exact (ih rest (by omega) hnext hrest).cons hcurrent

/-- Whatever the server does: every request goes over https, there are at
most `maximumRedirects + 1` of them, and a body that is returned stays under
the ceiling and is all of the answer to the last request, whose status it
carries. -/
theorem fetch_stays (uris : Uris Uri) (fetcher : HttpArtifactFetcher)
    (server : HttpServer Uri) (url : Uri) :
    Stays uris fetcher server maximumRedirects []
      (fetcher.fetch uris server url).1 (fetcher.fetch uris server url).2 := by
  unfold fetch
  split
  · constructor
    · intro uri huri
      cases huri
    · exact Nat.zero_le _
    · intro body hbody
      cases hbody
  · next hscheme =>
      rcases hfollow : fetcher.follow uris server url maximumRedirects [] url
        with ⟨outcome, events⟩
      have hstays := follow_stays server url (not_not.mp hscheme) hfollow
      constructor
      · exact hstays.encrypted
      · exact hstays.few
      · intro body hbody
        exact hstays.answered body (mapError_eq_ok_iff.mp hbody)

/-! ## An answer that is no success -/

/-- Absolute urls as their texts. -/
def absolute : Uris Text where
  scheme := List.takeWhile (· != 58)
  toText uri := uri
  parse source := .ok source
  resolveUri _ reference := reference

def missing : HttpServer Text where
  connects _ _ := .value ()
  responds _ _ := .value
    { statusCode := 404
      contentLength := 2
      location := .ok none
      chunks := [[110, 111]]
      ending := .value ()
      drained := .value () }

/-- What is not there comes back as its status, with the body it came with. -/
theorem fetch_missing :
    ∃ body, (fetch absolute ⟨512 * 1024 * 1024, none⟩ missing
        (text "https://cdn/latest.json")).1 = .ok body ∧
      body.isSuccess = false :=
  ⟨⟨404, [110, 111]⟩, by decide, by decide⟩

end HttpArtifactFetcher

end Dovetail.Updater
