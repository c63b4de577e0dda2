import Dovetail.UpdaterFlow

/-!
# Falling back to the next endpoint

The first usable answer is to decide a check: a 204, or a success whose body
is a manifest.  The loop stops at the first success, readable or not, so it
does what is expected of it when that success is usable, or when no answer
is and the body is at least UTF-8.
-/

namespace Dovetail.Updater

open CodeUnits
open OrderedSearch
open TransitionRun

namespace UpdateFlow

variable {Version Date Url : Type}

section

variable (runtime : Runtime Version Date) (flow : UpdateFlow Version Url)
  (installed : Version)

/-! ## What is expected -/

/-- What a usable answer decides, when the answer is usable. -/
def verdict? (asked : List Text) (endpoint : Text) :
    Option (Except (Thrown Version) (UpdateCheck Version Date)) :=
  match flow.ask asked endpoint with
  | .error _ => none
  | .ok body =>
      if body.isNoContent then some (.ok noContent)
      else if !body.isSuccess then none
      else
        match readManifest runtime body.bytes (some flow.platformKey) with
        | .error _ => none
        | .ok manifest =>
            some ((flow.policy.decide runtime installed manifest).map
              fun decision =>
                { decision, manifest := some manifest,
                  endpoint := some endpoint })

end

/-- A 204, or a success whose body is a manifest. -/
def IsUsable (runtime : Runtime Version Date) (flow : UpdateFlow Version Url)
    (asked : List Text) (endpoint : Text) : Prop :=
  ∃ body, flow.ask asked endpoint = .ok body ∧
    (body.isNoContent = true ∨ body.isSuccess = true ∧
      ∃ manifest, readManifest runtime body.bytes (some flow.platformKey) =
        .ok manifest)

/-- The updater's own exceptions. -/
def isNamed : Thrown Version → Bool
  | .failure _ => true
  | .downgradeRefused _ _ => true
  | .formatException _ => false
  | .other _ => false

/-- The first usable answer decides and is the last one asked for; without
one, an exception of the updater's own escapes. -/
structure FollowsFirstUsable (runtime : Runtime Version Date)
    (flow : UpdateFlow Version Url) (installed : Version)
    (endpoints : List Text) : Prop where
  decided : ∀ before endpoint after outcome,
    FirstAt (flow.IsUsable runtime) endpoints before endpoint
        after →
      flow.verdict? runtime installed before endpoint = some outcome →
        flow.check runtime installed endpoints =
          (outcome, before ++ [endpoint])
  refused : Preceded (fun asked endpoint =>
      ¬ flow.IsUsable runtime asked endpoint) endpoints →
    ∃ thrown, (flow.check runtime installed endpoints).1 = .error thrown ∧
      isNamed thrown = true

/-! ## What the loop does -/

/-- The endpoint answers with a success. -/
def Succeeds (flow : UpdateFlow Version Url) (asked : List Text)
    (endpoint : Text) : Prop :=
  ∃ body, flow.ask asked endpoint = .ok body ∧ body.isSuccess = true

/-- The first success is usable, or there is no usable answer and what it
carries is UTF-8. -/
def FirstSuccessReads (runtime : Runtime Version Date)
    (flow : UpdateFlow Version Url) (endpoints : List Text) : Prop :=
  ∀ before endpoint after body,
    FirstAt flow.Succeeds endpoints before endpoint after →
      flow.ask before endpoint = .ok body →
        flow.IsUsable runtime before endpoint ∨
          ((utf8Decode body.bytes).isSome = true ∧
            Preceded (fun asked other =>
              ¬ flow.IsUsable runtime asked other) endpoints)

section

variable {runtime : Runtime Version Date} {flow : UpdateFlow Version Url}
  {installed : Version} {asked : List Text} {endpoint : Text}

theorem isSuccess_of_isNoContent {body : FetchedBody}
    (hcontent : body.isNoContent = true) : body.isSuccess = true := by
  have hcode : body.statusCode = 204 := by
    simpa [FetchedBody.isNoContent] using hcontent
  simp [FetchedBody.isSuccess, hcode]

theorem succeeds_of_isUsable (husable : flow.IsUsable runtime asked endpoint) :
    flow.Succeeds asked endpoint := by
  obtain ⟨body, hask, hcontent | ⟨hsuccess, -⟩⟩ := husable
  · exact ⟨body, hask, isSuccess_of_isNoContent hcontent⟩
  · exact ⟨body, hask, hsuccess⟩

theorem exists_verdict? (installed : Version)
    (husable : flow.IsUsable runtime asked endpoint) :
    ∃ outcome, flow.verdict? runtime installed asked endpoint =
      some outcome := by
  obtain ⟨body, hask, hcontent | ⟨hsuccess, manifest, hread⟩⟩ := husable
  · simp [verdict?, hask, hcontent]
  · by_cases hcontent : body.isNoContent = true
    · simp [verdict?, hask, hcontent]
    · simp [verdict?, hask, hcontent, hsuccess, hread]

/-- A turn is done exactly on a success. -/
theorem exists_visit_eq_done_iff :
    (∃ outcome, flow.visit runtime installed asked endpoint = .done outcome) ↔
      flow.Succeeds asked endpoint := by
  unfold visit Succeeds
  cases hask : flow.ask asked endpoint with
  | error thrown => simp
  | ok body =>
      by_cases hcontent : body.isNoContent = true
      · have hsuccess := isSuccess_of_isNoContent hcontent
        simp [hcontent, hsuccess]
      · by_cases hsuccess : body.isSuccess = true
        · simp [hcontent, hsuccess]
        · simp [hcontent, hsuccess]

/-- The turn of a usable answer ends with its verdict. -/
theorem visit_of_verdict?
    {outcome : Except (Thrown Version) (UpdateCheck Version Date)}
    (hverdict : flow.verdict? runtime installed asked endpoint =
      some outcome) :
    flow.visit runtime installed asked endpoint = .done outcome := by
  unfold verdict? at hverdict
  unfold visit
  cases hask : flow.ask asked endpoint with
  | error thrown => simp [hask] at hverdict
  | ok body =>
      simp only [hask] at hverdict ⊢
      by_cases hcontent : body.isNoContent = true
      · simpa [hcontent] using hverdict
      · by_cases hsuccess : body.isSuccess = true
        · cases hread : readManifest runtime body.bytes
              (some flow.platformKey) with
          | error thrown => simp [hcontent, hsuccess, hread] at hverdict
          | ok manifest =>
              simp only [hcontent, hsuccess, hread, Bool.not_true,
                Bool.false_eq_true, if_false, Option.some.injEq] at hverdict ⊢
              rw [← hverdict]
              cases hdecide : flow.policy.decide runtime installed manifest <;>
                simp [hdecide, bind, Except.bind, pure, Except.pure,
                  Except.map]
        · simp [hcontent, hsuccess] at hverdict

/-- The turn of an unusable success ends with the exception of its body. -/
theorem visit_of_not_isUsable {body : FetchedBody}
    (hask : flow.ask asked endpoint = .ok body)
    (hsuccess : body.isSuccess = true)
    (husable : ¬ flow.IsUsable runtime asked endpoint) :
    ∃ thrown, flow.visit runtime installed asked endpoint =
        .done (.error thrown) ∧
      isNamed thrown = (utf8Decode body.bytes).isSome := by
  have hcontent : ¬ body.isNoContent = true := by
    intro hcontent
    exact husable ⟨body, hask, Or.inl hcontent⟩
  cases hread : readManifest runtime body.bytes (some flow.platformKey) with
  | ok manifest =>
      exact absurd ⟨body, hask, Or.inr ⟨hsuccess, manifest, hread⟩⟩ husable
  | error thrown =>
      refine ⟨thrown, ?_, ?_⟩
      · simp [visit, hask, hcontent, hsuccess, hread, bind, Except.bind]
      · unfold readManifest at hread
        cases hutf8 : utf8Decode body.bytes with
        | none =>
            simp only [hutf8, Except.error.injEq] at hread
            rw [← hread]
            rfl
        | some source =>
            cases hparse : parseManifest runtime source
                (some flow.platformKey) with
            | ok manifest => simp [hutf8, hparse, Except.mapError] at hread
            | error failure =>
                simp only [hutf8, hparse, Except.mapError,
                  Except.error.injEq] at hread
                rw [← hread]
                rfl

variable {endpoints before after : List Text}

theorem check_eq_of_firstAt
    {outcome : Except (Thrown Version) (UpdateCheck Version Date)}
    (hfirst : FirstAt flow.Succeeds endpoints before endpoint after)
    (hvisit : flow.visit runtime installed before endpoint = .done outcome) :
    flow.check runtime installed endpoints =
      (outcome, before ++ [endpoint]) := by
  have hdone : FirstAt (fun asked other => ∃ result,
      flow.visit runtime installed asked other = .done result)
      endpoints before endpoint after := by
    refine ⟨hfirst.split, ⟨outcome, hvisit⟩, ?_⟩
    intro earlier other rest hsplit hresult
    exact hfirst.first earlier other rest hsplit
      (exists_visit_eq_done_iff.mp hresult)
  have hsearch := search_eq_of_firstAt hdone hvisit
  have hfilled : endpoints.isEmpty = false := by
    rw [hfirst.split]
    simp
  simp [check, hfilled, hsearch]

/-- Without a success every endpoint has failed. -/
theorem check_eq_of_preceded (runtime : Runtime Version Date)
    (installed : Version)
    (hnone : Preceded (fun asked other => ¬ flow.Succeeds asked other)
      endpoints) :
    ∃ refusal, (flow.check runtime installed endpoints).1 =
      .error (.failure refusal) := by
  unfold check
  cases hempty : endpoints.isEmpty with
  | true => exact ⟨_, rfl⟩
  | false =>
      have hturns : Preceded (fun asked other => ∀ result,
          flow.visit runtime installed asked other ≠ .done result)
          endpoints := by
        intro earlier other rest hsplit result hresult
        exact hnone earlier other rest hsplit
          (exists_visit_eq_done_iff.mp ⟨result, hresult⟩)
      obtain ⟨last, hsearch⟩ := search_eq_of_preceded hturns
      simp [hsearch]

/-- A first success that is usable is the first usable answer. -/
theorem firstAt_isUsable
    (hfirst : FirstAt flow.Succeeds endpoints before endpoint after)
    (husable : flow.IsUsable runtime before endpoint) :
    FirstAt (flow.IsUsable runtime) endpoints before endpoint
      after := by
  refine ⟨hfirst.split, husable, ?_⟩
  intro earlier other rest hsplit hother
  exact hfirst.first earlier other rest hsplit (succeeds_of_isUsable hother)

end

/-- The first usable answer decides exactly when the first success reads. -/
theorem followsFirstUsable_iff (runtime : Runtime Version Date)
    (flow : UpdateFlow Version Url) (installed : Version)
    (endpoints : List Text) :
    FollowsFirstUsable runtime flow installed endpoints ↔
      FirstSuccessReads runtime flow endpoints := by
  constructor
  · intro hfollows before endpoint after body hfirst hask
    by_cases husable : flow.IsUsable runtime before endpoint
    · exact Or.inl husable
    · refine Or.inr ?_
      obtain ⟨found, hfound, hsuccess⟩ := hfirst.holds
      obtain rfl : found = body := by simpa [hfound] using hask
      obtain ⟨thrown, hvisit, hnamed⟩ :=
        visit_of_not_isUsable hfound hsuccess husable
      have hcheck := check_eq_of_firstAt hfirst hvisit
      have hnone : Preceded (fun asked other =>
          ¬ flow.IsUsable runtime asked other) endpoints := by
        rcases preceded_or_exists_firstAt
          (flow.IsUsable runtime) endpoints with
          hnone | ⟨earlier, other, later, husual⟩
        · exact hnone
        · -- A later usable answer would have been asked for.
          obtain ⟨outcome, hverdict⟩ := exists_verdict? installed husual.holds
          have hdecided := hfollows.decided _ _ _ _ husual hverdict
          have hasked : before ++ [endpoint] = earlier ++ [other] :=
            congrArg Prod.snd (hcheck.symm.trans hdecided)
          obtain ⟨rfl, hother⟩ := List.append_inj' hasked rfl
          obtain rfl : endpoint = other := by simpa using hother
          exact absurd husual.holds husable
      obtain ⟨escaped, hescaped, hkind⟩ := hfollows.refused hnone
      rw [hcheck] at hescaped
      obtain rfl : thrown = escaped := by simpa using hescaped
      exact ⟨hnamed ▸ hkind, hnone⟩
  · intro hreads
    constructor
    · intro before endpoint after outcome husual hverdict
      rcases preceded_or_exists_firstAt flow.Succeeds endpoints with
        hnone | ⟨earlier, other, later, hfirst⟩
      · exact absurd (succeeds_of_isUsable husual.holds)
          (hnone before endpoint after husual.split)
      · obtain ⟨body, hask, -⟩ := hfirst.holds
        rcases hreads _ _ _ _ hfirst hask with husable | ⟨-, hnone⟩
        · obtain ⟨rfl, rfl, rfl⟩ :=
            (firstAt_isUsable hfirst husable).unique husual
          exact check_eq_of_firstAt hfirst (visit_of_verdict? hverdict)
        · exact absurd husual.holds
            (hnone before endpoint after husual.split)
    · intro hnone
      rcases preceded_or_exists_firstAt flow.Succeeds endpoints with
        hfailed | ⟨before, endpoint, after, hfirst⟩
      · obtain ⟨refusal, hcheck⟩ :=
          check_eq_of_preceded runtime installed hfailed
        exact ⟨_, hcheck, rfl⟩
      · obtain ⟨body, hask, hsuccess⟩ := hfirst.holds
        have husable := hnone before endpoint after hfirst.split
        obtain ⟨thrown, hvisit, hnamed⟩ :=
          visit_of_not_isUsable hask hsuccess husable
        have hcheck := check_eq_of_firstAt hfirst hvisit
        rcases hreads _ _ _ _ hfirst hask with husual | ⟨hutf8, -⟩
        · exact absurd husual husable
        · exact ⟨thrown, by rw [hcheck], by rw [hnamed, hutf8]⟩

/-- A flow over a network that answers each url as listed. -/
def overAnswers (answers : List (Text × FetchedBody)) (publicKey : Text) :
    UpdateFlow Text Text where
  fetcher := {
    parseUrl := .ok
    fetch := fun _ url =>
      match answers.find? fun answer => answer.1 == url with
      | some answer => .ok answer.2
      | none => .error (.other (text "SocketException: nothing listening")) }
  publicKey := publicKey
  platformKey := text "darwin-aarch64"
  policy := { allowDowngrade := false }

def mirrors : List Text :=
  [text "https://a.example.com", text "https://b.example.com"]

def pageFirst : UpdateFlow Text Text :=
  overAnswers
    [(text "https://a.example.com", ⟨200, utf8Encode (text "<html>")⟩),
      (text "https://b.example.com", ⟨204, []⟩)] []

/-- The page of the first mirror hides the answer of the second. -/
theorem unreadable_success_hides_the_next_endpoint :
    ¬ FollowsFirstUsable releaseRuntime pageFirst (text "1.0.0") mirrors := by
  intro hfollows
  have hunread : (readManifest releaseRuntime (utf8Encode (text "<html>"))
      (some (text "darwin-aarch64"))).isOk = false := by decide
  have hbefore : Preceded (fun asked other =>
      ¬ pageFirst.IsUsable releaseRuntime asked other)
      ([] ++ [text "https://a.example.com"]) := by
    refine preceded_concat.mpr ⟨preceded_nil, ?_⟩
    rintro ⟨body, hask, hbody⟩
    have hpage : body = ⟨200, utf8Encode (text "<html>")⟩ :=
      (Except.ok.inj hask).symm
    subst hpage
    rcases hbody with hcontent | ⟨-, manifest, hread⟩
    · exact absurd hcontent (by decide)
    · have hkey : pageFirst.platformKey = text "darwin-aarch64" := rfl
      rw [hkey] at hread
      simp [hread, Except.isOk, Except.toBool] at hunread
  have husable : pageFirst.IsUsable releaseRuntime
      [text "https://a.example.com"] (text "https://b.example.com") :=
    ⟨⟨204, []⟩, by decide, Or.inl rfl⟩
  have hverdict : pageFirst.verdict? releaseRuntime (text "1.0.0")
      [text "https://a.example.com"] (text "https://b.example.com") =
        some (.ok noContent) := by decide
  have hfirst : FirstAt (pageFirst.IsUsable releaseRuntime)
      mirrors [text "https://a.example.com"] (text "https://b.example.com")
      [] := ⟨rfl, husable, hbefore⟩
  have hdecided := hfollows.decided _ _ _ _ hfirst hverdict
  have hasked : (pageFirst.check releaseRuntime (text "1.0.0") mirrors).2 =
      [text "https://a.example.com"] := by decide
  simp [hdecided] at hasked

end UpdateFlow

end Dovetail.Updater
