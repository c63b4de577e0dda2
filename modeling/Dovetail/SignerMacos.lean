import Dovetail.SignOrder
import Dovetail.SignerPolicy
import Dovetail.UniversalBundle

/-!
# Signing a bundle

`MacosSigner` clears the extended attributes of a bundle and calls `codesign`
for what is listed in it, from the inside out.  The entitlements of what is
nested are looked up by its path in the bundle, letter for letter.
-/

namespace Dovetail.Signer

open CodeUnits FallibleSteps SignOrder BundlePath
open Bundler.Universal (ProcessOutcome)

/-- `p.relative`, from the bundle. -/
def BundlePath.relative : BundlePath → Text
  | [] => text "."
  | names => [(47 : UInt16)].intercalate (names.map EntryName.units)

structure ToolCall where
  program : Text
  arguments : List Text
  deriving DecidableEq

/-- A tool that failed, or one that could not be started. -/
inductive SigningError where
  | failure (failure : SigningFailure)
  | system (description : Text)

/-- What a call ends with, after the calls before it. -/
abbrev ProcessRunner := List ToolCall → ToolCall → Except Text ProcessOutcome

/-- Steps that call tools, over the calls made so far. -/
abbrev Signing := EStateM SigningError (List ToolCall)

structure MacosSigningRequest where
  bundlePath : Text
  identity : Text
  appEntitlements : Option Text
  entitlementsByRelativePath : List (Text × Text)
  hardenedRuntime : Bool

namespace MacosSigningRequest

variable (request : MacosSigningRequest)

def pathOf (target : SignTarget) : Text :=
  fullText request.bundlePath target.path

def entitlementsFor (target : SignTarget) : Option Text :=
  if !target.isExecutable then none
  else if request.pathOf target = request.bundlePath then
    request.appEntitlements
  else request.entitlementsByRelativePath.lookup target.path.relative

end MacosSigningRequest

namespace MacosSigner

def codesign : Text := text "codesign"

def xattr : Text := text "xattr"

def argumentsFor (request : MacosSigningRequest) (target : SignTarget) :
    List Text :=
  [text "--force", text "--timestamp", text "--sign", request.identity] ++
    (if request.hardenedRuntime && target.isExecutable then
      [text "--options", text "runtime"]
    else []) ++
    (match request.entitlementsFor target with
    | some entitlements => [text "--entitlements", entitlements]
    | none => []) ++
    [request.pathOf target]

def run (runner : ProcessRunner) (call : ToolCall) :
    Signing ProcessOutcome := do
  let before ← get
  set (before ++ [call])
  match runner before call with
  | .ok outcome => return outcome
  | .error description => throw (.system description)

def stripCall (bundlePath : Text) : ToolCall where
  program := xattr
  arguments := [text "-crs", bundlePath]

def stripExtendedAttributes (runner : ProcessRunner) (bundlePath : Text) :
    Signing PUnit := do
  let outcome ← run runner (stripCall bundlePath)
  if outcome.succeeded then return
  else throw (.failure
    { message := text "xattr -crs failed on " ++ bundlePath ++ text "."
      remedy := some (text "Extended attributes left by a zip or a CI transfer break codesign. Clear them before signing.") })

def signCall (request : MacosSigningRequest) (target : SignTarget) :
    ToolCall where
  program := codesign
  arguments := argumentsFor request target

def signTarget (runner : ProcessRunner) (request : MacosSigningRequest)
    (target : SignTarget) : Signing PUnit := do
  let outcome ← run runner (signCall request target)
  if outcome.succeeded then return
  else throw (.failure
    { message := text "codesign failed on " ++ request.pathOf target ++
        text " with exit code " ++ text (toString outcome.exitCode) ++
        text "."
      remedy := some (if (trim outcome.stderr).isEmpty then
        trim outcome.stdout else trim outcome.stderr) })

/-- The order of signing, which so many steps find for every list without
repetition. -/
def orderOf (request : MacosSigningRequest) (contents : List BundlePath) :
    List SignTarget :=
  (insideOut request.bundlePath contents (contents.length + 1) []).getD []

def sign (runner : ProcessRunner) (request : MacosSigningRequest)
    (contents : List BundlePath) : Signing (List SignTarget) := do
  let order := orderOf request contents
  stripExtendedAttributes runner request.bundlePath
  order.forM (signTarget runner request)
  return order

end MacosSigner

/-! ## What is given to `codesign` -/

/-- The entitlements that `codesign` takes from its arguments. -/
def entitlementsOption : List Text → Option Text
  | option :: value :: rest =>
      if option = text "--entitlements" then some value
      else if option = text "--sign" ∨ option = text "--options" then
        entitlementsOption rest
      else entitlementsOption (value :: rest)
  | _ => none

/-- The call signs what is at the path. -/
def signs (root : Text) (path : BundlePath) (call : ToolCall) : Bool :=
  decide (call.program = MacosSigner.codesign) &&
    decide (call.arguments.getLast? = some (fullText root path))

/-- The path is that of exactly one call of `codesign`, which carries the
property list. -/
def IsGiven (calls : List ToolCall) (root relative plist : Text) : Prop :=
  ∃ path : BundlePath, path.relative = relative ∧
    ∃ call, calls.filter (signs root path) = [call] ∧
      entitlementsOption call.arguments = some plist

/-- However the tools end: where signing goes through, every property list
that is declared was given for its path. -/
def GivesDeclared (request : MacosSigningRequest)
    (contents : List BundlePath) (declared : Text → Text → Prop) : Prop :=
  ∀ (runner : ProcessRunner) (order : List SignTarget)
    (calls : List ToolCall),
    (MacosSigner.sign runner request contents).run [] = .ok order calls →
      ∀ relative plist, declared relative plist →
        IsGiven calls request.bundlePath relative plist

/-- The path as it is spelled is that of an executable that is signed, or
that of the bundle, which has the property list. -/
inductive Reaches (contents : List BundlePath)
    (appEntitlements : Option Text) : Text → Text → Prop where
  | nested {path : BundlePath} {plist : Text} :
      IsItem contents [] path → isExecutable path = true →
        Reaches contents appEntitlements path.relative plist
  | bundle {plist : Text} :
      appEntitlements = some plist →
        Reaches contents appEntitlements (text ".") plist

/-! ## Paths -/

theorem splitOn_relative {path : BundlePath} (hpath : path ≠ []) :
    path.relative.splitOn 47 = path.map EntryName.units := by
  cases path with
  | nil => exact absurd rfl hpath
  | cons name rest =>
      apply List.splitOn_intercalate
      · intro units hunits
        rcases List.mem_map.mp hunits with ⟨other, -, rfl⟩
        exact other.whole
      · exact List.cons_ne_nil _ _

/-- No name on the way is a dot. -/
theorem dot_not_mem_splitOn {path : BundlePath} (hpath : path ≠ []) :
    text "." ∉ path.relative.splitOn 47 := by
  rw [splitOn_relative hpath]
  intro hdot
  rcases List.mem_map.mp hdot with ⟨name, -, hname⟩
  exact name.proper.1 hname

theorem relative_ne_dot {path : BundlePath} (hpath : path ≠ []) :
    path.relative ≠ text "." := by
  intro hdot
  apply dot_not_mem_splitOn hpath
  rw [hdot]
  decide

theorem units_injective : Function.Injective EntryName.units := by
  intro name other hname
  cases name
  cases other
  cases hname
  rfl

theorem relative_injective : Function.Injective BundlePath.relative := by
  intro path other hsame
  by_cases hpath : path = []
  · by_cases hother : other = []
    · rw [hpath, hother]
    · rw [hpath] at hsame
      exact absurd hsame.symm (relative_ne_dot hother)
  · by_cases hother : other = []
    · rw [hother] at hsame
      exact absurd hsame (relative_ne_dot hpath)
    · apply List.map_injective_iff.mpr units_injective
      rw [← splitOn_relative hpath, ← splitOn_relative hother, hsame]

theorem fullText_nil (root : Text) : fullText root [] = root :=
  List.append_nil root

theorem fullText_eq {path : BundlePath} (hpath : path ≠ []) (root : Text) :
    fullText root path = root ++ 47 :: path.relative := by
  have hnames : ∀ (name : EntryName) (rest : List EntryName),
      (name :: rest).flatMap (fun name => 47 :: name.units) =
        47 :: [(47 : UInt16)].intercalate
          ((name :: rest).map EntryName.units) := by
    intro name rest
    induction rest generalizing name with
    | nil => simp
    | cons next rest ih =>
        rw [List.flatMap_cons, ih]
        simp [List.intercalate_cons_cons]
  cases path with
  | nil => exact absurd rfl hpath
  | cons name rest =>
      unfold fullText
      rw [hnames]
      rfl

theorem fullText_injective (root : Text) :
    Function.Injective (fullText root) := by
  intro path other hsame
  by_cases hpath : path = []
  · by_cases hother : other = []
    · rw [hpath, hother]
    · rw [hpath, fullText_nil, fullText_eq hother] at hsame
      simp at hsame
  · by_cases hother : other = []
    · rw [hother, fullText_nil, fullText_eq hpath] at hsame
      simp at hsame
    · rw [fullText_eq hpath, fullText_eq hother] at hsame
      apply relative_injective
      simpa using hsame

/-! ## The calls of one run -/

section

variable {request : MacosSigningRequest} {contents : List BundlePath}

theorem entitlementsOption_argumentsFor (target : SignTarget) :
    entitlementsOption (MacosSigner.argumentsFor request target) =
      request.entitlementsFor target := by
  have hwords : text "--force" ≠ text "--entitlements" ∧
      text "--timestamp" ≠ text "--entitlements" ∧
      text "--sign" ≠ text "--entitlements" ∧
      text "--options" ≠ text "--entitlements" ∧
      text "--force" ≠ text "--sign" ∧ text "--force" ≠ text "--options" ∧
      text "--timestamp" ≠ text "--sign" ∧
      text "--timestamp" ≠ text "--options" := by
    decide
  unfold MacosSigner.argumentsFor
  cases request.hardenedRuntime && target.isExecutable <;>
    cases request.entitlementsFor target <;>
      simp [entitlementsOption, hwords]

theorem path_eq_nil_iff (target : SignTarget) :
    request.pathOf target = request.bundlePath ↔ target.path = [] := by
  have hinjective := fullText_injective request.bundlePath
  constructor
  · intro hsame
    apply hinjective
    rw [fullText_nil]
    exact hsame
  · intro hnil
    rw [MacosSigningRequest.pathOf, hnil, fullText_nil]

theorem signs_signCall (path : BundlePath) (target : SignTarget) :
    signs request.bundlePath path (MacosSigner.signCall request target) =
      decide (target.path = path) := by
  have hlast : (MacosSigner.argumentsFor request target).getLast? =
      some (request.pathOf target) :=
    List.getLast?_concat
  unfold signs MacosSigner.signCall
  rw [hlast]
  simp [MacosSigningRequest.pathOf, (fullText_injective _).eq_iff]

theorem not_signs_stripCall (path : BundlePath) :
    signs request.bundlePath path
      (MacosSigner.stripCall request.bundlePath) = false := by
  have hprogram : MacosSigner.xattr ≠ MacosSigner.codesign := by decide
  simp [signs, MacosSigner.stripCall, hprogram]

/-- The calls of a run that goes through. -/
def callsOf (request : MacosSigningRequest) (order : List SignTarget) :
    List ToolCall :=
  MacosSigner.stripCall request.bundlePath ::
    order.map (MacosSigner.signCall request)

theorem filter_callsOf (path : BundlePath) (order : List SignTarget) :
    (callsOf request order).filter (signs request.bundlePath path) =
      (order.filter fun target => target.path = path).map
        (MacosSigner.signCall request) := by
  have hcalls : signs request.bundlePath path ∘ MacosSigner.signCall request =
      fun target => decide (target.path = path) :=
    funext (signs_signCall path)
  unfold callsOf
  rw [List.filter_cons_of_neg (by simp [not_signs_stripCall]),
    List.filter_map, hcalls]

/-- Nothing keeps the tools from doing their part. -/
def Succeeds (runner : ProcessRunner) : Prop :=
  ∀ before call, ∃ outcome, runner before call = .ok outcome ∧
    outcome.succeeded = true

variable {runner : ProcessRunner} {before : List ToolCall}

theorem ensures_run (call : ToolCall) :
    Ensures (MacosSigner.run runner call) before
      (fun outcome calls => runner before call = .ok outcome ∧
        calls = before ++ [call])
      (fun _ _ => ¬ Succeeds runner) := by
  unfold MacosSigner.run
  simp only [ensures_bind, ensures_get, ensures_set]
  cases hrun : runner before call with
  | ok outcome => exact ⟨rfl, rfl⟩
  | error description =>
      intro hsucceeds
      rcases hsucceeds before call with ⟨outcome, hok, -⟩
      rw [hrun] at hok
      cases hok

/-- A call whose failure is thrown. -/
theorem ensures_required (call : ToolCall)
    (failure : ProcessOutcome → SigningError) :
    Ensures (do
        let outcome ← MacosSigner.run runner call
        if outcome.succeeded then return PUnit.unit
        else throw (failure outcome)) before
      (fun _ calls => calls = before ++ [call])
      (fun _ _ => ¬ Succeeds runner) := by
  rw [ensures_bind]
  apply (ensures_run call).imp _ fun _ _ => id
  intro outcome calls houtcome
  rcases houtcome with ⟨hrun, hcalls⟩
  cases hsucceeded : outcome.succeeded with
  | true => exact hcalls
  | false =>
      intro hsucceeds
      rcases hsucceeds before call with ⟨other, hok, hsucceeded'⟩
      rw [hrun] at hok
      cases hok
      rw [hsucceeded] at hsucceeded'
      cases hsucceeded'

theorem ensures_forM_signTarget (order : List SignTarget) :
    Ensures (order.forM (MacosSigner.signTarget runner request)) before
      (fun _ calls => calls =
        before ++ order.map (MacosSigner.signCall request))
      (fun _ _ => ¬ Succeeds runner) := by
  induction order generalizing before with
  | nil => exact (List.append_nil before).symm
  | cons target rest ih =>
      show Ensures (MacosSigner.signTarget runner request target >>=
        fun _ => rest.forM (MacosSigner.signTarget runner request)) _ _ _
      rw [ensures_bind]
      apply (ensures_required (MacosSigner.signCall request target) _).imp
        _ fun _ _ => id
      intro _ calls hcalls
      apply ih.imp _ fun _ _ => id
      intro _ after hafter
      rw [hafter, hcalls]
      simp

theorem ensures_sign :
    Ensures (MacosSigner.sign runner request contents) []
      (fun order calls => order = MacosSigner.orderOf request contents ∧
        calls = callsOf request order)
      (fun _ _ => ¬ Succeeds runner) := by
  unfold MacosSigner.sign
  simp only [ensures_bind, ensures_pure]
  apply (ensures_required (MacosSigner.stripCall request.bundlePath) _).imp
    _ fun _ _ => id
  intro _ calls hcalls
  apply (ensures_forM_signTarget _).imp _ fun _ _ => id
  intro _ after hafter
  rw [hafter, hcalls]
  exact ⟨trivial, rfl⟩

theorem calls_of_sign {order : List SignTarget} {calls : List ToolCall}
    (hsign : (MacosSigner.sign runner request contents).run [] =
      .ok order calls) :
    order = MacosSigner.orderOf request contents ∧
      calls = callsOf request order := by
  have hensures := @ensures_sign request contents runner
  unfold Ensures at hensures
  rw [hsign] at hensures
  exact hensures

theorem sign_of_succeeds (hsucceeds : Succeeds runner) :
    (MacosSigner.sign runner request contents).run [] =
      .ok (MacosSigner.orderOf request contents)
        (callsOf request (MacosSigner.orderOf request contents)) := by
  have hensures := @ensures_sign request contents runner
  unfold Ensures at hensures
  cases hrun : (MacosSigner.sign runner request contents).run [] with
  | ok order calls =>
      rw [hrun] at hensures
      rcases hensures with ⟨rfl, rfl⟩
      rfl
  | error failure calls =>
      rw [hrun] at hensures
      exact absurd hsucceeds hensures

end

/-! ## What is declared -/

section

variable {request : MacosSigningRequest} {contents : List BundlePath}
  {declared : Text → Text → Prop}

theorem insideOut_orderOf (hnodup : contents.Nodup) :
    InsideOut contents [] (MacosSigner.orderOf request contents) := by
  rcases @exists_insideOut_of_lt request.bundlePath contents hnodup
    (contents.length + 1) []
    (Nat.lt_succ_of_le (List.length_filter_le _ _)) with
    ⟨order, horder, hinside⟩
  rw [MacosSigner.orderOf, horder]
  exact hinside

theorem filter_path_eq_singleton {order : List SignTarget}
    {target : SignTarget} (honce : (order.map SignTarget.path).Nodup)
    (htarget : target ∈ order) :
    (order.filter fun other => other.path = target.path) = [target] := by
  induction order with
  | nil => cases htarget
  | cons first rest ih =>
      rcases List.nodup_cons.mp honce with ⟨hfresh, hrest⟩
      rcases List.mem_cons.mp htarget with rfl | hlater
      · have hnone : (rest.filter fun other => other.path = target.path) =
            [] := by
          apply List.filter_eq_nil_iff.mpr
          intro other hother hsame
          apply hfresh
          rw [← of_decide_eq_true hsame]
          exact List.mem_map_of_mem hother
        rw [List.filter_cons_of_pos (by simp), hnone]
      · have hne : first.path ≠ target.path := by
          intro hsame
          apply hfresh
          rw [hsame]
          exact List.mem_map_of_mem hlater
        rw [List.filter_cons_of_neg (by simpa using hne)]
        exact ih hrest hlater

/-- What is given in a run that goes through. -/
theorem isGiven_callsOf_iff (hnodup : contents.Nodup)
    {relative plist : Text} :
    IsGiven (callsOf request (MacosSigner.orderOf request contents))
        request.bundlePath relative plist ↔
      ∃ target ∈ MacosSigner.orderOf request contents,
        target.path.relative = relative ∧
          request.entitlementsFor target = some plist := by
  have honce := (@insideOut_orderOf request contents hnodup).once
  constructor
  · intro hgiven
    rcases hgiven with ⟨path, hrelative, call, hcalls, hplist⟩
    rw [filter_callsOf] at hcalls
    rcases List.map_eq_singleton_iff.mp hcalls with ⟨target, hfilter, rfl⟩
    have hmem : target ∈ (MacosSigner.orderOf request contents).filter
        fun target => target.path = path := by
      rw [hfilter]
      exact List.mem_singleton_self target
    rcases List.mem_filter.mp hmem with ⟨htarget, hpath⟩
    refine ⟨target, htarget, ?_, ?_⟩
    · rw [of_decide_eq_true hpath, hrelative]
    · rw [← entitlementsOption_argumentsFor]
      exact hplist
  · intro htarget
    rcases htarget with ⟨target, htarget, hrelative, hplist⟩
    refine ⟨target.path, hrelative, MacosSigner.signCall request target, ?_, ?_⟩
    · rw [filter_callsOf, filter_path_eq_singleton honce htarget,
        List.map_singleton]
    · rw [← hplist]
      exact entitlementsOption_argumentsFor target

/-- A table that has what is declared gives it all exactly where every path
that is declared reaches what is signed. -/
theorem givesDeclared_iff_reaches (hnodup : contents.Nodup)
    (htable : ∀ relative plist,
      request.entitlementsByRelativePath.lookup relative = some plist ↔
        declared relative plist) :
    GivesDeclared request contents declared ↔
      ∀ relative plist, declared relative plist →
        Reaches contents request.appEntitlements relative plist := by
  have hinside := @insideOut_orderOf request contents hnodup
  constructor
  · intro hgives relative plist hdeclared
    let succeeding : ProcessRunner := fun _ _ => .ok ⟨0, [], []⟩
    have hsucceeds : Succeeds succeeding := fun _ _ => ⟨_, rfl, rfl⟩
    have hgiven := hgives succeeding _ _ (sign_of_succeeds hsucceeds)
      relative plist hdeclared
    rcases (isGiven_callsOf_iff hnodup).mp hgiven with
      ⟨target, htarget, hrelative, hplist⟩
    unfold MacosSigningRequest.entitlementsFor at hplist
    rcases (hinside.members target).mp htarget with rfl | ⟨hitem, hkind⟩
    · rw [if_neg (by simp), if_pos ((path_eq_nil_iff _).mpr rfl)] at hplist
      rw [← hrelative]
      exact .bundle hplist
    · rw [← hrelative]
      apply Reaches.nested hitem
      rw [← hkind]
      by_contra hlibrary
      simp [hlibrary] at hplist
  · intro hreaches runner order calls hsign relative plist hdeclared
    rcases calls_of_sign hsign with ⟨rfl, rfl⟩
    apply (isGiven_callsOf_iff hnodup).mpr
    have hreached := hreaches relative plist hdeclared
    have hentry := (htable relative plist).mpr hdeclared
    cases hreached with
    | @nested path _ hitem hexecutable =>
        have hwithin := length_lt_of_isWithin (isWithin_of_isItem hitem)
        have hpath : path ≠ [] := List.length_pos_iff.mp hwithin
        refine ⟨⟨path, true⟩, (hinside.members _).mpr ?_, rfl, ?_⟩
        · exact Or.inr ⟨hitem, hexecutable.symm⟩
        · unfold MacosSigningRequest.entitlementsFor
          rw [if_neg (by simp), if_neg (mt (path_eq_nil_iff _).mp hpath)]
          exact hentry
    | bundle hplist =>
        refine ⟨⟨[], true⟩, (hinside.members _).mpr (Or.inl rfl), rfl, ?_⟩
        unfold MacosSigningRequest.entitlementsFor
        rw [if_neg (by simp), if_pos ((path_eq_nil_iff _).mpr rfl)]
        exact hplist

end

end Dovetail.Signer
