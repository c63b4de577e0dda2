import Dovetail.CliSign
import Dovetail.DaemonEmbedder
import Dovetail.SignerMacos
import Dovetail.UpdaterFileName

/-!
# The entitlements of what is nested

`SignCommand` takes the entitlements of nested code from its options and from
the service of the project, where an option stands above the project.  A path
that is declared is looked up in the bundle as it is spelled, and one that is
not found there is not missed.
-/

namespace Dovetail.Cli.Ship

open CodeUnits FallibleSteps Signer SignOrder
open Release (equals)
open Release.World (refuseUsage)

/-- The service as the signing of the bundle around it reads it. -/
structure SignedServiceConfig extends MacosServiceConfig where
  entitlements : Option Text

namespace SignCommand

/-- The file is found from the root of the project. -/
def locate (root given : Text) : Text :=
  if given.head? = some 47 then given
  else Updater.PathStyle.posix.join root given

section

variable (existsSync : Text → Bool) (usage : Text)

def enter (byPath : Paths) (entry : Text) : Except Release.Refusal Paths :=
  let malformed : Except Release.Refusal Paths :=
    refuseUsage (text "expected relative/path=entitlements.plist, got \"" ++
      entry ++ text "\"") usage
  match entry.idxOf? equals with
  | none | some 0 => malformed
  | some divider =>
      if divider = entry.length - 1 then malformed
      else
        let relative := entry.take divider
        let plist := entry.drop (divider + 1)
        if !existsSync plist then
          refuseUsage (text "no entitlements file at " ++ plist) usage
        else if (byPath.lookup relative).isSome then
          refuseUsage (text "\"" ++ relative ++ text "\" is given twice.")
            (text "A nested binary takes one entitlements file; the second would silently replace the first.\n\n" ++
              usage)
        else .ok (byPath ++ [(relative, plist)])

def nestedEntitlements (entries : List Text) (root : Text)
    (service : Option SignedServiceConfig) : Except Release.Refusal Paths := do
  let byPath ← entries.foldlM (enter existsSync usage) []
  match service with
  | none => return byPath
  | some config =>
      match config.entitlements with
      | none => return byPath
      | some given =>
          let relative :=
            Bundler.DaemonEmbedder.programPathFor config.program
          if (byPath.lookup relative).isSome then return byPath
          else
            let plist := locate root given
            if !existsSync plist then
              refuseUsage (text "service.macos.entitlements points at " ++
                  plist ++ text ", and there is no file there.")
                (text "Signing would fall back to the application's own entitlements for the embedded component, which is the failure this key exists to prevent. Fix the path or drop the key.\n\n" ++
                  usage)
            else return byPath ++ [(relative, plist)]

end

/-- What an option says of a path. -/
def IsOption (entries : List Text) (relative plist : Text) : Prop :=
  equals ∉ relative ∧ relative ++ equals :: plist ∈ entries

/-- What is declared for a path: by an option or, where there is none for it,
by the service. -/
inductive Declared (entries : List Text) (root : Text)
    (service : Option SignedServiceConfig) : Text → Text → Prop where
  | option {relative plist : Text} :
      IsOption entries relative plist →
        Declared entries root service relative plist
  | service {config : SignedServiceConfig} {given : Text} :
      service = some config → config.entitlements = some given →
        (∀ plist, ¬ IsOption entries
          (Bundler.DaemonEmbedder.programPathFor config.program) plist) →
          Declared entries root service
            (Bundler.DaemonEmbedder.programPathFor config.program)
            (locate root given)

/-! ## The table -/

section

variable {existsSync : Text → Bool} {usage : Text} {byPath after : Paths}

theorem eq_of_append_equals {relative other plist others : Text}
    (hrelative : equals ∉ relative) (hother : equals ∉ other)
    (hsame : relative ++ equals :: plist = other ++ equals :: others) :
    relative = other ∧ plist = others := by
  have htake : ∀ {key : Text} (rest : Text), equals ∉ key →
      (key ++ equals :: rest).takeWhile (· != equals) = key := by
    intro key rest hkey
    have hall : ∀ unit ∈ key, (unit != equals) = true := by
      intro unit hunit
      apply bne_iff_ne.mpr
      intro hequals
      rw [hequals] at hunit
      exact hkey hunit
    rw [List.takeWhile_append_of_pos hall,
      List.takeWhile_cons_of_neg (by simp), List.append_nil]
  have hkeys : relative = other := by
    rw [← htake plist hrelative, hsame, htake others hother]
  subst hkeys
  simpa using hsame

/-- What one option enters. -/
theorem enter_eq_ok {entry : Text}
    (henter : enter existsSync usage byPath entry = .ok after) :
    ∃ relative plist, equals ∉ relative ∧
      entry = relative ++ equals :: plist ∧
        byPath.lookup relative = none ∧
          after = byPath ++ [(relative, plist)] := by
  unfold enter at henter
  split at henter
  · cases henter
  · cases henter
  · rename_i divider _ hdivider
    split at henter
    · cases henter
    · dsimp only at henter
      split at henter
      · cases henter
      · split at henter
        · cases henter
        · rename_i hfresh
          rcases List.idxOf?_eq_some_iff.mp hdivider with
            ⟨hlt, hequals, hbefore⟩
          refine ⟨entry.take divider, entry.drop (divider + 1), ?_, ?_, ?_,
            (Except.ok.inj henter).symm⟩
          · intro hmem
            rcases List.mem_take_iff_getElem.mp hmem with ⟨place, hplace, hunit⟩
            exact hbefore place (by omega) hunit
          · rw [← hequals, List.getElem_cons_drop, List.take_append_drop]
          · exact Option.not_isSome_iff_eq_none.mp hfresh

theorem lookup_append_singleton {relative plist : Text}
    (hfresh : byPath.lookup relative = none) (key value : Text) :
    (byPath ++ [(relative, plist)]).lookup key = some value ↔
      byPath.lookup key = some value ∨ key = relative ∧ value = plist := by
  rw [List.lookup_append]
  by_cases hkey : key = relative
  · subst hkey
    rw [hfresh]
    simp [eq_comm]
  · have hnone : [(relative, plist)].lookup key = none := by
      rw [List.lookup_cons, beq_false_of_ne hkey]
      rfl
    rw [hnone, Option.or_none]
    simp [hkey]

theorem lookup_of_foldlM_enter {entries : List Text}
    (hentered : entries.foldlM (enter existsSync usage) byPath = .ok after)
    (relative plist : Text) :
    after.lookup relative = some plist ↔
      byPath.lookup relative = some plist ∨
        IsOption entries relative plist := by
  induction entries generalizing byPath with
  | nil =>
      have hsame : byPath = after := by
        simpa [pure, Except.pure] using hentered
      simp [hsame, IsOption]
  | cons entry rest ih =>
      rw [List.foldlM_cons] at hentered
      rcases bind_eq_ok_iff.mp hentered with ⟨middle, hentry, hrest⟩
      rcases enter_eq_ok hentry with ⟨key, value, hkey, rfl, hfresh, rfl⟩
      rw [ih hrest, lookup_append_singleton hfresh, or_assoc]
      apply or_congr_right
      unfold IsOption
      rw [List.mem_cons, and_or_left]
      apply or_congr_left
      constructor
      · intro hsame
        rcases hsame with ⟨rfl, rfl⟩
        exact ⟨hkey, rfl⟩
      · intro hsame
        exact eq_of_append_equals hsame.1 hkey hsame.2

/-- A service that declares nothing, or nothing that no option stands above,
leaves it at the options. -/
theorem declared_iff_isOption {entries : List Text} {root : Text}
    {service : Option SignedServiceConfig} {relative plist : Text}
    (habove : ∀ config given, service = some config →
      config.entitlements = some given → ∃ plist, IsOption entries
        (Bundler.DaemonEmbedder.programPathFor config.program) plist) :
    Declared entries root service relative plist ↔
      IsOption entries relative plist := by
  constructor
  · intro hdeclared
    cases hdeclared with
    | option hoption => exact hoption
    | @service config given hconfig hgiven hfree =>
        rcases habove config given hconfig hgiven with ⟨other, hother⟩
        exact absurd hother (hfree other)
  · exact .option

/-- The table that is accepted has what is declared. -/
theorem lookup_nestedEntitlements {entries : List Text} {root : Text}
    {service : Option SignedServiceConfig} {nested : Paths}
    (haccepted : nestedEntitlements existsSync usage entries root service =
      .ok nested) (relative plist : Text) :
    nested.lookup relative = some plist ↔
      Declared entries root service relative plist := by
  unfold nestedEntitlements at haccepted
  rcases bind_eq_ok_iff.mp haccepted with ⟨byPath, hoptions, hservice⟩
  have hlookup : ∀ relative plist, byPath.lookup relative = some plist ↔
      IsOption entries relative plist := by
    intro relative plist
    have hentered := lookup_of_foldlM_enter hoptions relative plist
    simpa using hentered
  cases service with
  | none =>
      have hsame : byPath = nested := Except.ok.inj hservice
      rw [← hsame, hlookup, declared_iff_isOption]
      intro config given hconfig
      cases hconfig
  | some config =>
      cases hentitlements : config.entitlements with
      | none =>
          simp only [hentitlements] at hservice
          have hsame : byPath = nested := Except.ok.inj hservice
          rw [← hsame, hlookup, declared_iff_isOption]
          intro other given hconfig hgiven
          cases hconfig
          rw [hentitlements] at hgiven
          cases hgiven
      | some given =>
          simp only [hentitlements] at hservice
          split at hservice
          · rename_i habove
            have hsame : byPath = nested := Except.ok.inj hservice
            rw [← hsame, hlookup, declared_iff_isOption]
            intro other given' hconfig _
            cases hconfig
            rcases Option.isSome_iff_exists.mp habove with ⟨value, hvalue⟩
            exact ⟨value, (hlookup _ _).mp hvalue⟩
          · rename_i hfresh
            split at hservice
            · cases hservice
            · have hsame := Except.ok.inj hservice
              have hfree := Option.not_isSome_iff_eq_none.mp hfresh
              rw [← hsame, lookup_append_singleton hfree, hlookup]
              constructor
              · intro heither
                rcases heither with hoption | ⟨rfl, rfl⟩
                · exact .option hoption
                · apply Declared.service rfl hentitlements
                  intro other hother
                  rw [(hlookup _ other).mpr hother] at hfree
                  cases hfree
              · intro hdeclared
                cases hdeclared with
                | option hoption => exact Or.inl hoption
                | service hconfig hgiven _ =>
                    cases hconfig
                    rw [hentitlements] at hgiven
                    cases hgiven
                    exact Or.inr ⟨rfl, rfl⟩

/-- Signing that goes through has given all that was declared exactly where
every declared path is spelled as that of an executable that is signed. -/
theorem givesDeclared_iff {entries : List Text} {root : Text}
    {service : Option SignedServiceConfig} {nested : Paths}
    (haccepted : nestedEntitlements existsSync usage entries root service =
      .ok nested)
    {contents : List BundlePath} (hnodup : contents.Nodup)
    (bundlePath identity : Text) (appEntitlements : Option Text)
    (hardenedRuntime : Bool) :
    GivesDeclared
        { bundlePath, identity, appEntitlements, hardenedRuntime
          entitlementsByRelativePath := nested }
        contents (Declared entries root service) ↔
      ∀ relative plist, Declared entries root service relative plist →
        Reaches contents appEntitlements relative plist := by
  exact givesDeclared_iff_reaches hnodup (lookup_nestedEntitlements haccepted)

end

section

def daemonName : EntryName where
  units := text "daemon"
  filled := by decide
  proper := by decide
  whole := by decide

def daemonContents : List BundlePath :=
  [[contentsName, helpersName, daemonName]]

theorem givesDeclared_iff_daemon :
    GivesDeclared
        { bundlePath := text "build/Example.app"
          identity := text "Example"
          appEntitlements := none
          entitlementsByRelativePath :=
            [(text "Contents/Helpers/daemon",
              text "macos/Daemon.entitlements")]
          hardenedRuntime := true }
        daemonContents
        (Declared
          [text "Contents/Helpers/daemon=macos/Daemon.entitlements"]
          (text "/home/example") none) ↔
      ∀ relative plist,
        Declared [text "Contents/Helpers/daemon=macos/Daemon.entitlements"]
            (text "/home/example") none relative plist →
          Reaches daemonContents none relative plist := by
  apply @givesDeclared_iff (fun _ => true) (text "Usage: dovetail sign")
  · decide
  · decide

/-- A path that is spelled from the directory itself is accepted, and what is
declared for it is given to no call. -/
theorem not_givesDeclared_dotted :
    nestedEntitlements (fun _ => true) (text "Usage: dovetail sign")
        [text "./Contents/Helpers/daemon=macos/Daemon.entitlements"]
        (text "/home/example") none =
      .ok [(text "./Contents/Helpers/daemon",
        text "macos/Daemon.entitlements")] ∧
    ¬ GivesDeclared
        { bundlePath := text "build/Example.app"
          identity := text "Example"
          appEntitlements := none
          entitlementsByRelativePath :=
            [(text "./Contents/Helpers/daemon",
              text "macos/Daemon.entitlements")]
          hardenedRuntime := true }
        daemonContents
        (Declared
          [text "./Contents/Helpers/daemon=macos/Daemon.entitlements"]
          (text "/home/example") none) := by
  have haccepted :
      nestedEntitlements (fun _ => true) (text "Usage: dovetail sign")
          [text "./Contents/Helpers/daemon=macos/Daemon.entitlements"]
          (text "/home/example") none =
        .ok [(text "./Contents/Helpers/daemon",
          text "macos/Daemon.entitlements")] := by
    decide
  refine ⟨haccepted, ?_⟩
  rw [givesDeclared_iff_reaches (by decide)
    (lookup_nestedEntitlements haccepted)]
  intro hreaches
  have hdeclared : Declared
      [text "./Contents/Helpers/daemon=macos/Daemon.entitlements"]
      (text "/home/example") none (text "./Contents/Helpers/daemon")
      (text "macos/Daemon.entitlements") := by
    apply Declared.option
    constructor <;> decide
  generalize hspelled : text "./Contents/Helpers/daemon" = relative
    at hdeclared
  have hreached := hreaches relative _ hdeclared
  cases hreached with
  | @nested path _ hitem _ =>
      have hwithin := length_lt_of_isWithin (isWithin_of_isItem hitem)
      apply dot_not_mem_splitOn (List.length_pos_iff.mp hwithin)
      rw [← hspelled]
      decide
  | bundle hplist => cases hplist

end

end SignCommand

end Dovetail.Cli.Ship
