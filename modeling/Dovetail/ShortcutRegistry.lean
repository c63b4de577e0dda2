import Dovetail.CodeUnits
import Dovetail.TransitionRun
import Mathlib.Data.Finset.Basic

/-!
# The native shortcut registry

The registry lists the hotkeys it has bound, and asks the hotkey manager of
the platform to register and unregister them.  A release takes the hotkey off
the list before it is unregistered, so the list and the platform agree after
every call exactly where no unregistering fails.
-/

namespace Dovetail.Shortcut

open CodeUnits
open TransitionRun

/-- What the registry takes from the hotkey crate. -/
structure HotKeyCrate (HotKey : Type) where
  fromStr : Text → Except Text HotKey
  id : HotKey → UInt32

inductive ManagerErrorKind where
  | alreadyRegistered
  | failedToRegister
  | osError
  | failedToWatchMediaKeyEvent
  | hotKeyParseError
  | unrecognizedHotKeyCode
  | emptyHotKeyToken
  | unexpectedHotKeyFormat
  | other
  deriving DecidableEq

structure ManagerError where
  kind : ManagerErrorKind
  message : Text
  deriving DecidableEq

inductive Status where
  | ok
  | malformedChord
  | takenBySystem
  | alreadyBound
  | notBound
  | backendUnavailable
  deriving DecidableEq

namespace Status

def code : Status → Int
  | ok => 0
  | malformedChord => 1
  | takenBySystem => 2
  | alreadyBound => 3
  | notBound => 4
  | backendUnavailable => 5

def forRegistration (error : ManagerError) : Status :=
  match error.kind with
  | .alreadyRegistered => alreadyBound
  | .failedToRegister => takenBySystem
  | .osError | .failedToWatchMediaKeyEvent => backendUnavailable
  | .hotKeyParseError | .unrecognizedHotKeyCode | .emptyHotKeyToken
  | .unexpectedHotKeyFormat => malformedChord
  | .other => backendUnavailable

theorem forRegistration_ne_ok (error : ManagerError) :
    forRegistration error ≠ ok := by
  unfold forRegistration
  cases error.kind <;> decide

end Status

/-- The whitespace a Rust string is trimmed of: no byte order mark. -/
def isWhitespace (unit : UInt16) : Bool := isSpace unit && unit != 0xFEFF

def trimmed (accelerator : Text) : Text :=
  (accelerator.dropWhile isWhitespace).rdropWhile isWhitespace

variable {HotKey : Type}

def parse (crate : HotKeyCrate HotKey) (accelerator : Text) :
    Except Text HotKey :=
  let source := trimmed accelerator
  if source.isEmpty then .error (text "the accelerator is empty")
  else
    (crate.fromStr source).mapError fun error =>
      source ++ text ": " ++ error

/-- The registry, and beside it the hotkeys the platform has registered.  No
two bound hotkeys have the same id. -/
structure Registry (crate : HotKeyCrate HotKey) where
  bound : List HotKey
  failure : Option Text
  registered : Finset HotKey
  distinct : (bound.map crate.id).Nodup

namespace Registry

variable {crate : HotKeyCrate HotKey}

def opened : Registry crate where
  bound := []
  failure := none
  registered := ∅
  distinct := List.nodup_nil

/-- A reason with a null character cannot be kept as it is. -/
def remember (registry : Registry crate) (reason : Text) : Registry crate :=
  { registry with
    failure := some
      (if reason.contains 0 then
        text "the platform reported a reason that is not text"
      else reason) }

variable [DecidableEq HotKey]

/-- `register` is the answer of the manager, without an error when it
registered the hotkey. -/
def bind (registry : Registry crate) (accelerator : Text)
    (register : Option ManagerError) :
    Except Status UInt32 × Registry crate :=
  match parse crate accelerator with
  | .error reason => (.error .malformedChord, registry.remember reason)
  | .ok hotkey =>
      if hknown : crate.id hotkey ∈ registry.bound.map crate.id then
        (.error .alreadyBound, registry.remember
          (accelerator ++ text " is already bound by this app"))
      else
        match register with
        | some error =>
            (.error (.forRegistration error), registry.remember error.message)
        | none =>
            (.ok (crate.id hotkey),
              { registry with
                bound := registry.bound ++ [hotkey]
                registered := insert hotkey registry.registered
                distinct := by
                  rw [List.map_append, List.nodup_append]
                  refine ⟨registry.distinct, by simp, ?_⟩
                  intro old hold new hnew
                  rw [List.map_singleton, List.mem_singleton] at hnew
                  rintro rfl
                  exact hknown (hnew ▸ hold) })

/-- The hotkey leaves the list before the manager is asked. -/
def release (registry : Registry crate) (id : UInt32)
    (unregister : Option ManagerError) : Status × Registry crate :=
  match registry.bound.find? fun known => crate.id known == id with
  | none => (.notBound, registry)
  | some hotkey =>
      let shorter : Registry crate :=
        { registry with
          bound := registry.bound.eraseP fun known => crate.id known == id
          distinct :=
            ((List.eraseP_sublist).map crate.id).nodup registry.distinct }
      match unregister with
      | none =>
          (.ok,
            { shorter with registered := registry.registered.erase hotkey })
      | some error => (.backendUnavailable, shorter.remember error.message)

/-- The hotkeys with these ids are released one after the other. -/
def releaseEach (unregister : UInt32 → Option ManagerError) :
    List UInt32 → Status → Registry crate → Status × Registry crate
  | [], worst, registry => (worst, registry)
  | id :: rest, worst, registry =>
      let (status, next) := registry.release id (unregister id)
      releaseEach unregister rest (if status = .ok then worst else status) next

def releaseAll (registry : Registry crate)
    (unregister : UInt32 → Option ManagerError) : Status × Registry crate :=
  releaseEach unregister (registry.bound.map crate.id) .ok registry

/-- What is passed as the accelerator. -/
inductive Accelerator where
  | null
  | notUtf8
  | text (source : Text)

def dovetailShortcutBind (registry : Registry crate)
    (accelerator : Accelerator) (register : Option ManagerError) :
    Except Status UInt32 × Registry crate :=
  match accelerator with
  | .null => (.error .malformedChord, registry)
  | .notUtf8 =>
      (.error .malformedChord,
        registry.remember (CodeUnits.text "the accelerator is not valid UTF-8"))
  | .text source => registry.bind source register

/-- A call from outside, with what the manager answers to it. -/
inductive Call where
  | bind (accelerator : Accelerator) (register : Option ManagerError)
  | release (id : UInt32) (unregister : Option ManagerError)
  | releaseAll (unregister : UInt32 → Option ManagerError)

def step (registry : Registry crate) (call : Call) :
    Option (Registry crate) :=
  match call with
  | .bind accelerator register =>
      some (registry.dovetailShortcutBind accelerator register).2
  | .release id unregister => some (registry.release id unregister).2
  | .releaseAll unregister => some (registry.releaseAll unregister).2

/-- The list holds exactly what the platform has registered. -/
def Agrees (registry : Registry crate) : Prop :=
  registry.registered = registry.bound.toFinset

/-- The manager is asked to unregister a hotkey and does not. -/
def failsToUnregister (registry : Registry crate) : Call → Prop
  | .bind _ _ => False
  | .release id unregister =>
      id ∈ registry.bound.map crate.id ∧ unregister.isSome
  | .releaseAll unregister =>
      ∃ id ∈ registry.bound.map crate.id, (unregister id).isSome

section

variable {registry next : Registry crate}

theorem agrees_remember (reason : Text) :
    (registry.remember reason).Agrees ↔ registry.Agrees := Iff.rfl

/-- A bind keeps the agreement, whatever the manager answers. -/
theorem agrees_bind (hagrees : registry.Agrees) (accelerator : Text)
    (register : Option ManagerError) :
    (registry.bind accelerator register).2.Agrees := by
  unfold bind
  split
  · exact hagrees
  · split
    · exact hagrees
    · split
      · exact hagrees
      · rename_i hotkey _ _ _
        simp only [Agrees, List.toFinset_append, List.toFinset_cons,
          List.toFinset_nil]
        rw [hagrees, Finset.insert_eq, Finset.union_comm]
        rfl

theorem bind_cases (accelerator : Accelerator)
    (register : Option ManagerError) :
    (∃ status, status ≠ .ok ∧
        (registry.dovetailShortcutBind accelerator register).1 =
          .error status ∧
        (registry.dovetailShortcutBind accelerator register).2.bound =
          registry.bound) ∨
      ∃ hotkey, crate.id hotkey ∉ registry.bound.map crate.id ∧
        (registry.dovetailShortcutBind accelerator register).1 =
          .ok (crate.id hotkey) ∧
        (registry.dovetailShortcutBind accelerator register).2.bound =
          registry.bound ++ [hotkey] := by
  generalize hresult : registry.dovetailShortcutBind accelerator register =
    result
  cases accelerator with
  | null =>
      subst hresult
      exact .inl ⟨.malformedChord, nofun, rfl, rfl⟩
  | notUtf8 =>
      subst hresult
      exact .inl ⟨.malformedChord, nofun, rfl, rfl⟩
  | text source =>
      change registry.bind source register = result at hresult
      unfold bind at hresult
      split at hresult
      · subst hresult
        exact .inl ⟨.malformedChord, nofun, rfl, rfl⟩
      · split at hresult
        · subst hresult
          exact .inl ⟨.alreadyBound, nofun, rfl, rfl⟩
        · next hotkey _ hknown =>
            split at hresult
            · next error =>
                subst hresult
                exact .inl ⟨.forRegistration error,
                  Status.forRegistration_ne_ok error, rfl, rfl⟩
            · subst hresult
              exact .inr ⟨hotkey, hknown, rfl, rfl⟩

omit [DecidableEq HotKey] in
/-- What leaves the list with an id is the one hotkey that has it. -/
theorem exists_split_of_find? {id : UInt32} {hotkey : HotKey}
    (hfind : (registry.bound.find? fun known => crate.id known == id) =
      some hotkey) :
    ∃ before after, registry.bound = before ++ hotkey :: after ∧
      (registry.bound.eraseP fun known => crate.id known == id) =
        before ++ after := by
  obtain ⟨hid, before, after, hbound, hbefore⟩ :=
    List.find?_eq_some_iff_append.mp hfind
  refine ⟨before, after, hbound, ?_⟩
  have hnone : ∀ known ∈ before, ¬ (crate.id known == id) = true := by
    intro known hknown
    simpa using hbefore known hknown
  rw [hbound, List.eraseP_append_right _ hnone]
  congr 1
  exact List.eraseP_cons_of_pos hid

theorem toFinset_erase {before after : List HotKey} {hotkey : HotKey}
    (hbound : registry.bound = before ++ hotkey :: after) :
    (before ++ after).toFinset = registry.bound.toFinset.erase hotkey := by
  have hnodup : (before ++ hotkey :: after).Nodup := by
    have hdistinct := registry.distinct
    rw [hbound] at hdistinct
    exact hdistinct.of_map
  have hfresh : hotkey ∉ before ++ after :=
    (List.nodup_middle.mp hnodup).notMem
  ext known
  rw [hbound]
  simp only [List.mem_toFinset, Finset.mem_erase, List.mem_append,
    List.mem_cons]
  constructor
  · intro hmem
    refine ⟨?_, by tauto⟩
    rintro rfl
    exact hfresh (by simpa using hmem)
  · tauto

theorem release_of_notMem {id : UInt32}
    (hid : id ∉ registry.bound.map crate.id)
    (unregister : Option ManagerError) :
    registry.release id unregister = (.notBound, registry) := by
  have hnone : (registry.bound.find? fun known => crate.id known == id) =
      none := by
    rw [List.find?_eq_none]
    intro known hknown hsame
    exact hid (List.mem_map.mpr ⟨known, hknown, by simpa using hsame⟩)
  simp [release, hnone]

/-- The release of a bound id, whichever the answer of the manager. -/
theorem release_of_mem {id : UInt32}
    (hid : id ∈ registry.bound.map crate.id)
    (unregister : Option ManagerError) :
    ∃ hotkey before after, crate.id hotkey = id ∧
      registry.bound = before ++ hotkey :: after ∧
        (registry.release id unregister).2.bound = before ++ after ∧
          (registry.release id unregister).2.registered =
            (if unregister.isSome then registry.registered
              else registry.registered.erase hotkey) ∧
            (registry.release id unregister).1 =
              if unregister.isSome then .backendUnavailable else .ok := by
  obtain ⟨known, hknown, hsame⟩ := List.mem_map.mp hid
  have hfound : (registry.bound.find? fun other =>
      crate.id other == id).isSome := by
    rw [List.find?_isSome]
    exact ⟨known, hknown, by simpa using hsame⟩
  obtain ⟨hotkey, hfind⟩ := Option.isSome_iff_exists.mp hfound
  obtain ⟨before, after, hbound, herased⟩ := exists_split_of_find? hfind
  have hhotkey : crate.id hotkey = id := by
    simpa using List.find?_some hfind
  refine ⟨hotkey, before, after, hhotkey, hbound, ?_⟩
  unfold release
  rw [hfind]
  cases unregister with
  | none => exact ⟨herased, rfl, rfl⟩
  | some error => exact ⟨herased, rfl, rfl⟩

/-- A release keeps the agreement unless the manager fails to unregister the
hotkey. -/
theorem agrees_release_iff (hagrees : registry.Agrees) (id : UInt32)
    (unregister : Option ManagerError) :
    (registry.release id unregister).2.Agrees ↔
      ¬ (id ∈ registry.bound.map crate.id ∧ unregister.isSome) := by
  by_cases hid : id ∈ registry.bound.map crate.id
  · obtain ⟨hotkey, before, after, -, hbound, hshorter, hregistered, -⟩ :=
      release_of_mem hid unregister
    have herase := toFinset_erase hbound
    have hmem : hotkey ∈ registry.bound.toFinset := by
      rw [hbound]
      simp
    unfold Agrees at hagrees ⊢
    rw [hshorter, hregistered, herase, hagrees]
    cases unregister with
    | none => simp
    | some error =>
        have hne : registry.bound.toFinset ≠
            registry.bound.toFinset.erase hotkey := by
          intro hsame
          rw [hsame] at hmem
          simp at hmem
        simp [hid, hne]
  · rw [release_of_notMem hid]
    simp [hid, hagrees]

theorem release_head {hotkey : HotKey} {others : List HotKey}
    (hbound : registry.bound = hotkey :: others)
    (unregister : Option ManagerError) :
    (registry.release (crate.id hotkey) unregister).2.bound = others ∧
      (registry.release (crate.id hotkey) unregister).2.registered =
        (if unregister.isSome then registry.registered
          else registry.registered.erase hotkey) ∧
        (registry.release (crate.id hotkey) unregister).1 =
          if unregister.isSome then .backendUnavailable else .ok := by
  have hfind : (registry.bound.find? fun known =>
      crate.id known == crate.id hotkey) = some hotkey := by
    rw [hbound]
    simp
  have herased : (registry.bound.eraseP fun known =>
      crate.id known == crate.id hotkey) = others := by
    rw [hbound]
    simp
  unfold release
  rw [hfind]
  cases unregister with
  | none => exact ⟨herased, rfl, rfl⟩
  | some error => exact ⟨herased, rfl, rfl⟩

/-- All hotkeys leave the list; those the manager fails to unregister stay
registered. -/
theorem releaseEach_of_bound {unregister : UInt32 → Option ManagerError}
    {ids : List UInt32} (worst : Status)
    (hids : registry.bound.map crate.id = ids) :
    (releaseEach unregister ids worst registry).2.bound = [] ∧
      (releaseEach unregister ids worst registry).2.registered =
        registry.registered.filter fun hotkey =>
          hotkey ∈ registry.bound → (unregister (crate.id hotkey)).isSome := by
  induction ids generalizing registry worst with
  | nil =>
      have hbound : registry.bound = [] := List.map_eq_nil_iff.mp hids
      simp [releaseEach, hbound]
  | cons id rest ih =>
      obtain ⟨hotkey, others, hbound, rfl, hothers⟩ :=
        List.map_eq_cons_iff.mp hids
      obtain ⟨hshorter, hregistered, -⟩ :=
        release_head hbound (unregister (crate.id hotkey))
      have hrest : (registry.release (crate.id hotkey)
          (unregister (crate.id hotkey))).2.bound.map crate.id = rest := by
        rw [hshorter, hothers]
      refine ⟨(ih _ hrest).1, ?_⟩
      rw [releaseEach, (ih _ hrest).2, hshorter, hregistered, hbound]
      have hfresh : hotkey ∉ others := by
        have hdistinct := registry.distinct
        rw [hbound] at hdistinct
        exact (List.nodup_cons.mp hdistinct.of_map).1
      cases hanswer : unregister (crate.id hotkey) with
      | none =>
          ext known
          by_cases hsame : known = hotkey
          · subst hsame
            simp [hanswer]
          · simp [hsame]
      | some error =>
          ext known
          by_cases hsame : known = hotkey
          · subst hsame
            simp [hanswer, hfresh]
          · simp [hsame]

theorem releaseEach_eq_ok_iff {unregister : UInt32 → Option ManagerError}
    {ids : List UInt32} {worst : Status}
    (hids : registry.bound.map crate.id = ids) :
    (releaseEach unregister ids worst registry).1 = .ok ↔
      worst = .ok ∧ ∀ id ∈ ids, unregister id = none := by
  induction ids generalizing registry worst with
  | nil => simp [releaseEach]
  | cons id rest ih =>
      obtain ⟨hotkey, others, hbound, rfl, hothers⟩ :=
        List.map_eq_cons_iff.mp hids
      obtain ⟨hshorter, -, hstatus⟩ :=
        release_head hbound (unregister (crate.id hotkey))
      have hrest : (registry.release (crate.id hotkey)
          (unregister (crate.id hotkey))).2.bound.map crate.id = rest := by
        rw [hshorter, hothers]
      rw [releaseEach, ih hrest, hstatus]
      cases hanswer : unregister (crate.id hotkey) <;> simp [hanswer]

/-- Releasing all keeps the agreement unless the manager fails to unregister
one of them. -/
theorem agrees_releaseAll_iff (hagrees : registry.Agrees)
    (unregister : UInt32 → Option ManagerError) :
    (registry.releaseAll unregister).2.Agrees ↔
      ¬ ∃ id ∈ registry.bound.map crate.id, (unregister id).isSome := by
  have hids : registry.bound.map crate.id = registry.bound.map crate.id := rfl
  obtain ⟨hempty, hregistered⟩ :
      (releaseEach unregister _ .ok registry).2.bound = [] ∧ _ :=
    releaseEach_of_bound .ok hids
  unfold Agrees releaseAll
  rw [hempty, hregistered, hagrees, List.toFinset_nil,
    Finset.filter_eq_empty_iff]
  constructor
  · rintro hnone ⟨id, hid, hfails⟩
    obtain ⟨hotkey, hbound, rfl⟩ := List.mem_map.mp hid
    exact hnone (List.mem_toFinset.mpr hbound) fun _ => hfails
  · intro hall hotkey hmem hkept
    have hbound := List.mem_toFinset.mp hmem
    exact hall ⟨crate.id hotkey, List.mem_map_of_mem hbound, hkept hbound⟩

theorem step_total (registry : Registry crate) (call : Call) :
    ∃ next, step registry call = some next := by
  cases call <;> exact ⟨_, rfl⟩

theorem agrees_step_iff {call : Call} (hagrees : registry.Agrees)
    (hstep : step registry call = some next) :
    next.Agrees ↔ ¬ registry.failsToUnregister call := by
  cases call with
  | bind accelerator register =>
      cases hstep
      have hbind :
          (registry.dovetailShortcutBind accelerator register).2.Agrees := by
        cases accelerator with
        | null => exact hagrees
        | notUtf8 => exact hagrees
        | text source => exact agrees_bind hagrees source register
      simpa [failsToUnregister] using hbind
  | release id unregister =>
      cases hstep
      exact agrees_release_iff hagrees id unregister
  | releaseAll unregister =>
      cases hstep
      exact agrees_releaseAll_iff hagrees unregister

/-- From the opened registry on, the list and the platform agree after every
call exactly when no unregistering fails. -/
theorem list_agrees_throughout_iff (calls : List Call) :
    Throughout step (opened : Registry crate) Agrees calls ↔
      EveryStep step (opened : Registry crate)
        (fun registry call => ¬ registry.failsToUnregister call) calls := by
  have hopened : (opened : Registry crate).Agrees := rfl
  apply throughout_iff_everyStep hopened step_total
  intro registry call next hagrees hstep
  exact agrees_step_iff hagrees hstep

end

/-! ### A hotkey that cannot be unregistered -/

/-- Hotkeys as they are spelled, told apart by their length. -/
def spelledCrate : HotKeyCrate Text where
  fromStr := .ok
  id := fun hotkey => UInt32.ofNat hotkey.length

def boundThenStuck : List Call :=
  [.bind (.text (text "Control+KeyV")) none,
    .release 12 (some ⟨.osError, text "the display is gone"⟩)]

/-- The hotkey is registered but no longer on the list, and another release
does not find it. -/
theorem not_agrees_throughout_boundThenStuck :
    ¬ Throughout step (opened : Registry spelledCrate) Agrees
        boundThenStuck ∧
      (run step (opened : Registry spelledCrate) boundThenStuck).map
        (fun registry => (registry.release 12 none).1) = some .notBound := by
  constructor
  · intro hall
    have hlast := hall boundThenStuck [] _ (by simp) rfl
    revert hlast
    unfold Agrees
    decide
  · decide

end Registry

end Dovetail.Shortcut
