import Dovetail.FallibleSteps
import Dovetail.ShortcutRegistry

/-!
# The shortcut surface over the native registry

The surface keeps the name of every native id and the native id of every
name.  A bind adds to both maps without looking at what the name was bound to
before, and a refused release puts back what the native side has given up, so
the maps and the native list agree after every call exactly where neither
happens.
-/

namespace Dovetail.Shortcut

open CodeUnits
open FallibleSteps
open TransitionRun

/-! ## Chords and refusals -/

inductive ShortcutModifier where
  | commandOrControl
  | control
  | metaKey
  | alt
  | shift
  deriving DecidableEq

def ShortcutModifier.acceleratorName : ShortcutModifier → Text
  | .commandOrControl => text "CommandOrControl"
  | .control => text "Control"
  | .metaKey => text "Meta"
  | .alt => text "Alt"
  | .shift => text "Shift"

def ShortcutModifier.values : List ShortcutModifier :=
  [.commandOrControl, .control, .metaKey, .alt, .shift]

def plus : UInt16 := 43

/-- A key and its modifiers; the key is not blank, has no blank space around
it and carries no modifier. -/
structure ShortcutChord where
  code : Text
  modifiers : Finset ShortcutModifier
  filled : trim code ≠ []
  bare : plus ∉ code ∧ trim code = code

namespace ShortcutChord

def accelerator (chord : ShortcutChord) : Text :=
  (ShortcutModifier.values.filter
    fun modifier => modifier ∈ chord.modifiers).flatMap
      (fun modifier => modifier.acceleratorName ++ [plus]) ++ chord.code

def carriesPrimaryModifier (chord : ShortcutChord) : Bool :=
  .control ∈ chord.modifiers || .metaKey ∈ chord.modifiers ||
    .commandOrControl ∈ chord.modifiers

end ShortcutChord

inductive ShortcutHost where
  | windows
  | macos
  | linux
  | other
  deriving DecidableEq

namespace ShortcutPolicy

def optionOnly (chord : ShortcutChord) : Bool :=
  .alt ∈ chord.modifiers && .control ∉ chord.modifiers &&
    .metaKey ∉ chord.modifiers && .commandOrControl ∉ chord.modifiers

def refuse (chord : ShortcutChord) (host : ShortcutHost) : Option Text :=
  if !chord.carriesPrimaryModifier then
    some (text ("a chord without Control, Command or Meta is one " ++
      "keystroke away from every other application on the machine"))
  else if chord.code = text "F12" then
    some (chord.code ++ text (" is reserved for the debugger on Windows, " ++
      "and a chord that works on two platforms out of three is a support " ++
      "call"))
  else if host = .windows ∧ .metaKey ∈ chord.modifiers then
    some (text ("Windows reserves the combinations that carry its own key; " ++
      "RegisterHotKey refuses them"))
  else if host = .macos ∧ optionOnly chord then
    some (text ("macOS 15.0 stopped delivering Option-only and " ++
      "Option+Shift chords to sandboxed applications, and it did so " ++
      "without an error at the call site"))
  else none

end ShortcutPolicy

inductive ShortcutRefusal where
  | platformUnsupported
  | malformedChord
  | takenBySystem
  | alreadyBound
  | notBound
  | backendUnavailable
  | sessionUnsupported
  | refusedByPolicy
  deriving DecidableEq

structure ShortcutFailure where
  reason : ShortcutRefusal
  detail : Text
  deriving DecidableEq

namespace ShortcutRefusal

def code : ShortcutRefusal → Int
  | platformUnsupported => -1
  | malformedChord => 1
  | takenBySystem => 2
  | alreadyBound => 3
  | notBound => 4
  | backendUnavailable => 5
  | sessionUnsupported => -2
  | refusedByPolicy => -5

def values : List ShortcutRefusal :=
  [platformUnsupported, malformedChord, takenBySystem, alreadyBound, notBound,
    backendUnavailable, sessionUnsupported, refusedByPolicy]

/-- The refusal of a native status; one that is not known is thrown. -/
def fromStatus {State : Type} (status : Int) :
    EStateM ShortcutFailure State ShortcutRefusal :=
  match values.find? fun refusal => refusal.code == status with
  | some refusal => pure refusal
  | none => throw
      { reason := backendUnavailable
        detail := text ("the native side reported status " ++
          toString status ++ ", which this version does not know. Folding " ++
          "it into backendUnavailable would report the wrong cause.") }

/-- Every status but success is known. -/
theorem exists_fromStatus {State : Type} {status : Status}
    (hstatus : status ≠ .ok) : ∃ refusal,
      (fromStatus status.code : EStateM ShortcutFailure State _) =
        pure refusal := by
  cases status with
  | ok => exact absurd rfl hstatus
  | malformedChord => exact ⟨malformedChord, rfl⟩
  | takenBySystem => exact ⟨takenBySystem, rfl⟩
  | alreadyBound => exact ⟨alreadyBound, rfl⟩
  | notBound => exact ⟨notBound, rfl⟩
  | backendUnavailable => exact ⟨backendUnavailable, rfl⟩

end ShortcutRefusal

/-! ## The surface -/

structure ShortcutSupport where
  available : Bool
  waylandPortal : Bool
  unavailableBecause : Option Text

structure ShortcutRequest where
  name : Text
  chord : ShortcutChord

inductive ShortcutOutcome where
  | bound (name : Text) (chord : ShortcutChord) (nativeId : UInt32)
  | refused (name : Text) (reason : ShortcutRefusal) (detail : Text)

structure Surface {HotKey : Type} (crate : HotKeyCrate HotKey) where
  namesByNativeId : UInt32 → Option Text
  nativeIdsByName : Text → Option UInt32
  listening : Bool
  registry : Registry crate

/-- What the native side answers to a request: the manager to the
registration, and whether the listener can be installed. -/
structure BindAnswers where
  register : Option ManagerError
  listens : Bool

/-- The session a surface was opened in. -/
structure Session where
  support : ShortcutSupport
  host : ShortcutHost

namespace Surface

variable {HotKey : Type} {crate : HotKeyCrate HotKey}

abbrev Steps (crate : HotKeyCrate HotKey) (α : Type) :=
  EStateM ShortcutFailure (Surface crate) α

def opened : Surface crate where
  namesByNativeId := fun _ => none
  nativeIdsByName := fun _ => none
  listening := false
  registry := .opened

def installListener (listens : Bool) : Steps crate Unit := do
  let surface ← get
  unless surface.listening do
    unless listens do
      let reason ← ShortcutRefusal.fromStatus Status.backendUnavailable.code
      throw ⟨reason, text ("the platform could not start delivering key " ++
        "presses, so a bound shortcut would never reach the application")⟩
    modify fun surface => { surface with listening := true }

/-- A text as the native side reads it: up to its first null character. -/
def nativeText (source : Text) : Text :=
  (repaired source).takeWhile (· != 0)

variable [DecidableEq HotKey]

def bindOne (session : Session) (request : ShortcutRequest)
    (answers : BindAnswers) : Steps crate ShortcutOutcome := do
  if !session.support.available then
    return .refused request.name
      (if session.support.waylandPortal then .sessionUnsupported
        else .platformUnsupported)
      (session.support.unavailableBecause.getD
        (text "this session grants no shortcut"))
  match ShortcutPolicy.refuse request.chord session.host with
  | some refusal => return .refused request.name .refusedByPolicy refusal
  | none =>
      let surface ← get
      let (status, registry) := surface.registry.dovetailShortcutBind
        (.text (nativeText request.chord.accelerator)) answers.register
      set { surface with registry }
      match status with
      | .error status =>
          let reason ← ShortcutRefusal.fromStatus status.code
          return .refused request.name reason
            (registry.failure.getD (text "the platform gave no reason"))
      | .ok nativeId =>
          modify fun surface =>
            { surface with
              namesByNativeId :=
                Function.update surface.namesByNativeId nativeId
                  (some request.name)
              nativeIdsByName :=
                Function.update surface.nativeIdsByName request.name
                  (some nativeId) }
          installListener answers.listens
          return .bound request.name request.chord nativeId

def bind (session : Session) :
    List (ShortcutRequest × BindAnswers) → Steps crate (List ShortcutOutcome)
  | [] => pure []
  | (request, answers) :: rest => do
      let outcome ← bindOne session request answers
      let outcomes ← bind session rest
      return outcome :: outcomes

def release (name : Text) (unregister : Option ManagerError) :
    Steps crate Unit := do
  let surface ← get
  match surface.nativeIdsByName name with
  | none => pure ()
  | some nativeId =>
      modify fun surface =>
        { surface with
          nativeIdsByName :=
            Function.update surface.nativeIdsByName name none }
      let (status, registry) := surface.registry.release nativeId unregister
      modify fun surface => { surface with registry }
      if status ≠ .ok then
        modify fun surface =>
          { surface with
            nativeIdsByName :=
              Function.update surface.nativeIdsByName name (some nativeId) }
        let reason ← ShortcutRefusal.fromStatus status.code
        throw ⟨reason, registry.failure.getD
          (text "the platform refused to release \"" ++ name ++
            text "\" and gave no reason")⟩
      modify fun surface =>
        { surface with
          namesByNativeId :=
            Function.update surface.namesByNativeId nativeId none }

def releaseAll (unregister : UInt32 → Option ManagerError) :
    Steps crate Unit := do
  let surface ← get
  let (status, registry) := surface.registry.releaseAll unregister
  set { surface with registry }
  if status ≠ .ok then
    let reason ← ShortcutRefusal.fromStatus status.code
    throw ⟨reason, registry.failure.getD (text ("the platform refused to " ++
      "release every shortcut and gave no reason"))⟩
  modify fun surface =>
    { surface with
      nativeIdsByName := fun _ => none
      namesByNativeId := fun _ => none }

/-- The name a press of the native id is delivered under. -/
def onNativePress (surface : Surface crate) (nativeId : UInt32) :
    Option Text :=
  surface.namesByNativeId nativeId

inductive Call where
  | bind (requests : List (ShortcutRequest × BindAnswers))
  | release (name : Text) (unregister : Option ManagerError)
  | releaseAll (unregister : UInt32 → Option ManagerError)

/-- The surface after a call, whether that returned or threw. -/
def step (session : Session) (surface : Surface crate) (call : Call) :
    Option (Surface crate) :=
  match call with
  | .bind requests => some (leftBy (bind session requests) surface)
  | .release name unregister => some (leftBy (release name unregister) surface)
  | .releaseAll unregister => some (leftBy (releaseAll unregister) surface)

def boundIds (surface : Surface crate) : List UInt32 :=
  surface.registry.bound.map crate.id

/-- The maps are inverse of each other, and their ids are those on the
native list. -/
structure Agrees (surface : Surface crate) : Prop where
  inverse : ∀ name nativeId, surface.nativeIdsByName name = some nativeId ↔
    surface.namesByNativeId nativeId = some name
  registered : ∀ nativeId, (surface.namesByNativeId nativeId).isSome ↔
    nativeId ∈ surface.boundIds

/-! ### When a call breaks the agreement -/

/-- The native side binds the chord of the request. -/
def accepts (session : Session) (surface : Surface crate)
    (request : ShortcutRequest) (register : Option ManagerError) : Bool :=
  session.support.available &&
    (ShortcutPolicy.refuse request.chord session.host).isNone &&
      (surface.registry.dovetailShortcutBind
        (.text (nativeText request.chord.accelerator)) register).1.isOk

/-- The listener is wanted for the first time and cannot be installed. -/
def stops (session : Session) (surface : Surface crate)
    (request : ShortcutRequest) (answers : BindAnswers) : Bool :=
  accepts session surface request answers.register &&
    !surface.listening && !answers.listens

/-- One of the requests, reached with those before it bound, binds a name
that is bound already. -/
def rebinds (session : Session) (surface : Surface crate) :
    List (ShortcutRequest × BindAnswers) → Prop
  | [] => False
  | (request, answers) :: rest =>
      (accepts session surface request answers.register ∧
        (surface.nativeIdsByName request.name).isSome) ∨
      (stops session surface request answers = false ∧
        rebinds session (leftBy (bindOne session request answers) surface)
          rest)

/-- A name is bound once more, or the platform fails to unregister a
hotkey. -/
def breaks (session : Session) (surface : Surface crate) : Call → Prop
  | .bind requests => rebinds session surface requests
  | .release name unregister =>
      (surface.nativeIdsByName name).isSome ∧ unregister.isSome
  | .releaseAll unregister =>
      ∃ nativeId ∈ surface.boundIds, (unregister nativeId).isSome

/-! ### What one request does -/

section

variable {session : Session} {surface after : Surface crate}
  {request : ShortcutRequest} {answers : BindAnswers}

/-- The maps and the native list are as before. -/
structure Unchanged (surface after : Surface crate) : Prop where
  names : after.namesByNativeId = surface.namesByNativeId
  ids : after.nativeIdsByName = surface.nativeIdsByName
  bound : after.boundIds = surface.boundIds

/-- A name has been given to a new native id. -/
structure Added (surface : Surface crate) (name : Text) (nativeId : UInt32)
    (after : Surface crate) : Prop where
  fresh : nativeId ∉ surface.boundIds
  names : after.namesByNativeId =
    Function.update surface.namesByNativeId nativeId (some name)
  ids : after.nativeIdsByName =
    Function.update surface.nativeIdsByName name (some nativeId)
  bound : after.boundIds = surface.boundIds ++ [nativeId]

theorem bindOne_refused
    (hrefused : accepts session surface request answers.register = false) :
    Ensures (bindOne session request answers) surface
      (fun _ after => Unchanged surface after) (fun _ _ => False) := by
  have hsame : Unchanged surface surface := ⟨rfl, rfl, rfl⟩
  unfold bindOne
  cases havailable : session.support.available with
  | false => simpa using hsame
  | true =>
      cases hpolicy : ShortcutPolicy.refuse request.chord session.host with
      | some refusal => simpa using hsame
      | none =>
          have hnative := surface.registry.bind_cases
            (.text (nativeText request.chord.accelerator)) answers.register
          rcases hnative with ⟨status, hstatus, hanswer, hbound⟩ |
            ⟨hotkey, -, hanswer, -⟩
          · obtain ⟨reason, hreason⟩ := @ShortcutRefusal.exists_fromStatus
              (Surface crate) status hstatus
            simp [hanswer, hreason]
            exact ⟨rfl, rfl, by simp [boundIds, hbound]⟩
          · simp [accepts, havailable, hpolicy, hanswer, Except.isOk,
              Except.toBool] at hrefused

omit [DecidableEq HotKey] in
theorem ensures_installListener (listens : Bool) :
    Ensures (installListener listens) surface
      (fun _ after => (surface.listening || listens) = true ∧
        after = { surface with listening := true })
      (fun _ after => (surface.listening || listens) = false ∧
        after = surface) := by
  obtain ⟨reason, hreason⟩ := @ShortcutRefusal.exists_fromStatus
    (Surface crate) .backendUnavailable nofun
  unfold installListener
  rw [hreason]
  cases hlistening : surface.listening with
  | true =>
      simp only [ensures_bind, ensures_get, hlistening]
      simp [← hlistening]
  | false =>
      cases listens with
      | true => simp [hlistening]
      | false => simp [hlistening]

theorem bindOne_accepted
    (haccepted : accepts session surface request answers.register = true) :
    ∃ nativeId,
      Ensures (bindOne session request answers) surface
        (fun _ after => stops session surface request answers = false ∧
          Added surface request.name nativeId after)
        (fun _ after => stops session surface request answers = true ∧
          Added surface request.name nativeId after) := by
  obtain ⟨⟨havailable, hpolicy⟩, hok⟩ :
      (session.support.available = true ∧
        ShortcutPolicy.refuse request.chord session.host = none) ∧
        (surface.registry.dovetailShortcutBind
          (.text (nativeText request.chord.accelerator))
          answers.register).1.isOk = true := by
    simpa [accepts] using haccepted
  have hnative := surface.registry.bind_cases
    (.text (nativeText request.chord.accelerator)) answers.register
  rcases hnative with ⟨status, -, hanswer, -⟩ |
    ⟨hotkey, hfresh, hanswer, hbound⟩
  · rw [hanswer] at hok
    simp [Except.isOk, Except.toBool] at hok
  · have hstops : stops session surface request answers =
        !(surface.listening || answers.listens) := by
      simp [stops, haccepted, Bool.not_or]
    refine ⟨crate.id hotkey, ?_⟩
    unfold bindOne
    simp only [havailable, hpolicy, Bool.not_true, Bool.false_eq_true,
      if_false, ensures_bind, ensures_get, hanswer, ensures_set,
      ensures_modify, hstops]
    apply (ensures_installListener answers.listens).imp
    · rintro _ _ ⟨hlistens, rfl⟩
      refine ⟨by rw [hlistens]; rfl, hfresh, rfl, rfl, ?_⟩
      simp [boundIds, hbound]
    · rintro _ _ ⟨hlistens, rfl⟩
      refine ⟨by rw [hlistens]; rfl, hfresh, rfl, rfl, ?_⟩
      simp [boundIds, hbound]

theorem unchanged_bindOne
    (hrefused : accepts session surface request answers.register = false) :
    Unchanged surface (leftBy (bindOne session request answers) surface) :=
  (bindOne_refused hrefused).leftBy (fun _ _ hsame => hsame)
    fun _ _ => False.elim

theorem added_bindOne
    (haccepted : accepts session surface request answers.register = true) :
    ∃ nativeId, Added surface request.name nativeId
      (leftBy (bindOne session request answers) surface) := by
  obtain ⟨nativeId, hensures⟩ := bindOne_accepted haccepted
  exact ⟨nativeId, hensures.leftBy (fun _ _ hadded => hadded.2)
    fun _ _ hadded => hadded.2⟩

/-- A request that stops the bind is its last one. -/
theorem leftBy_bind_cons
    (rest : List (ShortcutRequest × BindAnswers)) :
    leftBy (bind session ((request, answers) :: rest)) surface =
      if stops session surface request answers then
        leftBy (bindOne session request answers) surface
      else
        leftBy (bind session rest)
          (leftBy (bindOne session request answers) surface) := by
  have hensures : Ensures (bindOne session request answers) surface
      (fun _ _ => stops session surface request answers = false)
      (fun _ _ => stops session surface request answers = true) := by
    cases haccepts : accepts session surface request answers.register with
    | false =>
        apply (bindOne_refused haccepts).imp
        · intro _ _ _
          simp [stops, haccepts]
        · exact fun _ _ => False.elim
    | true =>
        obtain ⟨nativeId, hadded⟩ := bindOne_accepted haccepts
        exact hadded.imp (fun _ _ h => h.1) fun _ _ h => h.1
  rw [bind]
  cases hrun : (bindOne session request answers).run surface with
  | ok outcome after =>
      have hstops : stops session surface request answers = false := by
        simpa [Ensures, hrun] using hensures
      have hleft : leftBy (bindOne session request answers) surface =
          after := by
        simp [leftBy, hrun]
      rw [leftBy_bind_of_ok hrun, leftBy_bind_pure, hstops, hleft]
      rfl
  | error failure after =>
      have hstops : stops session surface request answers = true := by
        simpa [Ensures, hrun] using hensures
      rw [leftBy_bind_of_error hrun, hstops]
      simp [leftBy, hrun]

omit [DecidableEq HotKey] in
theorem Unchanged.agrees (hsame : Unchanged surface after)
    (hagrees : surface.Agrees) : after.Agrees := by
  constructor
  · rw [hsame.ids, hsame.names]
    exact hagrees.inverse
  · rw [hsame.names, hsame.bound]
    exact hagrees.registered

omit [DecidableEq HotKey] in
theorem Added.agrees {name : Text} {nativeId : UInt32}
    (hadded : Added surface name nativeId after) (hagrees : surface.Agrees)
    (hunbound : surface.nativeIdsByName name = none) : after.Agrees := by
  have hunnamed : surface.namesByNativeId nativeId = none := by
    rw [← Option.not_isSome_iff_eq_none, hagrees.registered]
    exact hadded.fresh
  constructor
  · intro other known
    rw [hadded.ids, hadded.names]
    have hinverse := hagrees.inverse other known
    by_cases hname : other = name <;> by_cases hid : known = nativeId
    · simp [hname, hid]
    · subst hname
      simp_all
      exact fun h => hid h.symm
    · subst hid
      simp_all
      exact fun h => hname h.symm
    · simp [hname, hid, hinverse]
  · intro known
    rw [hadded.names, hadded.bound]
    by_cases hid : known = nativeId
    · simp [hid]
    · simp [hid, hagrees.registered]

/-- The native list holds an id whose name has been given to another id. -/
def Stale (surface : Surface crate) : Prop :=
  ∃ nativeId name, nativeId ∈ surface.boundIds ∧
    surface.namesByNativeId nativeId = some name ∧
      surface.nativeIdsByName name ≠ some nativeId

omit [DecidableEq HotKey] in
theorem Stale.not_agrees (hstale : surface.Stale) : ¬ surface.Agrees := by
  obtain ⟨nativeId, name, -, hname, hother⟩ := hstale
  exact fun hagrees => hother ((hagrees.inverse name nativeId).mpr hname)

omit [DecidableEq HotKey] in
theorem Added.stale_of_isSome {name : Text} {nativeId : UInt32}
    (hadded : Added surface name nativeId after) (hagrees : surface.Agrees)
    (hbound : (surface.nativeIdsByName name).isSome) : after.Stale := by
  obtain ⟨known, hknown⟩ := Option.isSome_iff_exists.mp hbound
  have hname : surface.namesByNativeId known = some name :=
    (hagrees.inverse name known).mp hknown
  have hlisted : known ∈ surface.boundIds := by
    rw [← hagrees.registered, hname]
    rfl
  have hne : known ≠ nativeId := fun hsame => hadded.fresh (hsame ▸ hlisted)
  refine ⟨known, name, ?_, ?_, ?_⟩
  · rw [hadded.bound]
    exact List.mem_append_left _ hlisted
  · rw [hadded.names, Function.update_of_ne hne, hname]
  · rw [hadded.ids, Function.update_self]
    simpa using hne.symm

omit [DecidableEq HotKey] in
theorem Added.stale {name : Text} {nativeId : UInt32}
    (hadded : Added surface name nativeId after) (hstale : surface.Stale) :
    after.Stale := by
  obtain ⟨known, other, hlisted, hname, hother⟩ := hstale
  have hne : known ≠ nativeId := fun hsame => hadded.fresh (hsame ▸ hlisted)
  refine ⟨known, other, ?_, ?_, ?_⟩
  · rw [hadded.bound]
    exact List.mem_append_left _ hlisted
  · rw [hadded.names, Function.update_of_ne hne, hname]
  · rw [hadded.ids]
    by_cases hsame : other = name
    · subst hsame
      simpa using hne.symm
    · rwa [Function.update_of_ne hsame]

theorem Stale.bindOne (hstale : surface.Stale)
    (session : Session) (request : ShortcutRequest) (answers : BindAnswers) :
    (leftBy (Surface.bindOne session request answers) surface).Stale := by
  cases haccepts : accepts session surface request answers.register with
  | false =>
      have hsame := unchanged_bindOne haccepts
      unfold Stale
      rw [hsame.bound, hsame.names, hsame.ids]
      exact hstale
  | true =>
      obtain ⟨nativeId, hadded⟩ := added_bindOne haccepts
      exact hadded.stale hstale

theorem Stale.bind (hstale : surface.Stale) (session : Session)
    (requests : List (ShortcutRequest × BindAnswers)) :
    (leftBy (Surface.bind session requests) surface).Stale := by
  induction requests generalizing surface with
  | nil => exact hstale
  | cons head rest ih =>
      obtain ⟨request, answers⟩ := head
      rw [leftBy_bind_cons]
      have hnext := hstale.bindOne session request answers
      split
      · exact hnext
      · exact ih hnext

/-- A bind keeps the agreement exactly when no bound name is bound once
more. -/
theorem agrees_bind_iff (hagrees : surface.Agrees) (session : Session)
    (requests : List (ShortcutRequest × BindAnswers)) :
    (leftBy (bind session requests) surface).Agrees ↔
      ¬ rebinds session surface requests := by
  induction requests generalizing surface with
  | nil => exact ⟨fun _ => id, fun _ => hagrees⟩
  | cons head rest ih =>
      obtain ⟨request, answers⟩ := head
      rw [leftBy_bind_cons, rebinds]
      cases haccepts : accepts session surface request answers.register with
      | false =>
          have hstops : stops session surface request answers = false := by
            simp [stops, haccepts]
          have hnext := (unchanged_bindOne haccepts).agrees hagrees
          simp [hstops, ih hnext]
      | true =>
          obtain ⟨nativeId, hadded⟩ := added_bindOne haccepts
          cases hbound : surface.nativeIdsByName request.name with
          | none =>
              have hnext := hadded.agrees hagrees hbound
              cases hstops : stops session surface request answers with
              | false => simp [ih hnext]
              | true => simp [hnext]
          | some known =>
              have hstale : (leftBy (bindOne session request answers)
                  surface).Stale :=
                hadded.stale_of_isSome hagrees (by simp [hbound])
              have hrest := (hstale.bind session rest).not_agrees
              split
              · simp [hstale.not_agrees]
              · simp [hrest]

/-! ### Releases -/

omit [DecidableEq HotKey] in
theorem Agrees.mem_boundIds (hagrees : surface.Agrees) {name : Text}
    {nativeId : UInt32} (hname : surface.nativeIdsByName name = some nativeId) :
    nativeId ∈ surface.boundIds := by
  rw [← hagrees.registered, (hagrees.inverse name nativeId).mp hname]
  rfl

theorem boundIds_release {nativeId : UInt32}
    (hlisted : nativeId ∈ surface.boundIds)
    (unregister : Option ManagerError) :
    (surface.registry.release nativeId unregister).2.bound.map crate.id =
      surface.boundIds.erase nativeId := by
  obtain ⟨hotkey, before, rest, rfl, hbound, hshorter, -⟩ :=
    Registry.release_of_mem hlisted unregister
  have hnodup : (before.map crate.id ++
      crate.id hotkey :: rest.map crate.id).Nodup := by
    have hdistinct := surface.registry.distinct
    rw [hbound] at hdistinct
    simpa using hdistinct
  have hbefore : crate.id hotkey ∉ before.map crate.id := by
    have hfresh := (List.nodup_middle.mp hnodup).notMem
    exact fun hmem => hfresh (List.mem_append_left _ hmem)
  unfold boundIds
  rw [hshorter, hbound, List.map_append, List.map_append, List.map_cons,
    List.erase_append_right _ hbefore, List.erase_cons_head]

theorem leftBy_release_of_none {name : Text}
    (hname : surface.nativeIdsByName name = none)
    (unregister : Option ManagerError) :
    leftBy (release name unregister) surface = surface := by
  have hensures : Ensures (release name unregister) surface
      (fun _ after => after = surface) (fun _ _ => False) := by
    unfold release
    simp [hname]
  exact hensures.leftBy (fun _ _ hsame => hsame) fun _ _ => False.elim

/-- A name and its native id have been given up. -/
structure Removed (surface : Surface crate) (name : Text)
    (nativeId : UInt32) (after : Surface crate) : Prop where
  names : after.namesByNativeId =
    Function.update surface.namesByNativeId nativeId none
  ids : after.nativeIdsByName =
    Function.update surface.nativeIdsByName name none
  bound : after.boundIds = surface.boundIds.erase nativeId

/-- A native id the maps still hold is not on the native list. -/
def Lost (surface : Surface crate) : Prop :=
  ∃ nativeId, (surface.namesByNativeId nativeId).isSome ∧
    nativeId ∉ surface.boundIds

omit [DecidableEq HotKey] in
theorem Lost.not_agrees (hlost : surface.Lost) : ¬ surface.Agrees := by
  obtain ⟨nativeId, hnamed, hlisted⟩ := hlost
  exact fun hagrees => hlisted ((hagrees.registered nativeId).mp hnamed)

omit [DecidableEq HotKey] in
theorem nodup_boundIds : surface.boundIds.Nodup := surface.registry.distinct

omit [DecidableEq HotKey] in
theorem Removed.agrees {name : Text} {nativeId : UInt32}
    (hremoved : Removed surface name nativeId after)
    (hagrees : surface.Agrees)
    (hname : surface.nativeIdsByName name = some nativeId) :
    after.Agrees := by
  have hnamed := (hagrees.inverse name nativeId).mp hname
  constructor
  · intro other known
    rw [hremoved.ids, hremoved.names]
    have hinverse := hagrees.inverse other known
    by_cases hsame : other = name <;> by_cases hid : known = nativeId
    · simp [hsame, hid]
    · subst hsame
      have hother : surface.namesByNativeId known ≠ some other := by
        rw [Ne, ← hinverse, hname]
        simpa using Ne.symm hid
      simp [hid, hother]
    · subst hid
      have hother : surface.nativeIdsByName other ≠ some known := by
        rw [Ne, hinverse, hnamed]
        simpa using Ne.symm hsame
      simp [hsame, hother]
    · simp [hsame, hid, hinverse]
  · intro known
    rw [hremoved.names, hremoved.bound, nodup_boundIds.mem_erase_iff]
    by_cases hid : known = nativeId
    · simp [hid]
    · simp [hid, hagrees.registered]

theorem removed_release {name : Text} {nativeId : UInt32}
    (hagrees : surface.Agrees)
    (hname : surface.nativeIdsByName name = some nativeId) :
    Removed surface name nativeId (leftBy (release name none) surface) := by
  have hlisted := hagrees.mem_boundIds hname
  obtain ⟨-, -, -, -, -, -, -, hstatus⟩ :=
    Registry.release_of_mem hlisted none
  have hensures : Ensures (release name none) surface
      (fun _ after => Removed surface name nativeId after)
      (fun _ _ => False) := by
    unfold release
    simp only [ensures_bind, ensures_get, hname, ensures_modify, hstatus,
      Option.isSome_none, Bool.false_eq_true, if_false, ne_eq, not_true]
    exact ⟨rfl, rfl, boundIds_release hlisted none⟩
  exact hensures.leftBy (fun _ _ hremoved => hremoved) fun _ _ => False.elim

/-- A refused release puts the name back; the native list has lost its
hotkey. -/
theorem lost_release {name : Text} {nativeId : UInt32}
    (hagrees : surface.Agrees)
    (hname : surface.nativeIdsByName name = some nativeId)
    (error : ManagerError) :
    (leftBy (release name (some error)) surface).Lost := by
  have hlisted := hagrees.mem_boundIds hname
  have hnamed := (hagrees.registered nativeId).mpr hlisted
  obtain ⟨-, -, -, -, -, -, -, hstatus⟩ :=
    Registry.release_of_mem hlisted (some error)
  obtain ⟨reason, hreason⟩ := @ShortcutRefusal.exists_fromStatus
    (Surface crate) .backendUnavailable nofun
  have hensures : Ensures (release name (some error)) surface
      (fun _ _ => False) (fun _ after => after.Lost) := by
    unfold release
    simp only [ensures_bind, ensures_get, hname, ensures_modify, hstatus,
      Option.isSome_some, if_true, hreason]
    simp only [ne_eq, reduceCtorEq, not_false_eq_true, if_true, ensures_bind,
      ensures_modify, ensures_pure, ensures_throw]
    refine ⟨nativeId, hnamed, ?_⟩
    have hshorter := boundIds_release hlisted (some error)
    change nativeId ∉ List.map crate.id _
    rw [hshorter, nodup_boundIds.mem_erase_iff]
    simp
  exact hensures.leftBy (fun _ _ => False.elim) fun _ _ hlost => hlost

theorem agrees_release_iff (hagrees : surface.Agrees) (name : Text)
    (unregister : Option ManagerError) :
    (leftBy (release name unregister) surface).Agrees ↔
      ¬ ((surface.nativeIdsByName name).isSome ∧ unregister.isSome) := by
  cases hname : surface.nativeIdsByName name with
  | none =>
      rw [leftBy_release_of_none hname]
      simpa using hagrees
  | some nativeId =>
      cases unregister with
      | none => simpa using (removed_release hagrees hname).agrees hagrees hname
      | some error =>
          simpa using (lost_release hagrees hname error).not_agrees

theorem agrees_releaseAll_of_none (unregister : UInt32 → Option ManagerError)
    (hall : ∀ nativeId ∈ surface.boundIds, unregister nativeId = none) :
    (leftBy (releaseAll unregister) surface).Agrees := by
  have hstatus : (surface.registry.releaseAll unregister).1 = .ok :=
    (Registry.releaseEach_eq_ok_iff rfl).mpr ⟨rfl, hall⟩
  have hbound : (surface.registry.releaseAll unregister).2.bound = [] :=
    (Registry.releaseEach_of_bound .ok rfl).1
  have hensures : Ensures (releaseAll unregister) surface
      (fun _ after => after.Agrees) (fun _ _ => False) := by
    unfold releaseAll
    simp only [ensures_bind, ensures_get, ensures_set, hstatus, ne_eq,
      not_true, if_false, ensures_modify]
    constructor
    · simp
    · simp [boundIds, hbound]
  exact hensures.leftBy (fun _ _ hagrees => hagrees) fun _ _ => False.elim

theorem lost_releaseAll (hagrees : surface.Agrees)
    (unregister : UInt32 → Option ManagerError) {nativeId : UInt32}
    (hlisted : nativeId ∈ surface.boundIds)
    (hfails : unregister nativeId ≠ none) :
    (leftBy (releaseAll unregister) surface).Lost := by
  have hstatus : (surface.registry.releaseAll unregister).1 ≠ .ok := by
    intro hok
    exact hfails (((Registry.releaseEach_eq_ok_iff rfl).mp hok).2 _ hlisted)
  have hbound : (surface.registry.releaseAll unregister).2.bound = [] :=
    (Registry.releaseEach_of_bound .ok rfl).1
  obtain ⟨reason, hreason⟩ := @ShortcutRefusal.exists_fromStatus
    (Surface crate) _ hstatus
  have hensures : Ensures (releaseAll unregister) surface
      (fun _ _ => False) (fun _ after => after.Lost) := by
    unfold releaseAll
    simp only [ensures_bind, ensures_get, ensures_set, hreason]
    simp only [ne_eq, hstatus, not_false_eq_true, if_true, ensures_bind,
      ensures_pure, ensures_throw]
    refine ⟨nativeId, (hagrees.registered nativeId).mpr hlisted, ?_⟩
    simp [boundIds, hbound]
  exact hensures.leftBy (fun _ _ => False.elim) fun _ _ hlost => hlost

theorem agrees_releaseAll_iff (hagrees : surface.Agrees)
    (unregister : UInt32 → Option ManagerError) :
    (leftBy (releaseAll unregister) surface).Agrees ↔
      ¬ ∃ nativeId ∈ surface.boundIds, (unregister nativeId).isSome := by
  constructor
  · rintro hafter ⟨nativeId, hlisted, hfails⟩
    have hsome : unregister nativeId ≠ none := by
      rintro hnone
      simp [hnone] at hfails
    exact (lost_releaseAll hagrees unregister hlisted hsome).not_agrees hafter
  · intro hall
    apply agrees_releaseAll_of_none
    intro nativeId hlisted
    by_contra hsome
    exact hall ⟨nativeId, hlisted, Option.isSome_iff_ne_none.mpr hsome⟩

/-! ### Every run of calls -/

theorem step_total (session : Session) (surface : Surface crate)
    (call : Call) : ∃ next, step session surface call = some next := by
  cases call <;> exact ⟨_, rfl⟩

theorem agrees_step_iff {call : Call} (hagrees : surface.Agrees)
    (hstep : step session surface call = some after) :
    after.Agrees ↔ ¬ breaks session surface call := by
  cases call with
  | bind requests =>
      cases hstep
      exact agrees_bind_iff hagrees session requests
  | release name unregister =>
      cases hstep
      exact agrees_release_iff hagrees name unregister
  | releaseAll unregister =>
      cases hstep
      exact agrees_releaseAll_iff hagrees unregister

/-- From the opened surface on, the maps and the native list agree after
every call exactly when no bound name is bound once more and no unregistering
fails. -/
theorem maps_agree_throughout_iff (session : Session) (calls : List Call) :
    Throughout (step session) (opened : Surface crate) Agrees calls ↔
      EveryStep (step session) (opened : Surface crate)
        (fun surface call => ¬ breaks session surface call) calls := by
  have hopened : (opened : Surface crate).Agrees := by
    constructor
    · simp [opened]
    · simp [opened, boundIds, Registry.opened]
  apply throughout_iff_everyStep hopened (step_total session)
  intro surface call next hagrees hstep
  exact agrees_step_iff hagrees hstep

end

/-! ### A name bound to two chords -/

def grantedSession : Session where
  support := ⟨true, false, none⟩
  host := .linux

def pasteChord (code : Text) (filled : trim code ≠ [])
    (bare : plus ∉ code ∧ trim code = code) : ShortcutChord :=
  ⟨code, {.control}, filled, bare⟩

def boundTwice : List Call :=
  [.bind
    [(⟨text "paste", pasteChord (text "KeyV") (by decide) (by decide)⟩,
        ⟨none, true⟩),
      (⟨text "paste", pasteChord (text "Insert") (by decide) (by decide)⟩,
        ⟨none, true⟩)]]

/-- The first chord stays bound, and nothing releases it by its name. -/
theorem not_agrees_throughout_boundTwice :
    ¬ Throughout (step grantedSession)
      (opened : Surface Registry.spelledCrate) Agrees boundTwice := by
  intro hall
  obtain ⟨last, hlast⟩ : ∃ last, run (step grantedSession)
      (opened : Surface Registry.spelledCrate) boundTwice = some last :=
    ⟨_, rfl⟩
  have hagrees := hall boundTwice [] last (by simp) hlast
  have hfirst : last.namesByNativeId 12 = some (text "paste") ∧
      last.nativeIdsByName (text "paste") = some 14 := by
    cases hlast
    decide
  have hback := (hagrees.inverse (text "paste") 12).mpr hfirst.1
  rw [hfirst.2] at hback
  exact absurd hback (by decide)

end Surface

end Dovetail.Shortcut
