import Dovetail.OneOfMany
import Dovetail.ShortcutRegistry

/-!
# The pump of key presses

`listen` keeps the one listener of the process and starts the thread that
hands key presses to it, unless a thread was started before.  Any number of
threads call it; what they and the pump share is the listener, which is read
and written under its lock, and the flag that a pump was started, which is set
before the thread is spawned and never taken back where spawning fails.
-/

namespace Dovetail.Shortcut

open OneOfMany TransitionRun

variable {Listener Press : Type}

/-! ## The program -/

/-- Where a call of `listen` stands. -/
inductive ListenCall (Listener : Type) where
  /-- It has stored its callback. -/
  | stored (callback : Option Listener)
  /-- It has set the flag and goes on to start the thread. -/
  | spawning
  | returned (status : Status)

namespace ListenCall

def isSpawning : ListenCall Listener → Bool
  | spawning => true
  | _ => false

def hasFailed : ListenCall Listener → Bool
  | returned status => status ≠ .ok
  | _ => false

@[simp] theorem hasFailed_ok :
    (returned .ok : ListenCall Listener).hasFailed = false := rfl

@[simp] theorem hasFailed_backendUnavailable :
    (returned .backendUnavailable : ListenCall Listener).hasFailed = true := rfl

@[simp] theorem hasFailed_stored (callback : Option Listener) :
    (stored callback).hasFailed = false := rfl

@[simp] theorem hasFailed_spawning :
    (spawning : ListenCall Listener).hasFailed = false := rfl

end ListenCall

inductive PumpThread (Listener Press : Type) where
  | receives
  /-- It has received a press and waits for the lock of the listener. -/
  | emits (press : Press)
  /-- It has copied the listener and calls it. -/
  | calls (callback : Listener) (press : Press)
  /-- No sender is left, and it takes the flag back. -/
  | stops
  | stopped

namespace PumpThread

def isAlive : PumpThread Listener Press → Bool
  | stopped => false
  | _ => true

def held : PumpThread Listener Press → List Press
  | emits press => [press]
  | _ => []

def inFlight : PumpThread Listener Press → List (Listener × Press)
  | calls callback press => [(callback, press)]
  | _ => []

end PumpThread

/-- The statics of the library, the calls of `listen`, the threads it started,
and what has happened to the presses. -/
structure ShortcutPump (Listener Press : Type) where
  listener : Option Listener
  pumping : Bool
  listens : List (ListenCall Listener)
  threads : List (PumpThread Listener Press)
  connected : Bool
  queue : List Press
  fired : List Press
  /-- What was emitted, with the listener that was found. -/
  emitted : List (Press × Option Listener)
  called : List (Listener × Press)

inductive PumpStep (Listener Press : Type) where
  | listens (callback : Option Listener)
  /-- The call goes on behind the lock. -/
  | tests (call : Nat)
  | spawns (call : Nat) (started : Bool)
  | fires (press : Press)
  | disconnects
  | receives (thread : Nat)
  | emits (thread : Nat)
  /-- The callback returns. -/
  | calls (thread : Nat)
  | stops (thread : Nat)

namespace ShortcutPump

def start : ShortcutPump Listener Press where
  listener := none
  pumping := false
  listens := []
  threads := []
  connected := true
  queue := []
  fired := []
  emitted := []
  called := []

/-- Everything a press was emitted to, in the order of the presses. -/
def heard (pump : ShortcutPump Listener Press) : List (Listener × Press) :=
  pump.emitted.filterMap fun (press, callback) =>
    callback.map fun callback => (callback, press)

def test (pump : ShortcutPump Listener Press) (call : Nat)
    (callback : Option Listener) : ShortcutPump Listener Press :=
  if callback.isNone then
    { pump with listens := pump.listens.set call (.returned .ok) }
  else if pump.pumping then
    { pump with listens := pump.listens.set call (.returned .ok) }
  else
    { pump with
      pumping := true
      listens := pump.listens.set call .spawning }

def spawn (pump : ShortcutPump Listener Press) (call : Nat)
    (started : Bool) : ShortcutPump Listener Press :=
  if started then
    { pump with
      listens := pump.listens.set call (.returned .ok)
      threads := pump.threads ++ [.receives] }
  else
    { pump with
      listens := pump.listens.set call (.returned .backendUnavailable) }

def receive (pump : ShortcutPump Listener Press) (thread : Nat) :
    Option (ShortcutPump Listener Press) :=
  match pump.queue with
  | press :: queue =>
      some { pump with
        queue
        threads := pump.threads.set thread (.emits press) }
  | [] =>
      if pump.connected then none
      else some { pump with threads := pump.threads.set thread .stops }

def emit (pump : ShortcutPump Listener Press) (thread : Nat) (press : Press) :
    ShortcutPump Listener Press :=
  { pump with
    emitted := pump.emitted ++ [(press, pump.listener)]
    threads := pump.threads.set thread
      (match pump.listener with
      | some callback => .calls callback press
      | none => .receives) }

def step (pump : ShortcutPump Listener Press) :
    PumpStep Listener Press → Option (ShortcutPump Listener Press)
  | .listens callback =>
      some { pump with
        listener := callback
        listens := pump.listens ++ [.stored callback] }
  | .tests call =>
      match pump.listens[call]? with
      | some (.stored callback) => some (pump.test call callback)
      | _ => none
  | .spawns call started =>
      match pump.listens[call]? with
      | some .spawning => some (pump.spawn call started)
      | _ => none
  | .fires press =>
      if pump.connected then
        some { pump with
          queue := pump.queue ++ [press]
          fired := pump.fired ++ [press] }
      else none
  | .disconnects => some { pump with connected := false }
  | .receives thread =>
      match pump.threads[thread]? with
      | some .receives => pump.receive thread
      | _ => none
  | .emits thread =>
      match pump.threads[thread]? with
      | some (.emits press) => some (pump.emit thread press)
      | _ => none
  | .calls thread =>
      match pump.threads[thread]? with
      | some (.calls callback press) =>
          some { pump with
            called := pump.called ++ [(callback, press)]
            threads := pump.threads.set thread .receives }
      | _ => none
  | .stops thread =>
      match pump.threads[thread]? with
      | some .stops =>
          some { pump with
            pumping := false
            threads := pump.threads.set thread .stopped }
      | _ => none

end ShortcutPump

/-! ## One pump at a time -/

theorem held_of_not_alive (thread : PumpThread Listener Press)
    (hdead : thread.isAlive = false) : thread.held = [] := by
  cases thread <;> first | rfl | cases hdead

theorem inFlight_of_not_alive (thread : PumpThread Listener Press)
    (hdead : thread.isAlive = false) : thread.inFlight = [] := by
  cases thread <;> first | rfl | cases hdead

/-- The flag stands for one thread, or for one call that starts it or could
not; every press is in one place, and every callback was called once or is
about to be. -/
structure Consistent (pump : ShortcutPump Listener Press) : Prop where
  single : pump.listens.countP ListenCall.isSpawning +
      pump.listens.countP ListenCall.hasFailed +
      pump.threads.countP PumpThread.isAlive =
    if pump.pumping then 1 else 0
  ordered : pump.emitted.map Prod.fst ++
    (pump.threads.flatMap PumpThread.held ++ pump.queue) = pump.fired
  heard : pump.called ++ pump.threads.flatMap PumpThread.inFlight = pump.heard

namespace Consistent

variable {pump later : ShortcutPump Listener Press}

theorem start : Consistent (ShortcutPump.start : ShortcutPump Listener Press)
    where
  single := rfl
  ordered := rfl
  heard := rfl

theorem alive_le_one (hconsistent : Consistent pump) :
    pump.threads.countP PumpThread.isAlive ≤ 1 := by
  have hsingle := hconsistent.single
  split at hsingle <;> omega

/-- What one thread does leaves nothing of the others. -/
theorem threads_set (hconsistent : Consistent pump) {thread : Nat}
    {old : PumpThread Listener Press} (hold : pump.threads[thread]? = some old)
    (halive : old.isAlive = true) (new : PumpThread Listener Press) :
    (pump.threads.set thread new).flatMap PumpThread.held = new.held ∧
      (pump.threads.set thread new).flatMap PumpThread.inFlight =
        new.inFlight ∧
      pump.threads.flatMap PumpThread.held = old.held ∧
      pump.threads.flatMap PumpThread.inFlight = old.inFlight ∧
      ((pump.threads.set thread new).countP PumpThread.isAlive =
        if new.isAlive then 1 else 0) := by
  have hone := hconsistent.alive_le_one
  have hpos : 0 < pump.threads.countP PumpThread.isAlive :=
    List.countP_pos_iff.mpr ⟨old, List.mem_of_getElem? hold, halive⟩
  have hcount := countP_set_add (p := PumpThread.isAlive) hold new
  rw [if_pos halive] at hcount
  refine ⟨?_, ?_, ?_, ?_, by omega⟩
  · exact flatMap_set_of_countP_le_one held_of_not_alive hold halive hone new
  · exact flatMap_set_of_countP_le_one inFlight_of_not_alive hold halive hone
      new
  · exact flatMap_of_countP_le_one held_of_not_alive hold halive hone
  · exact flatMap_of_countP_le_one inFlight_of_not_alive hold halive hone

/-- A thread that goes on has handed over what it does not hold any more. -/
theorem of_thread (hconsistent : Consistent pump) {thread : Nat}
    {old new : PumpThread Listener Press}
    (hold : pump.threads[thread]? = some old) (halive : old.isAlive = true)
    (hnew : new.isAlive = true) (hlistens : later.listens = pump.listens)
    (hpumping : later.pumping = pump.pumping)
    (hthreads : later.threads = pump.threads.set thread new)
    (hfired : later.fired = pump.fired)
    (hordered : later.emitted.map Prod.fst ++ (new.held ++ later.queue) =
      pump.emitted.map Prod.fst ++ (old.held ++ pump.queue))
    (hheard : pump.called ++ old.inFlight = pump.heard →
      later.called ++ new.inFlight = later.heard) : Consistent later := by
  rcases hconsistent.threads_set hold halive new with
    ⟨hheld, hflight, hheldBefore, hflightBefore, hcount⟩
  have hcountBefore := countP_set_add (p := PumpThread.isAlive) hold new
  rw [if_pos halive, if_pos hnew] at hcountBefore
  constructor
  case single =>
    rw [hlistens, hpumping, hthreads, ← hconsistent.single]
    omega
  case ordered =>
    rw [hthreads, hheld, hordered, hfired, ← hconsistent.ordered, hheldBefore]
  case heard =>
    rw [hthreads, hflight]
    apply hheard
    rw [← hconsistent.heard, hflightBefore]

/-- What only changes the calls keeps the presses where they are. -/
theorem of_listens (hconsistent : Consistent pump)
    (hthreads : later.threads = pump.threads) (hqueue : later.queue = pump.queue)
    (hfired : later.fired = pump.fired) (hemitted : later.emitted = pump.emitted)
    (hcalled : later.called = pump.called)
    (hsingle : later.listens.countP ListenCall.isSpawning +
        later.listens.countP ListenCall.hasFailed +
        pump.threads.countP PumpThread.isAlive =
      if later.pumping then 1 else 0) : Consistent later := by
  constructor
  case single =>
    rw [hthreads]
    exact hsingle
  case ordered =>
    rw [hthreads, hqueue, hfired, hemitted]
    exact hconsistent.ordered
  case heard =>
    have hsame : later.heard = pump.heard := by
      unfold ShortcutPump.heard
      rw [hemitted]
    rw [hthreads, hcalled, hsame]
    exact hconsistent.heard

theorem listens (hconsistent : Consistent pump) (callback : Option Listener) :
    Consistent { pump with
      listener := callback
      listens := pump.listens ++ [.stored callback] } := by
  refine hconsistent.of_listens rfl rfl rfl rfl rfl ?_
  have hsingle := hconsistent.single
  simp only [List.countP_append, List.countP_singleton, ListenCall.isSpawning,
    ListenCall.hasFailed]
  simpa using hsingle

theorem test (hconsistent : Consistent pump) {call : Nat}
    {callback : Option Listener}
    (hcall : pump.listens[call]? = some (.stored callback)) :
    Consistent (pump.test call callback) := by
  have hsingle := hconsistent.single
  have hspawning : ∀ next : ListenCall Listener, _ :=
    countP_set_add (p := ListenCall.isSpawning) hcall
  have hfailed : ∀ next : ListenCall Listener, _ :=
    countP_set_add (p := ListenCall.hasFailed) hcall
  have hreturns : Consistent { pump with
      listens := pump.listens.set call (.returned .ok) } := by
    refine hconsistent.of_listens rfl rfl rfl rfl rfl ?_
    have hspawns := hspawning (.returned .ok)
    have hfails := hfailed (.returned .ok)
    simp only [ListenCall.isSpawning, ListenCall.hasFailed_ok,
      ListenCall.hasFailed_stored] at hspawns hfails
    dsimp only
    simp only [Bool.false_eq_true, if_false] at hspawns hfails
    omega
  unfold ShortcutPump.test
  split
  · exact hreturns
  · split
    · exact hreturns
    · next hpumping =>
        refine hconsistent.of_listens rfl rfl rfl rfl rfl ?_
        have hspawns := hspawning .spawning
        have hfails := hfailed .spawning
        simp only [ListenCall.isSpawning, ListenCall.hasFailed_stored,
          ListenCall.hasFailed_spawning,
          Bool.false_eq_true, if_false, if_true] at hspawns hfails
        rw [if_neg hpumping] at hsingle
        dsimp only
        rw [if_pos rfl]
        omega

theorem spawn (hconsistent : Consistent pump) {call : Nat} (started : Bool)
    (hcall : pump.listens[call]? = some .spawning) :
    Consistent (pump.spawn call started) := by
  have hsingle := hconsistent.single
  have hspawning : ∀ next : ListenCall Listener, _ :=
    countP_set_add (p := ListenCall.isSpawning) hcall
  have hfailed : ∀ next : ListenCall Listener, _ :=
    countP_set_add (p := ListenCall.hasFailed) hcall
  unfold ShortcutPump.spawn
  split
  · have hspawns := hspawning (.returned .ok)
    have hfails := hfailed (.returned .ok)
    simp only [ListenCall.isSpawning, ListenCall.hasFailed_ok,
      ListenCall.hasFailed_spawning,
      Bool.false_eq_true, if_false, if_true] at hspawns hfails
    have hordered := hconsistent.ordered
    have hheard := hconsistent.heard
    constructor
    case single =>
      dsimp only
      rw [List.countP_append, List.countP_singleton,
        if_pos (show PumpThread.isAlive .receives = true from rfl)]
      omega
    case ordered =>
      simpa [PumpThread.held] using hordered
    case heard =>
      simpa [PumpThread.inFlight, ShortcutPump.heard] using hheard
  · refine hconsistent.of_listens rfl rfl rfl rfl rfl ?_
    have hspawns := hspawning (.returned .backendUnavailable)
    have hfails := hfailed (.returned .backendUnavailable)
    simp only [ListenCall.isSpawning, ListenCall.hasFailed_spawning,
      ListenCall.hasFailed_backendUnavailable,
      Bool.false_eq_true, if_false, if_true] at hspawns hfails
    dsimp only
    omega

theorem fires (hconsistent : Consistent pump) (press : Press) :
    Consistent { pump with
      queue := pump.queue ++ [press]
      fired := pump.fired ++ [press] } where
  single := hconsistent.single
  ordered := by
    dsimp only
    rw [← hconsistent.ordered]
    simp only [List.append_assoc]
  heard := hconsistent.heard

theorem receive (hconsistent : Consistent pump) {thread : Nat}
    (hthread : pump.threads[thread]? = some .receives)
    (hreceive : pump.receive thread = some later) : Consistent later := by
  unfold ShortcutPump.receive at hreceive
  cases hqueue : pump.queue with
  | cons press queue =>
      rw [hqueue] at hreceive
      cases hreceive
      refine hconsistent.of_thread hthread rfl rfl rfl rfl rfl rfl ?_ ?_
      · rw [hqueue]
        rfl
      · exact id
  | nil =>
      rw [hqueue] at hreceive
      dsimp only at hreceive
      split at hreceive
      · cases hreceive
      · cases hreceive
        refine hconsistent.of_thread hthread rfl rfl rfl rfl rfl rfl ?_ ?_
        · rw [hqueue]
          rfl
        · exact id

theorem emit (hconsistent : Consistent pump) {thread : Nat} {press : Press}
    (hthread : pump.threads[thread]? = some (.emits press)) :
    Consistent (pump.emit thread press) := by
  unfold ShortcutPump.emit
  cases hlistener : pump.listener with
  | none =>
      refine hconsistent.of_thread hthread rfl rfl rfl rfl rfl rfl ?_ ?_
      · simp [PumpThread.held]
      · intro hheard
        simpa [ShortcutPump.heard, PumpThread.inFlight] using hheard
  | some callback =>
      refine hconsistent.of_thread hthread rfl rfl rfl rfl rfl rfl ?_ ?_
      · simp [PumpThread.held]
      · intro hheard
        simpa [ShortcutPump.heard, PumpThread.inFlight] using hheard

theorem calls (hconsistent : Consistent pump) {thread : Nat}
    {callback : Listener} {press : Press}
    (hthread : pump.threads[thread]? = some (.calls callback press)) :
    Consistent { pump with
      called := pump.called ++ [(callback, press)]
      threads := pump.threads.set thread .receives } := by
  refine hconsistent.of_thread hthread rfl rfl rfl rfl rfl rfl ?_ ?_
  · rfl
  · intro hheard
    simpa [ShortcutPump.heard, PumpThread.inFlight] using hheard

theorem stops (hconsistent : Consistent pump) {thread : Nat}
    (hthread : pump.threads[thread]? = some .stops) :
    Consistent { pump with
      pumping := false
      threads := pump.threads.set thread .stopped } := by
  rcases hconsistent.threads_set hthread rfl .stopped with
    ⟨hheld, hflight, hheldBefore, hflightBefore, hcount⟩
  have hsingle := hconsistent.single
  have hpos : 0 < pump.threads.countP PumpThread.isAlive :=
    List.countP_pos_iff.mpr ⟨_, List.mem_of_getElem? hthread, rfl⟩
  constructor
  case single =>
    rw [hcount, if_neg (show ¬ PumpThread.isAlive .stopped = true by
      simp [PumpThread.isAlive]), if_neg Bool.false_ne_true]
    dsimp only
    split at hsingle <;> omega
  case ordered =>
    rw [hheld]
    rw [← hconsistent.ordered, hheldBefore]
    rfl
  case heard =>
    rw [hflight]
    have hheard := hconsistent.heard
    rw [hflightBefore] at hheard
    exact hheard

theorem held_length_le_one (hconsistent : Consistent pump) :
    (pump.threads.flatMap PumpThread.held).length ≤ 1 := by
  apply length_flatMap_le_one held_of_not_alive _ hconsistent.alive_le_one
  intro thread
  cases thread <;> simp [PumpThread.held]

theorem inFlight_length_le_one (hconsistent : Consistent pump) :
    (pump.threads.flatMap PumpThread.inFlight).length ≤ 1 := by
  apply length_flatMap_le_one inFlight_of_not_alive _ hconsistent.alive_le_one
  intro thread
  cases thread <;> simp [PumpThread.inFlight]

end Consistent

/-! ## Runs -/

section

variable {pump later : ShortcutPump Listener Press}

/-- What a step does where it is possible. -/
inductive PumpMove (pump : ShortcutPump Listener Press) :
    PumpStep Listener Press → ShortcutPump Listener Press → Prop where
  | listens (callback : Option Listener) :
      PumpMove pump (.listens callback) { pump with
        listener := callback
        listens := pump.listens ++ [.stored callback] }
  | tests {call : Nat} {callback : Option Listener}
      (hcall : pump.listens[call]? = some (.stored callback)) :
      PumpMove pump (.tests call) (pump.test call callback)
  | spawns {call : Nat} (started : Bool)
      (hcall : pump.listens[call]? = some .spawning) :
      PumpMove pump (.spawns call started) (pump.spawn call started)
  | fires (press : Press) :
      PumpMove pump (.fires press) { pump with
        queue := pump.queue ++ [press]
        fired := pump.fired ++ [press] }
  | disconnects : PumpMove pump .disconnects { pump with connected := false }
  | receives {thread : Nat} {later : ShortcutPump Listener Press}
      (hthread : pump.threads[thread]? = some .receives)
      (hreceive : pump.receive thread = some later) :
      PumpMove pump (.receives thread) later
  | emits {thread : Nat} {press : Press}
      (hthread : pump.threads[thread]? = some (.emits press)) :
      PumpMove pump (.emits thread) (pump.emit thread press)
  | calls {thread : Nat} {callback : Listener} {press : Press}
      (hthread : pump.threads[thread]? = some (.calls callback press)) :
      PumpMove pump (.calls thread) { pump with
        called := pump.called ++ [(callback, press)]
        threads := pump.threads.set thread .receives }
  | stops {thread : Nat} (hthread : pump.threads[thread]? = some .stops) :
      PumpMove pump (.stops thread) { pump with
        pumping := false
        threads := pump.threads.set thread .stopped }

theorem ShortcutPump.step_move {step : PumpStep Listener Press}
    (hstep : pump.step step = some later) : PumpMove pump step later := by
  cases step with
  | listens callback =>
      cases hstep
      exact .listens callback
  | tests call =>
      simp only [ShortcutPump.step] at hstep
      split at hstep
      · next hcall =>
          cases hstep
          exact .tests hcall
      · cases hstep
  | spawns call started =>
      simp only [ShortcutPump.step] at hstep
      split at hstep
      · next hcall =>
          cases hstep
          exact .spawns started hcall
      · cases hstep
  | fires press =>
      simp only [ShortcutPump.step] at hstep
      split at hstep
      · cases hstep
        exact .fires press
      · cases hstep
  | disconnects =>
      cases hstep
      exact .disconnects
  | receives thread =>
      simp only [ShortcutPump.step] at hstep
      split at hstep
      · next hthread => exact .receives hthread hstep
      · cases hstep
  | emits thread =>
      simp only [ShortcutPump.step] at hstep
      split at hstep
      · next hthread =>
          cases hstep
          exact .emits hthread
      · cases hstep
  | calls thread =>
      simp only [ShortcutPump.step] at hstep
      split at hstep
      · next hthread =>
          cases hstep
          exact .calls hthread
      · cases hstep
  | stops thread =>
      simp only [ShortcutPump.step] at hstep
      split at hstep
      · next hthread =>
          cases hstep
          exact .stops hthread
      · cases hstep

theorem Consistent.step (hconsistent : Consistent pump)
    {step : PumpStep Listener Press} (hstep : pump.step step = some later) :
    Consistent later := by
  cases ShortcutPump.step_move hstep with
  | listens callback => exact hconsistent.listens callback
  | tests hcall => exact hconsistent.test hcall
  | spawns started hcall => exact hconsistent.spawn started hcall
  | fires press => exact hconsistent.fires press
  | disconnects =>
      exact ⟨hconsistent.single, hconsistent.ordered, hconsistent.heard⟩
  | receives hthread hreceive => exact hconsistent.receive hthread hreceive
  | emits hthread => exact hconsistent.emit hthread
  | calls hthread => exact hconsistent.calls hthread
  | stops hthread => exact hconsistent.stops hthread

theorem consistent_of_run {steps : List (PumpStep Listener Press)}
    (hrun : run ShortcutPump.step .start steps = some pump) :
    Consistent pump := by
  apply run_invariant _ _ hrun
  · exact Consistent.start
  · intro state step next hconsistent hstep
    exact hconsistent.step hstep

/-- However the calls of `listen`, the presses and the threads interleave, no
two threads hand presses over: every press is emitted once and in the order it
was fired in, and every listener that was found is called once. -/
theorem shortcut_pump_serializes (steps : List (PumpStep Listener Press))
    (pump : ShortcutPump Listener Press)
    (hrun : run ShortcutPump.step .start steps = some pump) :
    pump.threads.countP PumpThread.isAlive ≤ 1 ∧
      (∃ ahead, ahead.length ≤ 1 ∧
        pump.emitted.map Prod.fst ++ (ahead ++ pump.queue) = pump.fired) ∧
      ∃ ahead, ahead.length ≤ 1 ∧ pump.called ++ ahead = pump.heard := by
  have hconsistent := consistent_of_run hrun
  refine ⟨hconsistent.alive_le_one, ?_, ?_⟩
  · exact ⟨_, hconsistent.held_length_le_one, hconsistent.ordered⟩
  · exact ⟨_, hconsistent.inFlight_length_le_one, hconsistent.heard⟩

/-- Two calls of `listen` at once, of which one starts the pump. -/
theorem shortcut_pump_serializes_racing :
    ∃ pump : ShortcutPump Nat Nat,
      run ShortcutPump.step .start
          [.listens (some 1), .listens (some 2), .tests 1, .tests 0,
            .fires 7, .fires 8, .spawns 1 true, .receives 0, .emits 0,
            .calls 0, .receives 0] = some pump ∧
        pump.called = [(2, 7)] ∧
        pump.threads.countP PumpThread.isAlive ≤ 1 ∧
        ∃ ahead, ahead.length ≤ 1 ∧
          pump.emitted.map Prod.fst ++ (ahead ++ pump.queue) = pump.fired := by
  have hrun : run ShortcutPump.step (.start : ShortcutPump Nat Nat)
      [.listens (some 1), .listens (some 2), .tests 1, .tests 0,
        .fires 7, .fires 8, .spawns 1 true, .receives 0, .emits 0,
        .calls 0, .receives 0] = some
      { listener := some 2
        pumping := true
        listens := [.returned .ok, .returned .ok]
        threads := [.emits 8]
        connected := true
        queue := []
        fired := [7, 8]
        emitted := [(7, some 2)]
        called := [(2, 7)] } := rfl
  have hserial := shortcut_pump_serializes _ _ hrun
  exact ⟨_, hrun, rfl, hserial.1, hserial.2.1⟩

/-! ## A listener that was taken back -/

/-- A step that does not give the listener to the library. -/
def PumpStep.spares (callback : Listener) : PumpStep Listener Press → Prop
  | .listens given => given ≠ some callback
  | _ => True

variable [DecidableEq Listener]

/-- The calls a listener gets. -/
def callsTo (callback : Listener) (called : List (Listener × Press)) :
    List (Listener × Press) :=
  called.filter fun call => call.1 = callback

@[simp] theorem callsTo_append (callback : Listener)
    (first second : List (Listener × Press)) :
    callsTo callback (first ++ second) =
      callsTo callback first ++ callsTo callback second :=
  List.filter_append ..

/-- A listener the library does not have is found by no press. -/
theorem ShortcutPump.callsTo_heard_of_step {callback : Listener}
    (hreleased : pump.listener ≠ some callback)
    {step : PumpStep Listener Press} (hspares : step.spares callback)
    (hstep : pump.step step = some later) :
    later.listener ≠ some callback ∧
      callsTo callback later.heard = callsTo callback pump.heard := by
  cases ShortcutPump.step_move hstep with
  | listens given => exact ⟨hspares, rfl⟩
  | tests hcall =>
      unfold ShortcutPump.test
      split
      · exact ⟨hreleased, rfl⟩
      · split <;> exact ⟨hreleased, rfl⟩
  | spawns started hcall =>
      cases started <;> exact ⟨hreleased, rfl⟩
  | fires press => exact ⟨hreleased, rfl⟩
  | disconnects => exact ⟨hreleased, rfl⟩
  | receives hthread hreceive =>
      unfold ShortcutPump.receive at hreceive
      split at hreceive
      · cases hreceive
        exact ⟨hreleased, rfl⟩
      · split at hreceive
        · cases hreceive
        · cases hreceive
          exact ⟨hreleased, rfl⟩
  | @emits thread press hthread =>
      refine ⟨hreleased, ?_⟩
      have hheard : (pump.emit thread press).heard = pump.heard ++
          (pump.listener.map fun found => (found, press)).toList := by
        unfold ShortcutPump.heard ShortcutPump.emit
        rw [List.filterMap_append]
        cases pump.listener <;> rfl
      rw [hheard, callsTo_append]
      cases hlistener : pump.listener with
      | none => simp [callsTo]
      | some found =>
          have hother : found ≠ callback := by
            intro hsame
            rw [hlistener, hsame] at hreleased
            exact hreleased rfl
          simp [callsTo, hother]
  | calls hthread => exact ⟨hreleased, rfl⟩
  | stops hthread => exact ⟨hreleased, rfl⟩

theorem callsTo_heard_of_run {callback : Listener}
    (hreleased : pump.listener ≠ some callback)
    {more : List (PumpStep Listener Press)}
    (hspares : ∀ step ∈ more, step.spares callback)
    (hmore : run ShortcutPump.step pump more = some later) :
    later.listener ≠ some callback ∧
      callsTo callback later.heard = callsTo callback pump.heard := by
  induction more generalizing pump with
  | nil =>
      cases hmore
      exact ⟨hreleased, rfl⟩
  | cons step more ih =>
      rw [run_cons, Option.bind_eq_some_iff] at hmore
      rcases hmore with ⟨next, hstep, hrest⟩
      rcases ShortcutPump.callsTo_heard_of_step hreleased
        (hspares step List.mem_cons_self) hstep with ⟨hstill, hsame⟩
      have hrestSpares : ∀ step ∈ more, step.spares callback := by
        intro step hmem
        exact hspares step (List.mem_cons_of_mem _ hmem)
      rcases ih hstill hrestSpares hrest with ⟨hlast, hcalls⟩
      exact ⟨hlast, hcalls.trans hsame⟩

/-- A listener that was taken back and is not given again is called at most
once more, and only where the pump had copied it before. -/
theorem released_listener_falls_silent (callback : Listener)
    (steps more : List (PumpStep Listener Press))
    (pump later : ShortcutPump Listener Press)
    (hrun : run ShortcutPump.step .start steps = some pump)
    (hreleased : pump.listener ≠ some callback)
    (hspares : ∀ step ∈ more, step.spares callback)
    (hmore : run ShortcutPump.step pump more = some later) :
    ∃ copied : List (Listener × Press), copied.length ≤ 1 ∧
      (∀ call ∈ copied,
        PumpThread.calls call.1 call.2 ∈ pump.threads) ∧
      callsTo callback later.called <+:
        callsTo callback pump.called ++ callsTo callback copied := by
  have hbefore := consistent_of_run hrun
  have hafter := consistent_of_run ((run_append_of_eq_some hrun more).trans hmore)
  refine ⟨pump.threads.flatMap PumpThread.inFlight,
    hbefore.inFlight_length_le_one, ?_, ?_⟩
  · intro call hcall
    rcases List.mem_flatMap.mp hcall with ⟨thread, hthread, hflight⟩
    cases thread with
    | calls found press =>
        rw [List.mem_singleton.mp hflight]
        exact hthread
    | receives => cases hflight
    | emits press => cases hflight
    | stops => cases hflight
    | stopped => cases hflight
  · have hcalls := (callsTo_heard_of_run hreleased hspares hmore).2
    rw [← callsTo_append, hbefore.heard, ← hcalls, ← hafter.heard,
      callsTo_append]
    exact List.prefix_append _ _

end

/-- The pump has copied the listener, `listen` takes it back, and then it is
called. -/
theorem released_listener_falls_silent_copied :
    ∃ pump later : ShortcutPump Nat Nat,
      run ShortcutPump.step .start
          [.listens (some 1), .tests 0, .spawns 0 true, .fires 7, .receives 0,
            .emits 0, .listens none, .tests 1] = some pump ∧
        run ShortcutPump.step pump [.calls 0, .fires 8, .receives 0, .emits 0] =
          some later ∧
        pump.listens[1]? = some (.returned .ok) ∧
        pump.called = [] ∧ later.called = [(1, 7)] ∧
        ∃ copied : List (Nat × Nat), copied.length ≤ 1 ∧
          callsTo 1 later.called <+:
            callsTo 1 pump.called ++ callsTo 1 copied := by
  have hrun : run ShortcutPump.step (.start : ShortcutPump Nat Nat)
      [.listens (some 1), .tests 0, .spawns 0 true, .fires 7, .receives 0,
        .emits 0, .listens none, .tests 1] = some
      { listener := none
        pumping := true
        listens := [.returned .ok, .returned .ok]
        threads := [.calls 1 7]
        connected := true
        queue := []
        fired := [7]
        emitted := [(7, some 1)]
        called := [] } := rfl
  have hspares : ∀ step ∈ ([.calls 0, .fires 8, .receives 0, .emits 0] :
      List (PumpStep Nat Nat)), step.spares 1 := by
    simp [PumpStep.spares]
  rcases released_listener_falls_silent 1 _ _ _ _ hrun (by simp)
    hspares rfl with ⟨copied, hone, -, hcalls⟩
  exact ⟨_, _, hrun, rfl, rfl, rfl, rfl, copied, hone, hcalls⟩

/-! ## A pump that could not be started -/

section

variable {pump later : ShortcutPump Listener Press} {call : Nat}

/-- The call has answered that no pump could be started. -/
def HasFailed (pump : ShortcutPump Listener Press) (call : Nat) : Prop :=
  pump.listens[call]? = some (.returned .backendUnavailable)

theorem Consistent.of_hasFailed (hconsistent : Consistent pump)
    (hfailed : HasFailed pump call) :
    pump.listens.countP ListenCall.isSpawning = 0 ∧
      pump.listens.countP ListenCall.hasFailed = 1 ∧
      pump.threads.countP PumpThread.isAlive = 0 := by
  have hsingle := hconsistent.single
  have hpos : 0 < pump.listens.countP ListenCall.hasFailed :=
    List.countP_pos_iff.mpr ⟨_, List.mem_of_getElem? hfailed, rfl⟩
  split at hsingle <;> omega

theorem Consistent.not_alive (hconsistent : Consistent pump)
    (hfailed : HasFailed pump call) {thread : Nat}
    {state : PumpThread Listener Press}
    (hthread : pump.threads[thread]? = some state) : state.isAlive = false := by
  have hnone := (hconsistent.of_hasFailed hfailed).2.2
  exact Bool.eq_false_of_not_eq_true
    (List.countP_eq_zero.mp hnone state (List.mem_of_getElem? hthread))

theorem HasFailed.set (hfailed : HasFailed pump call) {other : Nat}
    {state : ListenCall Listener} (hother : pump.listens[other]? = some state)
    (hstate : state ≠ .returned .backendUnavailable)
    (next : ListenCall Listener) :
    (pump.listens.set other next)[call]? =
      some (.returned .backendUnavailable) := by
  have hne : other ≠ call := by
    intro hsame
    rw [hsame, hfailed, Option.some.injEq] at hother
    exact hstate hother.symm
  rw [List.getElem?_set_ne hne]
  exact hfailed

/-- Behind a start that has failed only calls and presses go on. -/
theorem HasFailed.step (hfailed : HasFailed pump call)
    (hconsistent : Consistent pump) {step : PumpStep Listener Press}
    (hstep : pump.step step = some later) :
    HasFailed later call ∧ later.emitted = pump.emitted ∧
      later.called = pump.called := by
  cases ShortcutPump.step_move hstep with
  | listens callback =>
      refine ⟨?_, rfl, rfl⟩
      have hlt := (List.getElem?_eq_some_iff.mp hfailed).1
      show (pump.listens ++ [_])[call]? = _
      rw [List.getElem?_append_left hlt]
      exact hfailed
  | tests hcall =>
      have hset := hfailed.set hcall (by simp)
      unfold ShortcutPump.test
      split
      · exact ⟨hset _, rfl, rfl⟩
      · split
        · exact ⟨hset _, rfl, rfl⟩
        · exact ⟨hset _, rfl, rfl⟩
  | spawns started hcall =>
      have hset := hfailed.set hcall (by simp)
      cases started
      · exact ⟨hset _, rfl, rfl⟩
      · exact ⟨hset _, rfl, rfl⟩
  | fires press => exact ⟨hfailed, rfl, rfl⟩
  | disconnects => exact ⟨hfailed, rfl, rfl⟩
  | receives hthread hreceive => cases hconsistent.not_alive hfailed hthread
  | emits hthread => cases hconsistent.not_alive hfailed hthread
  | calls hthread => cases hconsistent.not_alive hfailed hthread
  | stops hthread => cases hconsistent.not_alive hfailed hthread

theorem hasFailed_of_run {steps more : List (PumpStep Listener Press)}
    (hrun : run ShortcutPump.step .start steps = some pump)
    (hfailed : HasFailed pump call)
    (hmore : run ShortcutPump.step pump more = some later) :
    HasFailed later call ∧ later.emitted = pump.emitted ∧
      later.called = pump.called := by
  induction more using List.reverseRecOn generalizing later with
  | nil =>
      cases hmore
      exact ⟨hfailed, rfl, rfl⟩
  | append_singleton more step ih =>
      rcases run_concat.mp hmore with ⟨before, hbefore, hstep⟩
      rcases ih hbefore with ⟨hstill, hemitted, hcalled⟩
      have hconsistent :=
        consistent_of_run ((run_append_of_eq_some hrun more).trans hbefore)
      rcases hstill.step hconsistent hstep with ⟨hlast, hsame, hcalls⟩
      exact ⟨hlast, hsame.trans hemitted, hcalls.trans hcalled⟩

/-- Once a pump could not be started, no press is emitted any more, however
often `listen` is called; and yet every other call of it answers that all is
well. -/
theorem failed_start_is_final (steps more : List (PumpStep Listener Press))
    (pump later : ShortcutPump Listener Press) (call : Nat)
    (hrun : run ShortcutPump.step .start steps = some pump)
    (hfailed : pump.listens[call]? = some (.returned .backendUnavailable))
    (hmore : run ShortcutPump.step pump more = some later) :
    later.emitted = pump.emitted ∧ later.called = pump.called ∧
      ∀ other status, other ≠ call →
        later.listens[other]? = some (.returned status) → status = .ok := by
  rcases hasFailed_of_run hrun hfailed hmore with
    ⟨hstill, hemitted, hcalled⟩
  refine ⟨hemitted, hcalled, ?_⟩
  intro other status hother hreturned
  have hconsistent :=
    consistent_of_run ((run_append_of_eq_some hrun more).trans hmore)
  have hone := (hconsistent.of_hasFailed hstill).2.1
  by_contra hstatus
  apply hother
  apply eq_of_countP_le_one hone.le hreturned hstill
  · simp [ListenCall.hasFailed, hstatus]
  · rfl

end

theorem failed_start_is_final_retried :
    ∃ pump later : ShortcutPump Nat Nat,
      run ShortcutPump.step .start
          [.listens (some 1), .tests 0, .spawns 0 false] = some pump ∧
        run ShortcutPump.step pump
          [.listens (some 1), .tests 1, .fires 7, .fires 8] = some later ∧
        later.listens[1]? = some (.returned .ok) ∧
        later.fired = [7, 8] ∧ later.emitted = pump.emitted := by
  have hrun : run ShortcutPump.step (.start : ShortcutPump Nat Nat)
      [.listens (some 1), .tests 0, .spawns 0 false] = some
      { listener := some 1
        pumping := true
        listens := [.returned .backendUnavailable]
        threads := []
        connected := true
        queue := []
        fired := []
        emitted := []
        called := [] } := rfl
  have hfinal := failed_start_is_final _
    [.listens (some 1), .tests 1, .fires 7, .fires 8] _ _ 0 hrun rfl rfl
  exact ⟨_, _, hrun, rfl, rfl, rfl, hfinal.1⟩

end Dovetail.Shortcut
