import Dovetail.KeyedContents
import Dovetail.TransitionRun

/-!
# A table of event pumps

Every clone of the table reaches one map behind a lock, which is taken even
after a holder of it has panicked.  A pump that is displaced belongs to the
call that displaced it, until that returns; one that is dropped is aborted.
-/

namespace Dovetail.Pumps

open KeyedContents TransitionRun

structure Replacement (Name : Type) where
  name : Name
  displacedALivePump : Bool
  deriving DecidableEq

/-- A call of `replace` that has let go of the lock again. -/
structure Replacing (Name Pump : Type) where
  name : Name
  displaced : Option Pump
  /-- What it found out about the displaced pump, once it has asked. -/
  displacedALivePump : Option Bool

/-- The map with the calls and the pumps around it. -/
structure PumpTable (Name Pump Call : Type) where
  /-- The clones of the table. -/
  clones : Nat
  entries : AList fun _ : Name => Pump
  calls : AList fun _ : Call => Replacing Name Pump
  /-- Pumps that were handed to the table. -/
  given : Multiset Pump
  finished : Finset Pump
  /-- Pumps that were dropped, each as often as it was. -/
  stopped : Multiset Pump
  replies : List (Call × Replacement Name)

inductive PumpEvent (Name Pump Call : Type) where
  | clones
  | releases
  | replaces (call : Call) (name : Name) (pump : Pump)
  /-- The call asks the pump it displaced whether it is finished. -/
  | asks (call : Call)
  | returns (call : Call)
  | removes (name : Name)
  | clears
  | finishes (pump : Pump)

/-- The call that takes the step. -/
def PumpEvent.call? {Name Pump Call : Type} :
    PumpEvent Name Pump Call → Option Call
  | .replaces call _ _ | .asks call | .returns call => some call
  | .clones | .releases | .removes _ | .clears | .finishes _ => none

namespace PumpTable

variable {Name Pump Call : Type}

def new : PumpTable Name Pump Call where
  clones := 1
  entries := ∅
  calls := ∅
  given := 0
  finished := ∅
  stopped := 0
  replies := []

def held (table : PumpTable Name Pump Call) : Multiset Pump :=
  contents some table.entries

/-- Displaced pumps that a call has not dropped yet. -/
def displaced (table : PumpTable Name Pump Call) : Multiset Pump :=
  contents Replacing.displaced table.calls

def clear (table : PumpTable Name Pump Call) : PumpTable Name Pump Call :=
  { table with
    entries := ∅
    stopped := table.stopped + table.held }

/-- A call borrows a clone, so the last one outlives every call; it drops the
map. -/
def release (table : PumpTable Name Pump Call) :
    Option (PumpTable Name Pump Call) :=
  if 1 < table.clones then some { table with clones := table.clones - 1 }
  else if table.clones = 1 ∧ table.calls.entries.isEmpty then
    some { table.clear with clones := 0 }
  else none

variable [DecidableEq Name] [DecidableEq Pump] [DecidableEq Call]
  (table : PumpTable Name Pump Call)

def isFinished (pump : Pump) : Bool := pump ∈ table.finished

/-- `replace` as long as it has the lock. -/
def insert (call : Call) (name : Name) (pump : Pump) :
    PumpTable Name Pump Call :=
  { table with
    entries := table.entries.insert name pump
    calls := table.calls.insert call
      { name
        displaced := table.entries.lookup name
        displacedALivePump := none }
    given := pump ::ₘ table.given }

def ask (call : Call) (replacing : Replacing Name Pump) :
    PumpTable Name Pump Call :=
  { table with
    calls := table.calls.insert call
      { replacing with
        displacedALivePump := some ((replacing.displaced.map fun previous =>
          !table.isFinished previous).getD false) } }

def reply (call : Call) (replacing : Replacing Name Pump) (live : Bool) :
    PumpTable Name Pump Call :=
  { table with
    calls := table.calls.erase call
    stopped := table.stopped + ofOption replacing.displaced
    replies := table.replies ++ [(call, ⟨replacing.name, live⟩)] }

def remove (name : Name) : Bool × PumpTable Name Pump Call :=
  ((table.entries.lookup name).isSome,
    { table with
      entries := table.entries.erase name
      stopped := table.stopped + ofOption (table.entries.lookup name) })

/-- A pump is handed over once, as it is moved into the table. -/
def step : PumpEvent Name Pump Call → Option (PumpTable Name Pump Call)
  | .clones =>
      if 0 < table.clones then some { table with clones := table.clones + 1 }
      else none
  | .releases => table.release
  | .replaces call name pump =>
      if 0 < table.clones ∧ (table.calls.lookup call).isNone ∧
          pump ∉ table.given then
        some (table.insert call name pump)
      else none
  | .asks call =>
      (table.calls.lookup call).bind fun replacing =>
        if replacing.displacedALivePump.isNone then
          some (table.ask call replacing)
        else none
  | .returns call =>
      (table.calls.lookup call).bind fun replacing =>
        replacing.displacedALivePump.map (table.reply call replacing)
  | .removes name =>
      if 0 < table.clones then some (table.remove name).2 else none
  | .clears => if 0 < table.clones then some table.clear else none
  | .finishes pump =>
      some { table with finished := Insert.insert pump table.finished }

end PumpTable

/-! ## Custody -/

section

variable {Name Pump Call : Type}

/-- Every pump is in one place: under one name, with one call, or dropped
once. -/
structure Custody (table : PumpTable Name Pump Call) : Prop where
  once : table.given.Nodup
  placed : table.given = table.held + table.displaced + table.stopped

theorem custody_new : Custody (PumpTable.new : PumpTable Name Pump Call) := by
  constructor
  case once => exact Multiset.nodup_zero
  case placed => rfl

theorem Custody.clear {table : PumpTable Name Pump Call}
    (hcustody : Custody table) : Custody table.clear := by
  constructor
  case once => exact hcustody.once
  case placed =>
    have hempty : table.clear.held = 0 := contents_empty
    have hstopped : table.clear.stopped = table.stopped + table.held := rfl
    have hcalls : table.clear.displaced = table.displaced := rfl
    have hgiven : table.clear.given = table.given := rfl
    rw [hempty, hstopped, hcalls, hgiven, hcustody.placed]
    abel

theorem Custody.release {table next : PumpTable Name Pump Call}
    (hcustody : Custody table) (hrelease : table.release = some next) :
    Custody next := by
  unfold PumpTable.release at hrelease
  split at hrelease
  · cases hrelease
    exact ⟨hcustody.once, hcustody.placed⟩
  · rcases Option.ite_none_right_eq_some.mp hrelease with ⟨_, hnext⟩
    cases hnext
    exact ⟨hcustody.clear.once, hcustody.clear.placed⟩

theorem Custody.count_eq [DecidableEq Pump] {table : PumpTable Name Pump Call}
    (hcustody : Custody table) (pump : Pump) :
    table.held.count pump + table.displaced.count pump +
        table.stopped.count pump = table.given.count pump := by
  rw [hcustody.placed, Multiset.count_add, Multiset.count_add]

theorem Custody.count_le_one [DecidableEq Pump]
    {table : PumpTable Name Pump Call} (hcustody : Custody table)
    (pump : Pump) :
    table.given.count pump ≤ 1 :=
  Multiset.nodup_iff_count_le_one.mp hcustody.once pump

section Calls

variable [DecidableEq Call] {table : PumpTable Name Pump Call} {call : Call}
  {replacing : Replacing Name Pump}

theorem displaced_eq (hcall : table.calls.lookup call = some replacing) :
    table.displaced = ofOption replacing.displaced +
      contents Replacing.displaced (table.calls.erase call) := by
  rw [PumpTable.displaced, contents_erase table.calls call, hcall]
  rfl

theorem Custody.ask [DecidableEq Pump] (hcustody : Custody table)
    (hcall : table.calls.lookup call = some replacing) :
    Custody (table.ask call replacing) := by
  constructor
  case once => exact hcustody.once
  case placed =>
    have hsame : (table.ask call replacing).displaced = table.displaced := by
      rw [displaced_eq hcall]
      exact contents_insert table.calls call _
    rw [hsame]
    exact hcustody.placed

theorem Custody.reply (hcustody : Custody table) (live : Bool)
    (hcall : table.calls.lookup call = some replacing) :
    Custody (table.reply call replacing live) := by
  constructor
  case once => exact hcustody.once
  case placed =>
    have hdisplaced : (table.reply call replacing live).displaced =
        contents Replacing.displaced (table.calls.erase call) := rfl
    have hstopped : (table.reply call replacing live).stopped =
        table.stopped + ofOption replacing.displaced := rfl
    have hheld : (table.reply call replacing live).held = table.held := rfl
    have hgiven : (table.reply call replacing live).given = table.given := rfl
    rw [hgiven, hheld, hdisplaced, hstopped, hcustody.placed,
      displaced_eq hcall]
    abel

end Calls

variable [DecidableEq Name]

theorem held_eq (table : PumpTable Name Pump Call) (name : Name) :
    table.held = ofOption (table.entries.lookup name) +
      contents some (table.entries.erase name) := by
  rw [PumpTable.held, contents_erase table.entries name, Option.bind_fun_some]

theorem Custody.remove {table : PumpTable Name Pump Call}
    (hcustody : Custody table) (name : Name) :
    Custody (table.remove name).2 := by
  constructor
  case once => exact hcustody.once
  case placed =>
    have hheld : (table.remove name).2.held =
        contents some (table.entries.erase name) := rfl
    have hstopped : (table.remove name).2.stopped =
        table.stopped + ofOption (table.entries.lookup name) := rfl
    have hcalls : (table.remove name).2.displaced = table.displaced := rfl
    have hgiven : (table.remove name).2.given = table.given := rfl
    rw [hgiven, hheld, hcalls, hstopped, hcustody.placed, held_eq table name]
    abel

/-- A pump under two names would be held twice. -/
theorem Custody.eq_of_lookup [DecidableEq Pump]
    {table : PumpTable Name Pump Call} (hcustody : Custody table)
    {name other : Name} {pump : Pump}
    (hname : table.entries.lookup name = some pump)
    (hother : table.entries.lookup other = some pump) : name = other := by
  by_contra hne
  have hrest : pump ∈ contents some (table.entries.erase name) := by
    rw [mem_contents]
    refine ⟨other, pump, ?_, rfl⟩
    rw [AList.lookup_erase_ne (fun heq => hne heq.symm), hother]
  have hheld := held_eq table name
  rw [hname, ofOption_some] at hheld
  have hcount := congrArg (Multiset.count pump) hheld
  rw [Multiset.count_add, Multiset.count_singleton_self] at hcount
  have hpos := Multiset.one_le_count_iff_mem.mpr hrest
  have hsum := hcustody.count_eq pump
  have hle := hcustody.count_le_one pump
  omega

variable [DecidableEq Call] {table next : PumpTable Name Pump Call}

theorem Custody.insert (hcustody : Custody table) {call : Call} (name : Name)
    {pump : Pump} (hcall : table.calls.lookup call = none)
    (hpump : pump ∉ table.given) :
    Custody (table.insert call name pump) := by
  constructor
  case once => exact Multiset.nodup_cons.mpr ⟨hpump, hcustody.once⟩
  case placed =>
    have hheld : (table.insert call name pump).held =
        {pump} + contents some (table.entries.erase name) :=
      contents_insert table.entries name pump
    have hdisplaced : (table.insert call name pump).displaced =
        ofOption (table.entries.lookup name) +
          contents Replacing.displaced (table.calls.erase call) :=
      contents_insert table.calls call _
    have hbefore := held_eq table name
    have hcalls : table.displaced =
        contents Replacing.displaced (table.calls.erase call) := by
      rw [PumpTable.displaced, contents_erase table.calls call, hcall]
      exact zero_add _
    have hgiven : (table.insert call name pump).given =
        {pump} + table.given := rfl
    have hstopped : (table.insert call name pump).stopped =
        table.stopped := rfl
    rw [hgiven, hheld, hdisplaced, hstopped, hcustody.placed, hbefore, hcalls]
    abel

variable [DecidableEq Pump]

theorem Custody.step (hcustody : Custody table)
    {event : PumpEvent Name Pump Call}
    (hstep : table.step event = some next) : Custody next := by
  cases event with
  | clones =>
      rcases Option.ite_none_right_eq_some.mp hstep with ⟨_, hnext⟩
      cases hnext
      exact ⟨hcustody.once, hcustody.placed⟩
  | releases => exact hcustody.release hstep
  | replaces call name pump =>
      rcases Option.ite_none_right_eq_some.mp hstep with
        ⟨⟨_, hcall, hpump⟩, hnext⟩
      cases hnext
      exact hcustody.insert name (Option.isNone_iff_eq_none.mp hcall) hpump
  | asks call =>
      rcases Option.bind_eq_some_iff.mp hstep with
        ⟨replacing, hcall, hasked⟩
      rcases Option.ite_none_right_eq_some.mp hasked with ⟨_, hnext⟩
      cases hnext
      exact hcustody.ask hcall
  | returns call =>
      rcases Option.bind_eq_some_iff.mp hstep with
        ⟨replacing, hcall, hreplied⟩
      rcases Option.map_eq_some_iff.mp hreplied with ⟨live, _, rfl⟩
      exact hcustody.reply live hcall
  | removes name =>
      rcases Option.ite_none_right_eq_some.mp hstep with ⟨_, hnext⟩
      cases hnext
      exact hcustody.remove name
  | clears =>
      rcases Option.ite_none_right_eq_some.mp hstep with ⟨_, hnext⟩
      cases hnext
      exact hcustody.clear
  | finishes pump =>
      cases hstep
      exact ⟨hcustody.once, hcustody.placed⟩

theorem custody_of_run {events : List (PumpEvent Name Pump Call)}
    (hrun : run PumpTable.step PumpTable.new events = some table) :
    Custody table :=
  run_invariant custody_new
    (fun _ _ _ hcustody hstep => hcustody.step hstep) hrun

/-! ## What is kept -/

/-- One pump for a name; none is dropped twice, and none while it is held or a
call still has it; what is in neither place was dropped; every call can go
on until it returns. -/
structure Kept (table : PumpTable Name Pump Call) : Prop where
  oneForName : ∀ name pump other,
    (⟨name, pump⟩ : Sigma fun _ : Name => Pump) ∈ table.entries.entries →
      ⟨name, other⟩ ∈ table.entries.entries → pump = other
  oneName : ∀ name other pump,
    table.entries.lookup name = some pump →
      table.entries.lookup other = some pump → name = other
  neverTwice : ∀ pump, table.stopped.count pump ≤ 1
  notBefore : ∀ pump, pump ∈ table.held ∨ pump ∈ table.displaced →
    table.stopped.count pump = 0
  stopped : ∀ pump ∈ table.given, pump ∉ table.held →
    pump ∉ table.displaced → table.stopped.count pump = 1
  goesOn : ∀ call replacing, table.calls.lookup call = some replacing →
    ∃ next, table.step (.asks call) = some next ∨
      table.step (.returns call) = some next

section

variable {call : Call} {replacing : Replacing Name Pump}
  (hcall : table.calls.lookup call = some replacing)

include hcall

theorem step_asks (hlive : replacing.displacedALivePump = none) :
    table.step (.asks call) = some (table.ask call replacing) := by
  simp only [PumpTable.step, hcall, Option.bind_some, hlive,
    Option.isNone_none, if_true]

theorem step_returns {live : Bool}
    (hlive : replacing.displacedALivePump = some live) :
    table.step (.returns call) = some (table.reply call replacing live) := by
  simp only [PumpTable.step, hcall, Option.bind_some, hlive, Option.map_some]

theorem exists_step_of_lookup :
    ∃ next, table.step (.asks call) = some next ∨
      table.step (.returns call) = some next := by
  cases hlive : replacing.displacedALivePump with
  | none => exact ⟨_, .inl (step_asks hcall hlive)⟩
  | some live => exact ⟨_, .inr (step_returns hcall hlive)⟩

end

theorem Custody.kept (hcustody : Custody table) : Kept table := by
  constructor
  case oneForName =>
    intro name pump other hpump hother
    have hfound := AList.mem_lookup_iff.mpr hpump
    rw [Option.mem_def, AList.mem_lookup_iff.mpr hother] at hfound
    exact (Option.some.inj hfound).symm
  case oneName =>
    intro name other pump
    exact hcustody.eq_of_lookup
  case neverTwice =>
    intro pump
    have hsum := hcustody.count_eq pump
    have hle := hcustody.count_le_one pump
    omega
  case notBefore =>
    intro pump hplace
    have hsum := hcustody.count_eq pump
    have hle := hcustody.count_le_one pump
    rcases hplace with hheld | hdisplaced
    · have hpos := Multiset.one_le_count_iff_mem.mpr hheld
      omega
    · have hpos := Multiset.one_le_count_iff_mem.mpr hdisplaced
      omega
  case stopped =>
    intro pump hgiven hheld hdisplaced
    have hsum := hcustody.count_eq pump
    have hle := hcustody.count_le_one pump
    have hpos := Multiset.one_le_count_iff_mem.mpr hgiven
    rw [Multiset.count_eq_zero_of_notMem hheld,
      Multiset.count_eq_zero_of_notMem hdisplaced] at hsum
    omega
  case goesOn =>
    intro call replacing
    exact exists_step_of_lookup

/-! ## What a call reports -/

/-- Only a call itself takes its steps. -/
theorem lookup_calls_of_step {event : PumpEvent Name Pump Call} {call : Call}
    (hother : event.call? ≠ some call)
    (hstep : table.step event = some next) :
    next.calls.lookup call = table.calls.lookup call := by
  have hne {other : Call} (hsome : some other ≠ some call) : call ≠ other :=
    fun heq => hsome (congrArg some heq.symm)
  cases event with
  | clones =>
      rcases Option.ite_none_right_eq_some.mp hstep with ⟨_, hnext⟩
      cases hnext
      rfl
  | releases =>
      unfold PumpTable.step PumpTable.release at hstep
      dsimp only at hstep
      split at hstep
      · cases hstep
        rfl
      · rcases Option.ite_none_right_eq_some.mp hstep with ⟨_, hnext⟩
        cases hnext
        rfl
  | replaces other name pump =>
      rcases Option.ite_none_right_eq_some.mp hstep with ⟨_, hnext⟩
      cases hnext
      exact AList.lookup_insert_ne (hne hother)
  | asks other =>
      rcases Option.bind_eq_some_iff.mp hstep with ⟨replacing, _, hasked⟩
      rcases Option.ite_none_right_eq_some.mp hasked with ⟨_, hnext⟩
      cases hnext
      exact AList.lookup_insert_ne (hne hother)
  | returns other =>
      rcases Option.bind_eq_some_iff.mp hstep with ⟨replacing, _, hreplied⟩
      rcases Option.map_eq_some_iff.mp hreplied with ⟨live, _, rfl⟩
      exact AList.lookup_erase_ne (hne hother)
  | removes name =>
      rcases Option.ite_none_right_eq_some.mp hstep with ⟨_, hnext⟩
      cases hnext
      rfl
  | clears =>
      rcases Option.ite_none_right_eq_some.mp hstep with ⟨_, hnext⟩
      cases hnext
      rfl
  | finishes pump =>
      cases hstep
      rfl

/-- The steps of other calls, and what is no step of a call. -/
def Others (call : Call) (events : List (PumpEvent Name Pump Call)) : Prop :=
  ∀ event ∈ events, event.call? ≠ some call

theorem lookup_calls_of_run {events : List (PumpEvent Name Pump Call)}
    {call : Call} (hothers : Others call events)
    (hrun : run PumpTable.step table events = some next) :
    next.calls.lookup call = table.calls.lookup call := by
  induction events generalizing table with
  | nil =>
      cases hrun
      rfl
  | cons event events ih =>
      rcases Option.bind_eq_some_iff.mp hrun with ⟨between, hfirst, hrest⟩
      have hstep := lookup_calls_of_step
        (hothers event List.mem_cons_self) hfirst
      have hothers : Others call events := fun other hmem =>
        hothers other (List.mem_cons_of_mem event hmem)
      rw [ih hothers hrest, hstep]

/-- However other steps come between those of a call of `replace`, it returns
the name, and that it displaced a live pump just where one was under the name
when the call took the lock, and was not finished when the call asked. -/
def Reports (begun : PumpTable Name Pump Call) : Prop :=
  ∀ call name pump between later asked returning returned,
    Others call between → Others call later →
      run PumpTable.step begun (.replaces call name pump :: between) =
        some asked →
      run PumpTable.step asked (.asks call :: later) = some returning →
      returning.step (.returns call) = some returned →
        ∃ live, returned.replies =
            returning.replies ++ [(call, ⟨name, live⟩)] ∧
          (live = true ↔ ∃ previous,
            begun.entries.lookup name = some previous ∧
              previous ∉ asked.finished)

theorem reports (begun : PumpTable Name Pump Call) : Reports begun := by
  intro call name pump between later asked returning returned hbetween hlater
    hbegins hasks hreturns
  rcases Option.bind_eq_some_iff.mp hbegins with ⟨inserted, hinsert, hbegins⟩
  rcases Option.ite_none_right_eq_some.mp hinsert with ⟨_, hinserted⟩
  cases hinserted
  have hasked : asked.calls.lookup call =
      some ⟨name, begun.entries.lookup name, none⟩ := by
    rw [lookup_calls_of_run hbetween hbegins]
    exact AList.lookup_insert _
  rcases Option.bind_eq_some_iff.mp hasks with ⟨answered, hask, hasks⟩
  rw [step_asks hasked rfl] at hask
  cases hask
  have hreturning : returning.calls.lookup call = _ :=
    (lookup_calls_of_run hlater hasks).trans (AList.lookup_insert _)
  rw [step_returns hreturning rfl] at hreturns
  cases hreturns
  refine ⟨_, rfl, ?_⟩
  cases begun.entries.lookup name with
  | none => simp
  | some previous => simp [PumpTable.isFinished]

end

end Dovetail.Pumps
