import Dovetail.CodeUnits

/-!
# The payload of a forwarded launch

A launch travels as its working directory, two NULs and the arguments with a
NUL between any two.  Dart encodes it for the socket and C++ for the window
message, which loses one trailing NUL on the way; both are decoded in Dart.
The list of one empty argument is written like the empty list.
-/

namespace Dovetail.Instance

open CodeUnits

def nul : UInt16 := 0

def fieldSeparator : Text := [nul, nul]

structure ForwardedLaunch where
  workingDirectory : Text
  arguments : List Text
  deriving DecidableEq

/-! ## Decoding -/

def indexOf (pattern : Text) : Text → Option Nat
  | [] => if pattern.isEmpty then some 0 else none
  | unit :: rest =>
      if pattern.isPrefixOf (unit :: rest) then some 0
      else (indexOf pattern rest).map (· + 1)

def decodeLaunch (payload : Text) : ForwardedLaunch :=
  match indexOf fieldSeparator payload with
  | none =>
      { workingDirectory := payload
        arguments := [] }
  | some split =>
      let rest := payload.drop (split + fieldSeparator.length)
      { workingDirectory := payload.take split
        arguments := if rest.isEmpty then [] else rest.splitOn nul }

def SocketSingleInstance.decode (payload : Text) : ForwardedLaunch :=
  decodeLaunch payload

def WindowsSingleInstance.decode (payload : Text) : ForwardedLaunch :=
  decodeLaunch payload

/-! ## Encoding for the socket -/

def SocketSingleInstance.encode (arguments : List Text)
    (workingDirectory : Text) : Text :=
  workingDirectory ++ fieldSeparator ++ [nul].intercalate arguments

/-! ## Encoding for the window message -/

/-- What `_claimThrough` hands to C++: no array for no arguments. -/
def passed (arguments : List Text) : Option (List (Option Text)) :=
  if arguments.isEmpty then none else some (arguments.map some)

/-- What `std::wstring::append` takes of a NUL-terminated string. -/
def untilNul (argument : Text) : Text := argument.takeWhile (· ≠ nul)

/-- The loop of `EncodeLaunch` from an index on. -/
def appendArguments : Nat → Text → List (Option Text) → Text
  | _, payload, [] => payload
  | index, payload, argument :: rest =>
      let separated := if index > 0 then payload ++ [nul] else payload
      appendArguments (index + 1)
        (match argument with
          | some argument => separated ++ untilNul argument
          | none => separated) rest

def encodeLaunch (directory : Text)
    (arguments : Option (List (Option Text))) : Text :=
  let payload := directory ++ [nul] ++ [nul]
  match arguments with
  | none => payload
  | some arguments => appendArguments 0 payload arguments

/-- `Deliver` sends the payload with the NUL that ends it. -/
def deliver (payload : Text) : Text := payload ++ [nul]

def enqueue (received : Text) : Text :=
  if received.getLast? = some nul then received.dropLast else received

/-! ## The payload -/

section

variable {directory : Text} {arguments : List Text}

theorem indexOf_append (hdirectory : nul ∉ directory) (rest : Text) :
    indexOf fieldSeparator (directory ++ fieldSeparator ++ rest) =
      some directory.length := by
  induction directory with
  | nil => simp [fieldSeparator, indexOf]
  | cons unit directory ih =>
      obtain ⟨hunit, hrest⟩ := List.ne_and_not_mem_of_not_mem_cons hdirectory
      have hprefix : fieldSeparator.isPrefixOf
          (unit :: (directory ++ fieldSeparator ++ rest)) = false := by
        simp [fieldSeparator, List.isPrefixOf, hunit]
      simp only [List.cons_append, indexOf, hprefix, Bool.false_eq_true,
        if_false, ih hrest, Option.map_some, List.length_cons]

theorem decodeLaunch_append (hdirectory : nul ∉ directory) (rest : Text) :
    decodeLaunch (directory ++ fieldSeparator ++ rest) =
      { workingDirectory := directory
        arguments := if rest.isEmpty then [] else rest.splitOn nul } := by
  have htake : (directory ++ fieldSeparator ++ rest).take directory.length =
      directory := by
    rw [List.append_assoc, List.take_left]
  have hdrop : (directory ++ fieldSeparator ++ rest).drop
      (directory.length + fieldSeparator.length) = rest := by
    rw [← List.length_append, List.drop_left]
  unfold decodeLaunch
  simp only [indexOf_append hdirectory, htake, hdrop]

theorem untilNul_eq_self {argument : Text} (hargument : nul ∉ argument) :
    untilNul argument = argument := by
  unfold untilNul
  rw [List.takeWhile_eq_self_iff]
  intro unit hunit
  simpa using fun heq : unit = nul => hargument (heq ▸ hunit)

theorem appendArguments_of_pos {index : Nat} (hindex : 0 < index)
    (payload : Text) (harguments : ∀ argument ∈ arguments, nul ∉ argument) :
    appendArguments index payload (arguments.map some) =
      payload ++ arguments.flatMap fun argument => nul :: argument := by
  induction arguments generalizing index payload with
  | nil => simp [appendArguments]
  | cons argument rest ih =>
      simp only [List.map_cons, appendArguments, if_pos hindex]
      rw [ih (Nat.succ_pos index) _
          fun other hmem => harguments other (List.mem_cons_of_mem _ hmem),
        untilNul_eq_self (harguments argument List.mem_cons_self)]
      simp

theorem intercalate_cons (argument : Text) (rest : List Text) :
    [nul].intercalate (argument :: rest) =
      argument ++ rest.flatMap fun other => nul :: other := by
  induction rest generalizing argument with
  | nil => simp
  | cons other rest ih =>
      rw [List.intercalate_cons_cons, ih]
      simp

/-- The C++ encoder writes what the Dart one does. -/
theorem encodeLaunch_passed
    (harguments : ∀ argument ∈ arguments, nul ∉ argument) :
    encodeLaunch directory (passed arguments) =
      SocketSingleInstance.encode arguments directory := by
  cases arguments with
  | nil => simp [encodeLaunch, passed, SocketSingleInstance.encode,
      fieldSeparator]
  | cons argument rest =>
      have hfirst := untilNul_eq_self (harguments argument List.mem_cons_self)
      have hrest := fun other hmem =>
        harguments other (List.mem_cons_of_mem argument hmem)
      simp only [encodeLaunch, passed, List.isEmpty_cons, Bool.false_eq_true,
        if_false, List.map_cons, appendArguments, gt_iff_lt, lt_irrefl]
      rw [appendArguments_of_pos (by omega) _ hrest, hfirst,
        SocketSingleInstance.encode, intercalate_cons]
      simp [fieldSeparator]

theorem enqueue_deliver (payload : Text) :
    enqueue (deliver payload) = payload := by
  simp [enqueue, deliver]

theorem intercalate_eq_nil_iff
    (harguments : ∀ argument ∈ arguments, nul ∉ argument) :
    [nul].intercalate arguments = [] ↔ arguments = [] ∨ arguments = [[]] := by
  match arguments with
  | [] => simp
  | [argument] => simp
  | argument :: other :: rest => simp [List.intercalate_cons_cons]

theorem decode_encode_iff (hdirectory : nul ∉ directory)
    (harguments : ∀ argument ∈ arguments, nul ∉ argument) :
    decodeLaunch (SocketSingleInstance.encode arguments directory) =
        ⟨directory, arguments⟩ ↔
      arguments ≠ [[]] := by
  rw [SocketSingleInstance.encode, decodeLaunch_append hdirectory]
  simp only [ForwardedLaunch.mk.injEq, true_and, List.isEmpty_iff,
    intercalate_eq_nil_iff harguments]
  by_cases hempty : arguments = []
  · simp [hempty]
  · by_cases hblank : arguments = [[]]
    · simp [hblank]
    · simp only [hempty, hblank, or_self, if_false, ne_eq,
        not_false_eq_true, iff_true]
      exact List.splitOn_intercalate nul harguments hempty

/-- A launch comes out of either pair as it went in. -/
def RoundTrips (directory : Text) (arguments : List Text) : Prop :=
  SocketSingleInstance.decode
      (SocketSingleInstance.encode arguments directory) =
        ⟨directory, arguments⟩ ∧
    WindowsSingleInstance.decode
      (enqueue (deliver (encodeLaunch directory (passed arguments)))) =
        ⟨directory, arguments⟩

/-- Without NULs in it, every launch does but that of one empty argument. -/
theorem roundTrips_iff (hdirectory : nul ∉ directory)
    (harguments : ∀ argument ∈ arguments, nul ∉ argument) :
    RoundTrips directory arguments ↔ arguments ≠ [[]] := by
  unfold RoundTrips SocketSingleInstance.decode WindowsSingleInstance.decode
  rw [enqueue_deliver, encodeLaunch_passed harguments, and_self,
    decode_encode_iff hdirectory harguments]

theorem roundTrips_iff_demo :
    RoundTrips [47] [[], [65], []] ↔ [[], [65], []] ≠ [([] : Text)] :=
  roundTrips_iff (by decide) (by decide)

theorem not_roundTrips_blank : ¬ RoundTrips [47] [[]] := by
  unfold RoundTrips
  decide

end

end Dovetail.Instance
