import Dovetail.PrefixCode

/-!
# Length-delimited frames

A frame is its payload behind the payload's length, four bytes in big-endian
order, and no payload is longer than a limit.  The decoder keeps what it has
read and not yet handed on; the stream hands it the bytes in reads of any
size.  However they are cut, the payloads come out as they went in.
-/

namespace LengthDelimited

open PrefixCode

abbrev Bytes := List UInt8

inductive Failure where
  /-- A length above the limit. -/
  | tooLong
  /-- The stream ends inside a frame. -/
  | leftover
  deriving DecidableEq

/-! ## The codec -/

def encode (limit : Nat) (payload : Bytes) : Option Bytes :=
  if limit < payload.length then none
  else some (be32 (UInt32.ofNat payload.length) ++ payload)

/-- The length of a payload whose head was read, and the bytes behind it. -/
structure Decoder where
  awaited : Option Nat
  buffer : Bytes

namespace Decoder

def fresh : Decoder :=
  { awaited := none
    buffer := [] }

def feed (decoder : Decoder) (chunk : Bytes) : Decoder :=
  { decoder with buffer := decoder.buffer ++ chunk }

end Decoder

def decodeHead (limit : Nat) :
    Bytes → Except Failure (Option (Nat × Bytes))
  | a :: b :: c :: d :: rest =>
      let length := (fromBe32 a b c d).toNat
      if limit < length then .error .tooLong else .ok (some (length, rest))
  | _ => .ok none

def decodeData (length : Nat) (buffer : Bytes) : Option Bytes × Decoder :=
  if buffer.length < length then (none, ⟨some length, buffer⟩)
  else (some (buffer.take length), ⟨none, buffer.drop length⟩)

def decode (limit : Nat) (decoder : Decoder) :
    Except Failure (Option Bytes × Decoder) :=
  match decoder.awaited with
  | some length => .ok (decodeData length decoder.buffer)
  | none =>
      match decodeHead limit decoder.buffer with
      | .error failure => .error failure
      | .ok none => .ok (none, decoder)
      | .ok (some (length, rest)) => .ok (decodeData length rest)

/-! ## The stream -/

/-- What is left to read, and whether the last poll failed. -/
structure Incoming where
  decoder : Decoder
  reads : List Bytes
  errored : Bool

/-- Decodes what is there and reads on while it is no whole frame.  The end
of the reads is the end of the stream. -/
def pull (limit : Nat) :
    List Bytes → Decoder → Option (Except Failure Bytes) × Incoming
  | reads, decoder =>
    match decode limit decoder with
    | .error failure => (some (.error failure), ⟨decoder, reads, true⟩)
    | .ok (some payload, next) => (some (.ok payload), ⟨next, reads, false⟩)
    | .ok (none, next) =>
        match reads with
        | chunk :: rest => pull limit rest (next.feed chunk)
        | [] =>
            if next.buffer = [] then (none, ⟨next, [], false⟩)
            else (some (.error .leftover), ⟨next, [], true⟩)

namespace Incoming

def start (reads : List Bytes) : Incoming :=
  { decoder := .fresh
    reads
    errored := false }

/-- A poll after one that failed ends the stream. -/
def next (limit : Nat) (incoming : Incoming) :
    Option (Except Failure Bytes) × Incoming :=
  if incoming.errored then (none, { incoming with errored := false })
  else pull limit incoming.reads incoming.decoder

/-- The state after so many polls. -/
def after (limit : Nat) (incoming : Incoming) : Nat → Incoming
  | 0 => incoming
  | count + 1 => ((incoming.after limit count).next limit).2

/-- What the poll after so many others gives. -/
def arrival (limit : Nat) (incoming : Incoming) (index : Nat) :
    Option (Except Failure Bytes) :=
  ((incoming.after limit index).next limit).1

end Incoming

/-! ## Whole frames -/

/-- The bytes of frames, one behind the other. -/
def frames (payloads : List Bytes) : Bytes :=
  payloads.flatMap fun payload =>
    be32 (UInt32.ofNat payload.length) ++ payload

@[simp] theorem frames_nil : frames [] = [] := rfl

@[simp] theorem frames_cons (payload : Bytes) (payloads : List Bytes) :
    frames (payload :: payloads) =
      be32 (UInt32.ofNat payload.length) ++ payload ++ frames payloads := rfl

theorem frames_append (before after : List Bytes) :
    frames (before ++ after) = frames before ++ frames after :=
  List.flatMap_append

/-- The decoder with the bytes still to come holds these payloads. -/
inductive Holds (limit : Nat) (coming : Bytes) :
    List Bytes → Decoder → Prop where
  | head {payloads : List Bytes} {buffer : Bytes} :
      buffer ++ coming = frames payloads →
        Holds limit coming payloads ⟨none, buffer⟩
  | data {payload : Bytes} {payloads : List Bytes} {buffer : Bytes} :
      buffer ++ coming = payload ++ frames payloads →
        Holds limit coming (payload :: payloads)
          ⟨some payload.length, buffer⟩

variable {limit : Nat} {coming : Bytes} {payloads : List Bytes}
  {decoder : Decoder}

theorem Holds.feed {chunk : Bytes}
    (hholds : Holds limit (chunk ++ coming) payloads decoder) :
    Holds limit coming payloads (decoder.feed chunk) := by
  cases hholds with
  | head hbytes => exact .head (by simpa using hbytes)
  | data hbytes => exact .data (by simpa using hbytes)

/-- What decoding makes of a decoder that holds payloads: it hands the first
one on, or needs more bytes. -/
inductive Decodes (limit : Nat) (coming : Bytes) :
    List Bytes → Option Bytes × Decoder → Prop where
  | payload {payload : Bytes} {payloads : List Bytes} {next : Decoder} :
      Holds limit coming payloads next →
        Decodes limit coming (payload :: payloads) (some payload, next)
  | more {payloads : List Bytes} {next : Decoder} :
      Holds limit coming payloads next →
        (coming = [] → payloads = [] ∧ next.buffer = []) →
        Decodes limit coming payloads (none, next)

theorem decodes_decodeData {payload buffer : Bytes}
    (hbytes : buffer ++ coming = payload ++ frames payloads) :
    Decodes limit coming (payload :: payloads)
      (decodeData payload.length buffer) := by
  unfold decodeData
  split
  · rename_i hshort
    refine .more (.data hbytes) fun hnone => ?_
    have hlength := congrArg List.length hbytes
    simp only [hnone, List.length_append, List.length_nil] at hlength
    omega
  · rename_i hlong
    have hlength : payload.length ≤ buffer.length := by omega
    have hpayload : buffer.take payload.length = payload := by
      have htake := congrArg (List.take payload.length) hbytes
      rwa [List.take_append_of_le_length hlength, List.take_left] at htake
    have hrest : buffer.drop payload.length ++ coming = frames payloads := by
      have hdrop := congrArg (List.drop payload.length) hbytes
      rwa [List.drop_append_of_le_length hlength, List.drop_left] at hdrop
    rw [hpayload]
    exact .payload (.head hrest)

theorem decodeHead_be32 {payload : Bytes} (hlimit : limit < 2 ^ 32)
    (rest : Bytes) (hpayload : payload.length ≤ limit) :
    decodeHead limit (be32 (UInt32.ofNat payload.length) ++ rest) =
      .ok (some (payload.length, rest)) := by
  have hlength : (UInt32.ofNat payload.length).toNat = payload.length :=
    toNat_ofNat_length (by omega)
  unfold be32
  simp only [List.cons_append, List.nil_append, decodeHead]
  rw [fromBe32_be32, hlength, if_neg (Nat.not_lt.mpr hpayload)]

theorem decode_of_head {buffer rest : Bytes} {length : Nat}
    (hhead : decodeHead limit buffer = .ok (some (length, rest))) :
    decode limit ⟨none, buffer⟩ = .ok (decodeData length rest) := by
  simp only [decode, hhead]

theorem decode_of_tooLong {buffer : Bytes}
    (hhead : decodeHead limit buffer = .error .tooLong) :
    decode limit ⟨none, buffer⟩ = .error .tooLong := by
  simp only [decode, hhead]

theorem decode_of_short {buffer : Bytes}
    (hhead : decodeHead limit buffer = .ok none) :
    decode limit ⟨none, buffer⟩ = .ok (none, ⟨none, buffer⟩) := by
  simp only [decode, hhead]

theorem decodeHead_of_short {buffer : Bytes} (hshort : buffer.length < 4) :
    decodeHead limit buffer = .ok none := by
  unfold decodeHead
  split
  · simp only [List.length_cons] at hshort
    omega
  · rfl

theorem decodes_short {payload buffer : Bytes} (hshort : buffer.length < 4)
    (hbytes : buffer ++ coming = frames (payload :: payloads)) :
    Decodes limit coming (payload :: payloads) (none, ⟨none, buffer⟩) := by
  refine .more (.head hbytes) fun hnone => ?_
  have hlength := congrArg List.length hbytes
  simp only [hnone, frames_cons, List.length_append, length_be32,
    List.length_nil] at hlength
  omega

theorem head_of_frames {payload buffer : Bytes} (hlong : 4 ≤ buffer.length)
    (hbytes : buffer ++ coming = frames (payload :: payloads)) :
    ∃ rest, buffer = be32 (UInt32.ofNat payload.length) ++ rest ∧
      rest ++ coming = payload ++ frames payloads := by
  rw [← List.take_append_drop 4 buffer, frames_cons, List.append_assoc,
    List.append_assoc] at hbytes
  obtain ⟨hhead, hrest⟩ := List.append_inj hbytes (by simpa using hlong)
  exact ⟨buffer.drop 4, by rw [← hhead, List.take_append_drop], hrest⟩

theorem decodes_decode (hlimit : limit < 2 ^ 32)
    (hpayloads : ∀ payload ∈ payloads, payload.length ≤ limit)
    (hholds : Holds limit coming payloads decoder) :
    ∃ result, decode limit decoder = .ok result ∧
      Decodes limit coming payloads result := by
  cases hholds with
  | data hbytes => exact ⟨_, rfl, decodes_decodeData hbytes⟩
  | head hbytes =>
      rename_i buffer
      cases payloads with
      | nil =>
          obtain ⟨rfl, -⟩ := List.append_eq_nil_iff.mp hbytes
          exact ⟨_, rfl, .more (.head hbytes) fun _ => ⟨rfl, rfl⟩⟩
      | cons payload payloads =>
          rcases Nat.lt_or_ge buffer.length 4 with hshort | hlong
          · exact ⟨_, decode_of_short (decodeHead_of_short hshort),
              decodes_short hshort hbytes⟩
          · obtain ⟨rest, rfl, hrest⟩ := head_of_frames hlong hbytes
            have hhead := decodeHead_be32 hlimit rest
              (hpayloads payload List.mem_cons_self)
            exact ⟨_, decode_of_head hhead, decodes_decodeData hrest⟩

/-- A poll hands on the first payload, or the end behind the last. -/
theorem pull_of_holds (hlimit : limit < 2 ^ 32)
    (hpayloads : ∀ payload ∈ payloads, payload.length ≤ limit)
    (reads : List Bytes) (decoder : Decoder)
    (hholds : Holds limit reads.flatten payloads decoder) :
    ∃ next left, pull limit reads decoder =
        (payloads.head?.map .ok, ⟨next, left, false⟩) ∧
      Holds limit left.flatten payloads.tail next := by
  induction reads generalizing decoder with
  | nil =>
      obtain ⟨result, hdecode, hresult⟩ :=
        decodes_decode hlimit hpayloads hholds
      unfold pull
      cases hresult with
      | payload hnext => exact ⟨_, [], by simp [hdecode], hnext⟩
      | more hnext hend =>
          obtain ⟨rfl, hbuffer⟩ := hend rfl
          exact ⟨_, [], by simp [hdecode, hbuffer], hnext⟩
  | cons chunk rest ih =>
      obtain ⟨result, hdecode, hresult⟩ :=
        decodes_decode hlimit hpayloads hholds
      unfold pull
      cases hresult with
      | payload hnext => exact ⟨_, chunk :: rest, by simp [hdecode], hnext⟩
      | more hnext _ =>
          obtain ⟨next, left, hpull, hleft⟩ := ih _ hnext.feed
          exact ⟨next, left, by simp [hdecode, hpull], hleft⟩

/-- The polls of a stream of frames give the payloads and then, for good, the
end of the stream. -/
theorem arrival_of_frames (hlimit : limit < 2 ^ 32)
    (hpayloads : ∀ payload ∈ payloads, payload.length ≤ limit)
    {reads : List Bytes} (hreads : reads.flatten = frames payloads)
    (index : Nat) :
    (Incoming.start reads).arrival limit index =
      payloads[index]?.map .ok := by
  have hstate : ∀ count, ∃ decoder left,
      (Incoming.start reads).after limit count = ⟨decoder, left, false⟩ ∧
        Holds limit left.flatten (payloads.drop count) decoder := by
    intro count
    induction count with
    | zero => exact ⟨_, reads, rfl, .head (by simpa using hreads)⟩
    | succ count ih =>
        obtain ⟨decoder, left, hafter, hholds⟩ := ih
        obtain ⟨next, rest, hpull, hnext⟩ := pull_of_holds hlimit
          (fun payload hmem => hpayloads payload (List.mem_of_mem_drop hmem))
          left decoder hholds
        refine ⟨next, rest, ?_, by simpa using hnext⟩
        simp [Incoming.after, hafter, Incoming.next, hpull]
  obtain ⟨decoder, left, hafter, hholds⟩ := hstate index
  obtain ⟨next, rest, hpull, -⟩ := pull_of_holds hlimit
    (fun payload hmem => hpayloads payload (List.mem_of_mem_drop hmem))
    left decoder hholds
  simp [Incoming.arrival, hafter, Incoming.next, hpull]

/-! ## The limit -/

/-- Behind some head the decoder hands the payload on. -/
def Accepts (limit : Nat) (payload : Bytes) : Prop :=
  ∃ head next, head.length = 4 ∧
    decode limit ⟨none, head ++ payload⟩ = .ok (some payload, next)

theorem encode_eq_none_iff {payload : Bytes} :
    encode limit payload = none ↔ limit < payload.length := by
  unfold encode
  split <;> simp_all

theorem decodeHead_append {head : Bytes} (hhead : head.length = 4)
    (limit : Nat) (rest : Bytes) :
    ∃ length, decodeHead limit (head ++ rest) =
      if limit < length then .error .tooLong
      else .ok (some (length, rest)) := by
  match head, hhead with
  | [a, b, c, d], _ => exact ⟨(fromBe32 a b c d).toNat, by
      simp only [List.cons_append, List.nil_append, decodeHead]⟩

theorem accepts_iff (hlimit : limit < 2 ^ 32) {payload : Bytes} :
    Accepts limit payload ↔ payload.length ≤ limit := by
  constructor
  · rintro ⟨head, next, hhead, hdecode⟩
    obtain ⟨length, hread⟩ := decodeHead_append hhead limit payload
    split_ifs at hread with hlong
    · rw [decode_of_tooLong hread] at hdecode
      cases hdecode
    · rw [decode_of_head hread] at hdecode
      unfold decodeData at hdecode
      split at hdecode
      · simp at hdecode
      · simp only [Except.ok.injEq, Prod.mk.injEq, Option.some.injEq]
          at hdecode
        have htake := congrArg List.length hdecode.1
        rw [List.length_take] at htake
        omega
  · intro hpayload
    refine ⟨be32 (UInt32.ofNat payload.length), ⟨none, []⟩, rfl, ?_⟩
    rw [decode_of_head (decodeHead_be32 hlimit payload hpayload)]
    simp [decodeData]

/-- A length that four bytes can tell is refused above the limit. -/
theorem decode_eq_tooLong_iff {payload : Bytes}
    (hlength : payload.length < 2 ^ 32) (next : Bytes) :
    decode limit
        ⟨none, be32 (UInt32.ofNat payload.length) ++ next⟩ =
          .error .tooLong ↔
      limit < payload.length := by
  have htold : (UInt32.ofNat payload.length).toNat = payload.length :=
    toNat_ofNat_length hlength
  have hhead : decodeHead limit
      (be32 (UInt32.ofNat payload.length) ++ next) =
        if limit < payload.length then .error .tooLong
        else .ok (some (payload.length, next)) := by
    unfold be32
    simp only [List.cons_append, List.nil_append, decodeHead]
    rw [fromBe32_be32, htold]
  split_ifs at hhead with hlong
  · simp only [decode_of_tooLong hhead, hlong]
  · rw [decode_of_head hhead]
    simp [hlong]

end LengthDelimited
