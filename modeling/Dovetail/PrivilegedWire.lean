import Dovetail.PrivilegedChannel

/-!
# The JSON of a frame

What `serde` derives for the frames: `Frame` is tagged by `t` inside its
object and buffers the rest of it, a struct reads its fields by name and a
missing `Option` field as `None`, `Response` flattens its payload, and the
payload is untagged, so its variants are tried in the order `Ok`, `Err`.
The text of a JSON value and the reading of that text are `serde_json`'s.
-/

namespace Dovetail.PrivilegedChannel

/-- A JSON value.  An integer literal is kept by its value, any other number
by its text, and an object with its entries in order. -/
inductive Json where
  | null
  | bool (value : Bool)
  | integer (value : Int)
  | decimal (literal : String)
  | string (value : String)
  | array (items : List Json)
  | object (fields : List (String × Json))

namespace Json

mutual

/-- How many arrays and objects are open at once. -/
def nesting : Json → Nat
  | .array items => 1 + nestingItems items
  | .object fields => 1 + nestingFields fields
  | _ => 0

def nestingItems : List Json → Nat
  | [] => 0
  | item :: rest => max item.nesting (nestingItems rest)

def nestingFields : List (String × Json) → Nat
  | [] => 0
  | (_, value) :: rest => max value.nesting (nestingFields rest)

end

end Json

/-- `serde_json` opens at most so many arrays and objects at once. -/
def NESTING_LIMIT : Nat := 127

/-- Where a value is deserialised from: the text itself, or what was buffered
of it. -/
inductive Source where
  | text
  | content
  deriving DecidableEq

/-- A type's own `Serialize` and `Deserialize`.  `missing` is what it makes
of a field that is not there, which is an error but for an `Option`. -/
structure Serde (α : Type*) where
  serialize : α → Json
  deserialize : Source → Json → Option α
  missing : Option α

/-- The text of a value and the reading of a text. -/
structure JsonText where
  write : Json → Bytes
  read : Bytes → Except String Json

variable {α Req Resp : Type}

/-! ## Serialising -/

namespace Wire

def natural (value : Nat) : Json := .integer value

def nonce (value : Nonce) : Json :=
  .array (value.toList.map fun byte => natural byte.toNat)

def errorBody (body : ErrorBody) : Json :=
  .object [("code", .string body.code.code),
    ("message", .string body.message), ("retryable", .bool body.retryable)]

def peerCheck (check : PeerCheck) : Json :=
  .object [("method", .string check.method), ("subject", .string check.subject)]

def hello (hello : Hello) : List (String × Json) :=
  [("proto_major", natural hello.protoMajor.toNat),
    ("proto_minor", natural hello.protoMinor.toNat),
    ("client_version", .string hello.clientVersion),
    ("nonce", nonce hello.nonce)]

def serverHello (serverHello : ServerHello) : List (String × Json) :=
  [("accepted", .bool serverHello.accepted),
    ("proto_major", natural serverHello.protoMajor.toNat),
    ("proto_minor", natural serverHello.protoMinor.toNat),
    ("helper_version", .string serverHello.helperVersion),
    ("nonce", nonce serverHello.nonce),
    ("peer_check", peerCheck serverHello.peerCheck),
    ("reject", match serverHello.reject with
      | none => .null
      | some body => errorBody body)]

def request (req : Serde Req) (request : Request Req) :
    List (String × Json) :=
  [("id", natural request.id.toNat), ("cmd", req.serialize request.cmd)]

def payload (resp : Serde Resp) : RespPayload Resp → List (String × Json)
  | .ok reply => [("ok", resp.serialize reply)]
  | .err body => [("err", errorBody body)]

def response (resp : Serde Resp) (response : Response Resp) :
    List (String × Json) :=
  ("id", natural response.id.toNat) :: payload resp response.payload

def tagged (tag : String) (fields : List (String × Json)) : Json :=
  .object (("t", .string tag) :: fields)

def frame (req : Serde Req) (resp : Serde Resp) : Frame Req Resp → Json
  | .hello hello => tagged "hello" (Wire.hello hello)
  | .serverHello serverHello =>
      tagged "server_hello" (Wire.serverHello serverHello)
  | .request request => tagged "request" (Wire.request req request)
  | .response response => tagged "response" (Wire.response resp response)

end Wire

/-! ## Deserialising

The values come from the buffered content.  The positional form of a struct,
which no serialiser here writes, is left out. -/

namespace Content

def natural? (bound : Nat) : Json → Option Nat
  | .integer value =>
      if 0 ≤ value ∧ value < bound then some value.toNat else none
  | _ => none

def u8? (value : Json) : Option UInt8 :=
  (natural? UInt8.size value).map UInt8.ofNat

def u16? (value : Json) : Option UInt16 :=
  (natural? UInt16.size value).map UInt16.ofNat

def u64? (value : Json) : Option UInt64 :=
  (natural? UInt64.size value).map UInt64.ofNat

def bool? : Json → Option Bool
  | .bool value => some value
  | _ => none

def string? : Json → Option String
  | .string value => some value
  | _ => none

/-- A field by its name.  Twice the same name is refused. -/
def field (name : String) (decode : Json → Option α) (missing : Option α)
    (fields : List (String × Json)) : Option α :=
  match fields.filter fun entry => entry.1 = name with
  | [] => missing
  | [(_, value)] => decode value
  | _ => none

def required (name : String) (decode : Json → Option α)
    (fields : List (String × Json)) : Option α :=
  field name decode none fields

def option? (decode : Json → Option α) : Json → Option (Option α)
  | .null => some none
  | value => (decode value).map some

def nonce? : Json → Option Nonce
  | .array items => do
      let bytes ← items.mapM u8?
      if hlength : bytes.length = 16 then
        some ⟨bytes.toArray, by simpa using hlength⟩
      else none
  | _ => none

def struct? (decode : List (String × Json) → Option α) : Json → Option α
  | .object fields => decode fields
  | _ => none

def errorBody? : Json → Option ErrorBody :=
  struct? fun fields => do
    let code ← required "code" string? fields
    let message ← required "message" string? fields
    let retryable ← required "retryable" bool? fields
    return { code := ⟨code⟩, message, retryable }

def peerCheck? : Json → Option PeerCheck :=
  struct? fun fields => do
    let method ← required "method" string? fields
    let subject ← required "subject" string? fields
    return { method, subject }

def hello? (fields : List (String × Json)) : Option Hello := do
  let protoMajor ← required "proto_major" u16? fields
  let protoMinor ← required "proto_minor" u16? fields
  let clientVersion ← required "client_version" string? fields
  let nonce ← required "nonce" nonce? fields
  return { protoMajor, protoMinor, clientVersion, nonce }

def serverHello? (fields : List (String × Json)) : Option ServerHello := do
  let accepted ← required "accepted" bool? fields
  let protoMajor ← required "proto_major" u16? fields
  let protoMinor ← required "proto_minor" u16? fields
  let helperVersion ← required "helper_version" string? fields
  let nonce ← required "nonce" nonce? fields
  let peerCheck ← required "peer_check" peerCheck? fields
  let reject ← field "reject" (option? errorBody?) (some none) fields
  return { accepted, protoMajor, protoMinor, helperVersion, nonce, peerCheck,
           reject }

def request? (req : Serde Req) (fields : List (String × Json)) :
    Option (Request Req) := do
  let id ← required "id" u64? fields
  let cmd ← field "cmd" (req.deserialize .content) req.missing fields
  return { id, cmd }

/-- The variants of the untagged payload, in order. -/
def payload? (resp : Serde Resp) (fields : List (String × Json)) :
    Option (RespPayload Resp) :=
  ((field "ok" (resp.deserialize .content) resp.missing fields).map .ok).or
    ((required "err" errorBody? fields).map .err)

/-- The payload is made of the fields that `id` does not claim. -/
def response? (resp : Serde Resp) (fields : List (String × Json)) :
    Option (Response Resp) := do
  let id ← required "id" u64? fields
  let payload ← payload? resp (fields.filter fun entry => entry.1 ≠ "id")
  return { id, payload }

def frame? (req : Serde Req) (resp : Serde Resp) :
    Json → Option (Frame Req Resp) :=
  struct? fun fields => do
    let tag ← required "t" string? fields
    let rest := fields.filter fun entry => entry.1 ≠ "t"
    match tag with
    | "hello" => (hello? rest).map .hello
    | "server_hello" => (serverHello? rest).map .serverHello
    | "request" => (request? req rest).map .request
    | "response" => (response? resp rest).map .response
    | _ => none

end Content

/-- `to_vec` and `from_slice` for the frames of an app. -/
def Wire.serdeJson (text : JsonText) (req : Serde Req) (resp : Serde Resp) :
    SerdeJson Req Resp where
  toVec frame := .ok (text.write (Wire.frame req resp frame))
  fromSlice bytes :=
    match text.read bytes with
    | .error cause => .error cause
    | .ok value =>
        match Content.frame? req resp value with
        | none => .error "data did not match"
        | some frame => .ok frame

/-! ## What comes back -/

section

theorem natural?_natural {bound value : Nat} (hvalue : value < bound) :
    Content.natural? bound (Wire.natural value) = some value := by
  simp [Content.natural?, Wire.natural, hvalue]

@[simp] theorem u8?_natural (value : UInt8) :
    Content.u8? (Wire.natural value.toNat) = some value := by
  simp [Content.u8?, natural?_natural value.toNat_lt_size]

@[simp] theorem u16?_natural (value : UInt16) :
    Content.u16? (Wire.natural value.toNat) = some value := by
  simp [Content.u16?, natural?_natural value.toNat_lt_size]

@[simp] theorem u64?_natural (value : UInt64) :
    Content.u64? (Wire.natural value.toNat) = some value := by
  simp [Content.u64?, natural?_natural value.toNat_lt_size]

@[simp] theorem string?_string (value : String) :
    Content.string? (.string value) = some value := rfl

@[simp] theorem bool?_bool (value : Bool) :
    Content.bool? (.bool value) = some value := rfl

theorem mapM_u8?_natural (bytes : List UInt8) :
    (bytes.map fun byte => Wire.natural byte.toNat).mapM Content.u8? =
      some bytes := by
  induction bytes with
  | nil => rfl
  | cons byte rest ih => simp [ih]

@[simp] theorem nonce?_nonce (nonce : Nonce) :
    Content.nonce? (Wire.nonce nonce) = some nonce := by
  unfold Content.nonce? Wire.nonce
  simp only [mapM_u8?_natural, Option.bind_eq_bind, Option.bind_some]
  simp [Vector.toList]

@[simp] theorem errorBody?_errorBody (body : ErrorBody) :
    Content.errorBody? (Wire.errorBody body) = some body := by
  simp [Content.errorBody?, Wire.errorBody, Content.struct?,
    Content.required, Content.field]

@[simp] theorem peerCheck?_peerCheck (check : PeerCheck) :
    Content.peerCheck? (Wire.peerCheck check) = some check := by
  simp [Content.peerCheck?, Wire.peerCheck, Content.struct?,
    Content.required, Content.field]

theorem hello?_hello (hello : Hello) :
    Content.hello? (Wire.hello hello) = some hello := by
  simp [Content.hello?, Wire.hello, Content.required, Content.field]

@[simp] theorem option?_errorBody (body : ErrorBody) :
    Content.option? Content.errorBody? (Wire.errorBody body) =
      some (some body) := by
  change (Content.errorBody? (Wire.errorBody body)).map some = _
  simp

theorem serverHello?_serverHello (serverHello : ServerHello) :
    Content.serverHello? (Wire.serverHello serverHello) =
      some serverHello := by
  obtain ⟨accepted, protoMajor, protoMinor, version, nonce, check, reject⟩ :=
    serverHello
  cases reject with
  | none =>
      simp [Content.serverHello?, Wire.serverHello, Content.required,
        Content.field, Content.option?]
  | some body =>
      simp [Content.serverHello?, Wire.serverHello, Content.required,
        Content.field]

theorem request?_request (req : Serde Req) (request : Request Req) :
    Content.request? req (Wire.request req request) =
      (req.deserialize .content (req.serialize request.cmd)).map
        fun cmd => ⟨request.id, cmd⟩ := by
  simp [Content.request?, Wire.request, Content.required, Content.field,
    Option.map_eq_bind]

/-- An error is read as the reply a missing `ok` stands for, when there is
one. -/
theorem payload?_payload (resp : Serde Resp) (payload : RespPayload Resp) :
    Content.payload? resp (Wire.payload resp payload) =
      match payload with
      | .ok reply =>
          (resp.deserialize .content (resp.serialize reply)).map .ok
      | .err body => (resp.missing.map .ok).or (some (.err body)) := by
  cases payload with
  | ok reply =>
      simp [Content.payload?, Wire.payload, Content.required, Content.field]
  | err body =>
      simp [Content.payload?, Wire.payload, Content.required, Content.field]

theorem response?_response (resp : Serde Resp) (response : Response Resp) :
    Content.response? resp (Wire.response resp response) =
      (Content.payload? resp (Wire.payload resp response.payload)).map
        fun payload => ⟨response.id, payload⟩ := by
  obtain ⟨id, payload⟩ := response
  cases payload with
  | ok reply =>
      simp [Content.response?, Wire.response, Wire.payload, Content.required,
        Content.field, Option.map_eq_bind]
  | err body =>
      simp [Content.response?, Wire.response, Wire.payload, Content.required,
        Content.field, Option.map_eq_bind]

@[simp] theorem nestingFields_cons (name : String) (value : Json)
    (rest : List (String × Json)) :
    Json.nestingFields ((name, value) :: rest) =
      max value.nesting (Json.nestingFields rest) := rfl

theorem frame?_tagged (req : Serde Req) (resp : Serde Resp)
    {fields : List (String × Json)} (tag : String)
    (hfields : ∀ entry ∈ fields, entry.1 ≠ "t") :
    Content.frame? req resp (Wire.tagged tag fields) =
      match tag with
      | "hello" => (Content.hello? fields).map .hello
      | "server_hello" => (Content.serverHello? fields).map .serverHello
      | "request" => (Content.request? req fields).map .request
      | "response" => (Content.response? resp fields).map .response
      | _ => none := by
  have hnone : fields.filter (fun entry => entry.1 = "t") = [] := by
    simpa [List.filter_eq_nil_iff] using hfields
  have hrest : fields.filter (fun entry => entry.1 ≠ "t") = fields := by
    simpa [List.filter_eq_self] using hfields
  have htag : Content.required "t" Content.string?
      (("t", .string tag) :: fields) = some tag := by
    simp [Content.required, Content.field, hnone]
  simp only [Content.frame?, Wire.tagged, Content.struct?, htag,
    Option.bind_eq_bind, Option.bind_some]
  rw [List.filter_cons_of_neg (by simp), hrest]

theorem nestingItems_natural (bytes : List UInt8) :
    Json.nestingItems (bytes.map fun byte => Wire.natural byte.toNat) = 0 := by
  induction bytes with
  | nil => rfl
  | cons byte rest ih =>
      rw [List.map_cons, Json.nestingItems, ih]
      rfl

@[simp] theorem nesting_nonce (nonce : Nonce) :
    (Wire.nonce nonce).nesting = 1 := by
  rw [Wire.nonce, Json.nesting, nestingItems_natural]

theorem nesting_hello (req : Serde Req) (resp : Serde Resp) (hello : Hello) :
    (Wire.frame req resp (.hello hello)).nesting = 2 := by
  simp [Wire.frame, Wire.tagged, Wire.hello, Json.nesting,
    Json.nestingFields, Wire.natural]

theorem nesting_serverHello (req : Serde Req) (resp : Serde Resp)
    (serverHello : ServerHello) :
    (Wire.frame req resp (.serverHello serverHello)).nesting = 2 := by
  obtain ⟨accepted, protoMajor, protoMinor, version, nonce, check, reject⟩ :=
    serverHello
  cases reject <;>
    simp [Wire.frame, Wire.tagged, Wire.serverHello, Json.nesting,
      Json.nestingFields, Wire.natural, Wire.peerCheck, Wire.errorBody]

theorem nesting_request (req : Serde Req) (resp : Serde Resp)
    (request : Request Req) :
    (Wire.frame req resp (.request request)).nesting =
      1 + (req.serialize request.cmd).nesting := by
  simp [Wire.frame, Wire.tagged, Wire.request, Json.nesting,
    Json.nestingFields, Wire.natural]

theorem nesting_ok (req : Serde Req) (resp : Serde Resp) (id : UInt64)
    (reply : Resp) :
    (Wire.frame req resp (.response ⟨id, .ok reply⟩)).nesting =
      1 + (resp.serialize reply).nesting := by
  simp [Wire.frame, Wire.tagged, Wire.response, Wire.payload, Json.nesting,
    Json.nestingFields, Wire.natural]

theorem nesting_err (req : Serde Req) (resp : Serde Resp) (id : UInt64)
    (body : ErrorBody) :
    (Wire.frame req resp (.response ⟨id, .err body⟩)).nesting = 2 := by
  simp [Wire.frame, Wire.tagged, Wire.response, Wire.payload, Json.nesting,
    Json.nestingFields, Wire.natural, Wire.errorBody]

end

/-! ## Round trip -/

/-- `serde_json` reads back what it wrote of a value, within its limit. -/
def ReadsBack (text : JsonText) (value : Json) : Prop :=
  text.read (text.write value) =
    if value.nesting ≤ NESTING_LIMIT then .ok value
    else .error "recursion limit exceeded"

/-- The type round-trips on its own. -/
def Serde.RoundTrips (serde : Serde α) : Prop :=
  ∀ value, serde.deserialize .text (serde.serialize value) = some value ∧
    (serde.serialize value).nesting ≤ NESTING_LIMIT

/-- The value also comes back from buffered content, and leaves room for the
object of the frame around it. -/
def Serde.Nests (serde : Serde α) (value : α) : Prop :=
  serde.deserialize .content (serde.serialize value) = some value ∧
    (serde.serialize value).nesting < NESTING_LIMIT

/-- What a frame needs of the types it carries. -/
def Survives (req : Serde Req) (resp : Serde Resp) : Frame Req Resp → Prop
  | .hello _ => True
  | .serverHello _ => True
  | .request request => req.Nests request.cmd
  | .response ⟨_, .ok reply⟩ => resp.Nests reply
  | .response ⟨_, .err _⟩ => resp.missing = none

theorem frame?_hello (req : Serde Req) (resp : Serde Resp) (hello : Hello) :
    Content.frame? req resp (Wire.frame req resp (.hello hello)) =
      some (.hello hello) := by
  rw [Wire.frame, frame?_tagged req resp "hello" (by simp [Wire.hello])]
  simp [hello?_hello]

theorem frame?_serverHello (req : Serde Req) (resp : Serde Resp)
    (serverHello : ServerHello) :
    Content.frame? req resp (Wire.frame req resp (.serverHello serverHello)) =
      some (.serverHello serverHello) := by
  rw [Wire.frame,
    frame?_tagged req resp "server_hello" (by simp [Wire.serverHello])]
  simp [serverHello?_serverHello]

theorem frame?_request (req : Serde Req) (resp : Serde Resp)
    (request : Request Req) :
    Content.frame? req resp (Wire.frame req resp (.request request)) =
      (req.deserialize .content (req.serialize request.cmd)).map
        fun cmd => .request ⟨request.id, cmd⟩ := by
  rw [Wire.frame, frame?_tagged req resp "request" (by simp [Wire.request])]
  simp [request?_request, Function.comp_def]

theorem frame?_response (req : Serde Req) (resp : Serde Resp)
    (response : Response Resp) :
    Content.frame? req resp (Wire.frame req resp (.response response)) =
      (Content.payload? resp (Wire.payload resp response.payload)).map
        fun payload => .response ⟨response.id, payload⟩ := by
  have hfields : ∀ entry ∈ Wire.response resp response, entry.1 ≠ "t" := by
    obtain ⟨id, payload⟩ := response
    cases payload <;> simp [Wire.response, Wire.payload]
  rw [Wire.frame, frame?_tagged req resp "response" hfields]
  simp [response?_response, Function.comp_def]

theorem frame?_frame_iff_survives (req : Serde Req) (resp : Serde Resp)
    (frame : Frame Req Resp) :
    (Wire.frame req resp frame).nesting ≤ NESTING_LIMIT ∧
      Content.frame? req resp (Wire.frame req resp frame) = some frame ↔
      Survives req resp frame := by
  have hroom : ∀ depth : Nat, 1 + depth ≤ NESTING_LIMIT ↔
      depth < NESTING_LIMIT := by
    intro depth
    omega
  cases frame with
  | hello hello =>
      simp [nesting_hello, frame?_hello, Survives, NESTING_LIMIT]
  | serverHello serverHello =>
      simp [nesting_serverHello, frame?_serverHello, Survives, NESTING_LIMIT]
  | request request =>
      obtain ⟨id, cmd⟩ := request
      rw [nesting_request, hroom, frame?_request, and_comm]
      simp [Survives, Serde.Nests]
  | response response =>
      obtain ⟨id, payload⟩ := response
      cases payload with
      | ok reply =>
          rw [nesting_ok, hroom, frame?_response, and_comm]
          simp [Survives, Serde.Nests, payload?_payload]
      | err body =>
          rw [nesting_err, frame?_response]
          cases hmissing : resp.missing <;>
            simp [Survives, payload?_payload, hmissing, NESTING_LIMIT]

/-- A frame comes back from the wire as it was exactly when the types it
carries nest in it; an error does when the reply type makes nothing of a
missing `ok`. -/
theorem fromSlice_toVec_iff_survives (text : JsonText) (req : Serde Req)
    (resp : Serde Resp) (frame : Frame Req Resp)
    (hreads : ReadsBack text (Wire.frame req resp frame)) :
    ((Wire.serdeJson text req resp).toVec frame >>=
        (Wire.serdeJson text req resp).fromSlice) = .ok frame ↔
      Survives req resp frame := by
  rw [← frame?_frame_iff_survives]
  change (Wire.serdeJson text req resp).fromSlice
    (text.write (Wire.frame req resp frame)) = .ok frame ↔ _
  unfold ReadsBack at hreads
  by_cases hnesting : (Wire.frame req resp frame).nesting ≤ NESTING_LIMIT
  · rw [if_pos hnesting] at hreads
    simp only [Wire.serdeJson, hreads, hnesting, true_and]
    cases Content.frame? req resp (Wire.frame req resp frame) <;> simp
  · rw [if_neg hnesting] at hreads
    simp [Wire.serdeJson, hreads, hnesting]

/-! ## A reply that may be missing -/

namespace OptionalReply

def command : Serde Bool where
  serialize := .bool
  deserialize _ := Content.bool?
  missing := none

/-- `Option<bool>`. -/
def reply : Serde (Option Bool) where
  serialize
    | none => .null
    | some value => .bool value
  deserialize _ := Content.option? Content.bool?
  missing := some none

theorem command_roundTrips : command.RoundTrips := fun _ =>
  ⟨rfl, Nat.zero_le _⟩

theorem reply_roundTrips : reply.RoundTrips := by
  rintro (_ | _) <;> exact ⟨rfl, Nat.zero_le _⟩

def busy : Frame Bool (Option Bool) :=
  .response ⟨7, .err ⟨⟨"BUSY"⟩, "ocupado", true⟩⟩

def asking : Frame Bool (Option Bool) := .request ⟨7, true⟩

/-- One frame and its text. -/
def textOf (frame : Frame Bool (Option Bool)) (source : String) :
    JsonText where
  write _ := source.toUTF8.data.toList
  read bytes :=
    if bytes = source.toUTF8.data.toList then
      .ok (Wire.frame command reply frame)
    else .error "expected value"

def busyText : JsonText := textOf busy
  "\x7b\"t\":\"response\",\"id\":7,\"err\":\x7b\"code\":\"BUSY\",\"message\":\"ocupado\",\"retryable\":true\x7d\x7d"

def askingText : JsonText := textOf asking
  "\x7b\"t\":\"request\",\"id\":7,\"cmd\":true\x7d"

theorem readsBack_busy :
    ReadsBack busyText (Wire.frame command reply busy) := by
  simp [ReadsBack, busyText, textOf, busy, nesting_err, NESTING_LIMIT]

theorem readsBack_asking :
    ReadsBack askingText (Wire.frame command reply asking) := by
  simp [ReadsBack, askingText, textOf, asking, nesting_request, command,
    NESTING_LIMIT, Json.nesting]

end OptionalReply

theorem fromSlice_toVec_iff_survives_asking :
    ((Wire.serdeJson OptionalReply.askingText OptionalReply.command
          OptionalReply.reply).toVec OptionalReply.asking >>=
        (Wire.serdeJson OptionalReply.askingText OptionalReply.command
          OptionalReply.reply).fromSlice) = .ok OptionalReply.asking ↔
      Survives OptionalReply.command OptionalReply.reply
        OptionalReply.asking :=
  fromSlice_toVec_iff_survives OptionalReply.askingText
    OptionalReply.command OptionalReply.reply OptionalReply.asking
    OptionalReply.readsBack_asking

/-- `Err` with code `BUSY` is read as `Ok(None)`. -/
theorem busy_is_read_as_ok :
    ¬ ∀ (text : JsonText) (req : Serde Bool) (resp : Serde (Option Bool))
        (frame : Frame Bool (Option Bool)),
      req.RoundTrips → resp.RoundTrips →
      ReadsBack text (Wire.frame req resp frame) →
        ((Wire.serdeJson text req resp).toVec frame >>=
          (Wire.serdeJson text req resp).fromSlice) = .ok frame := by
  intro hall
  have hbusy := hall OptionalReply.busyText OptionalReply.command
    OptionalReply.reply OptionalReply.busy OptionalReply.command_roundTrips
    OptionalReply.reply_roundTrips OptionalReply.readsBack_busy
  have hcontent : Content.frame? OptionalReply.command OptionalReply.reply
      (Wire.frame OptionalReply.command OptionalReply.reply
        OptionalReply.busy) = some (.response ⟨7, .ok none⟩) := by
    rw [OptionalReply.busy, frame?_response]
    rfl
  have hread : (Wire.serdeJson OptionalReply.busyText OptionalReply.command
      OptionalReply.reply).fromSlice
        (OptionalReply.busyText.write (Wire.frame OptionalReply.command
          OptionalReply.reply OptionalReply.busy)) =
      .ok (.response ⟨7, .ok none⟩) := by
    simp [Wire.serdeJson, OptionalReply.busyText, OptionalReply.textOf,
      hcontent]
  have hsame := hread.symm.trans hbusy
  simp [OptionalReply.busy] at hsame

end Dovetail.PrivilegedChannel
