import Mathlib.Logic.Function.Basic
import Punchgate.Types
import Punchgate.Library.Framing
import Punchgate.Library.Text

/-!
# Messages on a tunnel stream

A client asks for a service, the server answers whether it has it. Requests and responses are
JSON texts in frames: the writer accepts what fits into the length, the reader what is not larger
than its limit. Parsing JSON is a parameter.
-/

namespace Punchgate

section Definitions

/-- `TunnelRequest`. -/
structure TunnelRequest where
  /-- The service to reach. -/
  serviceName : ServiceName
  deriving DecidableEq

/-- `TunnelResponse`. -/
structure TunnelResponse where
  /-- Whether the server has the service. -/
  accepted : Bool
  /-- Why it refuses. -/
  reason : Option String
  deriving DecidableEq

/-- The bytes of a text. -/
def utf8 (text : String) : List UInt8 := text.toUTF8.data.toList

/-- A hexadecimal digit, in lower case. -/
def hexDigit (digit : UInt8) : UInt8 := if digit < 10 then 0x30 + digit else 0x57 + digit

/-- One byte of a JSON string: quotes, backslashes and control characters are escaped. -/
def escapeByte (byte : UInt8) : List UInt8 :=
  if byte = 0x22 then [0x5c, 0x22]
  else if byte = 0x5c then [0x5c, 0x5c]
  else if byte = 0x08 then [0x5c, 0x62]
  else if byte = 0x09 then [0x5c, 0x74]
  else if byte = 0x0a then [0x5c, 0x6e]
  else if byte = 0x0c then [0x5c, 0x66]
  else if byte = 0x0d then [0x5c, 0x72]
  else if byte < 0x20 then [0x5c, 0x75, 0x30, 0x30, hexDigit (byte / 16), hexDigit (byte % 16)]
  else [byte]

/-- The content of a JSON string. -/
def escape (text : String) : List UInt8 := (utf8 text).flatMap escapeByte

/-- A JSON string. -/
def jsonString (text : String) : List UInt8 := 0x22 :: (escape text ++ [0x22])

/-- `serde::Serialize`, as `serde_json::to_vec` uses it. -/
class Serialize (T : Type) where
  /-- `serde_json::to_vec`. -/
  toVec : T → List UInt8

instance : Serialize TunnelRequest where
  toVec msg := utf8 "\x7b\"service_name\":" ++ jsonString msg.serviceName.name ++ utf8 "\x7d"

instance : Serialize TunnelResponse where
  toVec msg :=
    utf8 "\x7b\"accepted\":" ++ utf8 (if msg.accepted then "true" else "false") ++
      (match msg.reason with
        | none => []
        | some reason => utf8 ",\"reason\":" ++ jsonString reason) ++ utf8 "\x7d"

/-- Why a message is not written or read. -/
inductive WireError
  /-- message too large for u32 length prefix -/
  | tooLargeForLength
  /-- message too large -/
  | tooLarge (len : ℕ)
  /-- unexpected end of file -/
  | unexpectedEof
  /-- An error of `serde_json::from_slice`. -/
  | json (text : String)
  deriving DecidableEq

/-- `write_message`: the bytes that are written. -/
def writeMessage {T : Type} [Serialize T] (msg : T) : Except WireError (List UInt8) :=
  let data := Serialize.toVec msg
  if data.length < 2 ^ 32 then .ok (Framing.toBeBytes 4 data.length ++ data)
  else .error .tooLargeForLength

/-- `MAX_MESSAGE_SIZE`. -/
def maxMessageSize : ℕ := 65536

/-- `read_message`: the message and what is left on the stream. -/
def readMessage {T : Type} (fromSlice : List UInt8 → Except String T) (stream : List UInt8) :
    Except WireError (T × List UInt8) :=
  match Framing.readExact 4 stream with
  | none => .error .unexpectedEof
  | some (lenBuf, stream) =>
    let len := Framing.fromBeBytes lenBuf
    if len ≤ maxMessageSize then
      match Framing.readExact len stream with
      | none => .error .unexpectedEof
      | some (buf, stream) => do
        let msg ← (fromSlice buf).mapError .json
        .ok (msg, stream)
    else .error (.tooLarge len)

/-- Why a tunnel fails before any of its data is copied. -/
inductive TunnelError
  /-- A message is not written or read. -/
  | wire (e : WireError)
  /-- connecting to local service -/
  | connect (localAddr : ServiceAddr)
  /-- tunnel rejected -/
  | rejected (reason : String)
  deriving DecidableEq

/-- `handle_tunnel` up to the copying: the response it writes for a request on the stream, and the
bytes. -/
def handleTunnel (fromSlice : List UInt8 → Except String TunnelRequest)
    (connects : ServiceAddr → Bool) (services : FiniteMap ServiceName ServiceAddr)
    (stream : List UInt8) : Except TunnelError (TunnelResponse × List UInt8) := do
  let (request, _) ← (readMessage fromSlice stream).mapError .wire
  match services.get? request.serviceName with
  | none =>
    let response := ⟨false, some ("unknown service: " ++ request.serviceName.name)⟩
    let bytes ← (writeMessage response).mapError .wire
    .ok (response, bytes)
  | some localAddr =>
    if connects localAddr then do
      let response := ⟨true, none⟩
      let bytes ← (writeMessage response).mapError .wire
      .ok (response, bytes)
    else .error (.connect localAddr)

/-- `client_tunnel_session` up to the copying: the bytes it writes, and what is left of the
server's bytes after the response. -/
def clientTunnelSession (fromSlice : List UInt8 → Except String TunnelResponse)
    (serviceName : ServiceName) (stream : List UInt8) :
    Except TunnelError (List UInt8 × List UInt8) := do
  let bytes ← (writeMessage (⟨serviceName⟩ : TunnelRequest)).mapError .wire
  let (response, stream) ← (readMessage fromSlice stream).mapError .wire
  if response.accepted then .ok (bytes, stream)
  else .error (.rejected (response.reason.getD "unknown"))

end Definitions

section Messages

variable {T : Type} [Serialize T]

/-- `from_slice` undoes `to_vec`. -/
def Undoes (fromSlice : List UInt8 → Except String T) : Prop :=
  ∀ msg, fromSlice (Serialize.toVec msg) = .ok msg

variable {fromSlice : List UInt8 → Except String T}

/-- What is written is the text of the message after its length. -/
theorem writeMessage_eq_ok_iff {msg : T} {bytes : List UInt8} :
    writeMessage msg = .ok bytes ↔ (Serialize.toVec msg).length < 2 ^ 32 ∧
      bytes = Framing.toBeBytes 4 (Serialize.toVec msg).length ++ Serialize.toVec msg := by
  unfold writeMessage
  dsimp only
  constructor
  · intro h
    split at h
    · rename_i hlt
      cases h
      exact ⟨hlt, rfl⟩
    · cases h
  · rintro ⟨hlt, rfl⟩
    rw [if_pos hlt]

/-- A written message is read up to the limit of the reader. What follows it stays on the
stream. -/
theorem readMessage_append (hundoes : Undoes fromSlice) {msg : T} {bytes : List UInt8}
    (hwrite : writeMessage msg = .ok bytes) (rest : List UInt8) :
    readMessage fromSlice (bytes ++ rest) =
      if (Serialize.toVec msg).length ≤ maxMessageSize then .ok (msg, rest)
      else .error (.tooLarge (Serialize.toVec msg).length) := by
  obtain ⟨hlt, rfl⟩ := writeMessage_eq_ok_iff.mp hwrite
  have hlen : Framing.fromBeBytes (Framing.toBeBytes 4 (Serialize.toVec msg).length) =
      (Serialize.toVec msg).length := Framing.fromBeBytes_toBeBytes hlt
  unfold readMessage
  rw [List.append_assoc, Framing.readExact_append _ (Framing.length_toBeBytes _ _)]
  dsimp only
  rw [hlen]
  split
  · rw [Framing.readExact_append _ rfl]
    dsimp only
    rw [hundoes msg]
    rfl
  · rfl

/-- A written message is read, and what follows it is left, exactly if the message is not larger
than the limit of the reader. -/
theorem readMessage_append_eq_ok_iff (hundoes : Undoes fromSlice) {msg : T} {bytes : List UInt8}
    (hwrite : writeMessage msg = .ok bytes) (rest : List UInt8) :
    readMessage fromSlice (bytes ++ rest) = .ok (msg, rest) ↔
      (Serialize.toVec msg).length ≤ maxMessageSize := by
  rw [readMessage_append hundoes hwrite]
  split
  · rename_i hle
    exact iff_of_true rfl hle
  · rename_i hlt
    exact iff_of_false (fun h => by cases h) hlt

/-- A message that is not larger than the limit of the reader is written. -/
theorem exists_writeMessage {msg : T} (h : (Serialize.toVec msg).length ≤ maxMessageSize) :
    ∃ bytes, writeMessage msg = .ok bytes := by
  have hlt : (Serialize.toVec msg).length < 2 ^ 32 := lt_of_le_of_lt h (by decide)
  exact ⟨_, writeMessage_eq_ok_iff.mpr ⟨hlt, rfl⟩⟩

end Messages

section Lengths

/-- The bytes of texts follow each other as the texts do. -/
theorem utf8_append (s t : String) : utf8 (s ++ t) = utf8 s ++ utf8 t := by
  simp [utf8, String.toByteArray_append, ByteArray.data_append]

/-- Escaping goes byte by byte. -/
theorem escape_append (s t : String) : escape (s ++ t) = escape s ++ escape t := by
  rw [escape, utf8_append, List.flatMap_append]
  rfl

/-- A JSON string has its quotes besides its content. -/
theorem length_jsonString (text : String) :
    (jsonString text).length = (escape text).length + 2 := by
  simp [jsonString]

/-- A request has 19 bytes besides the name. -/
theorem length_toVec_request (name : ServiceName) :
    (Serialize.toVec (⟨name⟩ : TunnelRequest)).length = (escape name.name).length + 19 := by
  have hhead : (utf8 "\x7b\"service_name\":").length = 16 := by decide
  have htail : (utf8 "\x7d").length = 1 := by decide
  simp only [Serialize.toVec, List.length_append, length_jsonString, hhead, htail]
  omega

/-- An acceptance has 17 bytes. -/
theorem length_toVec_acceptance :
    (Serialize.toVec (⟨true, none⟩ : TunnelResponse)).length = 17 := by
  decide

/-- A rejection has 47 bytes besides the name. -/
theorem length_toVec_rejection (name : String) :
    (Serialize.toVec (⟨false, some ("unknown service: " ++ name)⟩ : TunnelResponse)).length =
      (escape name).length + 47 := by
  have hhead : (utf8 "\x7b\"accepted\":").length = 12 := by decide
  have hfalse : (utf8 "false").length = 5 := by decide
  have hreason : (utf8 ",\"reason\":").length = 10 := by decide
  have hunknown : (escape "unknown service: ").length = 17 := by decide
  have htail : (utf8 "\x7d").length = 1 := by decide
  simp only [Serialize.toVec, List.length_append, length_jsonString, escape_append, hhead, htail,
    hreason, hunknown, Bool.false_eq_true, if_false, hfalse]
  omega

end Lengths

section Exchange

variable {requestFromSlice : List UInt8 → Except String TunnelRequest}
  {responseFromSlice : List UInt8 → Except String TunnelResponse} {connects : ServiceAddr → Bool}
  {services : FiniteMap ServiceName ServiceAddr} {stream rest bytes : List UInt8}
  {request : TunnelRequest} {response : TunnelResponse}

/-- The server answers a request with an acceptance if it has the service, and otherwise with a
rejection that names it. -/
theorem handleTunnel_cases (hread : readMessage requestFromSlice stream = .ok (request, rest))
    (h : handleTunnel requestFromSlice connects services stream = .ok (response, bytes)) :
    writeMessage response = .ok bytes ∧
      ((services.contains request.serviceName = true ∧ response = ⟨true, none⟩) ∨
        (services.contains request.serviceName = false ∧
          response = ⟨false, some ("unknown service: " ++ request.serviceName.name)⟩)) := by
  obtain ⟨parts, hparts, h⟩ := Text.bind_eq_ok_iff.mp h
  rw [Text.mapError_eq_ok_iff, hread] at hparts
  cases hparts
  dsimp only at h
  cases hget : services.get? request.serviceName with
  | none =>
    rw [hget] at h
    obtain ⟨written, hwrite, h⟩ := Text.bind_eq_ok_iff.mp h
    cases h
    exact ⟨Text.mapError_eq_ok_iff.mp hwrite, .inr ⟨by simpa using hget, rfl⟩⟩
  | some localAddr =>
    rw [hget] at h
    dsimp only at h
    split at h
    · obtain ⟨written, hwrite, h⟩ := Text.bind_eq_ok_iff.mp h
      cases h
      exact ⟨Text.mapError_eq_ok_iff.mp hwrite, .inl ⟨FiniteMap.contains_of_get? hget, rfl⟩⟩
    · cases h

/-- The server rejects a request that it has read, if it does not have the service. -/
theorem handleTunnel_of_unknown (hread : readMessage requestFromSlice stream = .ok (request, rest))
    (hunknown : services.get? request.serviceName = none)
    (hwrite : writeMessage
      (⟨false, some ("unknown service: " ++ request.serviceName.name)⟩ : TunnelResponse) =
        .ok bytes) :
    handleTunnel requestFromSlice connects services stream =
      .ok (⟨false, some ("unknown service: " ++ request.serviceName.name)⟩, bytes) := by
  refine Text.bind_eq_ok_iff.mpr ⟨(request, rest), Text.mapError_eq_ok_iff.mpr hread, ?_⟩
  dsimp only
  rw [hunknown]
  exact Text.bind_eq_ok_iff.mpr ⟨bytes, Text.mapError_eq_ok_iff.mpr hwrite, rfl⟩

/-- The client reads the response of the server exactly if the service is known or its name is
short enough for the rejection. -/
theorem readMessage_response_iff (hundoes : Undoes responseFromSlice)
    (hread : readMessage requestFromSlice stream = .ok (request, rest))
    (h : handleTunnel requestFromSlice connects services stream = .ok (response, bytes))
    (after : List UInt8) :
    readMessage responseFromSlice (bytes ++ after) = .ok (response, after) ↔
      services.contains request.serviceName = true ∨
        (escape request.serviceName.name).length + 47 ≤ maxMessageSize := by
  obtain ⟨hwrite, ⟨hknown, rfl⟩ | ⟨hunknown, rfl⟩⟩ := handleTunnel_cases hread h
  · rw [readMessage_append_eq_ok_iff hundoes hwrite, length_toVec_acceptance]
    exact iff_of_true (by decide) (.inl hknown)
  · rw [readMessage_append_eq_ok_iff hundoes hwrite, length_toVec_rejection]
    simp [hunknown]

end Exchange

section Codes

/-- The value of a hexadecimal digit in lower case. -/
def hexValue (digit : UInt8) : UInt8 := if digit < 0x3a then digit - 0x30 else digit - 0x57

/-- One byte of the content of a JSON string, which ends at a quote. -/
def unescapeByte : List UInt8 → Option (UInt8 × List UInt8)
  | [] => none
  | byte :: rest =>
    if byte = 0x22 then none
    else if byte = 0x5c then
      match rest with
      | [] => none
      | kind :: rest =>
        if kind = 0x75 then
          match rest with
          | _ :: _ :: high :: low :: rest => some (16 * hexValue high + hexValue low, rest)
          | _ => none
        else if kind = 0x62 then some (0x08, rest)
        else if kind = 0x74 then some (0x09, rest)
        else if kind = 0x6e then some (0x0a, rest)
        else if kind = 0x66 then some (0x0c, rest)
        else if kind = 0x72 then some (0x0d, rest)
        else some (kind, rest)
    else some (byte, rest)

/-- A control character is the number of its two digits. -/
theorem hexValue_hexDigit {byte : UInt8} (h : byte < 0x20) :
    16 * hexValue (hexDigit (byte / 16)) + hexValue (hexDigit (byte % 16)) = byte := by
  have hall : ∀ n < 32, 16 * hexValue (hexDigit (UInt8.ofNat n / 16)) +
      hexValue (hexDigit (UInt8.ofNat n % 16)) = UInt8.ofNat n := by decide
  have hbyte := hall byte.toNat (UInt8.lt_iff_toNat_lt.mp h)
  rwa [UInt8.ofNat_toNat] at hbyte

/-- An escaped byte is read back. -/
theorem unescapeByte_escapeByte (byte : UInt8) (rest : List UInt8) :
    unescapeByte (escapeByte byte ++ rest) = some (byte, rest) := by
  unfold escapeByte
  split_ifs with hquote hbackslash hb ht hn hf hr hcontrol
  · rw [hquote]; rfl
  · rw [hbackslash]; rfl
  · rw [hb]; rfl
  · rw [ht]; rfl
  · rw [hn]; rfl
  · rw [hf]; rfl
  · rw [hr]; rfl
  · change some (_, rest) = _
    rw [hexValue_hexDigit hcontrol]
  · simp [unescapeByte, hquote, hbackslash]

/-- Texts are determined by their bytes. -/
theorem utf8_injective : Function.Injective utf8 := by
  intro s t h
  have hdata : s.toByteArray.data = t.toByteArray.data := Array.toList_inj.mp h
  exact String.toByteArray_inj.mp (ByteArray.ext hdata)

/-- Texts are determined by their JSON strings, and so is what follows. -/
theorem jsonString_append_inj {s t : String} {xs ys : List UInt8}
    (h : jsonString s ++ xs = jsonString t ++ ys) : s = t ∧ xs = ys := by
  have hcontent : (utf8 s).flatMap escapeByte ++ 0x22 :: xs =
      (utf8 t).flatMap escapeByte ++ 0x22 :: ys := by
    simpa [jsonString, escape] using h
  have hstop : ∀ rest, unescapeByte (0x22 :: rest) = none := fun rest => rfl
  obtain ⟨htext, hrest⟩ := Text.flatMap_append_inj unescapeByte_escapeByte hstop hcontent
  exact ⟨utf8_injective htext, hrest⟩

/-- Requests are determined by their texts. -/
theorem toVec_request_injective :
    Function.Injective (Serialize.toVec : TunnelRequest → List UInt8) := by
  rintro ⟨⟨s⟩⟩ ⟨⟨t⟩⟩ h
  simp only [Serialize.toVec, List.append_assoc, List.append_cancel_left_eq] at h
  rw [(jsonString_append_inj h).1]

/-- Responses are determined by their texts. -/
theorem toVec_response_injective :
    Function.Injective (Serialize.toVec : TunnelResponse → List UInt8) := by
  rintro ⟨accepted, reason⟩ ⟨accepted', reason'⟩ h
  have htrue : utf8 "true" = [0x74, 0x72, 0x75, 0x65] := by decide
  have hfalse : utf8 "false" = [0x66, 0x61, 0x6c, 0x73, 0x65] := by decide
  have hreason : utf8 ",\"reason\":" = 0x2c :: utf8 "\"reason\":" := by decide
  have htail : utf8 "\x7d" = [0x7d] := by decide
  simp only [Serialize.toVec, List.append_assoc, List.append_cancel_left_eq] at h
  have haccepted : accepted = accepted' := by
    cases accepted <;> cases accepted' <;> simp [htrue, hfalse] at h ⊢
  subst haccepted
  rw [List.append_cancel_left_eq] at h
  cases reason with
  | none =>
    cases reason' with
    | none => rfl
    | some t => simp [hreason, htail] at h
  | some s =>
    cases reason' with
    | none => simp [hreason, htail] at h
    | some t =>
      simp only [List.append_assoc, List.append_cancel_left_eq] at h
      rw [(jsonString_append_inj h).1]

/-- Parsing that accepts nothing but the texts that are written. -/
noncomputable def compactFromSlice {T : Type} [Serialize T] (bytes : List UInt8) :
    Except String T :=
  match Function.partialInv Serialize.toVec bytes with
  | some msg => .ok msg
  | none => .error "expected value"

/-- It undoes writing, if messages are determined by their texts. -/
theorem compactFromSlice_undoes {T : Type} [Serialize T]
    (h : Function.Injective (Serialize.toVec : T → List UInt8)) :
    Undoes (compactFromSlice : List UInt8 → Except String T) := by
  intro msg
  rw [compactFromSlice, Function.partialInv_left h]

end Codes

section Limits

/-- What is written on a tunnel stream is read, and what follows it is left, exactly if it is not
larger than the limit of the reader: for every request, for every response, and for the response of
the server to a request that it has read, which is larger than the request when it names an unknown
service. -/
theorem wire_framing_iff {requestFromSlice : List UInt8 → Except String TunnelRequest}
    {responseFromSlice : List UInt8 → Except String TunnelResponse}
    (hrequest : Undoes requestFromSlice) (hresponse : Undoes responseFromSlice) :
    (∀ (msg : TunnelRequest) (bytes rest : List UInt8), writeMessage msg = .ok bytes →
      (readMessage requestFromSlice (bytes ++ rest) = .ok (msg, rest) ↔
        (Serialize.toVec msg).length ≤ maxMessageSize)) ∧
    (∀ (msg : TunnelResponse) (bytes rest : List UInt8), writeMessage msg = .ok bytes →
      (readMessage responseFromSlice (bytes ++ rest) = .ok (msg, rest) ↔
        (Serialize.toVec msg).length ≤ maxMessageSize)) ∧
    (∀ (connects : ServiceAddr → Bool) (services : FiniteMap ServiceName ServiceAddr)
      (stream before : List UInt8) (request : TunnelRequest) (response : TunnelResponse)
      (bytes rest : List UInt8),
      readMessage requestFromSlice stream = .ok (request, before) →
      handleTunnel requestFromSlice connects services stream = .ok (response, bytes) →
      (readMessage responseFromSlice (bytes ++ rest) = .ok (response, rest) ↔
        services.contains request.serviceName = true ∨
          (escape request.serviceName.name).length + 47 ≤ maxMessageSize)) :=
  ⟨fun _ _ rest hwrite => readMessage_append_eq_ok_iff hrequest hwrite rest,
    fun _ _ rest hwrite => readMessage_append_eq_ok_iff hresponse hwrite rest,
    fun _ _ _ _ _ _ _ rest hread h => readMessage_response_iff hresponse hread h rest⟩

/-- A request for `web` is read, with what follows it left, and so is the rejection of the server
that exposes nothing. -/
theorem wire_framing_iff_web :
    readMessage compactFromSlice
        (Framing.toBeBytes 4 22 ++ utf8 "\x7b\"service_name\":\"web\"\x7d" ++ [1, 2]) =
      .ok ((⟨⟨"web"⟩⟩ : TunnelRequest), [1, 2]) ∧
    readMessage compactFromSlice
        (Framing.toBeBytes 4 50 ++
          utf8 "\x7b\"accepted\":false,\"reason\":\"unknown service: web\"\x7d" ++ [1, 2]) =
      .ok ((⟨false, some "unknown service: web"⟩ : TunnelResponse), [1, 2]) := by
  have h := wire_framing_iff (compactFromSlice_undoes toVec_request_injective)
    (compactFromSlice_undoes toVec_response_injective)
  constructor
  · exact (h.1 ⟨⟨"web"⟩⟩ _ [1, 2] (by decide)).mpr (by decide)
  · have hread := (h.1 ⟨⟨"web"⟩⟩ (Framing.toBeBytes 4 22 ++
      utf8 "\x7b\"service_name\":\"web\"\x7d") [] (by decide)).mpr (by decide)
    exact (h.2.2 (fun _ => true) ∅ _ [] ⟨⟨"web"⟩⟩ _ _ [1, 2] hread
      (handleTunnel_of_unknown hread rfl (by decide))).mpr (by decide)

/-- Letters are not escaped. -/
theorem length_escape_letters (n : ℕ) :
    (escape (String.ofList (List.replicate n 'a'))).length = n := by
  induction n with
  | zero => rfl
  | succ n ih =>
    have hcons : String.ofList (List.replicate (n + 1) 'a') =
        "a" ++ String.ofList (List.replicate n 'a') := by
      rw [List.replicate_succ, ← List.singleton_append, String.ofList_append]
    have ha : (escape "a").length = 1 := by decide
    rw [hcons, escape_append, List.length_append, ha, ih, Nat.add_comm]

/-- A name that fits into a request but not into the rejection. -/
theorem exists_rejection_not_read {n : ℕ} (hn : n + 19 ≤ maxMessageSize)
    (hn' : maxMessageSize < n + 47) :
    let name : ServiceName := ⟨String.ofList (List.replicate n 'a')⟩
    let rejection : TunnelResponse := ⟨false, some ("unknown service: " ++ name.name)⟩
    ∃ sent answer : List UInt8,
      writeMessage (⟨name⟩ : TunnelRequest) = .ok sent ∧
      readMessage compactFromSlice sent = .ok ((⟨name⟩ : TunnelRequest), []) ∧
      handleTunnel compactFromSlice (fun _ => true) ∅ sent = .ok (rejection, answer) ∧
      writeMessage rejection = .ok answer ∧
      (readMessage compactFromSlice answer : Except WireError (TunnelResponse × List UInt8)) =
        .error (.tooLarge (n + 47)) := by
  intro name rejection
  have hlen : (Serialize.toVec (⟨name⟩ : TunnelRequest)).length = n + 19 := by
    rw [length_toVec_request, length_escape_letters]
  have hlen' : (Serialize.toVec rejection).length = n + 47 := by
    rw [length_toVec_rejection, length_escape_letters]
  obtain ⟨sent, hsent⟩ := exists_writeMessage (hlen.trans_le hn)
  have hlt : (Serialize.toVec rejection).length < 2 ^ 32 := by
    rw [hlen']
    unfold maxMessageSize at hn
    omega
  obtain ⟨answer, hanswer⟩ : ∃ answer, writeMessage rejection = .ok answer :=
    ⟨_, writeMessage_eq_ok_iff.mpr ⟨hlt, rfl⟩⟩
  have hread := readMessage_append (compactFromSlice_undoes toVec_request_injective) hsent []
  rw [List.append_nil, if_pos (hlen.trans_le hn)] at hread
  have hunread := readMessage_append (compactFromSlice_undoes toVec_response_injective) hanswer []
  rw [List.append_nil, if_neg (by omega), hlen'] at hunread
  exact ⟨sent, answer, hsent, hread, handleTunnel_of_unknown hread rfl hanswer, hanswer, hunread⟩

/-- A name of 65490 letters: the server reads the request, and the client does not read that the
server has no such service. -/
theorem long_rejection_not_read :
    let name : ServiceName := ⟨String.ofList (List.replicate 65490 'a')⟩
    let rejection : TunnelResponse := ⟨false, some ("unknown service: " ++ name.name)⟩
    ∃ sent answer : List UInt8,
      writeMessage (⟨name⟩ : TunnelRequest) = .ok sent ∧
      readMessage compactFromSlice sent = .ok ((⟨name⟩ : TunnelRequest), []) ∧
      handleTunnel compactFromSlice (fun _ => true) ∅ sent = .ok (rejection, answer) ∧
      writeMessage rejection = .ok answer ∧
      (readMessage compactFromSlice answer : Except WireError (TunnelResponse × List UInt8)) =
        .error (.tooLarge 65537) :=
  exists_rejection_not_read (by decide) (by decide)

end Limits

end Punchgate
