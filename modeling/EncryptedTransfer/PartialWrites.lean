import EncryptedTransfer.ClientMessages
import EncryptedTransfer.PartialTransfers

/-!
# What is reported as sent

`SocketHandler::send` makes one call of `write_some` and reports whether it threw. Neither
`sendRequestToServer` looks at that, so both report success whatever was written.
-/
namespace EncryptedTransfer.PartialWrites
open ServerHandlers hiding Request
open ByteFormats ServerCalls ClientProcess ClientMessages PartialTransfers

/-- What the calls of `write_some` to come do, and the bytes written so far. -/
structure Socket where
  outcomes : ℕ → Option ℕ
  written : Bytes

def Socket.send (buffer : Bytes) (sock : Socket) : Bool × Socket :=
  ((sock.outcomes 0).isSome,
    ⟨fun k => sock.outcomes (k + 1), sock.written ++ moved (sock.outcomes 0) buffer⟩)

/-- The fields of `Request`. -/
structure Request where
  clientId : Bytes
  version : ℕ
  code : ℕ
  filename : Bytes
  payload : Bytes
  payloadSize : ℕ

def Request.header (request : Request) : Bytes :=
  request.clientId ++ (leBytes 1 request.version ++ (leBytes 2 request.code ++
    leBytes 4 request.payloadSize))

def fileHeader (item : FileItem) : Bytes := item.clientId ++ leBytes 4 item.contentSize

def sendRequestToServer (request : Request) (sock : Socket) : Bool × Socket :=
  let (_, sock) := sock.send request.header
  let (_, sock) :=
    if 0 < request.payloadSize then sock.send (request.payload.take request.payloadSize)
    else (true, sock)
  let (_, sock) :=
    if request.code = clientCodeCksumOk ∨ request.code = clientCodeCksumErr ∨
        request.code = clientCodeCksumErrFinal then
      sock.send (request.filename.take 255)
    else (true, sock)
  (true, sock)

/-- `sendRequestToServer(request, fileItem)`. The name is read from its first byte on; `memory`
is what follows it there. -/
def sendFileItem (memory : Bytes) (request : Request) (item : FileItem) (sock : Socket) :
    Bool × Socket :=
  let (_, sock) := sock.send request.header
  let (_, sock) := sock.send (fileHeader item)
  let (_, sock) := sock.send (resize 255 (item.filename ++ memory))
  let (_, sock) := sock.send (item.messageContent.take item.contentSize)
  (true, sock)

namespace Request

/-- The payload with the size the header announces. -/
def payloadField (request : Request) : Bytes := resize request.payloadSize request.payload

/-- The complete encoding of a request: its code decides whether it names a file. -/
def encode (request : Request) : Bytes :=
  request.header ++ (request.payloadField ++
    if NamesFile request.code then resize 255 request.filename else [])

def encodeWith (request : Request) (item : FileItem) : Bytes :=
  request.header ++ (request.payloadField ++ (fileHeader item ++ (resize 255 item.filename ++
    resize item.contentSize item.messageContent)))

end Request

/-- True is returned if all of the encoding was written, and false otherwise. -/
def Reported (encoding : Bytes) (result : Bool × Socket) : Prop :=
  result.1 = true ↔ result.2.written = encoding

namespace Request

def buffers (request : Request) : List Bytes :=
  request.header ::
    ((if 0 < request.payloadSize then [request.payload.take request.payloadSize] else []) ++
      if NamesFile request.code then [request.filename.take 255] else [])

def buffersWith (memory : Bytes) (request : Request) (item : FileItem) : List Bytes :=
  [request.header, fileHeader item, resize 255 (item.filename ++ memory),
    item.messageContent.take item.contentSize]

end Request

/-- Every call of `write_some` writes the whole buffer. -/
def AllWhole (outcomes : ℕ → Option ℕ) (buffers : List Bytes) : Prop :=
  ∀ k buffer, buffers[k]? = some buffer → Whole (outcomes k) buffer

/-- The payload and the name are as long as their fields. -/
def Filled (request : Request) : Prop :=
  request.payloadSize ≤ request.payload.length ∧
    (NamesFile request.code → 255 ≤ request.filename.length)

/-- No payload is announced, the content is as long as its field, and what is read after a
shorter name is zeros. -/
def FilledWith (memory : Bytes) (request : Request) (item : FileItem) : Prop :=
  request.payloadSize = 0 ∧ resize 255 (item.filename ++ memory) = resize 255 item.filename ∧
    item.contentSize ≤ item.messageContent.length

section Written

variable {request : Request} {item : FileItem} {memory : Bytes} {outcomes : ℕ → Option ℕ}

theorem length_take_le_resize (n : ℕ) (s : Bytes) : (s.take n).length ≤ (resize n s).length := by
  rw [length_resize]
  exact List.length_take_le _ _

theorem take_eq_resize_iff {n : ℕ} {s : Bytes} : s.take n = resize n s ↔ n ≤ s.length := by
  constructor
  · intro h
    have hlen := congrArg List.length h
    rw [length_resize, List.length_take] at hlen
    omega
  · intro h
    rw [resize, Nat.sub_eq_zero_of_le h, List.replicate_zero, List.append_nil]

theorem sendRequestToServer_written (request : Request) (outcomes : ℕ → Option ℕ) :
    (sendRequestToServer request ⟨outcomes, []⟩).2.written =
      (movedOf outcomes request.buffers).flatten := by
  rw [sendRequestToServer, Request.buffers]
  by_cases hpayload : 0 < request.payloadSize <;> by_cases hname : NamesFile request.code
  all_goals
    have hname' := hname
    rw [NamesFile] at hname'
    simp [hpayload, hname, hname', Socket.send, movedOf]

theorem sendFileItem_written (memory : Bytes) (request : Request) (item : FileItem)
    (outcomes : ℕ → Option ℕ) : (sendFileItem memory request item ⟨outcomes, []⟩).2.written =
      (movedOf outcomes (request.buffersWith memory item)).flatten := by
  simp [sendFileItem, Request.buffersWith, Socket.send, movedOf]

theorem payloadField_nil_iff : request.payloadField = [] ↔ request.payloadSize = 0 := by
  rw [← List.length_eq_zero_iff, Request.payloadField, length_resize]

def Request.fields (request : Request) : List Bytes :=
  request.header :: ((if 0 < request.payloadSize then [request.payloadField] else []) ++
    if NamesFile request.code then [resize 255 request.filename] else [])

def Request.fieldsWith (request : Request) (item : FileItem) : List Bytes :=
  [request.header ++ request.payloadField, fileHeader item, resize 255 item.filename,
    resize item.contentSize item.messageContent]

theorem fields_flatten (request : Request) : request.fields.flatten = request.encode := by
  rw [Request.fields, Request.encode]
  by_cases hpayload : 0 < request.payloadSize
  · rw [if_pos hpayload]
    split_ifs <;> simp
  · have hnil : request.payloadField = [] := payloadField_nil_iff.mpr (by omega)
    rw [if_neg hpayload, hnil]
    split_ifs <;> simp

theorem fieldsWith_flatten (request : Request) (item : FileItem) :
    (request.fieldsWith item).flatten = request.encodeWith item := by
  simp [Request.fieldsWith, Request.encodeWith]

theorem buffers_le_fields (request : Request) :
    List.Forall₂ (fun buffer field => buffer.length ≤ field.length) request.buffers
      request.fields := by
  rw [Request.buffers, Request.fields]
  refine .cons (Nat.le_refl _) ?_
  split_ifs
  · exact .cons (length_take_le_resize _ _) (.cons (length_take_le_resize _ _) .nil)
  · exact .cons (length_take_le_resize _ _) .nil
  · exact .cons (length_take_le_resize _ _) .nil
  · exact .nil

theorem buffersWith_le_fieldsWith (memory : Bytes) (request : Request) (item : FileItem) :
    List.Forall₂ (fun buffer field => buffer.length ≤ field.length)
      (request.buffersWith memory item) (request.fieldsWith item) := by
  have hname :
      (resize 255 (item.filename ++ memory)).length ≤ (resize 255 item.filename).length := by
    rw [length_resize, length_resize]
  refine .cons ?_ (.cons (Nat.le_refl _) (.cons hname (.cons (length_take_le_resize _ _) .nil)))
  rw [List.length_append]
  exact Nat.le_add_right _ _

theorem buffers_eq_fields_iff : request.buffers = request.fields ↔ Filled request := by
  rw [Request.buffers, Request.fields, List.cons.injEq, and_iff_right rfl, Filled,
    Request.payloadField]
  by_cases hpayload : 0 < request.payloadSize
  · rw [if_pos hpayload, if_pos hpayload]
    split_ifs with hname <;> simp [take_eq_resize_iff, hname]
  · have hle : request.payloadSize ≤ request.payload.length := by omega
    rw [if_neg hpayload, if_neg hpayload]
    split_ifs with hname <;> simp [take_eq_resize_iff, hname, hle]

theorem buffersWith_eq_fieldsWith_iff :
    request.buffersWith memory item = request.fieldsWith item ↔ FilledWith memory request item := by
  simp [Request.buffersWith, Request.fieldsWith, FilledWith, payloadField_nil_iff,
    take_eq_resize_iff]

/-- Requests are reported as sent exactly where all of the encoding was written. -/
theorem sent_as_reported_iff (memory : Bytes) (request : Request) (item : FileItem)
    (outcomes : ℕ → Option ℕ) :
    (Reported request.encode (sendRequestToServer request ⟨outcomes, []⟩) ↔
      Filled request ∧ AllWhole outcomes request.buffers) ∧
    (Reported (request.encodeWith item) (sendFileItem memory request item ⟨outcomes, []⟩) ↔
      FilledWith memory request item ∧ AllWhole outcomes (request.buffersWith memory item)) := by
  constructor
  · have htrue : (sendRequestToServer request ⟨outcomes, []⟩).1 = true := rfl
    rw [Reported, iff_true_left htrue, sendRequestToServer_written, ← fields_flatten,
      movedOf_flatten_iff (buffers_le_fields request), buffers_eq_fields_iff]
    rfl
  · have htrue : (sendFileItem memory request item ⟨outcomes, []⟩).1 = true := rfl
    rw [Reported, iff_true_left htrue, sendFileItem_written, ← fieldsWith_flatten,
      movedOf_flatten_iff (buffersWith_le_fieldsWith memory request item),
      buffersWith_eq_fieldsWith_iff]
    rfl

end Written

def registration : Request := ⟨List.replicate 16 0, 3, clientCodeRegister, [], [97], 1⟩

def uploadOfF : Request × FileItem :=
  (⟨List.replicate 16 1, 3, clientCodeSendFile, [], [], 0⟩,
    .new (List.replicate 16 1) [102] [8, 9])

/-- A registration of which nothing is written, and an upload of which four bytes are. -/
theorem unsent_reported :
    ¬ Reported registration.encode (sendRequestToServer registration ⟨fun _ => none, []⟩) ∧
    ¬ Reported (uploadOfF.1.encodeWith uploadOfF.2)
      (sendFileItem [] uploadOfF.1 uploadOfF.2 ⟨fun _ => some 0, []⟩) := by
  constructor
  · rw [Reported]
    decide
  · rw [Reported]
    decide

def ofClient (request : ClientRequest) : Request :=
  ⟨request.clientId, clientVersion, request.code, request.filename, request.payload,
    request.payloadSize⟩

section Whole

variable {outcomes : ℕ → Option ℕ}

theorem movedOf_whole {buffers : List Bytes} (h : AllWhole outcomes buffers) :
    (movedOf outcomes buffers).flatten = buffers.flatten :=
  (movedOf_flatten_iff (List.forall₂_same.mpr fun _ _ => Nat.le_refl _)).mpr ⟨rfl, h⟩

/-- Where every write is whole, what is written is the request that is posted. -/
theorem posted_of_whole (request : ClientRequest) (h : AllWhole outcomes (ofClient request).buffers)
    (c : Client) : ClientProcess.sendRequestToServer request c =
      post request.code (sendRequestToServer (ofClient request) ⟨outcomes, []⟩).2.written c := by
  have hheader : (ofClient request).header = request.header := rfl
  have hnone : ¬ 0 < request.payloadSize → request.payload.take request.payloadSize = [] := by
    intro hzero
    rw [Nat.eq_zero_of_not_pos hzero, List.take_zero]
  have hbuffers : (ofClient request).buffers.flatten = request.header ++
      (request.payload.take request.payloadSize ++
        if NamesFile request.code then request.filename.take 255 else []) := by
    rw [Request.buffers, hheader]
    by_cases hpayload : 0 < request.payloadSize <;> by_cases hname : NamesFile request.code
    all_goals
      simp [ofClient, hpayload, hname, hnone]
  rw [sendRequestToServer_written, movedOf_whole h, hbuffers]
  rfl

theorem posted_item_of_whole (request : ClientRequest) (item : FileItem) (memory : Bytes)
    (hname : resize 255 (item.filename ++ memory) = resize 255 item.filename)
    (h : AllWhole outcomes ((ofClient request).buffersWith memory item)) (c : Client) :
    ClientProcess.sendFileItem request item c = post request.code
      (sendFileItem memory (ofClient request) item ⟨outcomes, []⟩).2.written c := by
  rw [sendFileItem_written, movedOf_whole h, Request.buffersWith, hname]
  simp [ClientProcess.sendFileItem, fileHeader, Request.header, ClientRequest.header, ofClient]

end Whole

end EncryptedTransfer.PartialWrites
