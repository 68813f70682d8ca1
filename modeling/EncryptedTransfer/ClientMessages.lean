import EncryptedTransfer.Network

/-!
# What each side writes and how the other reads it

The client's requests as well-formed requests, and the server's responses as the client
takes them apart.
-/
namespace EncryptedTransfer.ClientMessages
open ServerStores hiding Client Client.new
open ByteFormats Text ServerCalls ServerHandlers ServerEffects ServerSession StreamFraming
open ClientProcess Network

section Requests

variable {clientId owner clientName publicKey field content : Bytes} {code : ℕ}

theorem noId_length : (List.replicate 16 (0 : UInt8)).length = 16 := List.length_replicate

theorem noPayload_lt : ([] : Bytes).length < 4294967296 := by decide

theorem clientVersion_lt : clientVersion < 256 := by decide

theorem clientCodeRegister_lt : clientCodeRegister < 65536 := by decide

theorem tailOf_register : TailOf (kindOf clientCodeRegister) [] := rfl

theorem tailOf_sendPublicKey : TailOf (kindOf clientCodeSendPublicKey) [] := rfl

def registerMessage (clientName : Bytes) (h : clientName.length = 255) : Message where
  clientId := List.replicate 16 0
  version := clientVersion
  code := clientCodeRegister
  payload := clientName
  tail := []
  clientId_length := noId_length
  version_lt := clientVersion_lt
  code_lt := clientCodeRegister_lt
  payload_lt := by omega
  tail_of := tailOf_register

def keyMessage (clientId clientName publicKey : Bytes) (hid : clientId.length = 16)
    (hname : clientName.length = 255) (hkey : publicKey.length = 160) : Message where
  clientId := clientId
  version := clientVersion
  code := clientCodeSendPublicKey
  payload := clientName ++ publicKey
  tail := []
  clientId_length := hid
  version_lt := clientVersion_lt
  code_lt := by decide
  payload_lt := by
    rw [List.length_append]
    omega
  tail_of := tailOf_sendPublicKey

def NamesFile (code : ℕ) : Prop :=
  code = clientCodeCksumOk ∨ code = clientCodeCksumErr ∨ code = clientCodeCksumErrFinal

instance (code : ℕ) : Decidable (NamesFile code) := inferInstanceAs (Decidable (_ ∨ _ ∨ _))

def nameMessage (clientId : Bytes) (code : ℕ) (field : Bytes) (hid : clientId.length = 16)
    (hcode : NamesFile code) (hfield : field.length = 255) : Message where
  clientId := clientId
  version := clientVersion
  code := code
  payload := []
  tail := field
  clientId_length := hid
  version_lt := clientVersion_lt
  code_lt := by rcases hcode with rfl | rfl | rfl <;> decide
  payload_lt := noPayload_lt
  tail_of := by rcases hcode with rfl | rfl | rfl <;> exact hfield

def uploadMessage (clientId owner field content : Bytes) (hid : clientId.length = 16)
    (howner : owner.length = 16) (hfield : field.length = 255)
    (hcontent : content.length < 4294967296) : Message where
  clientId := clientId
  version := clientVersion
  code := clientCodeSendFile
  payload := []
  tail := owner ++ (leBytes 4 content.length ++ (field ++ content))
  clientId_length := hid
  version_lt := clientVersion_lt
  code_lt := by decide
  payload_lt := noPayload_lt
  tail_of := ⟨owner, field, content, howner, hfield, hcontent, rfl⟩

theorem sendRequestToServer_register (h : clientName.length = 255) (c : Client) :
    sendRequestToServer ⟨List.replicate 16 0, clientCodeRegister, [], clientName⟩ c =
      post clientCodeRegister (registerMessage clientName h).encode c := by
  have hsize : (⟨List.replicate 16 0, clientCodeRegister, [], clientName⟩ :
      ClientRequest).payloadSize = clientName.length := by
    simp only [ClientRequest.payloadSize]
    omega
  simp only [sendRequestToServer, ClientRequest.header, hsize, List.take_length]
  simp [Message.encode, Message.header, registerMessage, clientCodeRegister, clientCodeCksumOk,
    clientCodeCksumErr, clientCodeCksumErrFinal]

theorem sendRequestToServer_key (hid : clientId.length = 16) (hname : clientName.length = 255)
    (hkey : publicKey.length = 160) (c : Client) :
    sendRequestToServer ⟨clientId, clientCodeSendPublicKey, [], clientName ++ publicKey⟩ c =
      post clientCodeSendPublicKey (keyMessage clientId clientName publicKey hid hname hkey).encode
        c := by
  have hsize : (⟨clientId, clientCodeSendPublicKey, [], clientName ++ publicKey⟩ :
      ClientRequest).payloadSize = (clientName ++ publicKey).length := by
    simp only [ClientRequest.payloadSize, List.length_append]
    omega
  simp only [sendRequestToServer, ClientRequest.header, hsize, List.take_length]
  simp [Message.encode, Message.header, keyMessage, clientCodeSendPublicKey, clientCodeCksumOk,
    clientCodeCksumErr, clientCodeCksumErrFinal]

theorem sendRequestToServer_name (hid : clientId.length = 16) (hcode : NamesFile code)
    (hfield : field.length = 255) (c : Client) :
    sendRequestToServer ⟨clientId, code, field, []⟩ c =
      post code (nameMessage clientId code field hid hcode hfield).encode c := by
  have htake : field.take 255 = field := List.take_of_length_le hfield.le
  have hnames : code = clientCodeCksumOk ∨ code = clientCodeCksumErr ∨
      code = clientCodeCksumErrFinal := hcode
  simp only [sendRequestToServer]
  rw [if_pos hnames, htake]
  simp [ClientRequest.header, ClientRequest.payloadSize, Message.encode, Message.header,
    nameMessage]

theorem length_resize (n : ℕ) (s : Bytes) : (resize n s).length = n := by
  rw [resize, List.length_append, List.length_take, List.length_replicate]
  omega

theorem resize_of_length {n : ℕ} {s : Bytes} (h : s.length = n) : resize n s = s := by
  simp [resize, ← h]

theorem sendFileItem_eq (hid : clientId.length = 16) {item : FileItem}
    (howner : item.clientId.length = 16)
    (hcontent : (item.messageContent.take item.contentSize).length < 4294967296)
    (hsize : item.contentSize ≤ item.messageContent.length) (c : Client) :
    sendFileItem ⟨clientId, clientCodeSendFile, [], []⟩ item c =
      post clientCodeSendFile
        (uploadMessage clientId item.clientId (resize 255 item.filename)
          (item.messageContent.take item.contentSize) hid howner (length_resize 255 _)
          hcontent).encode c := by
  have hlen : (item.messageContent.take item.contentSize).length = item.contentSize := by
    rw [List.length_take, min_eq_left hsize]
  simp only [sendFileItem]
  congr 1
  simp [ClientRequest.header, ClientRequest.payloadSize, Message.encode, Message.header,
    uploadMessage, hlen]

/-- The content of an upload begins after 298 bytes. -/
theorem upload_parts (hid : clientId.length = 16) (howner : owner.length = 16)
    (hfield : field.length = 255) (hcontent : content.length < 4294967296) :
    (uploadMessage clientId owner field content hid howner hfield hcontent).encode.take 298 =
        (uploadMessage clientId owner field content hid howner hfield hcontent).header ++
          (owner ++ (leBytes 4 content.length ++ field)) ∧
      (uploadMessage clientId owner field content hid howner hfield hcontent).encode.drop 298 =
        content := by
  have hlen : ((uploadMessage clientId owner field content hid howner hfield hcontent).header ++
      (owner ++ (leBytes 4 content.length ++ field))).length = 298 := by
    simp [Message.header_length, howner, hfield]
  have hparts : (uploadMessage clientId owner field content hid howner hfield hcontent).encode =
      ((uploadMessage clientId owner field content hid howner hfield hcontent).header ++
        (owner ++ (leBytes 4 content.length ++ field))) ++ content := by
    simp [Message.encode, uploadMessage]
  rw [hparts]
  exact ⟨List.take_left' hlen, List.drop_left' hlen⟩

theorem corrupted_upload (hid : clientId.length = 16) (howner : owner.length = 16)
    (hfield : field.length = 255) (hcontent : content.length < 4294967296) (encrypted : Bytes) :
    ∃ (content' : Bytes) (h' : content'.length < 4294967296),
      corrupted (uploadMessage clientId owner field content hid howner hfield hcontent).encode
        encrypted = (uploadMessage clientId owner field content' hid howner hfield h').encode ∧
      (content' = content ∨ content' = encrypted) := by
  unfold corrupted
  split_ifs with hsend
  · have hlen : encrypted.length = content.length := by
      have hl := hsend.2
      simp [Message.encode, Message.header_length, uploadMessage, howner, hfield] at hl
      omega
    have h' : encrypted.length < 4294967296 := by omega
    refine ⟨encrypted, h', ?_, .inr rfl⟩
    rw [(upload_parts hid howner hfield hcontent).1, ← hlen]
    simp [Message.encode, Message.header, uploadMessage]
  · exact ⟨content, hcontent, rfl, .inl rfl⟩

theorem lastUpload_cons_upload (hid : clientId.length = 16) (howner : owner.length = 16)
    (hfield : field.length = 255) (hcontent : content.length < 4294967296) (i : ℕ) (left : Bytes)
    (log : List Served) :
    lastUpload i (⟨i, (uploadMessage clientId owner field content hid howner hfield hcontent).encode,
      left⟩ :: log) = some content := by
  have hcode : (uploadMessage clientId owner field content hid howner hfield hcontent).code =
    clientCodeSendFile := rfl
  simp [lastUpload, isUpload_encode, hcode, (upload_parts hid howner hfield hcontent).2]

theorem corrupted_other {m : Message} (h : m.code ≠ clientCodeSendFile) (encrypted : Bytes) :
    corrupted m.encode encrypted = m.encode := by
  have hheader : m.encode.take 23 = m.header := by
    rw [Message.encode, List.take_left' m.header_length]
  rw [corrupted, if_neg]
  rintro ⟨hcode, -⟩
  rw [hheader, m.headerOf_header] at hcode
  exact h (Option.some.inj hcode)

end Requests

section Responses

variable {c : Client} {data rest : Bytes} {n : ℕ}

theorem receive_append (hdata : data.length = n) (hn : 0 < n) (h : c.inbox = data ++ rest) :
    receive n c = (data, { c with inbox := rest }) := by
  have hne : c.inbox.isEmpty = false := by
    rw [h]
    cases data with
    | nil => simp at hdata; omega
    | cons b data => rfl
  rw [receive, hne, Bool.or_false, h, List.take_left' hdata, List.drop_left' hdata,
    resize_of_length hdata]

/-- The reads of `receiveResponseFromServer`. -/
def readResponse (c : Client) : Response × Client :=
  let (head, c) := receive 7 { c with awaiting := false }
  let code := ofLe ((head.drop 1).take 2)
  let payloadSize := ofLe (head.drop 3)
  let (clientId, c) := receive 16 c
  let (payload, c) := if 0 < payloadSize then receive payloadSize c else ([], c)
  (⟨ofLe (head.take 1), code, clientId, payload, payload.length⟩, c)

/-- The reads of `handleFileResponse`: the content size, the file's name and the checksum. -/
def readReport (c : Client) : (ℕ × Bytes × ℕ) × Client :=
  let (contentSize, c) := receive 4 c
  let (filename, c) := receive 255 c
  let (cksum, c) := receive 4 c
  ((ofLe contentSize, filename, ofLe cksum), c)

/-- The decision of `handleFileResponse` about a report of this name and checksum. -/
def compareCksums (E : Externals) (filename : Bytes) (cksum : ℕ) (c : Client) : Client :=
  if c.cksumOfLastFile = UInt32.ofNat cksum then
    await (sendRequestToServer ⟨c.clientIdBytes, clientCodeCksumOk, filename, []⟩ c)
  else if c.numberOfTrialsTOSendFile < numberOfFileSending then
    reSendFileToServer E
      (sendRequestToServer ⟨c.clientIdBytes, clientCodeCksumErr, filename, []⟩
        { c with numberOfTrialsTOSendFile := c.numberOfTrialsTOSendFile + 1 })
  else
    await (sendRequestToServer ⟨c.clientIdBytes, clientCodeCksumErrFinal, filename, []⟩
      { c with numberOfTrialsTOSendFile := 1, cksumOfLastFile := 0 })

theorem receiveResponseFromServer_read (E : Externals) (c : Client) :
    receiveResponseFromServer E c = handleResponse E (readResponse c).1 { (readResponse c).2 with
      responseCodes := (readResponse c).2.responseCodes ++ [(readResponse c).1.code] } := rfl

theorem handleFileResponse_read (E : Externals) (c : Client) : handleFileResponse E c =
    compareCksums E (readReport c).1.2.1 (readReport c).1.2.2 (readReport c).2 := rfl

theorem readPayload_spec (n : ℕ) (c : Client) : ∃ starved,
    (if 0 < n then receive n c else ([], c)).2 =
        { c with inbox := c.inbox.drop n, starved := starved } ∧
      (if 0 < n then receive n c else ([], c)).1.length = n := by
  split_ifs with hpos
  · exact ⟨_, rfl, length_resize _ _⟩
  · obtain rfl : n = 0 := by omega
    exact ⟨_, rfl, rfl⟩

theorem readResponse_spec (c : Client) : ∃ starved,
    (readResponse c).2 = { c with
      awaiting := false
      inbox := c.inbox.drop (23 + (readResponse c).1.payload.length)
      starved := starved } ∧
    (readResponse c).1.payload.length = ofLe ((resize 7 (c.inbox.take 7)).drop 3) ∧
    (readResponse c).1.clientId.length = 16 := by
  obtain ⟨starved, hrest, hlen⟩ := readPayload_spec (ofLe ((resize 7 (c.inbox.take 7)).drop 3))
    (receive 16 (receive 7 { c with awaiting := false }).2).2
  have hpayload : (readResponse c).1.payload.length =
      ofLe ((resize 7 (c.inbox.take 7)).drop 3) := hlen
  refine ⟨starved, ?_, hpayload, length_resize _ _⟩
  refine hrest.trans ?_
  rw [hpayload]
  simp [receive, List.drop_drop]

theorem readResponse_inbox (c : Client) : (readResponse c).2.inbox =
    c.inbox.drop (23 + (readResponse c).1.payload.length) := by
  obtain ⟨starved, hrest, -⟩ := readResponse_spec c
  exact congrArg Client.inbox hrest

theorem readResponse_eq {code : ℕ} (hcode : code < 65536) {clientId payload : Bytes}
    (hid : clientId.length = 16) (hpayload : payload.length < 4294967296)
    (h : c.inbox = responseHead code payload.length clientId ++ (payload ++ rest)) :
    readResponse c = (⟨serverVersion, code, clientId, payload, payload.length⟩,
      { c with awaiting := false, inbox := rest }) := by
  have hversion : ofLe (leBytes 1 serverVersion) = serverVersion := rfl
  have hcode' : ofLe (leBytes 2 code) = code := ofLe_leBytes_of_lt hcode
  have hsize : ofLe (leBytes 4 payload.length) = payload.length := ofLe_leBytes_of_lt hpayload
  have hhead : receive 7 { c with awaiting := false } =
      (leBytes 1 serverVersion ++ (leBytes 2 code ++ leBytes 4 payload.length),
        { c with awaiting := false, inbox := clientId ++ (payload ++ rest) }) := by
    refine receive_append (by simp) (by omega) ?_
    simp [h, responseHead]
  have hclient : receive 16 { c with awaiting := false, inbox := clientId ++ (payload ++ rest) } =
      (clientId, { c with awaiting := false, inbox := payload ++ rest }) :=
    receive_append hid (by omega) rfl
  have hfirst : (leBytes 1 serverVersion ++ (leBytes 2 code ++ leBytes 4 payload.length)).take 1 =
      leBytes 1 serverVersion := List.take_left' (leBytes_length _ _)
  have hsecond : ((leBytes 1 serverVersion ++ (leBytes 2 code ++
      leBytes 4 payload.length)).drop 1).take 2 = leBytes 2 code := by
    rw [List.drop_left' (leBytes_length _ _), List.take_left' (leBytes_length _ _)]
  have hthird : (leBytes 1 serverVersion ++ (leBytes 2 code ++ leBytes 4 payload.length)).drop 3 =
      leBytes 4 payload.length := by
    rw [← List.append_assoc, List.drop_left' (by simp)]
  simp only [readResponse, hhead, hclient, hfirst, hsecond, hthird, hversion, hcode', hsize]
  by_cases hpos : 0 < payload.length
  · have hread : receive payload.length { c with awaiting := false, inbox := payload ++ rest } =
        (payload, { c with awaiting := false, inbox := rest }) := receive_append rfl hpos rfl
    rw [if_pos hpos, hread]
  · have hnil : payload = [] := List.eq_nil_of_length_eq_zero (by omega)
    subst hnil
    rfl

theorem receiveResponseFromServer_eq (E : Externals) {code : ℕ} (hcode : code < 65536)
    {clientId payload : Bytes} (hid : clientId.length = 16) (hpayload : payload.length < 4294967296)
    (h : c.inbox = responseHead code payload.length clientId ++ (payload ++ rest)) :
    receiveResponseFromServer E c =
      handleResponse E ⟨serverVersion, code, clientId, payload, payload.length⟩
        { c with
          awaiting := false
          inbox := rest
          responseCodes := c.responseCodes ++ [code] } := by
  rw [receiveResponseFromServer_read, readResponse_eq hcode hid hpayload h]

theorem readReport_eq {field : Bytes} {contentSize cksum : ℕ} (hfield : field.length = 255)
    (hcksum : cksum < 4294967296)
    (h : c.inbox = leBytes 4 contentSize ++ (field ++ (leBytes 4 cksum ++ rest))) :
    readReport c = ((contentSize % 4294967296, field, cksum), { c with inbox := rest }) := by
  have hfirst := receive_append (leBytes_length 4 contentSize) (by omega) h
  have hname : receive 255 { c with inbox := field ++ (leBytes 4 cksum ++ rest) } =
      (field, { c with inbox := leBytes 4 cksum ++ rest }) := receive_append hfield (by omega) rfl
  have hsum : receive 4 { c with inbox := leBytes 4 cksum ++ rest } =
      (leBytes 4 cksum, { c with inbox := rest }) :=
    receive_append (leBytes_length 4 cksum) (by omega) rfl
  have hvalue : ofLe (leBytes 4 cksum) = cksum := ofLe_leBytes_of_lt hcksum
  have hlength : ofLe (leBytes 4 contentSize) = contentSize % 4294967296 := ofLe_leBytes 4 _
  simp only [readReport, hfirst, hname, hsum, hvalue, hlength]

def acknowledged (clientId : Bytes) : Bytes :=
  responseHead serverCodeMessageReceived 0 (uuidField clientId)

def refused : Bytes := responseHead serverCodeRegistrationErr 0 (uuidField [])

def reported (clientId : Bytes) (filename : Str) (contentSize cksum : ℕ) : Bytes :=
  responseHead serverCodeCksumReady 0 clientId ++
    (leBytes 4 contentSize ++ cksumReport filename cksum)

variable {E : Externals} {clientId : Bytes} (hid : clientId.length = 16)
include hid

theorem receiveResponseFromServer_told {code : ℕ}
    (hcode : code = serverCodeRegistrationErr ∨ code = serverCodeMessageReceived)
    (hin : c.inbox = responseHead code 0 clientId) :
    receiveResponseFromServer E c = { c with
      awaiting := false
      inbox := []
      responseCodes := c.responseCodes ++ [code] } := by
  have hlt : code < 65536 := by rcases hcode with rfl | rfl <;> decide
  have hwhole : c.inbox = responseHead code ([] : Bytes).length clientId ++ ([] ++ []) := by
    simp [hin]
  rw [receiveResponseFromServer_eq E hlt hid (by decide) hwhole]
  rcases hcode with rfl | rfl <;> rfl

theorem receiveResponseFromServer_registered
    (hin : c.inbox = responseHead serverCodeRegistrationOk 0 clientId) :
    receiveResponseFromServer E c = saveRegistrationDetails clientId { c with
      awaiting := false
      inbox := []
      responseCodes := c.responseCodes ++ [serverCodeRegistrationOk] } := by
  have hwhole : c.inbox =
      responseHead serverCodeRegistrationOk ([] : Bytes).length clientId ++ ([] ++ []) := by
    simp [hin]
  rw [receiveResponseFromServer_eq E (by decide) hid (by decide) hwhole]
  rfl

theorem receiveResponseFromServer_key {cipher : Bytes} (hsize : cipher.length < 4294967296)
    (hin : c.inbox = responseHead serverCodeSwitchingKeys cipher.length clientId ++ cipher) :
    receiveResponseFromServer E c = handleAESKeyFromServer E cipher { c with
      awaiting := false
      inbox := []
      responseCodes := c.responseCodes ++ [serverCodeSwitchingKeys] } := by
  have hwhole : c.inbox =
      responseHead serverCodeSwitchingKeys cipher.length clientId ++ (cipher ++ []) := by
    rw [hin, List.append_nil]
  have hhandle (response : Response) (hcode : response.code = serverCodeSwitchingKeys)
      (c : Client) : handleResponse E response c =
        handleAESKeyFromServer E response.payload c := by
    rw [handleResponse, hcode]
    rfl
  rw [receiveResponseFromServer_eq E (by decide) hid hsize hwhole, hhandle _ rfl]

/-- The name field of a report. -/
def reportField (filename : Str) : Bytes := (encodeUtf8 (padNul 255 filename)).take 255

omit hid in
theorem length_reportField (filename : Str) : (reportField filename).length = 255 := by
  have hlen := length_le_encodeUtf8 (padNul 255 filename)
  have hpad : 255 ≤ (padNul 255 filename).length := by
    rw [padNul, List.length_append, List.length_replicate]
    omega
  rw [reportField, List.length_take]
  omega

/-- A report is answered by a confirmation, by a new upload or by giving up. -/
theorem receiveResponseFromServer_reported {filename : Str} {size cksum : ℕ}
    (hcksum : cksum < 4294967296) (hin : c.inbox = reported clientId filename size cksum) :
    receiveResponseFromServer E c =
      let told := { c with
        awaiting := false
        inbox := []
        responseCodes := c.responseCodes ++ [serverCodeCksumReady] }
      if c.cksumOfLastFile = UInt32.ofNat cksum then
        await (sendRequestToServer ⟨c.clientIdBytes, clientCodeCksumOk, reportField filename, []⟩
          told)
      else if c.numberOfTrialsTOSendFile < numberOfFileSending then
        reSendFileToServer E
          (sendRequestToServer ⟨c.clientIdBytes, clientCodeCksumErr, reportField filename, []⟩
            { told with numberOfTrialsTOSendFile := c.numberOfTrialsTOSendFile + 1 })
      else
        await (sendRequestToServer
          ⟨c.clientIdBytes, clientCodeCksumErrFinal, reportField filename, []⟩
          { told with numberOfTrialsTOSendFile := 1, cksumOfLastFile := 0 }) := by
  have hwhole : c.inbox = responseHead serverCodeCksumReady ([] : Bytes).length clientId ++
      ([] ++ (leBytes 4 size ++ cksumReport filename cksum)) := by
    simp [hin, reported]
  have hhandle (response : Response) (hcode : response.code = serverCodeCksumReady)
      (c : Client) : handleResponse E response c = handleFileResponse E c := by
    rw [handleResponse, hcode]
    rfl
  have hreport : leBytes 4 size ++ cksumReport filename cksum =
      leBytes 4 size ++ (reportField filename ++ (leBytes 4 cksum ++ [])) := by
    simp [cksumReport, reportField]
  rw [receiveResponseFromServer_eq E (by decide) hid (by decide) hwhole, hhandle _ rfl,
    handleFileResponse_read, readReport_eq (length_reportField filename) hcksum hreport]
  rfl

end Responses

section Methods

variable {E : Externals} {c : Client} {clientId : Bytes}

/-- The bytes of an upload of a client. -/
def IsUpload (clientId data : Bytes) : Prop :=
  ∃ owner field content hid howner hfield hcontent,
    data = (uploadMessage clientId owner field content hid howner hfield hcontent).encode

def IsNamed (clientId : Bytes) (code : ℕ) (data : Bytes) : Prop :=
  ∃ field hid hcode hfield, data = (nameMessage clientId code field hid hcode hfield).encode

theorem sendFileItem_isUpload (hid : clientId.length = 16) {item : FileItem}
    (howner : item.clientId.length = 16) (hsize : item.contentSize ≤ item.messageContent.length)
    (hlt : item.contentSize < 4294967296) (c : Client) :
    ∃ data, IsUpload clientId data ∧
      sendFileItem ⟨clientId, clientCodeSendFile, [], []⟩ item c =
        post clientCodeSendFile data c := by
  have hcontent : (item.messageContent.take item.contentSize).length < 4294967296 := by
    rw [List.length_take]
    omega
  exact ⟨_, ⟨_, _, _, hid, howner, _, hcontent, rfl⟩, sendFileItem_eq hid howner hcontent hsize c⟩

theorem sendRequestToServer_isNamed (hid : clientId.length = 16) {code : ℕ} (hcode : NamesFile code)
    {field : Bytes} (hfield : field.length = 255) (c : Client) :
    ∃ data, IsNamed clientId code data ∧
      sendRequestToServer ⟨clientId, code, field, []⟩ c = post code data c :=
  ⟨_, ⟨field, hid, hcode, hfield, rfl⟩, sendRequestToServer_name hid hcode hfield c⟩

theorem loadFilePath_eq (c : Client) : ∃ path, (loadFilePath c).2 = { c with filePath := path } := by
  unfold loadFilePath
  split_ifs
  · obtain ⟨found, line⟩ := readLine (c.files serverFilePath) 3 c.filePath
    cases found with
    | true => exact ⟨line.map tolower, rfl⟩
    | false => exact ⟨line, rfl⟩
  · exact ⟨c.filePath, rfl⟩

/-- The item made of a file's content. -/
def itemOf (E : Externals) (c : Client) (file : Bytes) : FileItem :=
  .new c.clientIdBytes (fileNameOf c.filePath)
    (E.aesEncrypt c.aesKey (file.take (file.length % 2 ^ 32)))

def noted (c : Client) (file : Bytes) : Client :=
  { c with
    cksumOfLastFile := Cksum.Client.calculateCksum (file.take (file.length % 2 ^ 32))
      (UInt32.ofNat (file.length % 2 ^ 32)) }

theorem loadFileContent_eq_some {item : FileItem} {c' : Client} :
    loadFileContent E c = some (item, c') ↔ ∃ file, c.files c.filePath = some file ∧
      c.aesKey.length = 16 ∧ item = itemOf E c file ∧ c' = noted c file := by
  cases hf : c.files c.filePath with
  | none => simp [loadFileContent, hf]
  | some file =>
    by_cases hk : c.aesKey.length = 16
    · simp [loadFileContent, hf, encryptContent, hk, itemOf, noted, eq_comm]
    · simp [loadFileContent, hf, encryptContent, hk]

/-- What is sent of the encrypted content: its length is announced in 32 bits. -/
def sentOf (E : Externals) (c : Client) (file : Bytes) : Bytes :=
  let encrypted := E.aesEncrypt c.aesKey (file.take (file.length % 2 ^ 32))
  encrypted.take (encrypted.length % 2 ^ 32)

theorem length_sentOf (E : Externals) (c : Client) (file : Bytes) :
    (sentOf E c file).length < 4294967296 := by
  rw [sentOf, List.length_take]
  omega

theorem sendFileItem_itemOf (hid : c.clientIdBytes.length = 16) (file : Bytes) (c' : Client) :
    sendFileItem ⟨c.clientIdBytes, clientCodeSendFile, [], []⟩ (itemOf E c file) c' =
      post clientCodeSendFile (uploadMessage c.clientIdBytes c.clientIdBytes
        (resize 255 (fileNameOf c.filePath)) (sentOf E c file) hid hid (length_resize 255 _)
        (length_sentOf E c file)).encode c' := by
  have hsize : (itemOf E c file).contentSize ≤ (itemOf E c file).messageContent.length :=
    Nat.mod_le _ _
  have hagain : resize 255 (resize 255 (fileNameOf c.filePath)) =
      resize 255 (fileNameOf c.filePath) := resize_of_length (length_resize 255 _)
  have howner : (itemOf E c file).clientId.length = 16 := hid
  have hlt : ((itemOf E c file).messageContent.take (itemOf E c file).contentSize).length <
      4294967296 := length_sentOf E c file
  refine (sendFileItem_eq hid howner hlt hsize c').trans ?_
  simp only [itemOf, FileItem.new, hagain]
  rfl

theorem isUpload_itemOf (hid : c.clientIdBytes.length = 16) (file : Bytes) (c' : Client) :
    ∃ data, IsUpload c.clientIdBytes data ∧
      sendFileItem ⟨c.clientIdBytes, clientCodeSendFile, [], []⟩ (itemOf E c file) c' =
        post clientCodeSendFile data c' :=
  ⟨_, ⟨_, _, _, hid, hid, _, length_sentOf E c file, rfl⟩, sendFileItem_itemOf hid file c'⟩

theorem sendFileToServer_cases (hid : c.clientIdBytes.length = 16) :
    (∃ path, sendFileToServer E c = { c with filePath := path }) ∨
      c.clientIdHex ≠ [] ∧ ∃ path cksum data, IsUpload c.clientIdBytes data ∧
        sendFileToServer E c = await (post clientCodeSendFile data
          { c with filePath := path, cksumOfLastFile := cksum }) := by
  by_cases hready : c.connectedToServer ∧ c.clientIdHex ≠ []
  · obtain ⟨path, hpath⟩ := loadFilePath_eq c
    rw [sendFileToServer, if_pos hready]
    cases hloaded : (loadFilePath c).1 with
    | false =>
      left
      refine ⟨path, ?_⟩
      simp only [hloaded, Bool.false_eq_true, ↓reduceIte, hpath]
    | true =>
      simp only [hloaded, ↓reduceIte, hpath]
      cases hload : loadFileContent E { c with filePath := path } with
      | none => exact .inl ⟨path, rfl⟩
      | some loaded =>
        obtain ⟨item, c'⟩ := loaded
        obtain ⟨file, -, -, rfl, rfl⟩ := loadFileContent_eq_some.mp hload
        obtain ⟨data, hdata, hsend⟩ := isUpload_itemOf (E := E)
          (c := { c with filePath := path }) hid file (noted { c with filePath := path } file)
        exact .inr ⟨hready.2, path, (noted c file).cksumOfLastFile, data, hdata,
          congrArg await hsend⟩
  · left
    refine ⟨c.filePath, ?_⟩
    rw [sendFileToServer, if_neg hready]

theorem sendFileToServer_eq (hid : c.clientIdBytes.length = 16) (haes : c.aesKey.length = 16)
    (hconnected : c.connectedToServer = true) (hattached : c.clientIdHex ≠ []) {path : Bytes}
    (hload : loadFilePath c = (true, { c with filePath := path })) {file : Bytes}
    (hfile : c.files path = some file) :
    sendFileToServer E c = await (post clientCodeSendFile (uploadMessage c.clientIdBytes
      c.clientIdBytes (resize 255 (fileNameOf path)) (sentOf E { c with filePath := path } file) hid
      hid (length_resize 255 _) (length_sentOf E { c with filePath := path } file)).encode
        (noted { c with filePath := path } file)) := by
  have hcontent : loadFileContent E { c with filePath := path } =
      some (itemOf E { c with filePath := path } file, noted { c with filePath := path } file) :=
    loadFileContent_eq_some.mpr ⟨file, hfile, haes, rfl, rfl⟩
  rw [sendFileToServer, if_pos ⟨hconnected, hattached⟩, hload]
  simp only [↓reduceIte, hcontent]
  exact congrArg await
    (sendFileItem_itemOf (E := E) (c := { c with filePath := path }) hid file _)

theorem reSendFileToServer_item (E : Externals) (c : Client) :
    ∃ cksum item, reSendFileToServer E c = await (sendFileItem
      ⟨c.clientIdBytes, clientCodeSendFile, [], []⟩ item { c with cksumOfLastFile := cksum }) := by
  cases hload : loadFileContent E c with
  | none =>
    refine ⟨c.cksumOfLastFile, .empty, ?_⟩
    rw [reSendFileToServer, hload]
    rfl
  | some loaded =>
    obtain ⟨item, c'⟩ := loaded
    obtain ⟨file, -, -, rfl, rfl⟩ := loadFileContent_eq_some.mp hload
    refine ⟨(noted c file).cksumOfLastFile, itemOf E c file, ?_⟩
    rw [reSendFileToServer, hload]
    rfl

/-- What a call of `sendFileToServer` may change. -/
theorem sendFileToServer_frame (E : Externals) (c : Client) :
    ∃ path cksum outbox awaiting codes, sendFileToServer E c = { c with
      filePath := path
      cksumOfLastFile := cksum
      outbox := outbox
      awaiting := awaiting
      requestCodes := codes } := by
  obtain ⟨path, hpath⟩ := loadFilePath_eq c
  unfold sendFileToServer
  split_ifs
  · cases hloaded : (loadFilePath c).1 with
    | false =>
      simp only [hloaded, hpath, Bool.false_eq_true, ↓reduceIte]
      exact ⟨_, _, _, _, _, rfl⟩
    | true =>
      simp only [hloaded, hpath, ↓reduceIte]
      cases hload : loadFileContent E { c with filePath := path } with
      | none => exact ⟨_, _, _, _, _, rfl⟩
      | some loaded =>
        obtain ⟨item, c'⟩ := loaded
        obtain ⟨file, -, -, -, rfl⟩ := loadFileContent_eq_some.mp hload
        exact ⟨_, _, _, _, _, rfl⟩
  · exact ⟨_, _, _, _, _, rfl⟩

theorem compareCksums_frame (E : Externals) (filename : Bytes) (cksum : ℕ) (c : Client) :
    ∃ trials noted outbox codes, compareCksums E filename cksum c = { c with
      numberOfTrialsTOSendFile := trials
      cksumOfLastFile := noted
      outbox := outbox
      awaiting := true
      requestCodes := codes } := by
  unfold compareCksums
  split_ifs
  · exact ⟨_, _, _, _, rfl⟩
  · obtain ⟨noted, item, hsend⟩ := reSendFileToServer_item E (sendRequestToServer
      ⟨c.clientIdBytes, clientCodeCksumErr, filename, []⟩
        { c with numberOfTrialsTOSendFile := c.numberOfTrialsTOSendFile + 1 })
    rw [hsend]
    exact ⟨_, _, _, _, rfl⟩
  · exact ⟨_, _, _, _, rfl⟩

theorem reSendFileToServer_cases (hid : c.clientIdBytes.length = 16) :
    ∃ cksum data, IsUpload c.clientIdBytes data ∧ reSendFileToServer E c =
      await (post clientCodeSendFile data { c with cksumOfLastFile := cksum }) := by
  cases hload : loadFileContent E c with
  | none =>
    have howner : FileItem.empty.clientId.length = 16 := List.length_replicate
    obtain ⟨data, hdata, hsend⟩ := sendFileItem_isUpload hid howner (Nat.zero_le _)
      Nat.ofNat_pos c
    refine ⟨c.cksumOfLastFile, data, hdata, ?_⟩
    rw [reSendFileToServer, hload]
    exact congrArg await hsend
  | some loaded =>
    obtain ⟨item, c'⟩ := loaded
    obtain ⟨file, -, -, rfl, rfl⟩ := loadFileContent_eq_some.mp hload
    obtain ⟨data, hdata, hsend⟩ := isUpload_itemOf (E := E) hid file (noted c file)
    refine ⟨(noted c file).cksumOfLastFile, data, hdata, ?_⟩
    rw [reSendFileToServer, hload]
    exact congrArg await hsend

end Methods

end EncryptedTransfer.ClientMessages
