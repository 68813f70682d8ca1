import EncryptedTransfer.ClientMessages

/-!
# Responses on the wire

What the handlers send is nothing or one response; what the client reads of a stream of
responses are these responses, each from its first byte to its last.
-/
namespace EncryptedTransfer.ServerReplies
open ServerStores hiding Client Client.new
open ByteFormats Text ServerCalls ServerHandlers ServerEffects ServerRuns
open CryptoLaws ClientProcess ClientMessages Interaction Program

/-- What a checksum report has after its head. -/
structure Report where
  contentSize : ℕ
  filename : Bytes
  cksum : ℕ
  contentSize_lt : contentSize < 4294967296
  filename_length : filename.length = 255
  cksum_lt : cksum < 4294967296

def Report.encode (report : Report) : Bytes :=
  leBytes 4 report.contentSize ++ (report.filename ++ leBytes 4 report.cksum)

/-- A whole response; only a checksum report has a part after the payload. -/
structure Reply where
  code : ℕ
  clientId : Bytes
  payload : Bytes
  report : Option Report
  code_lt : code < 65536
  clientId_length : clientId.length = 16
  payload_lt : payload.length < 4294967296
  report_iff : report.isSome = true ↔ code = serverCodeCksumReady

namespace Reply

def tail (reply : Reply) : Bytes := (reply.report.map Report.encode).getD []

def encode (reply : Reply) : Bytes :=
  responseHead reply.code reply.payload.length reply.clientId ++ (reply.payload ++ reply.tail)

/-- The responses of the handlers. -/
inductive Sendable (reply : Reply) : Prop
  | told (hcode : reply.code = serverCodeRegistrationOk ∨ reply.code = serverCodeRegistrationErr ∨
      reply.code = serverCodeMessageReceived) (hpayload : reply.payload = [])
  | keys (hcode : reply.code = serverCodeSwitchingKeys)
  | cksum (hpayload : reply.payload = []) {report : Report} {filename : Str}
      (hreport : reply.report = some report) (hfield : report.filename = reportField filename)

end Reply

/-- The bytes sent so far, unless a write has failed. -/
def sentAfter : Option Bytes → (c : Call) → Except PyError c.Answer → Option Bytes
  | g, .send data, .ok _ => g.map (· ++ data)
  | _, .send _, .error _ => none
  | g, _, _ => g

def sending : Monitor calls PyError (Option Bytes) := ⟨fun _ _ => True, sentAfter⟩

/-- Nothing, or one response. -/
def Answer (data : Bytes) : Prop := data = [] ∨ ∃ reply : Reply, reply.Sendable ∧ data = reply.encode

def Silent {α : Type} (p : Proc α) : Prop := Issues (I := calls) (fun c => ∀ data, c ≠ .send data) p

/-- A program that sends nothing or one response. -/
def Answers {α : Type} (p : Proc α) : Prop :=
  Obeys sending p (some []) fun g _ => ∀ data, g = some data → Answer data

section Rules

variable {α β : Type}

theorem silent_host (c : HostCall) : Silent (host c) := .issue nofun

theorem silent_recv (n : ℕ) : Silent (recv n) := .issue nofun

theorem Silent.obeys {p : Proc α} (h : Silent p) (g : Option Bytes) :
    Obeys sending p g fun g' _ => g' = g := by
  induction p with
  | done o => rfl
  | call c next ih =>
    refine ⟨trivial, fun r => ?_⟩
    have hsame : sending.after g c r = g := by
      cases c with
      | send data => exact absurd rfl (h.1 data)
      | recv n => rfl
      | host c => rfl
    rw [hsame]
    exact ih r (h.2 r)

theorem Answers.done (o : Except PyError α) : Answers (.done o : Proc α) := by
  intro data hdata
  exact .inl (Option.some.inj hdata).symm

theorem Answers.bind {p : Proc α} {f : α → Proc β} (hp : Silent p) (hf : ∀ a, Answers (f a)) :
    Answers (p >>= f) := by
  apply Obeys.bind
  apply (hp.obeys (some [])).mono
  rintro g o rfl
  cases o with
  | ok a => exact hf a
  | error e => exact Answers.done (α := α) (.error e)

theorem Answers.guarded {p : Proc Unit} (hp : Answers p) : Answers (guarded p) := by
  apply Obeys.attempt
  apply hp.mono
  intro g o hg
  cases o with
  | ok a => exact hg
  | error e => exact hg

theorem Answers.ofOption {e : PyError} {o : Option α} {f : α → Proc β}
    (hf : ∀ a, o = some a → Answers (f a)) : Answers (Program.ofOption e o >>= f) := by
  cases o with
  | none => exact Answers.done (α := β) (.error e)
  | some a => exact hf a rfl

theorem answers_send {data : Bytes} {reply : Reply} (hreply : reply.Sendable)
    (hdata : data = reply.encode) : Answers (send data) := by
  refine ⟨trivial, fun r => ?_⟩
  cases r with
  | ok _ =>
    intro sent hsent
    exact .inr ⟨reply, hreply, (Option.some.inj hsent).symm.trans hdata⟩
  | error e =>
    intro sent hsent
    cases hsent

theorem answers_newResponse {code : ℕ} {clientId payload : Bytes} {f : Response → Proc β}
    (hf : payload.length < 4294967296 → Answers (f ⟨serverVersion, code, uuidField clientId,
      payload, payload.length⟩)) : Answers (newResponse code clientId payload >>= f) := by
  apply Answers.ofOption
  intro response hresponse
  unfold Response.new at hresponse
  split_ifs at hresponse with hfits
  obtain rfl := Option.some.inj hresponse
  exact hf hfits.2.2

end Rules

section Handlers

variable (clientId : Bytes)

theorem tells_registrationOk : serverCodeRegistrationOk = serverCodeRegistrationOk ∨
    serverCodeRegistrationOk = serverCodeRegistrationErr ∨
    serverCodeRegistrationOk = serverCodeMessageReceived :=
  .inl rfl

theorem tells_messageReceived : serverCodeMessageReceived = serverCodeRegistrationOk ∨
    serverCodeMessageReceived = serverCodeRegistrationErr ∨
    serverCodeMessageReceived = serverCodeMessageReceived :=
  .inr (.inr rfl)

/-- A response without payload. -/
def told (code : ℕ) (hcode : code = serverCodeRegistrationOk ∨ code = serverCodeRegistrationErr ∨
    code = serverCodeMessageReceived) : Reply where
  code := code
  clientId := uuidField clientId
  payload := []
  report := none
  code_lt := by rcases hcode with rfl | rfl | rfl <;> decide
  clientId_length := uuidField_length clientId
  payload_lt := noPayload_lt
  report_iff := by rcases hcode with rfl | rfl | rfl <;> decide

theorem answers_sendResponse {code : ℕ} (hcode : code = serverCodeRegistrationOk ∨
    code = serverCodeRegistrationErr ∨ code = serverCodeMessageReceived) :
    Answers (sendResponse ⟨serverVersion, code, uuidField clientId, [], 0⟩) := by
  apply Answers.ofOption
  intro data hdata
  have hlt : code < 65536 := (told clientId code hcode).code_lt
  rw [pack_response hlt Nat.ofNat_pos (uuidField_length clientId)] at hdata
  have hreply : (told clientId code hcode).Sendable := .told hcode rfl
  refine answers_send hreply ?_
  rw [← Option.some.inj hdata, Reply.encode]
  exact (List.append_nil _).symm

theorem answers_respond {code : ℕ} (hcode : code = serverCodeRegistrationOk ∨
    code = serverCodeRegistrationErr ∨ code = serverCodeMessageReceived) :
    Answers (respond code clientId) :=
  answers_newResponse fun _ => answers_sendResponse clientId hcode

variable (E : Externals) (request : Request) (payload : Bytes)

theorem silent_readFilename (field : Bytes) : Silent (readFilename E field) :=
  .bind (.ofOption _ _) fun _ => .done _

theorem answers_handleClientRegistration : Answers (handleClientRegistration payload) := by
  apply Answers.guarded
  refine .bind (.ofOption _ _) fun clientName => .bind (silent_host _) fun found => ?_
  split_ifs
  · exact answers_respond [] (.inr (.inl rfl))
  · refine .bind (silent_host _) fun clientId => answers_newResponse fun _ => ?_
    refine .bind (silent_host _) fun _ => .bind (silent_host _) fun _ => ?_
    exact answers_sendResponse clientId (.inl rfl)

theorem answers_sendAesKeyToClient : Answers (sendAesKeyToClient E request payload) := by
  apply Answers.guarded
  refine .bind (silent_host _) fun _ => .bind (.ofOption _ _) fun fields => ?_
  refine .bind (.ofOption _ _) fun clientName => .bind (silent_host _) fun aesKey => ?_
  refine .bind (silent_host _) fun _ => .bind (.ofOption _ _) fun _ => ?_
  refine .bind (silent_host _) fun cipher => answers_newResponse fun hcipher => ?_
  apply Answers.ofOption
  intro data hdata
  have hid := uuidField_length request.clientId
  have hcode : serverCodeSwitchingKeys < 65536 := by decide
  have hpack : data = responseHead serverCodeSwitchingKeys cipher.length
      (uuidField request.clientId) ++ cipher := by
    simp [pack, Field.pack, hcode, hcipher, serverVersion, List.take_of_length_le, hid] at hdata
    simp [← hdata, responseHead, serverVersion]
  have hreply : Reply.Sendable ⟨serverCodeSwitchingKeys, uuidField request.clientId, cipher, none,
    hcode, hid, hcipher, by decide⟩ := .keys rfl
  refine answers_send hreply ?_
  rw [hpack, Reply.encode]
  simp [Reply.tail]

theorem silent_makeDir (dirName : Str) : Silent (makeDir dirName) := by
  refine .bind (silent_host _) fun found => ?_
  split_ifs
  · exact silent_host _
  · exact .done _

theorem silent_recordFile (filename path : Str) : Silent (recordFile clientId filename path) := by
  refine .bind (silent_host _) fun found => ?_
  split_ifs
  · exact silent_host _
  · exact silent_host _

theorem answers_sendCksum (filename : Str) (contentSize : ℕ) {cksum : ℕ}
    (hcksum : cksum < 4294967296) : Answers (sendCksum clientId filename contentSize cksum) := by
  refine answers_newResponse fun _ => ?_
  apply Answers.ofOption
  intro head hhead
  have hid := uuidField_length clientId
  have hcode : serverCodeCksumReady < 65536 := by decide
  have hsize : contentSize < 4294967296 := by
    by_contra hno
    simp [pack, Field.pack, hno] at hhead
  have hhead' : head = responseHead serverCodeCksumReady 0 (uuidField clientId) ++
      leBytes 4 contentSize := by
    simp [pack, Field.pack, hcode, hsize, serverVersion, List.take_of_length_le, hid] at hhead
    simp [← hhead, responseHead, serverVersion]
  let report : Report := ⟨contentSize, reportField filename, cksum, hsize, length_reportField _,
    hcksum⟩
  let reply : Reply := ⟨serverCodeCksumReady, uuidField clientId, [], some report, hcode, hid,
    by decide, fun _ => rfl, fun _ => rfl⟩
  have hencode : head ++ cksumReport filename cksum = reply.encode := by
    simp [hhead', reply, report, Reply.encode, Reply.tail, Report.encode, cksumReport, reportField]
  simp only [pack_cksumReport filename hcksum]
  refine ⟨trivial, fun r => ?_⟩
  cases r with
  | error e =>
    intro data hdata
    cases hdata
  | ok _ =>
    refine ⟨trivial, fun r => ?_⟩
    cases r with
    | error e =>
      intro data hdata
      cases hdata
    | ok _ =>
      intro data hdata
      refine .inr ⟨reply, .cksum rfl rfl rfl, ?_⟩
      rw [← hencode, ← Option.some.inj hdata]
      rfl

theorem answers_processFileContent (filename : Str) (encrypted : Bytes) :
    Answers (processFileContent E request filename encrypted) := by
  apply Answers.guarded
  refine .bind (silent_host _) fun _ => .bind (silent_host _) fun aesKey => ?_
  refine .bind (.ofOption _ _) fun aesKey => .bind (.ofOption _ _) fun padded => ?_
  refine .bind (.ofOption _ _) fun content => .bind (silent_makeDir _) fun _ => ?_
  refine .bind (silent_makeDir _) fun _ => .bind (silent_host _) fun _ => ?_
  refine .bind (silent_host _) fun _ => .bind (silent_host _) fun _ => ?_
  refine .bind (silent_host _) fun stored => ?_
  apply Answers.ofOption
  intro cksum hcksum
  obtain ⟨value, hvalue⟩ := Cksum.cksumCalc_isSome stored
  have hlt : cksum < 4294967296 := by
    rw [hvalue] at hcksum
    rw [← Option.some.inj hcksum]
    exact value.toNat_lt
  exact .bind (silent_recordFile _ _ _) fun _ => answers_sendCksum _ _ _ hlt

theorem answers_handleFileRequest : Answers (handleFileRequest E request) := by
  apply Answers.guarded
  refine .bind (silent_recv _) fun fileData => ?_
  split_ifs
  · refine .bind (.ofOption _ _) fun fields => .bind (silent_readFilename E _) fun filename => ?_
    exact .bind (silent_recv _) fun encrypted => answers_processFileContent E request _ _
  · exact .done _

theorem answers_handleCksumOk : Answers (handleCksumOk E request) := by
  apply Answers.guarded
  refine .bind (silent_host _) fun _ => .bind (silent_recv _) fun field => ?_
  refine .bind (silent_readFilename E _) fun filename => .bind (silent_host _) fun _ => ?_
  exact answers_respond _ (.inr (.inr rfl))

theorem answers_handleCksumErr : Answers (handleCksumErr request) := by
  apply Answers.guarded
  refine .bind (.bind (silent_recv _) fun field => .bind (.ofOption _ _) fun _ => ?_) fun _ =>
    .done _
  exact .bind (silent_host _) fun _ => .done _

theorem silent_deleteFile (filename : Str) : Silent (deleteFile clientId filename) := by
  refine .bind (.bind (silent_host _) fun found => ?_) fun _ => .bind (silent_host _) fun _ => ?_
  · split_ifs
    · exact silent_host _
    · exact .done _
  refine .bind (.bind (silent_host _) fun client => ?_) fun _ => .bind (silent_host _) fun file => ?_
  · split_ifs
    · exact silent_host _
    · exact .done _
  · split_ifs
    · exact silent_host _
    · exact .done _

theorem answers_handleCksumErrFinal : Answers (handleCksumErrFinal E request) := by
  apply Answers.guarded
  refine .bind (silent_recv _) fun field => .bind (silent_readFilename E _) fun filename => ?_
  refine .bind (silent_host _) fun _ => .bind (silent_deleteFile _ _) fun _ => ?_
  exact answers_respond _ (.inr (.inr rfl))

theorem answers_handleRequest : Answers (handleRequest E request payload) := by
  have hgate : Silent (turnedAway request) := by
    apply Issues.attempt _ fun _ => .done _
    split_ifs
    · exact .done _
    · exact .bind (silent_host _) fun found => .done _
  refine .bind hgate fun away => ?_
  split_ifs
  · exact .guarded (answers_respond _ (.inr (.inl rfl)))
  rw [dispatch_eq]
  cases kindOf request.code with
  | register => exact answers_handleClientRegistration payload
  | sendPublicKey => exact answers_sendAesKeyToClient E request payload
  | sendFile => exact answers_handleFileRequest E request
  | cksumOk => exact answers_handleCksumOk E request
  | cksumErr => exact answers_handleCksumErr request
  | cksumErrFinal => exact answers_handleCksumErrFinal E request
  | unknown => exact .done _

end Handlers

/-- A handler's writes are nothing or one response. -/
theorem handled_sends {δ : Type} [FileSystem δ] (E : Externals) (env : Draws) (d : Delivery)
    (request : Request) (payload : Bytes) (w : World δ) :
    ∃ pieces, (handled E env d request payload w).conn.sent = w.conn.sent ++ pieces ∧
      Answer pieces.flatten := by
  have hrun := (answers_handleRequest E request payload).run (machine E env d)
    (R := fun g w' => ∃ pieces, w'.conn.sent = w.conn.sent ++ pieces ∧ g = some pieces.flatten)
    (s := w) ?_ ⟨[], (List.append_nil _).symm, rfl⟩
  · obtain ⟨g, ⟨pieces, hsent, hg⟩, hanswer⟩ := hrun
    exact ⟨pieces, hsent, hanswer _ hg⟩
  · rintro g c w' - ⟨pieces, hsent, hg⟩
    cases c with
    | send data =>
      refine ⟨pieces ++ [data], ?_, ?_⟩
      · simp [machine, Conn.push, hsent]
      · simp [sending, sentAfter, machine, hg]
    | recv n =>
      refine ⟨pieces, hsent, ?_⟩
      simpa [sending, sentAfter] using hg
    | host c =>
      refine ⟨pieces, hsent, ?_⟩
      simpa [sending, sentAfter] using hg

def readReply (c : Client) : (Response × Option (ℕ × Bytes × ℕ)) × Client :=
  let (response, c) := readResponse c
  if response.code = serverCodeCksumReady then
    let (report, c) := readReport c
    ((response, some report), c)
  else ((response, none), c)

section Reads

variable (E : Externals) (c : Client)

theorem inbox_reSendFileToServer : (reSendFileToServer E c).inbox = c.inbox := by
  obtain ⟨cksum, item, hsend⟩ := reSendFileToServer_item E c
  rw [hsend]
  rfl

theorem inbox_handleFileResponse : (handleFileResponse E c).inbox = (readReport c).2.inbox := by
  rw [handleFileResponse_read, compareCksums]
  split_ifs
  · rfl
  · rw [inbox_reSendFileToServer]
    rfl
  · rfl

theorem inbox_saveRegistrationDetails (clientId : Bytes) :
    (saveRegistrationDetails clientId c).inbox = c.inbox := by
  unfold saveRegistrationDetails
  split_ifs <;> rfl

theorem inbox_handleAESKeyFromServer (payload : Bytes) :
    (handleAESKeyFromServer E payload c).inbox = c.inbox := by
  unfold handleAESKeyFromServer
  cases E.oaepDecrypt (E.base64Decode c.privateKey) payload <;> rfl

/-- A call consumes what is read of its response. -/
theorem inbox_receiveResponseFromServer :
    (receiveResponseFromServer E c).inbox = (readReply c).2.inbox := by
  rw [receiveResponseFromServer_read, readReply]
  generalize readResponse c = read
  obtain ⟨response, c'⟩ := read
  simp only [handleResponse]
  by_cases hcode : response.code = serverCodeCksumReady
  · rw [if_neg (by rw [hcode]; decide), if_neg (by rw [hcode]; decide), if_pos hcode, if_pos hcode,
      inbox_handleFileResponse]
    rfl
  · rw [if_neg hcode]
    split_ifs
    · rw [inbox_saveRegistrationDetails]
    · rw [inbox_handleAESKeyFromServer]
    · rfl

end Reads

namespace Reply

/-- What a client that misses nothing has of a response. -/
def read (reply : Reply) : Response × Option (ℕ × Bytes × ℕ) :=
  (⟨serverVersion, reply.code, reply.clientId, reply.payload, reply.payload.length⟩,
    reply.report.map fun report => (report.contentSize, report.filename, report.cksum))

variable {c : Client} {reply : Reply} {rest : Bytes}

theorem readReply_encode (h : c.inbox = reply.encode ++ rest) :
    readReply c = (reply.read, { c with awaiting := false, inbox := rest }) := by
  have hhead : c.inbox = responseHead reply.code reply.payload.length reply.clientId ++
      (reply.payload ++ (reply.tail ++ rest)) := by
    simp [h, encode]
  have hresponse := readResponse_eq reply.code_lt reply.clientId_length reply.payload_lt hhead
  rw [readReply, hresponse]
  cases hreport : reply.report with
  | none =>
    have hcode : reply.code ≠ serverCodeCksumReady := fun he => by
      simpa [hreport] using reply.report_iff.mpr he
    simp [hcode, read, tail, hreport]
  | some report =>
    have hcode : reply.code = serverCodeCksumReady := reply.report_iff.mp (by rw [hreport]; rfl)
    have htail : reply.tail ++ rest = leBytes 4 report.contentSize ++
        (report.filename ++ (leBytes 4 report.cksum ++ rest)) := by
      simp [tail, hreport, Report.encode]
    have hread := readReport_eq (c := { c with awaiting := false, inbox := reply.tail ++ rest })
      report.filename_length report.cksum_lt htail
    simp only [hcode, ↓reduceIte, hread, Nat.mod_eq_of_lt report.contentSize_lt, read, hreport,
      Option.map_some]

end Reply

theorem onesId_length : (List.replicate 16 (1 : UInt8)).length = 16 := List.length_replicate

theorem aField_length : (List.replicate 255 (97 : UInt8)).length = 255 := List.length_replicate

theorem serverCodeCksumReady_lt : serverCodeCksumReady < 65536 := by decide

def twoReplies : List Reply :=
  [told (List.replicate 16 1) serverCodeMessageReceived tells_messageReceived,
    { code := serverCodeCksumReady
      clientId := List.replicate 16 1
      payload := []
      report := some ⟨3, List.replicate 255 97, 7, by decide, aField_length, by decide⟩
      code_lt := serverCodeCksumReady_lt
      clientId_length := onesId_length
      payload_lt := noPayload_lt
      report_iff := ⟨fun _ => rfl, fun _ => rfl⟩ }]

end EncryptedTransfer.ServerReplies
