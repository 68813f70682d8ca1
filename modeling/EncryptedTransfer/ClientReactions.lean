import EncryptedTransfer.KeyAgreement
import EncryptedTransfer.ServerReplies

/-!
# The client and any server

A client that awaits a response is given a whole one, whatever it says.
-/
namespace EncryptedTransfer.ClientReactions
open ServerStores hiding Client Client.new
open ByteFormats ServerCalls ServerHandlers ServerEffects
open CryptoLaws ClientProcess Network ClientMessages KeyAgreement ServerReplies

/-- The response a client awaits arrives and is handled. -/
def react (E : Externals) (reply : Reply) (c : Client) : Client :=
  if c.awaiting then receiveResponseFromServer E { c with inbox := c.inbox ++ reply.encode } else c

def afterReplies (E : Externals) (replies : ℕ → Reply) (c : Client) : ℕ → Client
  | 0 => c
  | n + 1 => react E (replies n) (afterReplies E replies c n)

/-- The states of a client: its methods are called, responses arrive, its files change. -/
inductive Reached (E : Externals) : Client → Prop
  | new (files : Bytes → Option Bytes) (connects : Bool) : Reached E (Client.new files connects)
  | call {c : Client} (h : c.awaiting = false) (method : Method) (hc : Reached E c) :
      Reached E (method.run E c)
  | react {c : Client} (reply : Reply) (hc : Reached E c) : Reached E (react E reply c)
  | edit {c : Client} (files : Bytes → Option Bytes) (hc : Reached E c) :
      Reached E { c with files := files }

/-- Whether a response reports this checksum. -/
def reports (cksum : UInt32) (reply : Reply) : Bool :=
  reply.report.any (fun report => UInt32.ofNat report.cksum = cksum)

section Reactions

variable {E : Externals} {c : Client} {reply : Reply}

theorem react_idle (h : c.awaiting = false) : react E reply c = c := by
  rw [react, h]
  rfl

theorem afterReplies_idle {replies : ℕ → Reply} {n : ℕ}
    (h : (afterReplies E replies c n).awaiting = false) (k : ℕ) :
    afterReplies E replies c (n + k) = afterReplies E replies c n := by
  induction k with
  | zero => rfl
  | succ k ih =>
    rw [← Nat.add_assoc, afterReplies, ih]
    exact react_idle h

variable (hawait : c.awaiting = true) (hin : c.inbox = [])
include hawait hin

theorem react_eq : react E reply c = handleResponse E reply.read.1 { c with
    awaiting := false
    inbox := reply.tail
    responseCodes := c.responseCodes ++ [reply.code] } := by
  have hinbox : c.inbox ++ reply.encode = responseHead reply.code reply.payload.length
      reply.clientId ++ (reply.payload ++ reply.tail) := by
    rw [hin]
    rfl
  rw [react, if_pos hawait]
  exact receiveResponseFromServer_eq E reply.code_lt reply.clientId_length reply.payload_lt hinbox

theorem react_report {report : Report} (hreport : reply.report = some report) :
    react E reply c = compareCksums E report.filename report.cksum { c with
      awaiting := false
      inbox := []
      responseCodes := c.responseCodes ++ [serverCodeCksumReady] } := by
  have hcode : reply.code = serverCodeCksumReady := reply.report_iff.mp (by rw [hreport]; rfl)
  have htail : reply.tail = leBytes 4 report.contentSize ++
      (report.filename ++ (leBytes 4 report.cksum ++ [])) := by
    simp [Reply.tail, hreport, Report.encode]
  have hhandle (c : Client) : handleResponse E reply.read.1 c = handleFileResponse E c := by
    rw [handleResponse, show reply.read.1.code = serverCodeCksumReady from hcode]
    rfl
  rw [react_eq hawait hin, hhandle, handleFileResponse_read,
    readReport_eq report.filename_length report.cksum_lt htail, hcode]

theorem react_other (hreport : reply.report = none) : ∃ hex bytes key files,
    (bytes = c.clientIdBytes ∨ bytes = reply.clientId) ∧ react E reply c = { c with
      awaiting := false
      inbox := []
      responseCodes := c.responseCodes ++ [reply.code]
      clientIdHex := hex
      clientIdBytes := bytes
      aesKey := key
      files := files } := by
  have hcode : reply.read.1.code ≠ serverCodeCksumReady := fun he => by
    simpa [hreport] using reply.report_iff.mpr he
  have htail : reply.tail = [] := by simp [Reply.tail, hreport]
  rw [react_eq hawait hin, htail, handleResponse]
  by_cases hregistered : reply.read.1.code = serverCodeRegistrationOk
  · rw [if_pos hregistered, saveRegistrationDetails]
    split_ifs
    · exact ⟨_, _, _, _, .inl rfl, rfl⟩
    · exact ⟨_, _, _, _, .inr rfl, rfl⟩
  rw [if_neg hregistered]
  by_cases hkeys : reply.read.1.code = serverCodeSwitchingKeys
  · rw [if_pos hkeys, handleAESKeyFromServer]
    cases E.oaepDecrypt (E.base64Decode c.privateKey) reply.read.1.payload with
    | none => exact ⟨_, _, _, _, .inl rfl, rfl⟩
    | some key => exact ⟨_, _, key, _, .inl rfl, rfl⟩
  rw [if_neg hkeys, if_neg hcode]
  exact ⟨_, _, _, _, .inl rfl, rfl⟩

theorem react_acknowledged (hcode : reply.code = serverCodeMessageReceived) :
    react E reply c = { c with
      awaiting := false
      inbox := []
      responseCodes := c.responseCodes ++ [serverCodeMessageReceived] } := by
  have hreport : reply.report = none := by
    by_contra hsome
    have hready := reply.report_iff.mp (Option.isSome_iff_ne_none.mpr hsome)
    rw [hcode] at hready
    exact absurd hready (by decide)
  have htail : reply.tail = [] := by simp [Reply.tail, hreport]
  rw [react_eq hawait hin, htail, handleResponse, show reply.read.1.code = serverCodeMessageReceived
    from hcode, hcode]
  rfl

end Reactions

def namedOf (c : Client) (code : ℕ) (field : Bytes) : Bytes :=
  (⟨c.clientIdBytes, code, field, []⟩ : ClientRequest).header ++ field.take 255

def uploadOf (E : Externals) (c : Client) (file : Bytes) : Bytes :=
  let item := itemOf E c file
  (⟨c.clientIdBytes, clientCodeSendFile, [], []⟩ : ClientRequest).header ++
    ((item.clientId ++ leBytes 4 item.contentSize) ++ (resize 255 item.filename ++
      item.messageContent.take item.contentSize))

/-- The checksum the client notes of a file. -/
def cksumOf (file : Bytes) : UInt32 :=
  Cksum.Client.calculateCksum (file.take (file.length % 2 ^ 32))
    (UInt32.ofNat (file.length % 2 ^ 32))

/-- The file a call of `sendFileToServer` would send. -/
def fileToSend (c : Client) : Option Bytes :=
  if c.connectedToServer ∧ c.clientIdHex ≠ [] ∧ (loadFilePath c).1 ∧ c.aesKey.length = 16 then
    (loadFilePath c).2.files (loadFilePath c).2.filePath
  else none

def posted (requests : List (ℕ × Bytes)) (c : Client) : Client :=
  { c with
    outbox := c.outbox ++ requests.map Prod.snd
    requestCodes := c.requestCodes ++ requests.map Prod.fst }

def first (E : Externals) (c : Client) (file : Bytes) : Client :=
  await (posted [(clientCodeSendFile, uploadOf E (loadFilePath c).2 file)]
    { (loadFilePath c).2 with cksumOfLastFile := cksumOf file })

section Sending

variable {E : Externals} {c : Client} {file : Bytes}

theorem sendRequestToServer_named {code : ℕ} (hcode : NamesFile code) (field : Bytes)
    (c' : Client) : sendRequestToServer ⟨c.clientIdBytes, code, field, []⟩ c' =
      posted [(code, namedOf c code field)] c' := by
  have hnames : code = clientCodeCksumOk ∨ code = clientCodeCksumErr ∨
      code = clientCodeCksumErrFinal := hcode
  rw [sendRequestToServer, if_pos hnames]
  rfl

theorem fileToSend_eq_some : fileToSend c = some file ↔
    (c.connectedToServer = true ∧ c.clientIdHex ≠ [] ∧ (loadFilePath c).1 = true ∧
      c.aesKey.length = 16) ∧ (loadFilePath c).2.files (loadFilePath c).2.filePath = some file := by
  unfold fileToSend
  split_ifs with hready
  · exact ⟨fun h => ⟨hready, h⟩, fun h => h.2⟩
  · constructor
    · intro h
      cases h
    · exact fun h => absurd h.1 hready

theorem sendFileToServer_some (h : fileToSend c = some file) :
    sendFileToServer E c = first E c file := by
  obtain ⟨⟨hconnected, hattached, hloaded, hkey⟩, hfile⟩ := fileToSend_eq_some.mp h
  obtain ⟨path, hpath⟩ := loadFilePath_eq c
  have hcontent : loadFileContent E (loadFilePath c).2 =
      some (itemOf E (loadFilePath c).2 file, noted (loadFilePath c).2 file) := by
    refine loadFileContent_eq_some.mpr ⟨file, hfile, ?_, rfl, rfl⟩
    rw [hpath]
    exact hkey
  rw [sendFileToServer, if_pos ⟨hconnected, hattached⟩]
  simp only [hloaded, ↓reduceIte, hcontent]
  rfl

theorem sendFileToServer_none (h : fileToSend c = none) :
    ∃ path, sendFileToServer E c = { c with filePath := path } := by
  obtain ⟨path, hpath⟩ := loadFilePath_eq c
  by_cases hready : c.connectedToServer ∧ c.clientIdHex ≠ []
  · rw [sendFileToServer, if_pos hready]
    cases hloaded : (loadFilePath c).1 with
    | false =>
      refine ⟨path, ?_⟩
      simp only [hloaded, Bool.false_eq_true, ↓reduceIte, hpath]
    | true =>
      cases hcontent : loadFileContent E (loadFilePath c).2 with
      | none =>
        refine ⟨path, ?_⟩
        simp only [hloaded, ↓reduceIte, hcontent]
        exact hpath
      | some loaded =>
        obtain ⟨item, c'⟩ := loaded
        obtain ⟨file, hfile, hkey, -, -⟩ := loadFileContent_eq_some.mp hcontent
        rw [hpath] at hkey
        rw [fileToSend_eq_some.mpr ⟨⟨hready.1, hready.2, hloaded, hkey⟩, hfile⟩] at h
        cases h
  · rw [sendFileToServer, if_neg hready]
    exact ⟨c.filePath, rfl⟩

/-- Something is sent again in any case. -/
theorem reSendFileToServer_codes (c : Client) :
    (reSendFileToServer E c).requestCodes = c.requestCodes ++ [clientCodeSendFile] := by
  obtain ⟨cksum, item, hsend⟩ := reSendFileToServer_item E c
  rw [hsend]
  rfl

theorem reSendFileToServer_some (hkey : c.aesKey.length = 16)
    (hfile : c.files c.filePath = some file) : reSendFileToServer E c =
      await (posted [(clientCodeSendFile, uploadOf E c file)]
        { c with cksumOfLastFile := cksumOf file }) := by
  have hcontent : loadFileContent E c = some (itemOf E c file, noted c file) :=
    loadFileContent_eq_some.mpr ⟨file, hfile, hkey, rfl, rfl⟩
  rw [reSendFileToServer, hcontent]
  rfl

end Sending

section Invariants

variable {E : Externals} {c : Client}

/-- The trials are counted from one to four, and what has arrived is read. -/
structure Settled (c : Client) : Prop where
  inbox : c.inbox = []
  pos : 1 ≤ c.numberOfTrialsTOSendFile
  le : c.numberOfTrialsTOSendFile ≤ numberOfFileSending

theorem settled_new (files : Bytes → Option Bytes) (connects : Bool) :
    Settled (Client.new files connects) := by
  have hle : 1 ≤ numberOfFileSending := by decide
  obtain ⟨name, hex, bytes, key, connected, -, -, hnew⟩ := new_eq files connects
  rw [hnew]
  exact ⟨rfl, Nat.le_refl 1, hle⟩

theorem settled_call (h : Settled c) (method : Method) : Settled (method.run E c) := by
  cases method with
  | registerToServer =>
    simp only [Method.run, registerToServer]
    split_ifs
    · exact ⟨h.inbox, h.pos, h.le⟩
    · exact h
  | generateRSAKeyPair pair =>
    simp only [Method.run, generateRSAKeyPair, savePrivateKey]
    split_ifs
    · exact ⟨h.inbox, h.pos, h.le⟩
    · exact ⟨h.inbox, h.pos, h.le⟩
    · exact h
  | sendFileToServer =>
    obtain ⟨path, cksum, outbox, awaiting, codes, hsend⟩ := sendFileToServer_frame E c
    rw [Method.run, hsend]
    exact ⟨h.inbox, h.pos, h.le⟩

theorem settled_reSendFileToServer (h : Settled c) : Settled (reSendFileToServer E c) := by
  rw [reSendFileToServer]
  cases hload : loadFileContent E c with
  | none => exact ⟨h.inbox, h.pos, h.le⟩
  | some loaded =>
    obtain ⟨item, c'⟩ := loaded
    obtain ⟨file, -, -, -, rfl⟩ := loadFileContent_eq_some.mp hload
    exact ⟨h.inbox, h.pos, h.le⟩

theorem settled_compareCksums (h : Settled c) (filename : Bytes) (cksum : ℕ) :
    Settled (compareCksums E filename cksum c) := by
  have hle : 1 ≤ numberOfFileSending := by decide
  rw [compareCksums]
  split_ifs with hsame hleft
  · exact ⟨h.inbox, h.pos, h.le⟩
  · exact settled_reSendFileToServer ⟨h.inbox, Nat.succ_le_succ (Nat.zero_le _), hleft⟩
  · exact ⟨h.inbox, Nat.le_refl 1, hle⟩

theorem settled_react (h : Settled c) (reply : Reply) : Settled (react E reply c) := by
  cases hawait : c.awaiting with
  | false =>
    rw [react_idle hawait]
    exact h
  | true =>
    cases hreport : reply.report with
    | none =>
      obtain ⟨hex, bytes, key, files, -, heq⟩ := react_other (E := E) hawait h.inbox hreport
      rw [heq]
      exact ⟨rfl, h.pos, h.le⟩
    | some report =>
      rw [react_report hawait h.inbox hreport]
      exact settled_compareCksums (c := { c with
        awaiting := false
        inbox := []
        responseCodes := c.responseCodes ++ [serverCodeCksumReady] }) ⟨rfl, h.pos, h.le⟩ _ _

theorem Reached.settled (h : Reached E c) : Settled c := by
  induction h with
  | new files connects => exact settled_new files connects
  | call _ method _ ih => exact settled_call ih method
  | react reply _ ih => exact settled_react ih reply
  | edit files _ ih => exact ⟨ih.inbox, ih.pos, ih.le⟩

end Invariants

def keyReply : Reply where
  code := serverCodeSwitchingKeys
  clientId := List.replicate 16 1
  payload := List.replicate 16 2
  report := none
  code_lt := by decide
  clientId_length := onesId_length
  payload_lt := by decide
  report_iff := by decide

def reportOf (cksum : UInt32) : Reply where
  code := serverCodeCksumReady
  clientId := List.replicate 16 1
  payload := []
  report := some ⟨16, List.replicate 255 97, cksum.toNat, by decide, aField_length, cksum.toNat_lt⟩
  code_lt := serverCodeCksumReady_lt
  clientId_length := onesId_length
  payload_lt := noPayload_lt
  report_iff := ⟨fun _ => rfl, fun _ => rfl⟩

def acknowledgement : Reply :=
  told (List.replicate 16 1) serverCodeMessageReceived tells_messageReceived

theorem reports_reportOf (cksum cksum' : UInt32) :
    reports cksum' (reportOf cksum) = decide (cksum = cksum') := by
  change decide (UInt32.ofNat cksum.toNat = cksum') = _
  rw [UInt32.ofNat_toNat]

def registeredA : Client :=
  react plainCiphers (told (List.replicate 16 1) serverCodeRegistrationOk tells_registrationOk)
    (Method.registerToServer.run plainCiphers (Client.new filesOfA true))

def keyedA : Client :=
  react plainCiphers keyReply
    ((Method.generateRSAKeyPair keyPairOfA).run plainCiphers registeredA)

theorem reached_keyedA : Reached plainCiphers keyedA := by
  have hnew : (Client.new filesOfA true).awaiting = false := by decide +kernel
  have hregistered : registeredA.awaiting = false := by decide +kernel
  exact .react keyReply (.call hregistered _ (.react _ (.call hnew _ (.new filesOfA true))))

theorem keyedA_ready : keyedA.awaiting = false ∧ keyedA.numberOfTrialsTOSendFile = 1 ∧
    fileToSend keyedA = some [7] := by
  decide +kernel

end EncryptedTransfer.ClientReactions
