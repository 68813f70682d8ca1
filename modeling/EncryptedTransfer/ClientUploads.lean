import EncryptedTransfer.ClientReactions
import EncryptedTransfer.Histories

/-!
# What the client uploads

A client among files that others may lock: such a file is there and has a size, but it cannot be
opened. `readFile` does not notice, and leaves its new buffer as it was allocated. Every upload is
kept with the bytes that were read for it.
-/
namespace EncryptedTransfer.ClientUploads
open ServerStores hiding Client Client.new
open ByteFormats Text ServerCalls ServerHandlers ServerEffects CryptoLaws ClientProcess Network
open ClientMessages KeyAgreement ServerReplies ClientReactions Histories

/-- The client's machine during one step: its files, those that cannot be opened, and what new
buffers hold. -/
structure Surroundings where
  files : Bytes → Option Bytes
  locked : Bytes → Bool
  memory : ℕ → Bytes
  memory_length : ∀ n, (memory n).length = n

inductive Event where
  /-- The key in the payload of a 2102 response. -/
  | decrypted (payload key : Bytes)
  /-- An item is passed to `sendRequestToServer` by the client with this id; `read` is what was
  read of the file. -/
  | uploaded (clientId : Bytes) (item : FileItem) (read : Option Bytes)

structure Session where
  client : Client
  events : List Event

/-- Of `std::filesystem::file_size` 32 bits are kept. -/
def fileSize (file : Bytes) : ℕ := file.length % 2 ^ 32

namespace Surroundings

variable (E : Externals) (env : Surroundings)

def opened (path : Bytes) : Option Bytes := if env.locked path then none else env.files path

def bytesRead (path : Bytes) : Option Bytes :=
  (env.files path).map (fun file => if env.locked path then [] else file.take (fileSize file))

def buffer (path : Bytes) : Option Bytes :=
  (env.files path).map (fun file =>
    if env.locked path then env.memory (fileSize file) else file.take (fileSize file))

def loadFilePath (c : Client) : Bool × Client :=
  if (env.files serverFilePath).isSome then
    let (found, line) := readLine (env.opened serverFilePath) 3 c.filePath
    if found then (true, { c with filePath := line.map tolower })
    else (false, { c with filePath := line })
  else (false, c)

def loadFileContent (c : Client) : Option (FileItem × Client) :=
  (env.buffer c.filePath).bind fun buffer =>
    (encryptContent E buffer c).map fun encrypted =>
      (.new c.clientIdBytes (fileNameOf c.filePath) encrypted,
        { c with
          cksumOfLastFile := Cksum.Client.calculateCksum buffer (UInt32.ofNat buffer.length) })

/-- `sendRequestToServer(request, fileItem)`, and the wait for the response. -/
def upload (item : FileItem) (s : Session) : Session where
  client := await (sendFileItem ⟨s.client.clientIdBytes, clientCodeSendFile, [], []⟩ item s.client)
  events := s.events ++
    [.uploaded s.client.clientIdBytes item (env.bytesRead s.client.filePath)]

def sendFileToServer (s : Session) : Session :=
  if s.client.connectedToServer ∧ s.client.clientIdHex ≠ [] then
    let (loaded, c) := env.loadFilePath s.client
    if loaded then
      match env.loadFileContent E c with
      | some (item, c) => env.upload item ⟨c, s.events⟩
      | none => ⟨c, s.events⟩
    else ⟨c, s.events⟩
  else s

def reSendFileToServer (s : Session) : Session :=
  let (item, c) := (env.loadFileContent E s.client).getD (.empty, s.client)
  env.upload item ⟨c, s.events⟩

def handleAESKeyFromServer (payload : Bytes) (s : Session) : Session :=
  match E.oaepDecrypt (E.base64Decode s.client.privateKey) payload with
  | some aesKey => ⟨{ s.client with aesKey := aesKey }, s.events ++ [.decrypted payload aesKey]⟩
  | none => s

def handleFileResponse (s : Session) : Session :=
  let ((_, filename, cksum), c) := readReport s.client
  if c.cksumOfLastFile = UInt32.ofNat cksum then
    ⟨await (sendRequestToServer ⟨c.clientIdBytes, clientCodeCksumOk, filename, []⟩ c), s.events⟩
  else if c.numberOfTrialsTOSendFile < numberOfFileSending then
    let c := { c with numberOfTrialsTOSendFile := c.numberOfTrialsTOSendFile + 1 }
    env.reSendFileToServer E
      ⟨sendRequestToServer ⟨c.clientIdBytes, clientCodeCksumErr, filename, []⟩ c, s.events⟩
  else
    let c := { c with numberOfTrialsTOSendFile := 1, cksumOfLastFile := 0 }
    ⟨await (sendRequestToServer ⟨c.clientIdBytes, clientCodeCksumErrFinal, filename, []⟩ c),
      s.events⟩

def handleResponse (response : Response) (s : Session) : Session :=
  if response.code = serverCodeRegistrationOk then
    ⟨saveRegistrationDetails response.clientId s.client, s.events⟩
  else if response.code = serverCodeSwitchingKeys then
    handleAESKeyFromServer E response.payload s
  else if response.code = serverCodeCksumReady then env.handleFileResponse E s
  else s

def receiveResponseFromServer (s : Session) : Session :=
  let (response, c) := readResponse s.client
  env.handleResponse E response
    ⟨{ c with responseCodes := c.responseCodes ++ [response.code] }, s.events⟩

end Surroundings

/-- A client that awaits nothing calls a method, one that awaits a response is given a whole one;
the files are whatever they are at that time. -/
inductive Step where
  | call (method : Method) (env : Surroundings)
  | respond (reply : Reply) (env : Surroundings)

section Runs

variable (E : Externals)

def Session.call (s : Session) (env : Surroundings) : Method → Session
  | .sendFileToServer => env.sendFileToServer E s
  | method => ⟨method.run E s.client, s.events⟩

def Session.step (s : Session) : Step → Session
  | .call method env =>
    if s.client.awaiting then s
    else Session.call E ⟨{ s.client with files := env.files }, s.events⟩ env method
  | .respond reply env =>
    if s.client.awaiting then
      env.receiveResponseFromServer E
        ⟨{ s.client with files := env.files, inbox := s.client.inbox ++ reply.encode }, s.events⟩
    else s

def Session.start (files : Bytes → Option Bytes) (connects : Bool) : Session :=
  ⟨Client.new files connects, []⟩

def Session.after (s : Session) (steps : List Step) : Session := steps.foldl (Session.step E) s

end Runs

section Unlocked

variable {E : Externals} {env : Surroundings} (h : ∀ path, env.locked path = false)
include h

theorem unlocked_loadFilePath {c : Client} (hfiles : c.files = env.files) :
    env.loadFilePath c = ClientProcess.loadFilePath c := by
  simp only [Surroundings.loadFilePath, ClientProcess.loadFilePath, Surroundings.opened, h,
    Bool.false_eq_true, ↓reduceIte, hfiles]

theorem unlocked_loadFileContent {c : Client} (hfiles : c.files = env.files) :
    env.loadFileContent E c = ClientProcess.loadFileContent E c := by
  simp only [Surroundings.loadFileContent, ClientProcess.loadFileContent, Surroundings.buffer, h,
    Bool.false_eq_true, ↓reduceIte, hfiles]
  cases env.files c.filePath with
  | none => rfl
  | some file =>
    have hlen : (file.take (fileSize file)).length = file.length % 2 ^ 32 := by
      rw [List.length_take, fileSize, min_eq_left (Nat.mod_le _ _)]
    simp only [Option.map_some, Option.bind_some, hlen]
    rfl

theorem unlocked_reSendFileToServer {s : Session} (hfiles : s.client.files = env.files) :
    (env.reSendFileToServer E s).client = ClientProcess.reSendFileToServer E s.client := by
  rw [Surroundings.reSendFileToServer, ClientProcess.reSendFileToServer,
    unlocked_loadFileContent h hfiles]
  rfl

theorem unlocked_sendFileToServer {s : Session} (hfiles : s.client.files = env.files) :
    (env.sendFileToServer E s).client = ClientProcess.sendFileToServer E s.client := by
  obtain ⟨path, hpath⟩ := loadFilePath_eq s.client
  have hkept : (ClientProcess.loadFilePath s.client).2.files = env.files := by
    rw [hpath]
    exact hfiles
  rw [Surroundings.sendFileToServer, ClientProcess.sendFileToServer, unlocked_loadFilePath h hfiles]
  simp only [unlocked_loadFileContent h hkept]
  split_ifs
  · cases ClientProcess.loadFileContent E (ClientProcess.loadFilePath s.client).2 <;> rfl
  · rfl
  · rfl

theorem unlocked_handleFileResponse {s : Session} (hfiles : s.client.files = env.files) :
    (env.handleFileResponse E s).client = ClientProcess.handleFileResponse E s.client := by
  have hkept : (readReport s.client).2.files = env.files := hfiles
  rw [Surroundings.handleFileResponse, handleFileResponse_read, compareCksums]
  simp only
  split_ifs
  · rfl
  · exact unlocked_reSendFileToServer h hkept
  · rfl

theorem unlocked_receiveResponseFromServer {s : Session} (hfiles : s.client.files = env.files) :
    (env.receiveResponseFromServer E s).client =
      ClientProcess.receiveResponseFromServer E s.client := by
  obtain ⟨starved, hread, -⟩ := readResponse_spec s.client
  have hkept : (readResponse s.client).2.files = env.files := by
    rw [hread]
    exact hfiles
  simp only [receiveResponseFromServer_read, Surroundings.receiveResponseFromServer,
    Surroundings.handleResponse, ClientProcess.handleResponse]
  split_ifs
  · rfl
  · simp only [Surroundings.handleAESKeyFromServer, ClientProcess.handleAESKeyFromServer]
    cases E.oaepDecrypt (E.base64Decode (readResponse s.client).2.privateKey)
      (readResponse s.client).1.payload <;> rfl
  · exact unlocked_handleFileResponse h hkept
  · rfl

/-- The client is the one of the model in which every file can be opened. -/
theorem unlocked_call {s : Session} (hidle : s.client.awaiting = false) (method : Method) :
    (s.step E (.call method env)).client =
      method.run E { s.client with files := env.files } := by
  rw [Session.step, hidle]
  cases method with
  | sendFileToServer => exact unlocked_sendFileToServer h rfl
  | _ => rfl

theorem unlocked_respond {s : Session} (hawait : s.client.awaiting = true) (reply : Reply) :
    (s.step E (.respond reply env)).client =
      react E reply { s.client with files := env.files } := by
  rw [Session.step, if_pos hawait, react, if_pos hawait]
  exact unlocked_receiveResponseFromServer h rfl

end Unlocked

def Step.env : Step → Surroundings
  | .call _ env | .respond _ env => env

/-- The path of the file a step loads. -/
def Session.loads (s : Session) : Step → Option Bytes
  | .call .sendFileToServer env =>
    if s.client.awaiting = false ∧ s.client.connectedToServer ∧ s.client.clientIdHex ≠ [] ∧
        (env.loadFilePath s.client).1 then
      some (env.loadFilePath s.client).2.filePath
    else none
  | .call _ _ => none
  | .respond reply _ => reply.report.bind (fun report =>
    if s.client.awaiting ∧ s.client.cksumOfLastFile ≠ UInt32.ofNat report.cksum ∧
        s.client.numberOfTrialsTOSendFile < numberOfFileSending then
      some s.client.filePath
    else none)

def Step.Resends : Step → Prop
  | .call _ _ => False
  | .respond _ _ => True

/-- A change of the client that sends no file and no key is stored by. -/
structure Quiet (c c' : Client) : Prop where
  aesKey : c'.aesKey = c.aesKey
  idLength : c.clientIdBytes.length = 16 → c'.clientIdBytes.length = 16
  inbox : c'.inbox = []
  posts : ∃ requests : List (ℕ × Bytes), (∀ request ∈ requests, request.1 ≠ clientCodeSendFile) ∧
    c'.outbox = c.outbox ++ requests.map Prod.snd ∧
    c'.requestCodes = c.requestCodes ++ requests.map Prod.fst

inductive Effect (E : Externals) (s : Session) (step : Step) : Session → Prop
  | quiet (c : Client) (h : Quiet s.client c) (hload : ∀ path, s.loads step = some path →
      ¬ step.Resends ∧ ¬ (s.client.aesKey.length = 16 ∧ (step.env.files path).isSome)) :
      Effect E s step ⟨c, s.events⟩
  | keyed (payload key : Bytes) (c : Client) (h : Quiet s.client c)
      (hload : s.loads step = none) :
      Effect E s step ⟨{ c with aesKey := key }, s.events ++ [.decrypted payload key]⟩
  | loaded (c : Client) (file buffer : Bytes) (h : Quiet s.client c)
      (hload : s.loads step = some c.filePath) (hkey : s.client.aesKey.length = 16)
      (hfile : step.env.files c.filePath = some file)
      (hbuffer : step.env.buffer c.filePath = some buffer) :
      Effect E s step (step.env.upload (.new c.clientIdBytes (fileNameOf c.filePath)
        (E.aesEncrypt s.client.aesKey buffer)) ⟨c, s.events⟩)
  | unloaded (c : Client) (h : Quiet s.client c) (hload : s.loads step = some c.filePath)
      (hresends : step.Resends)
      (hno : ¬ (s.client.aesKey.length = 16 ∧ (step.env.files c.filePath).isSome)) :
      Effect E s step (step.env.upload .empty ⟨c, s.events⟩)

section Steps

variable {E : Externals} {s : Session} {c c' : Client}

theorem quiet_refl (h : c.inbox = []) : Quiet c c := ⟨rfl, id, h, [], by simp⟩

theorem Quiet.of_eq (h : Quiet c c') {c'' : Client} (hkey : c''.aesKey = c'.aesKey)
    (hid : c''.clientIdBytes = c'.clientIdBytes) (hinbox : c''.inbox = c'.inbox)
    (hout : c''.outbox = c'.outbox) (hcodes : c''.requestCodes = c'.requestCodes) : Quiet c c'' :=
  ⟨hkey.trans h.aesKey, fun hlen => hid ▸ h.idLength hlen, hinbox.trans h.inbox,
    by rw [hout, hcodes]; exact h.posts⟩

theorem Quiet.send (h : Quiet c c') (request : ClientRequest)
    (hcode : request.code ≠ clientCodeSendFile) : Quiet c (sendRequestToServer request c') := by
  obtain ⟨requests, hcodes, hout, hlist⟩ := h.posts
  obtain ⟨data, hdata⟩ : ∃ data, sendRequestToServer request c' = post request.code data c' :=
    ⟨_, rfl⟩
  rw [hdata]
  refine ⟨h.aesKey, h.idLength, h.inbox, requests ++ [(request.code, data)], ?_, ?_, ?_⟩
  · intro r hr
    rcases List.mem_append.mp hr with hr | hr
    · exact hcodes r hr
    · rw [List.mem_singleton.mp hr]
      exact hcode
  · simp [post, hout]
  · simp [post, hlist]

theorem Quiet.await (h : Quiet c c') : Quiet c (await c') := h.of_eq rfl rfl rfl rfl rfl

theorem loadFilePath_path (env : Surroundings) (c : Client) :
    ∃ path, (env.loadFilePath c).2 = { c with filePath := path } := by
  unfold Surroundings.loadFilePath
  split_ifs
  · obtain ⟨found, line⟩ := readLine (env.opened serverFilePath) 3 c.filePath
    simp only
    split_ifs <;> exact ⟨_, rfl⟩
  · exact ⟨c.filePath, rfl⟩

theorem loadFileContent_none {env : Surroundings} (h : env.loadFileContent E c = none) :
    ¬ (c.aesKey.length = 16 ∧ (env.files c.filePath).isSome) := by
  rintro ⟨hkey, hfile⟩
  obtain ⟨file, hfile⟩ := Option.isSome_iff_exists.mp hfile
  simp [Surroundings.loadFileContent, Surroundings.buffer, hfile, encryptContent, hkey] at h

theorem loadFileContent_some {env : Surroundings} {item : FileItem}
    (h : env.loadFileContent E c = some (item, c')) : ∃ file buffer,
      c.aesKey.length = 16 ∧ env.files c.filePath = some file ∧
      env.buffer c.filePath = some buffer ∧
      item = .new c.clientIdBytes (fileNameOf c.filePath) (E.aesEncrypt c.aesKey buffer) ∧
      c' = { c with
        cksumOfLastFile := Cksum.Client.calculateCksum buffer (UInt32.ofNat buffer.length) } := by
  simp only [Surroundings.loadFileContent, Option.bind_eq_some_iff, Option.map_eq_some_iff,
    encryptContent, Option.ite_none_right_eq_some, Option.some.injEq, Prod.mk.injEq] at h
  obtain ⟨buffer, hbuffer, encrypted, ⟨hkey, rfl⟩, rfl, rfl⟩ := h
  obtain ⟨file, hfile, -⟩ := Option.map_eq_some_iff.mp hbuffer
  exact ⟨file, buffer, hkey, hfile, hbuffer, rfl, rfl⟩

theorem loadFilePath_files (env : Surroundings) (c : Client) (files : Bytes → Option Bytes) :
    env.loadFilePath { c with files := files } =
      ((env.loadFilePath c).1, { (env.loadFilePath c).2 with files := files }) := by
  simp only [Surroundings.loadFilePath]
  split_ifs <;> rfl

theorem effect_sendFileToServer {env : Surroundings} (h : s.client.inbox = [])
    (hidle : s.client.awaiting = false) :
    Effect E s (.call .sendFileToServer env)
      (env.sendFileToServer E ⟨{ s.client with files := env.files }, s.events⟩) := by
  obtain ⟨path, hpath⟩ := loadFilePath_path env s.client
  have hquiet (path : Bytes) : Quiet s.client { s.client with files := env.files, filePath := path } :=
    (quiet_refl h).of_eq rfl rfl rfl rfl rfl
  by_cases hready : s.client.connectedToServer ∧ s.client.clientIdHex ≠ []
  swap
  · rw [Surroundings.sendFileToServer, if_neg hready]
    refine .quiet _ (hquiet s.client.filePath) ?_
    intro path' hload
    simp only [Session.loads] at hload
    split_ifs at hload with hloads
    exact absurd ⟨hloads.2.1, hloads.2.2.1⟩ hready
  rw [Surroundings.sendFileToServer, if_pos hready, loadFilePath_files, hpath]
  simp only
  cases hfound : (env.loadFilePath s.client).1 with
  | false =>
    have hloads : s.loads (.call .sendFileToServer env) = none := by
      rw [Session.loads, if_neg (by simp [hfound])]
    refine .quiet _ (hquiet path) fun path' hload => ?_
    rw [hloads] at hload
    cases hload
  | true =>
    have hloads : s.loads (.call .sendFileToServer env) = some path := by
      rw [Session.loads, if_pos ⟨hidle, hready.1, hready.2, hfound⟩, hpath]
    simp only [↓reduceIte]
    cases hcontent : env.loadFileContent E
        { s.client with files := env.files, filePath := path } with
    | none =>
      refine .quiet _ (hquiet path) ?_
      intro path' hload
      obtain rfl := Option.some.inj (hloads.symm.trans hload)
      exact ⟨id, loadFileContent_none hcontent⟩
    | some loaded =>
      obtain ⟨item, c'⟩ := loaded
      obtain ⟨file, buffer, hkey, hfile, hbuffer, rfl, rfl⟩ := loadFileContent_some hcontent
      exact .loaded { s.client with
        files := env.files
        filePath := path
        cksumOfLastFile := Cksum.Client.calculateCksum buffer (UInt32.ofNat buffer.length) } file
        buffer ((hquiet path).of_eq rfl rfl rfl rfl rfl) hloads hkey hfile hbuffer

theorem effect_reSendFileToServer (step : Step) (hquiet : Quiet s.client c)
    (hload : s.loads step = some c.filePath) (hresends : step.Resends) :
    Effect E s step (step.env.reSendFileToServer E ⟨c, s.events⟩) := by
  rw [Surroundings.reSendFileToServer]
  cases hcontent : step.env.loadFileContent E c with
  | none =>
    have hno := loadFileContent_none hcontent
    rw [hquiet.aesKey] at hno
    exact .unloaded c hquiet hload hresends hno
  | some loaded =>
    obtain ⟨item, c'⟩ := loaded
    obtain ⟨file, buffer, hkey, hfile, hbuffer, rfl, rfl⟩ := loadFileContent_some hcontent
    have heffect := Effect.loaded (E := E) { c with
        cksumOfLastFile := Cksum.Client.calculateCksum buffer (UInt32.ofNat buffer.length) } file
      buffer (hquiet.of_eq rfl rfl rfl rfl rfl) hload (by rw [← hquiet.aesKey]; exact hkey) hfile
      hbuffer
    rw [← hquiet.aesKey] at heffect
    exact heffect

theorem quiet_call (h : s.client.inbox = []) {env : Surroundings} {method : Method}
    (hmethod : method ≠ .sendFileToServer) :
    Quiet s.client (method.run E { s.client with files := env.files }) := by
  have hrefl : Quiet s.client { s.client with files := env.files } :=
    (quiet_refl h).of_eq rfl rfl rfl rfl rfl
  cases method with
  | sendFileToServer => exact absurd rfl hmethod
  | registerToServer =>
    simp only [Method.run, registerToServer]
    split_ifs
    · exact (hrefl.send _ (show clientCodeRegister ≠ clientCodeSendFile by decide)).await
    · exact hrefl
  | generateRSAKeyPair pair =>
    simp only [Method.run, generateRSAKeyPair]
    split_ifs
    · refine (Quiet.send ?_ _ (show clientCodeSendPublicKey ≠ clientCodeSendFile by decide)).await
      rw [savePrivateKey]
      split_ifs <;> exact hrefl.of_eq rfl rfl rfl rfl rfl
    · exact hrefl

theorem effect_respond {env : Surroundings} (h : s.client.inbox = [])
    (hawait : s.client.awaiting = true) (reply : Reply) :
    Effect E s (.respond reply env) (env.receiveResponseFromServer E
      ⟨{ s.client with files := env.files, inbox := s.client.inbox ++ reply.encode },
        s.events⟩) := by
  have hinbox : s.client.inbox ++ reply.encode =
      responseHead reply.code reply.payload.length reply.clientId ++ (reply.payload ++ reply.tail) := by
    rw [h]
    rfl
  have hread := readResponse_eq (c := { s.client with
    files := env.files
    inbox := s.client.inbox ++ reply.encode }) reply.code_lt reply.clientId_length reply.payload_lt
    hinbox
  simp only [Surroundings.receiveResponseFromServer, hread]
  cases hreport : reply.report with
  | none =>
    have htail : reply.tail = [] := by simp [Reply.tail, hreport]
    have hcode : reply.code ≠ serverCodeCksumReady := fun he => by
      simpa [hreport] using reply.report_iff.mpr he
    have hloads : s.loads (.respond reply env) = none := by simp [Session.loads, hreport]
    have hquiet : Quiet s.client { s.client with
        files := env.files
        awaiting := false
        inbox := reply.tail
        responseCodes := s.client.responseCodes ++ [reply.code] } :=
      (quiet_refl h).of_eq rfl rfl (htail.trans h.symm) rfl rfl
    have hstays {c : Client} (hc : Quiet s.client c) :
        Effect E s (.respond reply env) ⟨c, s.events⟩ :=
      .quiet c hc fun path hload => absurd (hloads.symm.trans hload) (Option.some_ne_none path).symm
    rw [Surroundings.handleResponse]
    split_ifs
    · apply hstays
      rw [saveRegistrationDetails]
      split_ifs
      · exact hquiet
      · exact ⟨hquiet.aesKey, fun _ => reply.clientId_length, hquiet.inbox, hquiet.posts⟩
    · rw [Surroundings.handleAESKeyFromServer]
      split
      · exact .keyed _ _ _ hquiet hloads
      · exact hstays hquiet
    · exact hstays hquiet
  | some report =>
    have hcode : reply.code = serverCodeCksumReady := reply.report_iff.mp (by rw [hreport]; rfl)
    have htail : reply.tail = leBytes 4 report.contentSize ++
        (report.filename ++ (leBytes 4 report.cksum ++ [])) := by
      simp [Reply.tail, hreport, Report.encode]
    have hother : ¬ reply.code = serverCodeRegistrationOk ∧
        ¬ reply.code = serverCodeSwitchingKeys := by
      rw [hcode]
      decide
    have hreads := readReport_eq (c := { s.client with
      files := env.files
      awaiting := false
      inbox := reply.tail
      responseCodes := s.client.responseCodes ++ [reply.code] }) report.filename_length
      report.cksum_lt htail
    have hquiet : Quiet s.client { s.client with
        files := env.files
        awaiting := false
        inbox := []
        responseCodes := s.client.responseCodes ++ [reply.code] } :=
      (quiet_refl h).of_eq rfl rfl h.symm rfl rfl
    -- the counters change besides
    have hcounted (trials : ℕ) (cksum : UInt32) : Quiet s.client { s.client with
        files := env.files
        awaiting := false
        inbox := []
        numberOfTrialsTOSendFile := trials
        cksumOfLastFile := cksum
        responseCodes := s.client.responseCodes ++ [reply.code] } :=
      hquiet.of_eq rfl rfl rfl rfl rfl
    rw [Surroundings.handleResponse, if_neg hother.1, if_neg hother.2, if_pos hcode]
    simp only [Surroundings.handleFileResponse, hreads]
    split_ifs with hsame hleft
    · refine .quiet _
        (hquiet.send _ (show clientCodeCksumOk ≠ clientCodeSendFile by decide)).await ?_
      intro path hload
      simp [Session.loads, hreport, hsame] at hload
    · refine effect_reSendFileToServer (.respond reply env) ?_ ?_ trivial
      · exact (hcounted _ _).send _ (show clientCodeCksumErr ≠ clientCodeSendFile by decide)
      · simp only [Session.loads, hreport, Option.bind_some]
        rw [if_pos ⟨hawait, hsame, hleft⟩]
        rfl
    · refine .quiet _ ((hcounted _ _).send _
        (show clientCodeCksumErrFinal ≠ clientCodeSendFile by decide)).await ?_
      intro path hload
      simp [Session.loads, hreport, hleft] at hload

theorem effect_step (h : s.client.inbox = []) (step : Step) : Effect E s step (s.step E step) := by
  cases step with
  | call method env =>
    cases hidle : s.client.awaiting with
    | true =>
      rw [Session.step, if_pos hidle]
      refine .quiet _ (quiet_refl h) fun path hload => ?_
      cases method <;> simp [Session.loads, hidle] at hload
    | false =>
      rw [Session.step, hidle]
      cases method with
      | sendFileToServer => exact effect_sendFileToServer h hidle
      | registerToServer | generateRSAKeyPair pair =>
        exact .quiet _ (quiet_call h nofun) fun path hload => nomatch hload
  | respond reply env =>
    cases hawait : s.client.awaiting with
    | false =>
      rw [Session.step, hawait]
      refine .quiet _ (quiet_refl h) fun path hload => ?_
      simp [Session.loads, hawait] at hload
    | true =>
      rw [Session.step, if_pos hawait]
      exact effect_respond h hawait reply

end Steps

/-- The bytes of an upload. -/
def Event.request : Event → Option Bytes
  | .decrypted _ _ => none
  | .uploaded clientId item _ =>
    some ((⟨clientId, clientCodeSendFile, [], []⟩ : ClientRequest).header ++
      ((item.clientId ++ leBytes 4 item.contentSize) ++ (resize 255 item.filename ++
        item.messageContent.take item.contentSize)))

/-- The send-file requests that have been written. -/
def Session.uploads (s : Session) : List Bytes :=
  ((s.client.requestCodes.zip s.client.outbox).filter
    (fun request => request.1 = clientCodeSendFile)).map Prod.snd

structure Kept (s : Session) : Prop where
  inbox : s.client.inbox = []
  idLength : s.client.clientIdBytes.length = 16
  paired : s.client.requestCodes.length = s.client.outbox.length
  uploads : s.uploads = s.events.filterMap Event.request

section Kept

variable {E : Externals} {s : Session} {c : Client}

theorem Quiet.uploads (h : Quiet s.client c)
    (hpaired : s.client.requestCodes.length = s.client.outbox.length) (events : List Event) :
    c.requestCodes.length = c.outbox.length ∧ Session.uploads ⟨c, events⟩ = s.uploads := by
  obtain ⟨requests, hcodes, hout, hlist⟩ := h.posts
  have hnone : (requests.filter (fun request => request.1 = clientCodeSendFile)) = [] :=
    List.filter_eq_nil_iff.mpr fun request hmem => by simpa using hcodes request hmem
  have hzip : (requests.map Prod.fst).zip (requests.map Prod.snd) = requests := by
    rw [List.zip_map', List.map_id']
  refine ⟨by simp [hout, hlist, hpaired], ?_⟩
  rw [Session.uploads, hout, hlist, List.zip_append hpaired, hzip, List.filter_append, hnone,
    List.append_nil]
  rfl

theorem kept_upload (h : Kept s) (hc : Quiet s.client c) (env : Surroundings) (item : FileItem) :
    Kept (env.upload item ⟨c, s.events⟩) := by
  obtain ⟨hpaired, hsame⟩ := hc.uploads h.paired s.events
  refine ⟨hc.inbox, hc.idLength h.idLength, ?_, ?_⟩
  · simp [Surroundings.upload, sendFileItem, post, await, hpaired]
  · rw [h.uploads] at hsame
    simp only [Session.uploads, Surroundings.upload, sendFileItem, post, await,
      List.filterMap_append]
    rw [List.zip_append hpaired, List.filter_append, List.map_append]
    exact congrArg₂ _ hsame (by simp [Event.request])

theorem Effect.kept {step : Step} {s' : Session} (h : Effect E s step s') (hs : Kept s) :
    Kept s' := by
  cases h with
  | quiet c hc _ =>
    obtain ⟨hpaired, hsame⟩ := hc.uploads hs.paired s.events
    exact ⟨hc.inbox, hc.idLength hs.idLength, hpaired, hsame.trans hs.uploads⟩
  | keyed payload key c hc _ =>
    obtain ⟨hpaired, hsame⟩ := hc.uploads hs.paired s.events
    refine ⟨hc.inbox, hc.idLength hs.idLength, hpaired, ?_⟩
    rw [List.filterMap_append, ← hs.uploads, ← hsame]
    exact (List.append_nil _).symm
  | loaded c file buffer hc _ _ _ _ => exact kept_upload hs hc _ _
  | unloaded c hc _ _ _ => exact kept_upload hs hc _ _

theorem kept_start (files : Bytes → Option Bytes) (connects : Bool) :
    Kept (Session.start files connects) := by
  obtain ⟨name, hex, bytes, key, connected, hlen, -, hnew⟩ := new_eq files connects
  rw [Session.start, hnew]
  exact ⟨rfl, hlen, rfl, rfl⟩

end Kept

def IsKey (event : Event) : Prop := ∃ payload key, event = .decrypted payload key

def KeyNoted (s : Session) : Prop :=
  s.client.aesKey = [] ∨
    ∃ payload since, LastOf IsKey s.events (.decrypted payload s.client.aesKey) since

def Event.read : Event → Option Bytes
  | .decrypted _ _ => none
  | .uploaded _ _ read => read

/-- The content of an upload, after its first 298 bytes, is empty or is what was read of the file,
encrypted under the last key. -/
def Encrypted (E : Externals) (past : List Event) (event : Event) : Prop :=
  ∀ request, event.request = some request → request.drop 298 = [] ∨
    ∃ payload key since bytes, LastOf IsKey past (.decrypted payload key) since ∧
      key.length = 16 ∧ event.read = some bytes ∧ request.drop 298 = E.aesEncrypt key bytes

/-- A locked file that a step loads with a key is empty, in 32 bits, or its encryption has no
length in 32 bits. -/
def Session.Opens (s : Session) (step : Step) : Prop :=
  ∀ path file, s.loads step = some path → s.client.aesKey.length = 16 →
    step.env.files path = some file → step.env.locked path = true →
      fileSize file = 0 ∨ 2 ^ 32 - 16 ≤ fileSize file

section Contents

variable {E : Externals} {s s' : Session} {step : Step} {env : Surroundings}

theorem request_drop {clientId request : Bytes} {item : FileItem} {read : Option Bytes}
    (hid : clientId.length = 16) (howner : item.clientId.length = 16)
    (h : (Event.uploaded clientId item read).request = some request) :
    request.drop 298 = item.messageContent.take item.contentSize := by
  obtain rfl := Option.some.inj h
  have hlen : ((⟨clientId, clientCodeSendFile, [], []⟩ : ClientRequest).header ++
      ((item.clientId ++ leBytes 4 item.contentSize) ++ resize 255 item.filename)).length = 298 := by
    simp [ClientRequest.header, hid, howner, length_resize]
  rw [← List.append_assoc, ← List.append_assoc, ← List.append_assoc,
    List.append_assoc (ClientRequest.header _), List.append_assoc (ClientRequest.header _)]
  exact List.drop_left' (by rw [← hlen])

theorem content_new (hE : AesLaws E) {clientId name key buffer : Bytes} (hkey : key.length = 16)
    (hbuffer : buffer.length < 2 ^ 32) :
    let item := FileItem.new clientId name (E.aesEncrypt key buffer)
    item.messageContent.take item.contentSize =
      if buffer.length < 2 ^ 32 - 16 then E.aesEncrypt key buffer else [] := by
  have hlen := hE.length_encrypt key buffer hkey
  simp only [FileItem.new]
  split_ifs with hsmall
  · rw [Nat.mod_eq_of_lt (by omega), List.take_length]
  · have hwrap : (E.aesEncrypt key buffer).length % 2 ^ 32 = 0 := by omega
    rw [hwrap, List.take_zero]

theorem buffer_eq {path file buffer : Bytes} (hfile : env.files path = some file)
    (hbuffer : env.buffer path = some buffer) : buffer.length = fileSize file ∧
      (env.locked path = false → env.bytesRead path = some buffer) ∧
      (env.locked path = true → env.bytesRead path = some []) := by
  rw [Surroundings.buffer, hfile, Option.map_some, Option.some.injEq] at hbuffer
  have hle : fileSize file ≤ file.length := Nat.mod_le _ _
  refine ⟨?_, fun hl => ?_, fun hl => ?_⟩
  · rw [← hbuffer]
    split_ifs
    · exact env.memory_length _
    · rw [List.length_take, min_eq_left hle]
  · rw [Surroundings.bytesRead, hfile, ← hbuffer, hl]
    rfl
  · rw [Surroundings.bytesRead, hfile, hl]
    rfl

theorem encrypt_inj (hE : AesLaws E) {key a b : Bytes} (hkey : key.length = 16)
    (h : E.aesEncrypt key a = E.aesEncrypt key b) : a = b := by
  have ha := hE.decrypt_encrypt key a hkey
  rw [h, hE.decrypt_encrypt key b hkey] at ha
  exact (Option.some.inj ha).symm

/-- An upload of a loaded file is the encryption of what was read, unless it was locked. -/
theorem encrypted_iff (hE : AesLaws E) (hnoted : KeyNoted s) {clientId path file buffer : Bytes}
    (hid : clientId.length = 16) (hkey : s.client.aesKey.length = 16)
    (hfile : env.files path = some file) (hbuffer : env.buffer path = some buffer) (name : Bytes) :
    Encrypted E s.events (.uploaded clientId
        (.new clientId name (E.aesEncrypt s.client.aesKey buffer)) (env.bytesRead path)) ↔
      (env.locked path = true → fileSize file = 0 ∨ 2 ^ 32 - 16 ≤ fileSize file) := by
  obtain ⟨hlen, hunlocked, hlocked⟩ := buffer_eq hfile hbuffer
  have hlt : fileSize file < 2 ^ 32 := Nat.mod_lt _ (by decide)
  have hcontent (request : Bytes) (hr : (Event.uploaded clientId
      (.new clientId name (E.aesEncrypt s.client.aesKey buffer))
        (env.bytesRead path)).request = some request) : request.drop 298 =
      if buffer.length < 2 ^ 32 - 16 then E.aesEncrypt s.client.aesKey buffer else [] :=
    (request_drop hid hid hr).trans (content_new hE hkey (hlen ▸ hlt))
  obtain ⟨payload, since, hlast⟩ : ∃ payload since,
      LastOf IsKey s.events (.decrypted payload s.client.aesKey) since := by
    rcases hnoted with hnil | hlast
    · rw [hnil] at hkey
      cases hkey
    · exact hlast
  by_cases hbig : fileSize file < 2 ^ 32 - 16
  swap
  · refine iff_of_true (fun request hr => .inl ?_) fun _ => .inr (not_lt.mp hbig)
    rw [hcontent request hr, if_neg (by rw [hlen]; exact hbig)]
  cases hl : env.locked path with
  | false =>
    refine iff_of_true (fun request hr => .inr ?_) nofun
    refine ⟨payload, _, since, buffer, hlast, hkey, hunlocked hl, ?_⟩
    rw [hcontent request hr, if_pos (by rw [hlen]; exact hbig)]
  | true =>
    simp only [true_implies]
    constructor
    · intro h
      left
      have hnone : E.aesEncrypt s.client.aesKey buffer ≠ [] := by
        intro hnil
        have henc := hE.length_encrypt s.client.aesKey buffer hkey
        rw [hnil, List.length_nil] at henc
        omega
      have hdrop := hcontent _ rfl
      rw [if_pos (by rw [hlen]; exact hbig)] at hdrop
      rcases h _ rfl with hnil | ⟨payload', key, since', bytes, hlast', _, hread, hsame⟩
      · exact absurd (hdrop.symm.trans hnil) hnone
      · obtain ⟨-, rfl⟩ := Event.decrypted.inj (hlast.unique hlast')
        obtain rfl := Option.some.inj ((hlocked hl).symm.trans hread)
        rw [← hlen, encrypt_inj hE hkey (hdrop.symm.trans hsame)]
        rfl
    · rintro (hzero | hwrap)
      · intro request hr
        have hnil : buffer = [] := List.eq_nil_of_length_eq_zero (hlen.trans hzero)
        refine .inr ⟨payload, _, since, [], hlast, hkey, hlocked hl, ?_⟩
        rw [hcontent request hr, if_pos (by rw [hlen]; exact hbig), hnil]
      · omega

theorem Effect.keyNoted (h : Effect E s step s') (hs : KeyNoted s) : KeyNoted s' := by
  have hnext {c : Client} (hc : Quiet s.client c) {events : List Event}
      (hevents : events = s.events ∨ ∃ event, events = s.events ++ [event] ∧ ¬ IsKey event) :
      KeyNoted ⟨c, events⟩ := by
    rcases hs with hnil | ⟨payload, since, hlast⟩
    · exact .inl (hc.aesKey.trans hnil)
    · right
      simp only [hc.aesKey]
      rcases hevents with rfl | ⟨event, rfl, hno⟩
      · exact ⟨payload, since, hlast⟩
      · exact ⟨payload, since ++ [event], (lastOf_concat hno).mpr ⟨since, rfl, hlast⟩⟩
  have hupload (clientId : Bytes) (item : FileItem) (read : Option Bytes) :
      ¬ IsKey (.uploaded clientId item read) := by
    rintro ⟨payload, key, he⟩
    cases he
  cases h with
  | quiet c hc _ => exact hnext hc (.inl rfl)
  | keyed payload key c _ _ => exact .inr ⟨payload, [], lastOf_now ⟨payload, key, rfl⟩⟩
  | loaded c file buffer hc _ _ _ _ =>
    exact hnext (hc.of_eq rfl rfl rfl rfl rfl) (.inr ⟨_, rfl, hupload _ _ _⟩)
  | unloaded c hc _ _ _ => exact hnext hc (.inr ⟨_, rfl, hupload _ _ _⟩)

end Contents

section Claims

variable {E : Externals} {s s' : Session} {step : Step}

theorem encrypted_decrypted (past : List Event) (payload key : Bytes) :
    Encrypted E past (.decrypted payload key) := by
  intro request hr
  cases hr

theorem Effect.encrypted (hE : AesLaws E) (h : Effect E s step s') (hs : Kept s)
    (hnoted : KeyNoted s) : Justified (Encrypted E) s'.events ↔
      Justified (Encrypted E) s.events ∧ s.Opens step := by
  cases h with
  | quiet c hc hload =>
    refine (and_iff_left ?_).symm
    intro path file hpath hkey hfile _
    exact absurd ⟨hkey, by rw [hfile, Option.isSome_some]⟩ (hload path hpath).2
  | keyed payload key c hc hload =>
    rw [justified_concat]
    refine and_congr_right fun _ => iff_of_true (encrypted_decrypted _ _ _) ?_
    intro path file hpath
    rw [hload] at hpath
    cases hpath
  | loaded c file buffer hc hload hkey hfile hbuffer =>
    simp only [Surroundings.upload]
    rw [justified_concat, encrypted_iff hE hnoted (hc.idLength hs.idLength) hkey hfile hbuffer]
    refine and_congr_right fun _ => ?_
    constructor
    · intro hopens path file' hpath _ hfile'
      obtain rfl := Option.some.inj (hload.symm.trans hpath)
      obtain rfl := Option.some.inj (hfile.symm.trans hfile')
      exact hopens
    · exact fun hopens => hopens c.filePath file hload hkey hfile
  | unloaded c hc hload hresends hno =>
    simp only [Surroundings.upload]
    rw [justified_concat]
    refine and_congr_right fun _ => iff_of_true ?_ ?_
    · intro request hr
      left
      rw [request_drop (hc.idLength hs.idLength) List.length_replicate hr]
      rfl
    · intro path file hpath hkey hfile _
      obtain rfl := Option.some.inj (hload.symm.trans hpath)
      exact absurd ⟨hkey, by rw [hfile, Option.isSome_some]⟩ hno

theorem keyNoted_start (files : Bytes → Option Bytes) (connects : Bool) :
    KeyNoted (Session.start files connects) := by
  obtain ⟨name, hex, bytes, key, connected, -, -, hnew⟩ := new_eq files connects
  rw [Session.start, hnew]
  exact .inl rfl

/-- In every run the contents of the uploads are empty or encrypted under the last key, exactly
where every file that is loaded can be opened. -/
theorem uploads_encrypted_iff (hE : AesLaws E) (files : Bytes → Option Bytes) (connects : Bool)
    (steps : List Step) :
    let s := (Session.start files connects).after E steps
    s.uploads = s.events.filterMap Event.request ∧ (Justified (Encrypted E) s.events ↔
      Justified (fun past step => ((Session.start files connects).after E past).Opens step)
        steps) := by
  have hstep (s : Session) (step : Step) (hs : Kept s ∧ KeyNoted s) :
      (Kept (s.step E step) ∧ KeyNoted (s.step E step)) ∧
        (Justified (Encrypted E) (s.step E step).events ↔
          Justified (Encrypted E) s.events ∧ s.Opens step) := by
    have heffect := effect_step (E := E) hs.1.inbox step
    exact ⟨⟨heffect.kept hs.1, heffect.keyNoted hs.2⟩, heffect.encrypted hE hs.1 hs.2⟩
  obtain ⟨hkept, hiff⟩ := justified_run hstep
    ⟨kept_start files connects, keyNoted_start files connects⟩ justified_nil steps
  exact ⟨hkept.1.uploads, hiff⟩

end Claims

def openMachine : Surroundings :=
  ⟨filesOfA, fun _ => false, fun n => List.replicate n 170, fun _ => List.length_replicate⟩

def lockedMachine : Surroundings := { openMachine with locked := fun path => path ≠ serverFilePath }

/-- The client `a` registers, gets a key and sends its file. -/
def lockedRun : List Step :=
  [.call .registerToServer openMachine,
    .respond (told (List.replicate 16 1) serverCodeRegistrationOk tells_registrationOk) openMachine,
    .call (.generateRSAKeyPair keyPairOfA) openMachine,
    .respond keyReply openMachine,
    .call .sendFileToServer lockedMachine]

theorem uploads_encrypted_iff_locked :
    let s := (Session.start filesOfA true).after plainCiphers lockedRun
    s.uploads = s.events.filterMap Event.request ∧ (Justified (Encrypted plainCiphers) s.events ↔
      Justified (fun past step =>
        ((Session.start filesOfA true).after plainCiphers past).Opens step) lockedRun) :=
  uploads_encrypted_iff aesLaws_plainCiphers filesOfA true lockedRun

/-- The client encrypts what a new buffer happens to hold. -/
theorem locked_file_uploaded : ¬ Justified (Encrypted plainCiphers)
    ((Session.start filesOfA true).after plainCiphers lockedRun).events := by
  obtain ⟨item, hevents, hcontent⟩ : ∃ item,
      ((Session.start filesOfA true).after plainCiphers lockedRun).events =
        [.decrypted (List.replicate 16 2) (List.replicate 16 2),
          .uploaded (List.replicate 16 1) item (some [])] ∧
      item.clientId.length = 16 ∧ item.messageContent.take item.contentSize = pkcs7Pad [170] :=
    ⟨_, rfl, rfl, rfl⟩
  intro h
  rw [hevents] at h
  have hdrop (request : Bytes) (hr : (Event.uploaded (List.replicate 16 1) item
      (some [])).request = some request) : request.drop 298 = pkcs7Pad [170] :=
    (request_drop List.length_replicate hcontent.1 hr).trans hcontent.2
  rcases h [_] _ [] rfl _ rfl with hnil | ⟨payload, key, since, bytes, -, -, hread, hsame⟩
  · rw [hdrop _ rfl] at hnil
    exact absurd hnil (by decide)
  · obtain rfl : [] = bytes := Option.some.inj hread
    have hnothing : plainCiphers.aesEncrypt key [] = pkcs7Pad [] := rfl
    rw [hdrop _ rfl, hnothing] at hsame
    exact absurd hsame (by decide)

end EncryptedTransfer.ClientUploads
