import EncryptedTransfer.DetailsFile
import EncryptedTransfer.KeyAgreement

/-!
# The id after a registration

The server's row, the client's fields and `me.info` each hold the id. What the client does with
the answer to its registration depends on whether `me.info` is there.
-/
namespace EncryptedTransfer.RegistrationAgreement
open ServerStores hiding Client Client.new
open ByteFormats Text ServerCalls ServerHandlers ServerConsistency ServerEffects CryptoLaws
open ServerSession StreamFraming ClientProcess Network ClientMessages ServerTurns KeyAgreement
open DetailsFile

def requestCode (request : Bytes) : ℕ := ofLe ((request.drop 17).take 2)

/-- A request carries the id, unless it asks for one. -/
def Carries (clientId request : Bytes) : Prop :=
  requestCode request ≠ clientCodeRegister → request.take 16 = clientId

/-- Whatever follows, the process carries the id and every later process loads it, as long as
nobody else writes `me.info`. -/
structure Agreed (E : Externals) (sys : System) (k : ℕ) (clientId : Bytes) : Prop where
  requests : ∀ moves sys', Moves E sys moves sys' →
    (∀ content, .edit k clientDetailsPath content ∉ moves) →
      ∀ request ∈ (sys'.client k).outbox, Carries clientId request
  restarts : ∀ moves sys', Moves E sys moves sys' →
    (∀ content, .edit k clientDetailsPath content ∉ moves) →
      ((sys'.client k).files serverFilePath).isSome = true → ∀ connects,
        (Client.new (sys'.client k).files connects).clientIdHex ≠ [] ∧
          (Client.new (sys'.client k).files connects).clientIdBytes = clientId

/-- A client whose fields and file hold the id. -/
structure Enrolled (clientId : Bytes) (c : Client) : Prop where
  clientId_eq : c.clientIdBytes = clientId
  attached : c.clientIdHex ≠ []
  nameLength : c.connectedToServer = true → c.clientName.length = 255
  details : HasId clientId c.files
  carried : ∀ request ∈ c.outbox, Carries clientId request

section Requests

variable {clientId request : Bytes}

theorem carries_encode (m : Message) (h : m.clientId = clientId) : Carries clientId m.encode := by
  intro _
  have hparts : m.encode = m.clientId ++
      (leBytes 1 m.version ++ (leBytes 2 m.code ++ (leBytes 4 m.payload.length ++
        (m.payload ++ m.tail)))) := by
    simp [Message.encode, Message.header]
  rw [hparts, List.take_left' m.clientId_length, h]

theorem carries_header {r : ClientRequest} (hid : r.clientId.length = 16) (rest : Bytes) :
    Carries r.clientId (r.header ++ rest) := by
  intro _
  rw [ClientRequest.header, List.append_assoc, List.take_left' hid]

theorem carries_registration {clientName : Bytes} (h : clientName.length = 255) :
    Carries clientId (registerMessage clientName h).encode := by
  intro hcode
  have hparts : (registerMessage clientName h).encode = (List.replicate 16 0 ++
      leBytes 1 clientVersion) ++ (leBytes 2 clientCodeRegister ++ (leBytes 4 clientName.length ++
        clientName)) := by
    simp [Message.encode, Message.header, registerMessage]
  have hlen : (List.replicate 16 (0 : UInt8) ++ leBytes 1 clientVersion).length = 17 := rfl
  rw [requestCode, hparts, List.drop_left' hlen, List.take_left' (leBytes_length 2 _)] at hcode
  exact absurd rfl hcode

theorem carries_isNamed {code : ℕ} (h : IsNamed clientId code request) :
    Carries clientId request := by
  obtain ⟨field, hid, hcode, hfield, rfl⟩ := h
  exact carries_encode _ rfl

theorem carries_isUpload (h : IsUpload clientId request) : Carries clientId request := by
  obtain ⟨owner, field, content, hid, howner, hfield, hcontent, rfl⟩ := h
  exact carries_encode _ rfl

theorem carries_corrupted (h : Carries clientId request) (encrypted : Bytes) :
    Carries clientId (corrupted request encrypted) := by
  unfold corrupted
  split_ifs with hsend
  · have hslice (i j : ℕ) (hij : i + j ≤ 298) :
        ((request.take 298 ++ encrypted).drop i).take j = (request.drop i).take j := by
      have hlen : (request.take 298).length = 298 := by
        rw [List.length_take]
        omega
      rw [List.drop_append_of_le_length (by omega), List.take_append_of_le_length (by
        rw [List.length_drop]; omega), List.drop_take, List.take_take, min_eq_left (by omega)]
    have hcode := hslice 17 2 (by omega)
    have htake := hslice 0 16 (by omega)
    rw [List.drop_zero, List.drop_zero] at htake
    rw [Carries, requestCode, hcode, htake]
    exact h
  · exact h

end Requests

section Client

variable {E : Externals} {clientId : Bytes} {c : Client}

theorem Enrolled.of_eq (h : Enrolled clientId c) {c' : Client}
    (hid : c'.clientIdBytes = c.clientIdBytes) (hhex : c'.clientIdHex = c.clientIdHex)
    (hconnected : c'.connectedToServer = c.connectedToServer)
    (hname : c'.clientName = c.clientName) (hfiles : c'.files = c.files)
    (hout : c'.outbox = c.outbox) : Enrolled clientId c' where
  clientId_eq := hid.trans h.clientId_eq
  attached := by
    rw [hhex]
    exact h.attached
  nameLength := by
    rw [hconnected, hname]
    exact h.nameLength
  details := by
    rw [hfiles]
    exact h.details
  carried := by
    rw [hout]
    exact h.carried

theorem Enrolled.awaiting (h : Enrolled clientId c) : Enrolled clientId (await c) :=
  h.of_eq rfl rfl rfl rfl rfl rfl

theorem Enrolled.post (h : Enrolled clientId c) (code : ℕ) {data : Bytes}
    (hdata : Carries clientId data) : Enrolled clientId (post code data c) := by
  refine ⟨h.clientId_eq, h.attached, h.nameLength, h.details, ?_⟩
  intro request hrequest
  rcases List.mem_append.mp hrequest with hmem | hnew
  · exact h.carried request hmem
  · rwa [List.mem_singleton.mp hnew]

variable (hid : clientId.length = 16)
include hid

theorem Enrolled.send (h : Enrolled clientId c) {r : ClientRequest} (hr : r.clientId = clientId) :
    Enrolled clientId (await (sendRequestToServer r c)) := by
  subst hr
  have hposted : Enrolled r.clientId (sendRequestToServer r c) :=
    h.post r.code (carries_header hid _)
  exact hposted.awaiting

theorem Enrolled.named (h : Enrolled clientId c) {code : ℕ} (hcode : NamesFile code)
    {field : Bytes} (hfield : field.length = 255) :
    Enrolled clientId (sendRequestToServer ⟨c.clientIdBytes, code, field, []⟩ c) := by
  obtain ⟨data, hdata, hsend⟩ := sendRequestToServer_isNamed (h.clientId_eq ▸ hid) hcode hfield c
  rw [hsend]
  exact h.post code (h.clientId_eq ▸ carries_isNamed hdata)

theorem Enrolled.reSend (h : Enrolled clientId c) : Enrolled clientId (reSendFileToServer E c) := by
  obtain ⟨cksum, data, hdata, hsend⟩ := reSendFileToServer_cases (E := E) (h.clientId_eq ▸ hid)
  rw [hsend]
  have hnoted : Enrolled clientId { c with cksumOfLastFile := cksum } :=
    h.of_eq rfl rfl rfl rfl rfl rfl
  have hposted := hnoted.post clientCodeSendFile (h.clientId_eq ▸ carries_isUpload hdata)
  exact hposted.awaiting

theorem Enrolled.compare (h : Enrolled clientId c) {filename : Bytes}
    (hfilename : filename.length = 255) (cksum : ℕ) :
    Enrolled clientId (compareCksums E filename cksum c) := by
  rw [compareCksums]
  split_ifs
  · have hsent := h.named hid (.inl rfl) hfilename
    exact hsent.awaiting
  · have htried : Enrolled clientId
        { c with numberOfTrialsTOSendFile := c.numberOfTrialsTOSendFile + 1 } :=
      h.of_eq rfl rfl rfl rfl rfl rfl
    exact (htried.named hid (.inr (.inl rfl)) hfilename).reSend hid
  · have hreset : Enrolled clientId
        { c with numberOfTrialsTOSendFile := 1, cksumOfLastFile := 0 } :=
      h.of_eq rfl rfl rfl rfl rfl rfl
    have hsent := hreset.named hid (.inr (.inr rfl)) hfilename
    exact hsent.awaiting

theorem Enrolled.receive (h : Enrolled clientId c) :
    Enrolled clientId (receiveResponseFromServer E c) := by
  obtain ⟨starved, hrest, -, -⟩ := readResponse_spec c
  obtain ⟨content, -, -, -, hfile, -⟩ := id h.details
  have hsome : (c.files clientDetailsPath).isSome = true := by
    rw [hfile]
    rfl
  obtain ⟨c₁, hc₁⟩ : ∃ c₁, c₁ = { (readResponse c).2 with
      responseCodes := (readResponse c).2.responseCodes ++ [(readResponse c).1.code] } := ⟨_, rfl⟩
  have hread : Enrolled clientId c₁ := by
    rw [hc₁, hrest]
    exact h.of_eq rfl rfl rfl rfl rfl rfl
  have hsome₁ : (c₁.files clientDetailsPath).isSome = true := by
    rw [hc₁, hrest]
    exact hsome
  rw [receiveResponseFromServer_read, ← hc₁, handleResponse]
  split_ifs
  · rw [saveRegistrationDetails, if_pos hsome₁]
    exact hread
  · rw [handleAESKeyFromServer]
    split
    · exact hread.of_eq rfl rfl rfl rfl rfl rfl
    · exact hread
  · rw [handleFileResponse_read]
    have hreport : Enrolled clientId (readReport c₁).2 :=
      hread.of_eq rfl rfl rfl rfl rfl rfl
    exact hreport.compare hid (length_resize _ _) _
  · exact hread

theorem Enrolled.call (h : Enrolled clientId c) (method : Method) :
    Enrolled clientId (method.run E c) := by
  cases method with
  | registerToServer =>
    rw [Method.run, registerToServer]
    split_ifs with hready
    · rw [sendRequestToServer_register (h.nameLength hready.1)]
      have hposted := h.post clientCodeRegister (carries_registration (h.nameLength hready.1))
      exact hposted.awaiting
    · exact h
  | generateRSAKeyPair pair =>
    rw [Method.run, generateRSAKeyPair]
    split_ifs with hready
    · obtain ⟨content, -, -, -, hfile, -⟩ := id h.details
      have hsome : (c.files clientDetailsPath).isSome = true := by
        rw [hfile]
        rfl
      have hsaved : Enrolled clientId { savePrivateKey (E.base64Encode pair.privateKey) c with
          privateKey := E.base64Encode pair.privateKey } := by
        rw [savePrivateKey, if_pos hsome]
        exact ⟨h.clientId_eq, h.attached, h.nameLength, h.details.replaceLine, h.carried⟩
      exact hsaved.send hid hsaved.clientId_eq
    · exact h
  | sendFileToServer =>
    rw [Method.run]
    rcases sendFileToServer_cases (E := E) (h.clientId_eq ▸ hid) with ⟨path, hsend⟩ |
      ⟨-, path, cksum, data, hdata, hsend⟩
    · rw [hsend]
      exact h.of_eq rfl rfl rfl rfl rfl rfl
    · rw [hsend]
      have hnoted : Enrolled clientId { c with filePath := path, cksumOfLastFile := cksum } :=
        h.of_eq rfl rfl rfl rfl rfl rfl
      have hposted := hnoted.post clientCodeSendFile
        (h.clientId_eq ▸ carries_isUpload hdata)
      exact hposted.awaiting

end Client

section Runs

variable {E : Externals} {clientId : Bytes} {k : ℕ} {sys sys' : System}

theorem Enrolled.move (hid : clientId.length = 16) (h : Enrolled clientId (sys.client k))
    (move : Move) (hkeep : ∀ content, .edit k clientDetailsPath content ≠ move) :
    Enrolled clientId ((sys.step E move).client k) := by
  have hother {i : ℕ} (hi : ¬ k = i) (c : Client) :
      Enrolled clientId ((sys.setClient i c).client k) := by
    rwa [System.setClient_other _ hi]
  cases move with
  | call i method =>
    rw [System.step]
    split_ifs
    · exact h
    · by_cases hi : k = i
      · subst hi
        rw [System.setClient_self]
        exact h.call hid method
      · exact hother hi _
  | serve i env =>
    rw [System.step]
    cases hout : (sys.client i).outbox with
    | nil => rwa [System.serve_nil E hout]
    | cons request rest =>
      rw [System.serve_cons E hout]
      by_cases hi : k = i
      · subst hi
        simp only [Function.update_self]
        refine ⟨h.clientId_eq, h.attached, h.nameLength, h.details, ?_⟩
        intro request' hrequest
        exact h.carried request' (hout ▸ List.mem_cons_of_mem _ hrequest)
      · simpa only [Function.update_of_ne hi] using h
  | resume i =>
    rw [System.step, System.resume]
    split_ifs
    · simp only
      split_ifs
      · exact h
      · by_cases hi : k = i
        · subst hi
          rw [System.setClient_self]
          exact h.receive hid
        · exact hother hi _
    · exact h
  | corrupt i encrypted =>
    rw [System.step]
    cases hout : (sys.client i).outbox with
    | nil => exact h
    | cons request rest =>
      simp only
      by_cases hi : k = i
      · subst hi
        rw [System.setClient_self]
        refine ⟨h.clientId_eq, h.attached, h.nameLength, h.details, ?_⟩
        intro request' hrequest
        rcases List.mem_cons.mp hrequest with rfl | hmem
        · exact carries_corrupted (h.carried request (hout ▸ List.mem_cons_self)) encrypted
        · exact h.carried request' (hout ▸ List.mem_cons_of_mem _ hmem)
      · exact hother hi _
  | edit i path content =>
    rw [System.step]
    by_cases hi : k = i
    · subst hi
      have hpath : path ≠ clientDetailsPath := by
        rintro rfl
        exact hkeep content rfl
      rw [System.setClient_self]
      exact ⟨h.clientId_eq, h.attached, h.nameLength, h.details.update hpath, h.carried⟩
    · exact hother hi _

theorem Enrolled.moves (hid : clientId.length = 16) (h : Enrolled clientId (sys.client k))
    {moves : List Move} (hrun : Moves E sys moves sys')
    (hkeep : ∀ content, .edit k clientDetailsPath content ∉ moves) :
    Enrolled clientId (sys'.client k) := by
  induction hrun with
  | nil sys => exact h
  | cons move hp rest ih =>
    refine ih (h.move hid move ?_) ?_
    · intro content heq
      exact hkeep content (heq ▸ List.mem_cons_self)
    · exact fun content hmem => hkeep content (List.mem_cons_of_mem _ hmem)

theorem Enrolled.agreed (hid : clientId.length = 16) (h : Enrolled clientId (sys.client k)) :
    Agreed E sys k clientId := by
  constructor
  · intro moves sys' hrun hkeep
    exact (h.moves hid hrun hkeep).carried
  · intro moves sys' hrun hkeep hinfo connects
    exact (h.moves hid hrun hkeep).details.loaded hinfo connects

end Runs

section New

variable {files : Bytes → Option Bytes} (hinfo : (files serverFilePath).isSome = true)
  (connects : Bool)
include hinfo

theorem new_eq : ∃ name hex bytes key, name.length = 255 ∧ newline ∉ name ∧ bytes.length = 16 ∧
    Client.new files connects =
      ⟨name, hex, bytes, key, [], 0, 1, [], connects, files, [], false, [], false, [], []⟩ := by
  obtain ⟨hex, bytes, key, hlen, hload⟩ := loadRegistrationDetails_eq (loadClientName
    ⟨[], [], List.replicate 16 0, [], [], 0, 1, [], connects, files, [], false, [], false, [], []⟩)
    List.length_replicate
  have hname : newline ∉ (readLine (files serverFilePath) 2 []).2 :=
    notMem_readLine List.not_mem_nil 2
  refine ⟨resize 255 ((readLine (files serverFilePath) 2 []).2.take 255), hex, bytes, key,
    length_resize _ _, ?_, hlen, ?_⟩
  · intro hmem
    rcases List.mem_append.mp hmem with hline | hpad
    · exact hname (List.mem_of_mem_take (List.mem_of_mem_take hline))
    · exact absurd (List.eq_of_mem_replicate hpad) (by decide)
  · rw [Client.new, if_pos hinfo]
    simp only [hload]
    rfl

theorem loaded_of_new {content : Bytes} (hfile : files clientDetailsPath = some content)
    (hloaded : (Client.new files connects).clientIdHex ≠ []) :
    verifyClientIdHex (readLine (some content) 2 []).2 = true ∧
      hexToBytesArray (readLine (some content) 2 []).2 =
        (Client.new files connects).clientIdBytes := by
  rw [Client.new, if_pos hinfo] at hloaded ⊢
  simp only [loadRegistrationDetails, loadClientName, hfile, Option.isSome_some, ↓reduceIte]
    at hloaded ⊢
  split_ifs at hloaded ⊢ with hvalid
  · rw [Bool.and_eq_true] at hvalid
    exact ⟨hvalid.2, rfl⟩
  · exact absurd rfl hloaded

end New

section Answer

variable {E : Externals} {sys : System} {k : ℕ} {files : Bytes → Option Bytes} {env : Draws}
  {clientId : Bytes}

/-- A registration that is answered with an id is the one of the row inserted. -/
theorem registration_answered (E : Externals) (env : Draws) (clientId : Bytes) {name : Bytes}
    (hname : name.length = 255) (s : Server KeyedDisk) :
    let w := System.turnWith E env s (registerMessage name hname).encode
    w.conn.sent.flatten = responseHead serverCodeRegistrationOk 0 clientId →
      clientId = env.uuid ∧ w.server.database.clientExistsById clientId = true := by
  intro w hanswer
  cases hdecode : decodeUtf8 (registerMessage name hname).payload with
  | none =>
    have hturned : Turned w s [] [] := turned_register_undecodable rfl rfl hdecode
    rw [hturned.sent_eq] at hanswer
    exact absurd hanswer (nil_ne_responseHead clientId)
  | some clientName =>
    cases hfree : s.database.clientExistsByName (stripNul clientName) with
    | true =>
      have hturned : Turned w s refused [] := turned_register_taken rfl rfl hdecode hfree
      have herr : serverCodeRegistrationErr < 65536 := by decide
      have hok : serverCodeRegistrationOk < 65536 := by decide
      have hne := responseHead_ne herr hok (by decide) 0 0 (uuidField []) clientId [] []
      rw [List.append_nil, List.append_nil] at hne
      rw [hturned.sent_eq, refused] at hanswer
      exact absurd hanswer hne
    | false =>
      have hturned : Turned w (register env.now env.uuid (stripNul clientName) s)
          (responseHead serverCodeRegistrationOk 0 env.uuid) [] :=
        turned_register rfl rfl hdecode hfree
      rw [hturned.sent_eq] at hanswer
      obtain rfl := responseHead_inj hanswer
      refine ⟨rfl, ?_⟩
      rw [hturned.server_eq, register, Database.insertNewClient]
      split_ifs with hexists
      · exact hexists
      · simp [Database.clientExistsById]

def registering (name hex bytes key : Bytes) (files : Bytes → Option Bytes) (inbox : Bytes)
    (outbox : List Bytes) : Client :=
  ⟨name, hex, bytes, key, [], 0, 1, [], true, files, inbox, false, outbox, true,
    [clientCodeRegister], []⟩

def registered (name hex bytes key : Bytes) (files : Bytes → Option Bytes) : Client :=
  ⟨name, hex, bytes, key, [], 0, 1, [], true, files, [], false, [], false,
    [clientCodeRegister], [serverCodeRegistrationOk]⟩

theorem resume_registering {name hex bytes key : Bytes} (hid : clientId.length = 16)
    (hclient : sys.client k = registering name hex bytes key files
      (responseHead serverCodeRegistrationOk 0 clientId) []) :
    sys.resume E k = sys.setClient k
      (saveRegistrationDetails clientId (registered name hex bytes key files)) := by
  have hready : (sys.client k).awaiting = true ∧ (sys.client k).inbox ≠ [] := by
    rw [hclient]
    exact ⟨rfl, (nil_ne_responseHead clientId).symm⟩
  have hreceive : receiveResponseFromServer E (sys.client k) =
      saveRegistrationDetails clientId (registered name hex bytes key files) := by
    rw [receiveResponseFromServer_registered hid (by rw [hclient]; rfl), hclient]
    rfl
  have hfed : (saveRegistrationDetails clientId
      (registered name hex bytes key files)).starved = false := by
    rw [saveRegistrationDetails]
    split_ifs <;> rfl
  rw [System.resume, if_pos hready]
  simp only [hreceive, hfed, Bool.false_eq_true, ↓reduceIte]

variable (hclient : sys.client k = registerToServer (Client.new files true))
  (hinfo : (files serverFilePath).isSome = true)
  (hanswer : ((sys.serve E k env).client k).inbox = responseHead serverCodeRegistrationOk 0 clientId)
include hclient hinfo hanswer

theorem answer_read : ∃ name hex bytes key, name.length = 255 ∧ newline ∉ name ∧
    Client.new files true =
      ⟨name, hex, bytes, key, [], 0, 1, [], true, files, [], false, [], false, [], []⟩ ∧
    clientId.length = 16 ∧
    ((sys.serve E k env).resume E k).server.database.clientExistsById clientId = true ∧
    ((sys.serve E k env).resume E k).client k =
      saveRegistrationDetails clientId (registered name hex bytes key files) := by
  obtain ⟨name, hex, bytes, key, hname, hline, -, hnew⟩ := new_eq hinfo true
  have hregister : sys.client k =
      registering name hex bytes key files [] [(registerMessage name hname).encode] := by
    rw [hclient, hnew, registerToServer, if_pos ⟨rfl, hinfo⟩, sendRequestToServer_register hname]
    rfl
  have hout : (sys.client k).outbox = [(registerMessage name hname).encode] := by
    rw [hregister]
    rfl
  have hserve := System.serve_cons E hout env
  have hinserted := registration_answered E env clientId hname sys.server
  simp only at hinserted
  generalize System.turnWith E env sys.server (registerMessage name hname).encode = w
    at hserve hinserted
  rw [hserve] at hanswer ⊢
  simp only [Function.update_self, hregister, answered, registering, List.nil_append] at hanswer
  obtain ⟨huuid, hexists⟩ := hinserted hanswer
  have hid : clientId.length = 16 := huuid ▸ env.uuid_length
  have hawaits : Function.update sys.client k (answered (sys.client k) [] w.conn.sent.flatten) k =
      registering name hex bytes key files (responseHead serverCodeRegistrationOk 0 clientId) [] := by
    rw [Function.update_self, hregister, hanswer]
    rfl
  refine ⟨name, hex, bytes, key, hname, hline, hnew, hid, ?_, ?_⟩
  · rw [resume_registering hid hawaits, System.setClient_server, hexists]
  · rw [resume_registering hid hawaits, System.setClient_self]

end Answer

section Agreement

variable {E : Externals} {sys : System} {k : ℕ} {files : Bytes → Option Bytes} {env : Draws}
  {clientId name hex bytes key : Bytes}

theorem saveRegistrationDetails_some {c : Client} {content : Bytes}
    (h : c.files clientDetailsPath = some content) : saveRegistrationDetails clientId c = c := by
  rw [saveRegistrationDetails, h]
  rfl

theorem saveRegistrationDetails_none {c : Client} (h : c.files clientDetailsPath = none) :
    saveRegistrationDetails clientId c = { c with
      clientIdBytes := clientId
      clientIdHex := encodeUtf8 (ServerStores.hex clientId)
      files := appendLine clientDetailsPath (encodeUtf8 (ServerStores.hex clientId))
        (appendLine clientDetailsPath c.clientName c.files) } := by
  rw [saveRegistrationDetails, h]
  rfl

theorem enrolled_registered (hid : clientId.length = 16) (hname : name.length = 255)
    (hline : newline ∉ name) (hinfo : (files serverFilePath).isSome = true)
    (hnew : Client.new files true =
      ⟨name, hex, bytes, key, [], 0, 1, [], true, files, [], false, [], false, [], []⟩)
    (h : files clientDetailsPath = none ∨ HasId clientId files) :
    Enrolled clientId (saveRegistrationDetails clientId (registered name hex bytes key files)) := by
  rcases h with hnone | hdetails
  · rw [saveRegistrationDetails_none (c := registered name hex bytes key files) hnone]
    refine ⟨rfl, ?_, fun _ => hname, hasId_append hid hline hnone, List.forall_mem_nil _⟩
    exact ne_nil_of_verifyClientIdHex (verifyClientIdHex_hex hid)
  · obtain ⟨content, -, -, -, hfile, -⟩ := id hdetails
    obtain ⟨hhex, hbytes⟩ := hdetails.loaded hinfo true
    rw [hnew] at hhex hbytes
    rw [saveRegistrationDetails_some (c := registered name hex bytes key files) hfile]
    exact ⟨hbytes, hhex, fun _ => hname, hdetails, List.forall_mem_nil _⟩

theorem generateRSAKeyPair_files {c : Client} {pair : KeyPair} {content : Bytes}
    (hready : c.connectedToServer = true ∧ c.clientIdHex ≠ [])
    (hfile : c.files clientDetailsPath = some content) :
    (generateRSAKeyPair E pair c).files =
      replaceLine clientDetailsPath 3 (E.base64Encode pair.privateKey) c.files := by
  have hsome : (c.files clientDetailsPath).isSome = true := by
    rw [hfile]
    rfl
  rw [generateRSAKeyPair, if_pos hready]
  simp only [savePrivateKey, hsome, if_true]
  rfl

/-- A single line with an id is lost when the private key is saved. -/
theorem not_agreed_of_single {pair : KeyPair} (hpair : KeyPairLaws E pair.publicKey pair.privateKey)
    (hline : newline ∉ E.base64Encode pair.privateKey)
    (hlength : (E.base64Encode pair.privateKey).length ≠ 32)
    (hinfo : (files serverFilePath).isSome = true) {content first : Bytes}
    (hfile : files clientDetailsPath = some content) (hsingle : splitLines content = [first])
    (hfirst : first ≠ []) (hhex : hex ≠ [])
    (hclient : sys.client k = registered name hex bytes key files) : ¬ Agreed E sys k clientId := by
  intro h
  have hpath : serverFilePath ≠ clientDetailsPath := by decide
  obtain ⟨content', hfile', hlines⟩ := splitLines_replaceLine_single hfile hsingle hfirst hline
  have hsaved : ((sys.step E (.call k (.generateRSAKeyPair pair))).client k).files =
      replaceLine clientDetailsPath 3 (E.base64Encode pair.privateKey) files := by
    have hidle : ¬ (sys.client k).awaiting = true := by
      rw [hclient]
      exact Bool.false_ne_true
    rw [System.step, if_neg hidle, System.setClient_self, hclient]
    exact generateRSAKeyPair_files (c := registered name hex bytes key files) ⟨rfl, hhex⟩ hfile
  have hinfo' : (replaceLine clientDetailsPath 3 (E.base64Encode pair.privateKey) files
      serverFilePath).isSome = true := by
    rw [replaceLine, Function.update_of_ne hpath]
    exact hinfo
  have hloaded := (h.restarts [.call k (.generateRSAKeyPair pair)] _ (.cons _ hpair (.nil _))
    (by simp) (by rw [hsaved]; exact hinfo') true).1
  rw [hsaved] at hloaded
  have hvalid := (loaded_of_new hinfo' true hfile' hloaded).1
  rw [readLine_second hlines, verifyClientIdHex, Bool.and_eq_true, decide_eq_true_eq] at hvalid
  exact hlength hvalid.1

/-- After the answer to its registration the process and its file hold the id of the new row
exactly where there was no `me.info` or its second line was that id. -/
theorem registration_agrees_iff {pair : KeyPair}
    (hpair : KeyPairLaws E pair.publicKey pair.privateKey)
    (hline : newline ∉ E.base64Encode pair.privateKey)
    (hlength : (E.base64Encode pair.privateKey).length ≠ 32)
    (hclient : sys.client k = registerToServer (Client.new files true))
    (hinfo : (files serverFilePath).isSome = true)
    (hanswer : ((sys.serve E k env).client k).inbox =
      responseHead serverCodeRegistrationOk 0 clientId) :
    let sys' := (sys.serve E k env).resume E k
    sys'.server.database.clientExistsById clientId = true ∧
      (Agreed E sys' k clientId ↔ files clientDetailsPath = none ∨ HasId clientId files) := by
  obtain ⟨name, hex, bytes, key, hname, hnewline, hnew, hid, hexists, hread⟩ :=
    answer_read hclient hinfo hanswer
  refine ⟨hexists, ?_, ?_⟩
  · intro hagreed
    cases hfile : files clientDetailsPath with
    | none => exact .inl rfl
    | some content =>
      right
      rw [saveRegistrationDetails_some (c := registered name hex bytes key files) hfile] at hread
      have hrestarts := hagreed.restarts [] _ (.nil _) (by simp) (by rw [hread]; exact hinfo) true
      rw [hread] at hrestarts
      obtain ⟨hhex, hbytes⟩ := hrestarts
      obtain ⟨hvalid, hloaded⟩ := loaded_of_new hinfo true hfile hhex
      cases hlines : splitLines content with
      | nil =>
        rw [readLine, hlines] at hvalid
        exact absurd hvalid (by decide)
      | cons first lines =>
        cases lines with
        | nil =>
          rw [readLine_single hlines] at hvalid
          have hhex' : hex ≠ [] := by
            have hfield : (Client.new files true).clientIdHex = hex := by rw [hnew]
            rw [← hfield]
            exact hhex
          exact absurd hagreed (not_agreed_of_single hpair hline hlength hinfo hfile hlines
            (ne_nil_of_verifyClientIdHex hvalid) hhex' hread)
        | cons second rest =>
          rw [readLine_second hlines] at hvalid hloaded
          exact ⟨content, first, second, rest, hfile, hlines, hvalid, hloaded.trans hbytes⟩
  · intro h
    refine Enrolled.agreed hid ?_
    rw [hread]
    exact enrolled_registered hid hname hnewline hinfo hnew h

end Agreement

section Machines

/-- A server that knows nobody, and processes that have asked it for an id. -/
def askingSystem (files : Bytes → Option Bytes) : System :=
  ⟨.empty, fun _ => registerToServer (Client.new files true), []⟩

theorem client_askingSystem (files : Bytes → Option Bytes) :
    (askingSystem files).client 0 = registerToServer (Client.new files true) := rfl

/-- The machine of the client `a` after a registration with another server. -/
def registeredElsewhere : Bytes → Option Bytes :=
  appendLine clientDetailsPath (encodeUtf8 (hex (List.replicate 16 2)))
    (appendLine clientDetailsPath (padField 255 ['a']) filesOfA)

theorem registeredElsewhere_info :
    registeredElsewhere serverFilePath = filesOfA serverFilePath := by
  have hother : serverFilePath ≠ clientDetailsPath := by decide
  rw [registeredElsewhere, appendLine, Function.update_of_ne hother, appendLine,
    Function.update_of_ne hother]

theorem askingSystem_answered {E : Externals} {files : Bytes → Option Bytes}
    (hinfo : (files serverFilePath).isSome = true)
    (hname : (Client.new files true).clientName = padField 255 ['a']) :
    (((askingSystem files).serve E 0 (constantDraws 1)).client 0).inbox =
      responseHead serverCodeRegistrationOk 0 (List.replicate 16 1) := by
  obtain ⟨name, hex, bytes, key, hlength, -, -, hnew⟩ := new_eq hinfo true
  have hregister : (askingSystem files).client 0 =
      registering name hex bytes key files [] [(registerMessage name hlength).encode] := by
    rw [askingSystem, hnew, registerToServer, if_pos ⟨rfl, hinfo⟩,
      sendRequestToServer_register hlength]
    rfl
  have hout : ((askingSystem files).client 0).outbox = [(registerMessage name hlength).encode] := by
    rw [hregister]
    rfl
  have hdecode : decodeUtf8 (registerMessage name hlength).payload =
      some (['a'] ++ List.replicate 254 nul) := by
    rw [hnew] at hname
    exact (congrArg decodeUtf8 hname).trans (decodeUtf8_padField 255 ['a'])
  have hsent := (@turned_register E (constantDraws 1) (askingSystem files).server _ _ rfl rfl
    hdecode rfl).sent_eq
  rw [System.serve_cons E hout]
  generalize System.turnWith E (constantDraws 1) (askingSystem files).server
    (registerMessage name hlength).encode = w at hsent
  simp only [Function.update_self, hregister, answered, registering, List.nil_append, hsent]
  rfl

theorem registration_agrees_ofA :
    let sys' := ((askingSystem filesOfA).serve plainCiphers 0 (constantDraws 1)).resume plainCiphers 0
    sys'.server.database.clientExistsById (List.replicate 16 1) = true ∧
      (Agreed plainCiphers sys' 0 (List.replicate 16 1) ↔
        filesOfA clientDetailsPath = none ∨ HasId (List.replicate 16 1) filesOfA) := by
  have hpair : KeyPairLaws plainCiphers keyPairOfA.publicKey
    keyPairOfA.privateKey := keyPairLaws_plainCiphers _
  exact registration_agrees_iff hpair (by decide) (by decide) rfl rfl
    (askingSystem_answered rfl rfl)

/-- The client `a` is registered anew and keeps its old id. -/
theorem old_id_kept :
    let sys := (askingSystem registeredElsewhere).serve plainCiphers 0 (constantDraws 1)
    (sys.client 0).inbox = responseHead serverCodeRegistrationOk 0 (List.replicate 16 1) ∧
      ¬ Agreed plainCiphers (sys.resume plainCiphers 0) 0 (List.replicate 16 1) := by
  have hnone : filesOfA clientDetailsPath = none := by decide
  have hold : HasId (List.replicate 16 2) registeredElsewhere :=
    hasId_append List.length_replicate (by decide +kernel) hnone
  have hinfo : (registeredElsewhere serverFilePath).isSome = true := by
    rw [registeredElsewhere_info]
    rfl
  have hname : (Client.new registeredElsewhere true).clientName = padField 255 ['a'] := by
    rw [new_clientName hinfo, nameField, registeredElsewhere_info]
    rfl
  have hanswer := askingSystem_answered (E := plainCiphers) hinfo hname
  refine ⟨hanswer, ?_⟩
  obtain ⟨name, hex, bytes, key, -, -, -, -, -, hread⟩ :=
    answer_read (client_askingSystem registeredElsewhere) hinfo hanswer
  obtain ⟨content, -, -, -, hfile, -⟩ := id hold
  rw [saveRegistrationDetails_some (c := registered name hex bytes key registeredElsewhere) hfile]
    at hread
  intro h
  have hnow := (h.restarts [] _ (.nil _) (by simp) (by rw [hread]; exact hinfo) true).2
  rw [hread] at hnow
  have hthen := (hold.loaded hinfo true).2
  exact absurd (hnow.symm.trans hthen) (by decide)

end Machines

end EncryptedTransfer.RegistrationAgreement
