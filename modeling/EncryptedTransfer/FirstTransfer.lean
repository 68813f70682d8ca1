import EncryptedTransfer.FileNames
import EncryptedTransfer.KeyAgreement

/-!
# A client's first transfer

Registration, key exchange and the transfer of a file, each up to the return of its method,
against a server in any state in which the client's name is free.
-/
namespace EncryptedTransfer.FirstTransfer
open ServerStores hiding Client Client.new
open ByteFormats Text ServerCalls ServerHandlers ServerConsistency ServerEffects ServerRuns
open StreamFraming FileLedger CryptoLaws ClientProcess Network ClientMessages ServerTurns
open ClientRoster FileNames KeyAgreement

variable {E : Externals} (env : Draws) {sys : System} {i : ℕ} {s' : Server KeyedDisk}

/-- A call of a method: what the client sends is handled, and what it awaits read, with these
draws in turn. -/
def perform (E : Externals) (i : ℕ) (method : Method) (draws : List Draws) (sys : System) : System :=
  draws.foldl (fun sys env => (sys.serve E i env).resume E i) (sys.step E (.call i method))

def movesOf (i : ℕ) (method : Method) (draws : List Draws) : List Move :=
  .call i method :: draws.flatMap (fun env => [.serve i env, .resume i])

theorem perform_eq_steps (method : Method) (draws : List Draws) :
    perform E i method draws sys = sys.steps E (movesOf i method draws) := by
  rw [perform, movesOf, System.steps, List.foldl_cons]
  generalize sys.step E (.call i method) = sys
  induction draws generalizing sys with
  | nil => rfl
  | cons env draws ih => exact ih ..

theorem step_call_server (method : Method) : (sys.step E (.call i method)).server = sys.server := by
  simp only [System.step]
  split_ifs <;> rfl

theorem perform_singleton (method : Method) : perform E i method [env] sys =
    ((sys.step E (.call i method)).step E (.serve i env)).step E (.resume i) := rfl

theorem exchange_eq {c c' : Client} (hc : sys.client i = c) (hawait : c.awaiting = true)
    {m : Message} (hout : c.outbox = [m.encode]) (hin : c.inbox = []) {sent left : Bytes}
    (hturn : Turned (System.turnWith E env sys.server m.encode) s' sent left) (hsent : sent ≠ [])
    (hreceive : receiveResponseFromServer E (answered c [] sent) = c') (hread : c'.starved = false) :
    (sys.serve E i env).resume E i =
      ⟨s', Function.update sys.client i c', ⟨i, m.encode, left⟩ :: sys.served⟩ := by
  subst hc
  rw [System.serve_cons E hout, hturn.server_eq, hturn.sent_eq, hturn.left_eq]
  have hready : (answered (sys.client i) [] sent).awaiting = true ∧
      (answered (sys.client i) [] sent).inbox ≠ [] := by
    refine ⟨hawait, ?_⟩
    simpa [answered, hin] using hsent
  simp only [System.resume, Function.update_self]
  rw [if_pos hready, hreceive, hread]
  simp [System.setClient]

theorem exchange_idle (hout : (sys.client i).outbox = []) (hawait : (sys.client i).awaiting = false) :
    (sys.serve E i env).resume E i = sys := by
  rw [System.serve_nil E hout]
  simp [System.resume, hawait]

theorem exchanges_idle (draws : List Draws) (hout : (sys.client i).outbox = [])
    (hawait : (sys.client i).awaiting = false) :
    draws.foldl (fun sys env => (sys.serve E i env).resume E i) sys = sys := by
  induction draws with
  | nil => rfl
  | cons env draws ih => rw [List.foldl_cons, exchange_idle env hout hawait, ih]

/-- A client between two methods, its files as they were but for the details file. -/
structure Resting (files : Bytes → Option Bytes) (clientName : Bytes) (c : Client) : Prop where
  awaiting : c.awaiting = false
  outbox : c.outbox = []
  inbox : c.inbox = []
  starved : c.starved = false
  connected : c.connectedToServer = true
  clientName : c.clientName = clientName
  files : ∀ path, path ≠ clientDetailsPath → c.files path = files path

/-- What a method has come to: the stores, the client and the log. -/
structure Performed (sys sys' : System) (i : ℕ) (s' : Server KeyedDisk) (c' : Client) : Prop where
  server : sys'.server = s'
  client : sys'.client i = c'
  served : ∃ log, sys'.served = log ++ sys.served ∧ ∀ r ∈ log, r.client = i ∧ r.left = []

theorem Performed.served_trans {sys₁ sys₂ : System} {s₁ s₂ : Server KeyedDisk} {c₁ c₂ : Client}
    (h₁ : Performed sys sys₁ i s₁ c₁) (h₂ : Performed sys₁ sys₂ i s₂ c₂) :
    ∃ log, sys₂.served = log ++ sys.served ∧ ∀ r ∈ log, r.client = i ∧ r.left = [] := by
  obtain ⟨log₁, hlog₁, hown₁⟩ := h₁.served
  obtain ⟨log₂, hlog₂, hown₂⟩ := h₂.served
  refine ⟨log₂ ++ log₁, by rw [hlog₂, hlog₁, List.append_assoc], ?_⟩
  intro r hr
  rcases List.mem_append.mp hr with hr | hr
  · exact hown₂ r hr
  · exact hown₁ r hr

theorem performed_of_exchange {env : Draws} {c c₁ c' : Client} (hc : sys.client i = c) {method : Method}
    (hidle : c.awaiting = false) (hcall : method.run E c = c₁) (hawait : c₁.awaiting = true)
    {m : Message} (hout : c₁.outbox = [m.encode]) (hin : c₁.inbox = []) {sent : Bytes}
    (hturn : Turned (System.turnWith E env sys.server m.encode) s' sent []) (hsent : sent ≠ [])
    (hreceive : receiveResponseFromServer E (answered c₁ [] sent) = c') (hread : c'.starved = false)
    (hdone : c'.outbox = []) (hreturned : c'.awaiting = false) (draws : List Draws) :
    Performed sys (perform E i method (env :: draws) sys) i s' c' := by
  have hstep : sys.step E (.call i method) = sys.setClient i c₁ := by
    simp [System.step, hc, hidle, hcall]
  have hexchange :=
    exchange_eq env (System.setClient_self sys i c₁) hawait hout hin hturn hsent hreceive
    hread
  have hend : perform E i method (env :: draws) sys =
      ⟨s', Function.update (sys.setClient i c₁).client i c', ⟨i, m.encode, []⟩ :: sys.served⟩ := by
    rw [perform, hstep, List.foldl_cons, hexchange]
    apply exchanges_idle <;> simpa
  rw [hend]
  refine ⟨rfl, Function.update_self .., [⟨i, m.encode, []⟩], rfl, ?_⟩
  intro r hr
  rw [List.mem_singleton.mp hr]
  exact ⟨rfl, rfl⟩

section Methods

variable {files : Bytes → Option Bytes} {name : Str} {c : Client} (draws : List Draws)
  (hc : sys.client i = c) (hrest : Resting files (padField 255 name) c)
  (hfits : (encodeUtf8 name).length ≤ 255) (hnul : nul ∉ name)
include hc hrest hfits hnul

theorem performed_register (hinfo : (c.files serverFilePath).isSome = true)
    (hdetails : c.files clientDetailsPath = none)
    (hfree : sys.server.database.clientExistsByName name = false) :
    ∃ c', Performed sys (perform E i .registerToServer (env :: draws) sys) i
        (register env.now env.uuid name sys.server) c' ∧
      Resting files (padField 255 name) c' ∧ c'.clientIdHex ≠ [] ∧ c'.clientIdBytes = env.uuid ∧
      c'.requestCodes = c.requestCodes ++ [clientCodeRegister] ∧
      c'.responseCodes = c.responseCodes ++ [serverCodeRegistrationOk] := by
  have hlen : c.clientName.length = 255 := by rw [hrest.clientName, length_padField hfits]
  have hcall : Method.run E .registerToServer c =
      await (post clientCodeRegister (registerMessage c.clientName hlen).encode c) := by
    rw [Method.run, registerToServer, if_pos ⟨hrest.connected, hinfo⟩,
      sendRequestToServer_register hlen]
  have hdecode : decodeUtf8 c.clientName =
      some (name ++ List.replicate (255 - (encodeUtf8 name).length) nul) := by
    rw [hrest.clientName, decodeUtf8_padField]
  have hstrip := stripNul_append_replicate hnul (255 - (encodeUtf8 name).length)
  have hturn : Turned (System.turnWith E env sys.server (registerMessage c.clientName hlen).encode)
      (register env.now env.uuid name sys.server)
      (responseHead serverCodeRegistrationOk 0 env.uuid) [] := by
    have hturn : Turned (System.turnWith E env sys.server
        (registerMessage c.clientName hlen).encode) _ _ _ :=
      turned_register rfl rfl hdecode (by rw [hstrip, hfree])
    rwa [hstrip] at hturn
  have hin : (answered (await (post clientCodeRegister (registerMessage c.clientName hlen).encode c))
      [] (responseHead serverCodeRegistrationOk 0 env.uuid)).inbox =
        responseHead serverCodeRegistrationOk 0 env.uuid := by
    simp [answered, await, post, hrest.inbox]
  have hreceive := receiveResponseFromServer_registered (E := E) env.uuid_length hin
  rw [saveRegistrationDetails, if_neg (by simp [answered, await, post, hdetails])] at hreceive
  have hhex : encodeUtf8 (hex env.uuid) ≠ [] := by
    intro hnil
    have hbytes := length_le_encodeUtf8 (hex env.uuid)
    rw [hnil, hex_length, env.uuid_length] at hbytes
    simp at hbytes
  refine ⟨_, performed_of_exchange hc hrest.awaiting hcall rfl ?_ hrest.inbox hturn ?_ hreceive
    hrest.starved rfl rfl draws, ⟨rfl, rfl, rfl, hrest.starved, hrest.connected, hrest.clientName, ?_⟩,
    hhex, rfl, rfl, rfl⟩
  · simp [await, post, hrest.outbox]
  · intro hnil
    have hbytes := congrArg List.length hnil
    simp [responseHead] at hbytes
  · intro path hpath
    refine Eq.trans ?_ (hrest.files path hpath)
    simp [answered, await, post, appendLine, hpath]

theorem performed_key (hattached : c.clientIdHex ≠ []) (hid : c.clientIdBytes.length = 16)
    (hknown : sys.server.database.clientExistsById c.clientIdBytes = true) {pair : KeyPair}
    (hpair : KeyPairLaws E pair.publicKey pair.privateKey) :
    ∃ c', Performed sys (perform E i (.generateRSAKeyPair pair) (env :: draws) sys) i
        (setKeys env.now name pair.publicKey (env.random aesKeySize) sys.server) c' ∧
      Resting files (padField 255 name) c' ∧ c'.clientIdHex = c.clientIdHex ∧
      c'.clientIdBytes = c.clientIdBytes ∧ c'.aesKey = env.random aesKeySize ∧
      c'.requestCodes = c.requestCodes ++ [clientCodeSendPublicKey] ∧
      c'.responseCodes = c.responseCodes ++ [serverCodeSwitchingKeys] := by
  have hlen : c.clientName.length = 255 := by rw [hrest.clientName, length_padField hfits]
  obtain ⟨files', hsaved, hfiles⟩ : ∃ files', savePrivateKey (E.base64Encode pair.privateKey) c =
      { c with files := files' } ∧ ∀ path, path ≠ clientDetailsPath → files' path = files path := by
    unfold savePrivateKey
    split_ifs
    · refine ⟨_, rfl, fun path hpath => ?_⟩
      rw [← hrest.files path hpath, replaceLine]
      exact Function.update_of_ne hpath _ _
    · exact ⟨c.files, rfl, hrest.files⟩
  have hcall : Method.run E (.generateRSAKeyPair pair) c = await (post clientCodeSendPublicKey
      (keyMessage c.clientIdBytes c.clientName pair.publicKey hid hlen hpair.length_public).encode
      { c with files := files', privateKey := E.base64Encode pair.privateKey }) := by
    rw [Method.run, generateRSAKeyPair, if_pos ⟨hrest.connected, hattached⟩]
    simp only [hsaved]
    rw [sendRequestToServer_key hid hlen hpair.length_public]
  have hdecode : decodeUtf8 c.clientName =
      some (name ++ List.replicate (255 - (encodeUtf8 name).length) nul) := by
    rw [hrest.clientName, decodeUtf8_padField]
  have hrequest := keyRequest_append hlen hpair.length_public hdecode
  rw [stripNul_append_replicate hnul] at hrequest
  obtain ⟨cipher, hcipher, hsize⟩ := hpair.encrypts env.seed (env.random aesKeySize)
    (env.random_length aesKeySize)
  have hturn : Turned (System.turnWith E env sys.server
      (keyMessage c.clientIdBytes c.clientName pair.publicKey hid hlen hpair.length_public).encode)
        _ _ _ := turned_key rfl rfl hknown hrequest hpair.imported hcipher hsize
  have hin : (answered (await (post clientCodeSendPublicKey (keyMessage c.clientIdBytes c.clientName
      pair.publicKey hid hlen hpair.length_public).encode
        { c with files := files', privateKey := E.base64Encode pair.privateKey })) []
          (responseHead serverCodeSwitchingKeys cipher.length c.clientIdBytes ++ cipher)).inbox =
        responseHead serverCodeSwitchingKeys cipher.length c.clientIdBytes ++ cipher := by
    simp [answered, await, post, hrest.inbox]
  have hreceive := receiveResponseFromServer_key (E := E) hid hsize hin
  have hdecrypt : E.oaepDecrypt (E.base64Decode (E.base64Encode pair.privateKey)) cipher =
      some (env.random aesKeySize) := by
    rw [hpair.decode_encode, hpair.decrypt_encrypt _ _ _ hcipher]
  simp only [handleAESKeyFromServer, answered, await, post, hdecrypt] at hreceive
  refine ⟨_, performed_of_exchange hc hrest.awaiting hcall rfl ?_ hrest.inbox hturn ?_ hreceive
    hrest.starved rfl rfl draws, ⟨rfl, rfl, rfl, hrest.starved, hrest.connected, hrest.clientName,
      hfiles⟩, rfl, rfl, rfl, rfl, rfl⟩
  · simp [await, post, hrest.outbox]
  · intro hnil
    have hbytes := congrArg List.length hnil
    simp [responseHead] at hbytes

end Methods

/-- What is sent of a file that is not too large. -/
theorem sentOf_eq (haes : AesLaws E) {c : Client} (hkey : c.aesKey.length = 16) {content : Bytes}
    (hsize : content.length < 2 ^ 32 - 16) :
    sentOf E c content = E.aesEncrypt c.aesKey content ∧
      noted c content = { c with
        cksumOfLastFile := Cksum.Client.calculateCksum content (UInt32.ofNat content.length) } := by
  have hmod : content.length % 2 ^ 32 = content.length := Nat.mod_eq_of_lt (by omega)
  have hlen := haes.length_encrypt c.aesKey content hkey
  have hwhole : (E.aesEncrypt c.aesKey content).length % 2 ^ 32 =
      (E.aesEncrypt c.aesKey content).length := Nat.mod_eq_of_lt (by omega)
  simp only [sentOf, noted, hmod, List.take_length, hwhole, and_self]

section Upload

variable {c : Client} {m : Message} {filename : Str} (hc : sys.client i = c)
  (hawait : c.awaiting = true) (hout : c.outbox = [m.encode]) (hin : c.inbox = [])
  (hread : c.starved = false)
include hc hawait hout hin hread

theorem exchange_upload {content : Bytes} (hid : m.clientId = c.clientIdBytes)
    (hturn : Turned (System.turnWith E env sys.server m.encode) s'
      (reported m.clientId filename content.length c.cksumOfLastFile.toNat) []) :
    ∃ (c' : Client) (m' : Message), (sys.serve E i env).resume E i =
        ⟨s', Function.update sys.client i c', ⟨i, m.encode, []⟩ :: sys.served⟩ ∧
      (c'.awaiting = true ∧ c'.outbox = [m'.encode] ∧ c'.inbox = [] ∧ c'.starved = false) ∧
      (m'.clientId = m.clientId ∧ m'.code = clientCodeCksumOk ∧ m'.tail = reportField filename) ∧
      c'.requestCodes = c.requestCodes ++ [clientCodeCksumOk] ∧
      c'.responseCodes = c.responseCodes ++ [serverCodeCksumReady] := by
  have hlen : c.clientIdBytes.length = 16 := by rw [← hid, m.clientId_length]
  have hfield := length_reportField filename
  have hanswer : (answered c [] (reported m.clientId filename content.length
      c.cksumOfLastFile.toNat)).inbox =
        reported m.clientId filename content.length c.cksumOfLastFile.toNat := by
    simp [answered, hin]
  have hreceive := receiveResponseFromServer_reported (E := E) m.clientId_length
    (UInt32.toNat_lt _) hanswer
  simp only [answered, UInt32.ofNat_toNat, ↓reduceIte] at hreceive
  rw [sendRequestToServer_name hlen (.inl rfl) hfield] at hreceive
  refine ⟨_, nameMessage c.clientIdBytes clientCodeCksumOk (reportField filename) hlen (.inl rfl)
    hfield, exchange_eq env hc hawait hout hin hturn ?_ hreceive hread, ⟨rfl, rfl, rfl, hread⟩,
    ⟨hid.symm, rfl, rfl⟩, rfl, rfl⟩
  intro hnil
  have hbytes := congrArg List.length hnil
  simp [reported, responseHead] at hbytes

theorem exchange_confirm (hknown : sys.server.database.clientExistsById m.clientId = true)
    (hcode : m.code = clientCodeCksumOk) (hfield : m.tail.length = 255)
    (hname : filenameOf E m.tail = some filename) :
    ∃ c', (sys.serve E i env).resume E i =
        ⟨confirm env.now m.clientId filename sys.server, Function.update sys.client i c',
          ⟨i, m.encode, []⟩ :: sys.served⟩ ∧
      c'.awaiting = false ∧ c'.outbox = [] ∧ c'.requestCodes = c.requestCodes ∧
      c'.responseCodes = c.responseCodes ++ [serverCodeMessageReceived] := by
  have hturn : Turned (System.turnWith E env sys.server m.encode) _ _ _ :=
    turned_cksumOk hknown hfield hcode hname
  have hanswer : (answered c [] (acknowledged m.clientId)).inbox = acknowledged m.clientId := by
    simp [answered, hin]
  have hreceive := receiveResponseFromServer_told (E := E) (uuidField_length _) (.inr rfl) hanswer
  refine ⟨_, exchange_eq env hc hawait hout hin hturn ?_ hreceive hread, rfl, rfl, rfl, rfl⟩
  intro hnil
  have hbytes := congrArg List.length hnil
  simp [acknowledged, responseHead] at hbytes

end Upload

section Send

variable {files : Bytes → Option Bytes} {clientName : Bytes} {c : Client}
  {path content : Bytes} {filename : Str} (haes : AesLaws E) (hrest : Resting files clientName c)
  (hattached : c.clientIdHex ≠ []) (hid : c.clientIdBytes.length = 16)
  (hkey : c.aesKey.length = 16) (hinfo : (files serverFilePath).isSome = true)
  (hpath : readLine (files serverFilePath) 3 c.filePath = (true, path))
  (hfile : files (path.map tolower) = some content) (hother : path.map tolower ≠ clientDetailsPath)
  (hsize : content.length < 2 ^ 32 - 16) (hname : KeptAs E (path.map tolower) filename)
include haes hrest hattached hid hkey hinfo hpath hfile hother hsize hname

theorem sendFileToServer_upload : ∃ m : Message,
    (∃ c₁, sendFileToServer E c = c₁ ∧ c₁.awaiting = true ∧ c₁.outbox = [m.encode] ∧
      c₁.inbox = [] ∧ c₁.starved = false ∧ c₁.clientIdBytes = c.clientIdBytes ∧
      c₁.cksumOfLastFile = Cksum.Client.calculateCksum content (UInt32.ofNat content.length) ∧
      c₁.requestCodes = c.requestCodes ++ [clientCodeSendFile] ∧
      c₁.responseCodes = c.responseCodes) ∧
    m.clientId = c.clientIdBytes ∧
    ∀ (env : Draws) (s : Server KeyedDisk), Consistent s →
      s.database.clientExistsById c.clientIdBytes = true →
      s.database.getAesKeyOfClient c.clientIdBytes = some c.aesKey →
      Turned (System.turnWith E env s m.encode) (store env.now c.clientIdBytes filename content s)
        (reported c.clientIdBytes filename content.length
          (Cksum.Client.calculateCksum content (UInt32.ofNat content.length)).toNat) [] := by
  have hinfo' : c.files serverFilePath = files serverFilePath := hrest.files _ (by decide)
  have hload : loadFilePath c = (true, { c with filePath := path.map tolower }) := by
    rw [loadFilePath, hinfo', if_pos hinfo, hpath]
    rfl
  have hfile' : c.files (path.map tolower) = some content := by rw [hrest.files _ hother, hfile]
  have hcall := sendFileToServer_eq (E := E) hid hkey hrest.connected hattached hload hfile'
  obtain ⟨hsent, hnoted⟩ := sentOf_eq (c := { c with filePath := path.map tolower }) haes hkey hsize
  rw [hnoted] at hcall
  refine ⟨uploadMessage c.clientIdBytes c.clientIdBytes (resize 255 (fileNameOf (path.map tolower)))
    (sentOf E { c with filePath := path.map tolower } content) hid hid (length_resize 255 _)
    (length_sentOf E _ content),
    ⟨_, hcall, rfl, ?_, hrest.inbox, hrest.starved, rfl, rfl, rfl, rfl⟩, rfl, ?_⟩
  · simp [await, post, hrest.outbox]
  · intro env s hs hknown hagreed
    have hdata : contentOf E s.database c.clientIdBytes
        (sentOf E { c with filePath := path.map tolower } content) = some content := by
      rw [hsent, contentOf, hagreed, Option.bind_some]
      exact haes.decrypt_encrypt _ _ hkey
    have hcksum := Cksum.cksumCalc_eq (show content.length < 2 ^ 32 by omega)
    have hupload : Turned (System.turnWith E env s (uploadMessage c.clientIdBytes c.clientIdBytes
        (resize 255 (fileNameOf (path.map tolower)))
        (sentOf E { c with filePath := path.map tolower } content) hid hid (length_resize 255 _)
        (length_sentOf E _ content)).encode) _ _ _ :=
      turned_upload rfl rfl hid (length_resize 255 _) (length_sentOf E _ content)
        hknown hs hname.uploaded hdata hname.nul_notMem hcksum
    rwa [if_pos (show content.length < 4294967296 by omega)] at hupload

/-- The transfer of a file: one upload, confirmed. -/
theorem performed_send (hc : sys.client i = c) (hs : Consistent sys.server)
    (hknown : sys.server.database.clientExistsById c.clientIdBytes = true)
    (hagreed : sys.server.database.getAesKeyOfClient c.clientIdBytes = some c.aesKey)
    (env' : Draws) (draws : List Draws) :
    ∃ c', Performed sys (perform E i .sendFileToServer (env :: env' :: draws) sys) i
        (confirm env'.now c.clientIdBytes filename
          (store env.now c.clientIdBytes filename content sys.server)) c' ∧
      c'.awaiting = false ∧
      c'.requestCodes = c.requestCodes ++ [clientCodeSendFile, clientCodeCksumOk] ∧
      c'.responseCodes = c.responseCodes ++ [serverCodeCksumReady, serverCodeMessageReceived] ∧
      (perform E i .sendFileToServer [env] sys).server =
        store env.now c.clientIdBytes filename content sys.server := by
  obtain ⟨m, ⟨c₁, hcall, hawait, hout, hin, hread, hid₁, hcksum, hrequests, hresponses⟩, hm,
    hturned⟩ := sendFileToServer_upload haes hrest hattached hid hkey hinfo hpath hfile hother hsize
      hname
  have hstep : sys.step E (.call i .sendFileToServer) = sys.setClient i c₁ := by
    simp [System.step, hc, hrest.awaiting, Method.run, hcall]
  have hupload := hturned env sys.server hs hknown hagreed
  rw [← hcksum, ← hm] at hupload
  obtain ⟨c₂, m', hfirst, ⟨hawait₂, hout₂, hin₂, hread₂⟩, ⟨hm', hcode, htail⟩, hrequests₂,
    hresponses₂⟩ := exchange_upload env (System.setClient_self sys i c₁) hawait hout hin hread
      (hm.trans hid₁.symm) hupload
  obtain ⟨sys₂, hsys₂⟩ : ∃ sys₂ : System, ((sys.setClient i c₁).serve E i env).resume E i = sys₂ :=
    ⟨_, rfl⟩
  have hclient₂ : sys₂.client i = c₂ := by
    rw [← hsys₂, hfirst]
    exact Function.update_self ..
  have hserver₂ : sys₂.server = store env.now m.clientId filename content sys.server := by
    rw [← hsys₂, hfirst, hm]
  have hknown₂ : sys₂.server.database.clientExistsById m'.clientId = true := by
    rw [hserver₂, (retouched_store _ _ _ _ _).exists_eq, hm', hm]
    exact hknown
  obtain ⟨c₃, hsecond, hawait₃, hout₃, hrequests₃, hresponses₃⟩ := exchange_confirm env'
    hclient₂ hawait₂ hout₂ hin₂ hread₂ hknown₂ hcode (by rw [htail, length_reportField])
    (by rw [htail, hname.echoed])
  have hend : perform E i .sendFileToServer (env :: env' :: draws) sys =
      (sys₂.serve E i env').resume E i := by
    rw [perform, hstep, List.foldl_cons, List.foldl_cons, hsys₂]
    apply exchanges_idle <;> simpa [hsecond]
  have hfirst' : perform E i .sendFileToServer [env] sys = sys₂ := by
    rw [perform, hstep, List.foldl_cons, List.foldl_nil, hsys₂]
  rw [hend, hsecond, hserver₂, hm', hm, hfirst', hserver₂, hm]
  refine ⟨c₃, ⟨rfl, Function.update_self .., [⟨i, m'.encode, []⟩, ⟨i, m.encode, []⟩], ?_, ?_⟩, hawait₃,
    ?_, ?_, rfl⟩
  · rw [← hsys₂, hfirst]
    rfl
  · intro r hr
    rcases List.mem_cons.mp hr with rfl | hr
    · exact ⟨rfl, rfl⟩
    · rw [List.mem_singleton.mp hr]
      exact ⟨rfl, rfl⟩
  · rw [hrequests₃, hrequests₂, hrequests, List.append_assoc]
    rfl
  · rw [hresponses₃, hresponses₂, hresponses, List.append_assoc]
    rfl

end Send

theorem resting_new {files : Bytes → Option Bytes} (hdetails : files clientDetailsPath = none)
    {info : Bytes} (hinfo : files serverFilePath = some info) {address path : Bytes} {name : Str}
    {rest : List Bytes} (hlines : splitLines info = address :: encodeUtf8 name :: path :: rest)
    (hfits : (encodeUtf8 name).length ≤ 255) :
    Resting files (padField 255 name) (Client.new files true) ∧
      (Client.new files true).files clientDetailsPath = none ∧
      (Client.new files true).requestCodes = [] ∧ (Client.new files true).responseCodes = [] ∧
      ∀ destination, readLine (files serverFilePath) 3 destination = (true, path) := by
  have hline : ∀ destination, readLine (some info) 2 destination = (true, encodeUtf8 name) := by
    intro destination
    simp [readLine, hlines, readLineLoop]
  have hpath : ∀ destination, readLine (some info) 3 destination = (true, path) := by
    intro destination
    simp [readLine, hlines, readLineLoop]
  have htake : (encodeUtf8 name).take 255 = encodeUtf8 name := List.take_of_length_le hfits
  have hpad : resize 255 (encodeUtf8 name) = padField 255 name := by
    rw [resize, htake, padField]
  have hsome : (files serverFilePath).isSome = true := by rw [hinfo, Option.isSome_some]
  have hnew : Client.new files true = ⟨padField 255 name, [], List.replicate 16 0, [], [], 0, 1, [],
      true, files, [], false, [], false, [], []⟩ := by
    have hnone : ∀ c : Client, c.files = files → loadRegistrationDetails c = c := by
      intro c hc
      rw [loadRegistrationDetails, if_neg (by simp [hc, hdetails])]
    rw [Client.new, if_pos hsome, hnone _ rfl]
    simp only [loadClientName, hinfo, hline, htake, hpad]
  rw [hnew, hinfo]
  exact ⟨⟨rfl, rfl, rfl, rfl, rfl, rfl, fun _ _ => rfl⟩, hdetails, rfl, rfl, hpath⟩

/-- A client once it is registered and has its key. -/
structure Keyed (files : Bytes → Option Bytes) (name : Str) (clientId : Bytes) (c : Client)
    (s : Server KeyedDisk) : Prop where
  resting : Resting files (padField 255 name) c
  attached : c.clientIdHex ≠ []
  clientId : c.clientIdBytes = clientId
  idLength : c.clientIdBytes.length = 16
  aesKey : c.aesKey.length = 16
  requestCodes : c.requestCodes = [clientCodeRegister, clientCodeSendPublicKey]
  responseCodes : c.responseCodes = [serverCodeRegistrationOk, serverCodeSwitchingKeys]
  consistent : Consistent s
  known : s.database.clientExistsById c.clientIdBytes = true
  agreed : s.database.getAesKeyOfClient c.clientIdBytes = some c.aesKey

section Begin

variable {acts : List (Act (Bytes × Str) Bytes)} (hserver : ServerRuns.Run E sys.server acts)
  {files : Bytes → Option Bytes} (hclient : sys.client i = Client.new files true)
  (hdetails : files clientDetailsPath = none) {info address path : Bytes} {name : Str}
  {rest : List Bytes} (hinfo : files serverFilePath = some info)
  (hlines : splitLines info = address :: encodeUtf8 name :: path :: rest)
  (hfits : (encodeUtf8 name).length ≤ 255) (hnul : nul ∉ name)
  (hfree : sys.server.database.clientExistsByName name = false) {pair : KeyPair}
  (hpair : KeyPairLaws E pair.publicKey pair.privateKey) {env₁ : Draws}
  (env₂ : Draws) (hfresh : sys.server.database.clientExistsById env₁.uuid = false)
include hserver hclient hdetails hinfo hlines hfits hnul hfree hpair hfresh

theorem performed_begin (draws₁ draws₂ : List Draws) :
    let s' := setKeys env₂.now name pair.publicKey (env₂.random aesKeySize)
      (register env₁.now env₁.uuid name sys.server)
    ∃ c', Performed sys (perform E i (.generateRSAKeyPair pair) (env₂ :: draws₂)
        (perform E i .registerToServer (env₁ :: draws₁) sys)) i s' c' ∧
      Keyed files name env₁.uuid c' s' := by
  intro s'
  have hs := hserver.invariant.1
  obtain ⟨hrest, hnone, hrequests, hresponses, -⟩ := resting_new hdetails hinfo hlines hfits
  have hsome : ((Client.new files true).files serverFilePath).isSome = true := by
    rw [hrest.files _ (by decide), hinfo, Option.isSome_some]
  obtain ⟨c₁, hdone₁, hrest₁, hattached₁, hid₁, hrequests₁, hresponses₁⟩ := performed_register
    (E := E) env₁ draws₁ hclient hrest hfits hnul hsome hnone hfree
  have hs₁ := hs.after_register env₁.now env₁.uuid_length hfresh hfree
  have hlisted₁ : (env₁.uuid, name, none) ∈
      roster (register env₁.now env₁.uuid name sys.server).database := by
    rw [roster_register _ _ hfresh]
    exact List.mem_append_right _ (List.mem_singleton_self _)
  have hknown₁ := exists_of_mem_roster hlisted₁
  rw [← hdone₁.server, ← hid₁] at hknown₁
  obtain ⟨c₂, hdone₂, hrest₂, hattached₂, hid₂, haes₂, hrequests₂, hresponses₂⟩ := performed_key
    (E := E) env₂ draws₂ hdone₁.client hrest₁ hfits hnul hattached₁
    (by rw [hid₁, env₁.uuid_length]) hknown₁ hpair
  have hs₂ := hs₁.after_setKeys env₂.now name pair.publicKey (env₂.random aesKeySize)
  have hlisted₂ := mem_roster_setKeys env₂.now name pair.publicKey (env₂.random aesKeySize) hlisted₁
  rw [if_pos rfl] at hlisted₂
  have hid : c₂.clientIdBytes = env₁.uuid := hid₂.trans hid₁
  rw [hdone₁.server] at hdone₂
  refine ⟨c₂, ⟨hdone₂.server, hdone₂.client, ?_⟩, ?_⟩
  · exact hdone₁.served_trans hdone₂
  · refine ⟨hrest₂, by rwa [hattached₂], hid, by rw [hid, env₁.uuid_length], ?_, ?_, ?_, hs₂, ?_, ?_⟩
    · rw [haes₂, env₂.random_length]
      rfl
    · rw [hrequests₂, hrequests₁, hrequests]
      rfl
    · rw [hresponses₂, hresponses₁, hresponses]
      rfl
    · rw [hid]
      exact exists_of_mem_roster hlisted₂
    · rw [hid, haes₂]
      exact getAesKeyOfClient_eq hs₂.sound hlisted₂

/-- Registration, key exchange and transfer, one after another: one upload and one confirmation
are sent, and the server has the file as confirmed. The disk is keyed by the path, as it is where
no name has a separator. -/
theorem transfer (haes : AesLaws E) (hlower : LowerLaws E) {content : Bytes}
    (hfile : files (path.map tolower) = some content) (hsize : content.length < 2 ^ 32 - 16)
    {filename : Str} (hno : 0 ∉ fileNameOf path)
    (hname : decodeUtf8 ((fileNameOf path).take 255) = some filename)
    (hshort : (encodeUtf8 (E.lower filename)).length ≤ 255) (env₃ env₄ : Draws)
    (draws₁ draws₂ draws₃ : List Draws) :
    let sys' := perform E i .sendFileToServer (env₃ :: env₄ :: draws₃)
      (perform E i (.generateRSAKeyPair pair) (env₂ :: draws₂)
        (perform E i .registerToServer (env₁ :: draws₁) sys))
    let key := (env₁.uuid, E.lower filename)
    (sys'.client i).awaiting = false ∧
    (sys'.client i).requestCodes =
      [clientCodeRegister, clientCodeSendPublicKey, clientCodeSendFile, clientCodeCksumOk] ∧
    (sys'.client i).responseCodes = [serverCodeRegistrationOk, serverCodeSwitchingKeys,
      serverCodeCksumReady, serverCodeMessageReceived] ∧
    stored sys'.server key = (some content, [⟨key.1, key.2, filePath key.1 key.2, true⟩],
      some (.new key.1 key.2 (filePath key.1 key.2)),
      some (.new key.1 key.2 (filePath key.1 key.2))) ∧
    ∃ log, sys'.served = log ++ sys.served ∧ ∀ r ∈ log, r.client = i ∧ r.left = [] := by
  intro sys' key
  obtain ⟨-, -, -, -, hpath⟩ := resting_new hdetails hinfo hlines hfits
  obtain ⟨c, hbegun, hkeyed⟩ := performed_begin hserver hclient hdetails hinfo hlines hfits hnul
    hfree hpair env₂ hfresh draws₁ draws₂
  have hkept : KeptAs E (path.map tolower) (E.lower filename) :=
    keptAs_lower hlower hno hname hshort
  have hsome : (files serverFilePath).isSome = true := by rw [hinfo, Option.isSome_some]
  have hother : path.map tolower ≠ clientDetailsPath := by
    intro he
    rw [he, hdetails] at hfile
    cases hfile
  have hs := hkeyed.consistent
  have hknown := hkeyed.known
  have hagreed := hkeyed.agreed
  rw [← hbegun.server] at hs hknown hagreed
  obtain ⟨c', hdone, hawait, hrequests, hresponses, -⟩ := performed_send (E := E) env₃
    haes hkeyed.resting hkeyed.attached hkeyed.idLength hkeyed.aesKey hsome (hpath _) hfile hother
    hsize hkept hbegun.client hs hknown hagreed env₄ draws₃
  have hs₁ := hs.after_store env₃.now content hknown hkept.nul_notMem
  have hs₂ := hs₁.after_confirm env₄.now c.clientIdBytes (E.lower filename)
  refine ⟨?_, ?_, ?_, ?_, ?_⟩
  · rw [hdone.client, hawait]
  · rw [hdone.client, hrequests, hkeyed.requestCodes]
    rfl
  · rw [hdone.client, hresponses, hkeyed.responseCodes]
    rfl
  · rw [hdone.server, hs₂.stored_eq, hs₁.sound.entry_confirm, hs.sound.entry_store,
      hkeyed.clientId]
    simp [Ledger.apply, key]
  · exact hbegun.served_trans hdone

end Begin

theorem transfer_ofA :
    let sys' := perform plainCiphers 0 .sendFileToServer [constantDraws 3, constantDraws 4]
      (perform plainCiphers 0 (.generateRSAKeyPair keyPairOfA) [constantDraws 2]
        (perform plainCiphers 0 .registerToServer [constantDraws 1] systemOfA))
    let key := (List.replicate 16 1, ['f'])
    (sys'.client 0).awaiting = false ∧
    (sys'.client 0).requestCodes =
      [clientCodeRegister, clientCodeSendPublicKey, clientCodeSendFile, clientCodeCksumOk] ∧
    (sys'.client 0).responseCodes = [serverCodeRegistrationOk, serverCodeSwitchingKeys,
      serverCodeCksumReady, serverCodeMessageReceived] ∧
    stored sys'.server key = (some [7], [⟨key.1, key.2, filePath key.1 key.2, true⟩],
      some (.new key.1 key.2 (filePath key.1 key.2)),
      some (.new key.1 key.2 (filePath key.1 key.2))) ∧
    ∃ log, sys'.served = log ++ systemOfA.served ∧ ∀ r ∈ log, r.client = 0 ∧ r.left = [] := by
  have hpair : KeyPairLaws plainCiphers keyPairOfA.publicKey keyPairOfA.privateKey :=
    keyPairLaws_plainCiphers _
  have hlines : splitLines infoOfA = addressLine :: encodeUtf8 ['a'] :: [102] :: [] := by
    decide
  have hfile : filesOfA ([102].map tolower) = some [7] := by decide
  have hname : decodeUtf8 ((fileNameOf [102]).take 255) = some ['f'] := by decide
  have hempty : ServerRuns.Run plainCiphers systemOfA.server [] := .start
  have hnew : systemOfA.client 0 = Client.new filesOfA true := rfl
  have hinfo : filesOfA serverFilePath = some infoOfA := by decide
  have hfresh : systemOfA.server.database.clientExistsById (constantDraws 1).uuid = false := rfl
  have hfree : systemOfA.server.database.clientExistsByName ['a'] = false := rfl
  have hkeys : KeyPairLaws plainCiphers keyPairOfA.publicKey
    keyPairOfA.privateKey := hpair
  exact transfer hempty hnew (by decide) hinfo hlines (by decide) (by decide) hfree hkeys
    (constantDraws 2) hfresh aesLaws_plainCiphers lowerLaws_plainCiphers hfile (by decide)
    (by decide) hname (by decide) (constantDraws 3) (constantDraws 4) [] [] []

end EncryptedTransfer.FirstTransfer
