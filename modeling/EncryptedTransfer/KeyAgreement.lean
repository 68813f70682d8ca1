import EncryptedTransfer.ClientRoster

/-!
# Agreement on the AES keys

The server stores a key under a name and reads it by an id. An invariant of the clients and
the server: what every client awaits and what is on its way, that a client's id is listed
under its own name, and that no two clients have one id.
-/
namespace EncryptedTransfer.KeyAgreement
open ServerStores hiding Client Client.new
open ByteFormats Text ServerCalls ServerHandlers ServerConsistency ServerEffects CryptoLaws
open StreamFraming ClientProcess Network ClientMessages ServerTurns ClientRoster

/-- The name the server knows a client by. -/
def nameOf (c : Client) : Option Str := (decodeUtf8 c.clientName).map stripNul

/-- The roster has an id under the client's name. -/
def ListedAs (db : Database) (c : Client) (clientId : Bytes) (key : Option Bytes) : Prop :=
  ∃ name, nameOf c = some name ∧ (clientId, name, key) ∈ roster db

/-- The client awaits the answer to a public-key request. -/
def KeyOutstanding (c : Client) : Prop :=
  c.awaiting = true ∧ c.requestCodes.getLast? = some clientCodeSendPublicKey

def Owns (c : Client) (clientId : Bytes) : Prop :=
  (c.clientIdHex ≠ [] ∧ c.clientIdBytes = clientId) ∨
    c.inbox = responseHead serverCodeRegistrationOk 0 clientId

/-- The requests on their way while a file is transferred. -/
inductive Exchange (clientId : Bytes) : List Bytes → Prop
  | upload {data : Bytes} (h : IsUpload clientId data) : Exchange clientId [data]
  | named {code : ℕ} {data : Bytes} (h : IsNamed clientId code data) : Exchange clientId [data]
  | again {data data' : Bytes} (h : IsNamed clientId clientCodeCksumErr data)
      (h' : IsUpload clientId data') : Exchange clientId [data, data']

/-- Where a client stands in its dialogue. -/
inductive Phase (E : Externals) (db : Database) (c : Client) : Prop
  | idle (hawait : c.awaiting = false) (hout : c.outbox = []) (hin : c.inbox = [])
  | registering (hawait : c.awaiting = true)
      (hlast : c.requestCodes.getLast? = some clientCodeRegister)
      (hlen : c.clientName.length = 255)
      (hout : c.outbox = [(registerMessage c.clientName hlen).encode]) (hin : c.inbox = [])
  | registered (hawait : c.awaiting = true)
      (hlast : c.requestCodes.getLast? = some clientCodeRegister) (hnew : c.clientIdHex = [])
      (hout : c.outbox = []) {clientId : Bytes} (hid : clientId.length = 16) {key : Option Bytes}
      (hlisted : ListedAs db c clientId key)
      (hin : c.inbox = responseHead serverCodeRegistrationOk 0 clientId)
  | keyAsked (hkey : KeyOutstanding c) (hattached : c.clientIdHex ≠ []) {pair : KeyPair}
      (hpair : KeyPairLaws E pair.publicKey pair.privateKey)
      (hprivate : c.privateKey = E.base64Encode pair.privateKey)
      (hid : c.clientIdBytes.length = 16) (hlen : c.clientName.length = 255)
      (hout : c.outbox = [(keyMessage c.clientIdBytes c.clientName pair.publicKey hid hlen
        hpair.length_public).encode]) (hin : c.inbox = [])
  | keyAnswered (hkey : KeyOutstanding c) (hattached : c.clientIdHex ≠ []) (hout : c.outbox = [])
      {cipher aesKey : Bytes} (hsize : cipher.length < 4294967296) (haes : aesKey.length = 16)
      (hdecrypt : E.oaepDecrypt (E.base64Decode c.privateKey) cipher = some aesKey)
      (hlisted : ListedAs db c c.clientIdBytes (some aesKey))
      (hin : c.inbox =
        responseHead serverCodeSwitchingKeys cipher.length c.clientIdBytes ++ cipher)
  | exchanging (hawait : c.awaiting = true)
      (hlast : c.requestCodes.getLast? ≠ some clientCodeSendPublicKey)
      (hattached : c.clientIdHex ≠ []) (hout : Exchange c.clientIdBytes c.outbox)
      (hin : c.inbox = [])
  | reported (hawait : c.awaiting = true)
      (hlast : c.requestCodes.getLast? ≠ some clientCodeSendPublicKey)
      (hattached : c.clientIdHex ≠ []) (hout : c.outbox = []) {filename : Str} {size cksum : ℕ}
      (hsize : size < 4294967296) (hcksum : cksum < 4294967296)
      (hin : c.inbox = reported c.clientIdBytes filename size cksum)
  | told (hawait : c.awaiting = true)
      (hlast : c.requestCodes.getLast? ≠ some clientCodeSendPublicKey) (hout : c.outbox = [])
      (hin : c.inbox = [] ∨ c.inbox = refused ∨ c.inbox = acknowledged c.clientIdBytes)

/-- What holds between a client and the tables. -/
structure Agrees (E : Externals) (db : Database) (c : Client) : Prop where
  nameLength : c.connectedToServer = true → c.clientName.length = 255
  idLength : c.clientIdBytes.length = 16
  attached : c.clientIdHex ≠ [] → ∃ key, ListedAs db c c.clientIdBytes key
  keyed : serverCodeSwitchingKeys ∈ c.responseCodes → c.clientIdHex ≠ []
  agreed : ¬ KeyOutstanding c → serverCodeSwitchingKeys ∈ c.responseCodes →
    c.aesKey.length = 16 ∧ ListedAs db c c.clientIdBytes (some c.aesKey)
  phase : Phase E db c

/-- The invariant of the clients and the server. -/
structure Agreement (E : Externals) (sys : System) : Prop where
  consistent : Consistent sys.server
  agrees : ∀ i, Agrees E sys.server.database (sys.client i)
  distinct : ∀ i j clientId, Owns (sys.client i) clientId → Owns (sys.client j) clientId → i = j

theorem codeOf_responseHead {code : ℕ} (hcode : code < 65536) (size : ℕ) (clientId rest : Bytes) :
    ofLe (((responseHead code size clientId ++ rest).drop 1).take 2) = code := by
  have hdrop : (responseHead code size clientId ++ rest).drop 1 =
      leBytes 2 code ++ (leBytes 4 size ++ (clientId ++ rest)) := by
    rw [responseHead, List.append_assoc, List.drop_left' (leBytes_length 1 serverVersion)]
    simp
  rw [hdrop, List.take_left' (leBytes_length 2 code), ofLe_leBytes_of_lt hcode]

theorem nil_ne_responseHead {code size : ℕ} (clientId : Bytes) :
    [] ≠ responseHead code size clientId := by
  intro he
  have hlen := congrArg List.length he
  simp [responseHead] at hlen
  omega

theorem responseHead_ne {code code' : ℕ} (hcode : code < 65536) (hcode' : code' < 65536)
    (hne : code ≠ code') (size size' : ℕ) (clientId clientId' rest rest' : Bytes) :
    responseHead code size clientId ++ rest ≠ responseHead code' size' clientId' ++ rest' := by
  intro h
  apply hne
  rw [← codeOf_responseHead hcode size clientId rest, h,
    codeOf_responseHead hcode' size' clientId' rest']

theorem responseHead_inj {code size : ℕ} {clientId clientId' : Bytes}
    (h : responseHead code size clientId = responseHead code size clientId') :
    clientId = clientId' := by
  simpa [responseHead] using h

section Tables

variable {E : Externals} {db db' : Database} {c : Client}

theorem Agrees.listed (h : Agrees E db c) {clientId : Bytes} (howns : Owns c clientId) :
    ∃ key, ListedAs db c clientId key := by
  have hother {code : ℕ} (hcode : code < 65536) (hne : code ≠ serverCodeRegistrationOk)
      {size : ℕ} {x rest : Bytes} (hin : c.inbox = responseHead code size x ++ rest) :
      c.inbox ≠ responseHead serverCodeRegistrationOk 0 clientId := by
    rw [hin, ← List.append_nil (responseHead serverCodeRegistrationOk 0 clientId)]
    exact responseHead_ne hcode (by decide) hne _ _ _ _ _ _
  have hnil (hin : c.inbox = []) : c.inbox ≠ responseHead serverCodeRegistrationOk 0 clientId := by
    rw [hin]
    exact nil_ne_responseHead clientId
  rcases howns with ⟨hattached, rfl⟩ | hpending
  · exact h.attached hattached
  · cases h.phase with
    | idle _ _ hin => exact absurd hpending (hnil hin)
    | registering _ _ _ _ hin => exact absurd hpending (hnil hin)
    | registered _ _ _ _ _ hlisted hin =>
      rw [hin] at hpending
      rw [← responseHead_inj hpending]
      exact ⟨_, hlisted⟩
    | keyAsked _ _ _ _ _ _ _ hin => exact absurd hpending (hnil hin)
    | keyAnswered _ _ _ _ _ _ _ hin => exact absurd hpending (hother (by decide) (by decide) hin)
    | exchanging _ _ _ _ hin => exact absurd hpending (hnil hin)
    | reported _ _ _ _ _ _ hin => exact absurd hpending (hother (by decide) (by decide) hin)
    | told _ _ _ hin =>
      rcases hin with hin | hin | hin
      · exact absurd hpending (hnil hin)
      · rw [refused, ← List.append_nil (responseHead _ _ _)] at hin
        exact absurd hpending (hother (by decide) (by decide) hin)
      · rw [acknowledged, ← List.append_nil (responseHead _ _ _)] at hin
        exact absurd hpending (hother (by decide) (by decide) hin)

theorem Agrees.of_roster (h : Agrees E db c)
    (hkept : ∀ clientId name key, Owns c clientId → (clientId, name, key) ∈ roster db →
      (clientId, name, key) ∈ roster db') : Agrees E db' c := by
  have hlisted {clientId : Bytes} {key : Option Bytes} (howns : Owns c clientId)
      (hl : ListedAs db c clientId key) : ListedAs db' c clientId key := by
    obtain ⟨name, hname, hmem⟩ := hl
    exact ⟨name, hname, hkept _ _ _ howns hmem⟩
  refine ⟨h.nameLength, h.idLength, ?_, h.keyed, ?_, ?_⟩
  · intro hattached
    obtain ⟨key, hl⟩ := h.attached hattached
    exact ⟨key, hlisted (.inl ⟨hattached, rfl⟩) hl⟩
  · intro hdone hkeyed
    obtain ⟨hlen, hl⟩ := h.agreed hdone hkeyed
    exact ⟨hlen, hlisted (.inl ⟨h.keyed hkeyed, rfl⟩) hl⟩
  · cases h.phase with
    | idle hawait hout hin => exact .idle hawait hout hin
    | registering hawait hlast hlen hout hin => exact .registering hawait hlast hlen hout hin
    | registered hawait hlast hnew hout hid hl hin =>
      exact .registered hawait hlast hnew hout hid (hlisted (.inr hin) hl) hin
    | keyAsked hkey hattached hpair hprivate hid hlen hout hin =>
      exact .keyAsked hkey hattached hpair hprivate hid hlen hout hin
    | keyAnswered hkey hattached hout hsize haes hdecrypt hl hin =>
      exact .keyAnswered hkey hattached hout hsize haes hdecrypt
        (hlisted (.inl ⟨hattached, rfl⟩) hl) hin
    | exchanging hawait hlast hattached hout hin =>
      exact .exchanging hawait hlast hattached hout hin
    | reported hawait hlast hattached hout hsize hcksum hin =>
      exact .reported hawait hlast hattached hout hsize hcksum hin
    | told hawait hlast hout hin => exact .told hawait hlast hout hin

end Tables

section Steps

variable {E : Externals} {db : Database} {c : Client}

structure Kept (E : Externals) (db : Database) (c c' : Client) : Prop where
  agrees : Agrees E db c'
  owns : ∀ clientId, Owns c' clientId → Owns c clientId

theorem Kept.refl (h : Agrees E db c) : Kept E db c c := ⟨h, fun _ howns => howns⟩

theorem Agrees.idle (h : Agrees E db c) (hawait : c.awaiting = false) :
    c.outbox = [] ∧ c.inbox = [] := by
  cases h.phase with
  | idle _ hout hin => exact ⟨hout, hin⟩
  | registering ht => simp [hawait] at ht
  | registered ht => simp [hawait] at ht
  | keyAsked hkey => simp [hawait, KeyOutstanding] at hkey
  | keyAnswered hkey => simp [hawait, KeyOutstanding] at hkey
  | exchanging ht => simp [hawait] at ht
  | reported ht => simp [hawait] at ht
  | told ht => simp [hawait] at ht

theorem not_keyOutstanding_of_last {code : ℕ} (hcode : c.requestCodes.getLast? = some code)
    (hne : code ≠ clientCodeSendPublicKey) : ¬ KeyOutstanding c := by
  rintro ⟨-, hkey⟩
  rw [hcode] at hkey
  exact hne (Option.some.inj hkey)

theorem not_keyOutstanding_of_idle (hawait : c.awaiting = false) : ¬ KeyOutstanding c := by
  rintro ⟨ht, -⟩
  simp [hawait] at ht

theorem registerToServer_kept (h : Agrees E db c) (hawait : c.awaiting = false) :
    Kept E db c (registerToServer c) := by
  obtain ⟨hout, hin⟩ := h.idle hawait
  unfold registerToServer
  split_ifs with hready
  · have hlen := h.nameLength hready.1
    rw [sendRequestToServer_register hlen]
    have hlast : (c.requestCodes ++ [clientCodeRegister]).getLast? = some clientCodeRegister := by
      simp
    refine ⟨⟨h.nameLength, h.idLength, h.attached, h.keyed, ?_, ?_⟩, fun _ howns => howns⟩
    · exact fun _ hkeyed => h.agreed (not_keyOutstanding_of_idle hawait) hkeyed
    · exact .registering rfl hlast hlen (by simp [await, post, hout]) hin
  · exact .refl h

theorem generateRSAKeyPair_kept (h : Agrees E db c) (hawait : c.awaiting = false) {pair : KeyPair}
    (hpair : KeyPairLaws E pair.publicKey pair.privateKey) :
    Kept E db c (generateRSAKeyPair E pair c) := by
  obtain ⟨hout, hin⟩ := h.idle hawait
  unfold generateRSAKeyPair
  split_ifs with hready
  · have hlen := h.nameLength hready.1
    have hsaved : ∃ files, savePrivateKey (E.base64Encode pair.privateKey) c =
        { c with files := files } := by
      unfold savePrivateKey
      split_ifs
      · exact ⟨_, rfl⟩
      · exact ⟨c.files, rfl⟩
    obtain ⟨files, hsaved⟩ := hsaved
    simp only [hsaved]
    rw [sendRequestToServer_key h.idLength hlen hpair.length_public]
    have hlast : (c.requestCodes ++ [clientCodeSendPublicKey]).getLast? =
        some clientCodeSendPublicKey := by
      simp
    refine ⟨⟨h.nameLength, h.idLength, h.attached, h.keyed, ?_, ?_⟩, fun _ howns => howns⟩
    · exact fun hno _ => absurd ⟨rfl, hlast⟩ hno
    · exact .keyAsked ⟨rfl, hlast⟩ hready.2 hpair rfl h.idLength hlen (by simp [await, post, hout])
        hin
  · exact .refl h

theorem sendFileToServer_kept (h : Agrees E db c) (hawait : c.awaiting = false) :
    Kept E db c (sendFileToServer E c) := by
  obtain ⟨hout, hin⟩ := h.idle hawait
  have hagreed := h.agreed (not_keyOutstanding_of_idle hawait)
  rcases sendFileToServer_cases (E := E) h.idLength with ⟨path, hsend⟩ | hsend
  · rw [hsend]
    exact ⟨⟨h.nameLength, h.idLength, h.attached, h.keyed, fun _ => hagreed,
      .idle hawait hout hin⟩, fun _ howns => howns⟩
  · obtain ⟨hattached, path, cksum, data, hdata, hsend⟩ := hsend
    rw [hsend]
    refine ⟨⟨h.nameLength, h.idLength, h.attached, h.keyed, fun _ => hagreed, ?_⟩,
      fun _ howns => howns⟩
    refine .exchanging rfl ?_ hattached ?_ hin
    · simp [await, post, clientCodeSendFile, clientCodeSendPublicKey]
    · have hposted : (await (post clientCodeSendFile data
          { c with filePath := path, cksumOfLastFile := cksum })).outbox = [data] := by
        simp [await, post, hout]
      rw [hposted]
      exact .upload hdata

theorem method_kept (h : Agrees E db c) (hawait : c.awaiting = false) (method : Method)
    (hmethod : ∀ pair, method = .generateRSAKeyPair pair →
      KeyPairLaws E pair.publicKey pair.privateKey) : Kept E db c (method.run E c) := by
  cases method with
  | registerToServer => exact registerToServer_kept h hawait
  | generateRSAKeyPair pair => exact generateRSAKeyPair_kept h hawait (hmethod pair rfl)
  | sendFileToServer => exact sendFileToServer_kept h hawait

theorem told_kept (h : Agrees E db c)
    (hlast : c.requestCodes.getLast? ≠ some clientCodeSendPublicKey) (hout : c.outbox = [])
    {code : ℕ} {clientId : Bytes}
    (hcode : code = serverCodeRegistrationErr ∨ code = serverCodeMessageReceived)
    (hid : clientId.length = 16) (hin : c.inbox = responseHead code 0 clientId) :
    Kept E db c (receiveResponseFromServer E c) := by
  have hno : ¬ KeyOutstanding c := fun hkey => hlast hkey.2
  have hne : serverCodeSwitchingKeys ≠ code := by rcases hcode with rfl | rfl <;> decide
  rw [receiveResponseFromServer_told hid hcode hin]
  refine ⟨⟨h.nameLength, h.idLength, h.attached, ?_, ?_, .idle rfl hout rfl⟩, ?_⟩
  · intro hkeyed
    exact h.keyed (by simpa [hne] using hkeyed)
  · intro _ hkeyed
    exact h.agreed hno (by simpa [hne] using hkeyed)
  · rintro x (hattached | hpending)
    · exact .inl hattached
    · exact absurd hpending (nil_ne_responseHead x)

theorem registered_kept (h : Agrees E db c) (hnew : c.clientIdHex = []) (hout : c.outbox = [])
    {clientId : Bytes} (hid : clientId.length = 16) {key : Option Bytes}
    (hlisted : ListedAs db c clientId key)
    (hin : c.inbox = responseHead serverCodeRegistrationOk 0 clientId) :
    Kept E db c (receiveResponseFromServer E c) := by
  have hnokey : serverCodeSwitchingKeys ∉ c.responseCodes := fun hkeyed => h.keyed hkeyed hnew
  have hnokey' : serverCodeSwitchingKeys ∉ c.responseCodes ++ [serverCodeRegistrationOk] := by
    simpa [serverCodeSwitchingKeys, serverCodeRegistrationOk] using hnokey
  rw [receiveResponseFromServer_registered hid hin, saveRegistrationDetails]
  split_ifs
  · refine ⟨⟨h.nameLength, h.idLength, h.attached, fun hkeyed => absurd hkeyed hnokey',
      fun _ hkeyed => absurd hkeyed hnokey', .idle rfl hout rfl⟩, ?_⟩
    rintro x (hattached | hpending)
    · exact .inl hattached
    · exact absurd hpending (nil_ne_responseHead x)
  · refine ⟨⟨h.nameLength, hid, fun _ => ⟨key, hlisted⟩, fun hkeyed => absurd hkeyed hnokey',
      fun _ hkeyed => absurd hkeyed hnokey', .idle rfl hout rfl⟩, ?_⟩
    rintro x (⟨-, rfl⟩ | hpending)
    · exact .inr hin
    · exact absurd hpending (nil_ne_responseHead x)

theorem keyAnswered_kept (h : Agrees E db c) (hattached : c.clientIdHex ≠ [])
    (hout : c.outbox = []) {cipher aesKey : Bytes} (hsize : cipher.length < 4294967296)
    (haes : aesKey.length = 16)
    (hdecrypt : E.oaepDecrypt (E.base64Decode c.privateKey) cipher = some aesKey)
    (hlisted : ListedAs db c c.clientIdBytes (some aesKey))
    (hin : c.inbox = responseHead serverCodeSwitchingKeys cipher.length c.clientIdBytes ++ cipher) :
    Kept E db c (receiveResponseFromServer E c) := by
  rw [receiveResponseFromServer_key h.idLength hsize hin, handleAESKeyFromServer]
  simp only [hdecrypt]
  refine ⟨⟨h.nameLength, h.idLength, h.attached, fun _ => hattached, fun _ _ => ⟨haes, hlisted⟩,
    .idle rfl hout rfl⟩, ?_⟩
  rintro x (hown | hpending)
  · exact .inl hown
  · exact absurd hpending (nil_ne_responseHead x)

theorem reported_cases (hid : c.clientIdBytes.length = 16) {filename : Str} {size cksum : ℕ}
    (hcksum : cksum < 4294967296) (hin : c.inbox = reported c.clientIdBytes filename size cksum) :
    ∃ requests codes last cksum' trials, Exchange c.clientIdBytes requests ∧
      last ≠ clientCodeSendPublicKey ∧
      receiveResponseFromServer E c = { c with
        awaiting := true
        inbox := []
        outbox := c.outbox ++ requests
        requestCodes := c.requestCodes ++ codes ++ [last]
        responseCodes := c.responseCodes ++ [serverCodeCksumReady]
        cksumOfLastFile := cksum'
        numberOfTrialsTOSendFile := trials } := by
  have hfield := length_reportField filename
  rw [receiveResponseFromServer_reported hid hcksum hin]
  simp only
  split_ifs
  · obtain ⟨data, hdata, hsend⟩ := sendRequestToServer_isNamed hid (.inl rfl) hfield { c with
      awaiting := false
      inbox := []
      responseCodes := c.responseCodes ++ [serverCodeCksumReady] }
    refine ⟨[data], [], clientCodeCksumOk, c.cksumOfLastFile, c.numberOfTrialsTOSendFile,
      .named hdata, by decide, ?_⟩
    rw [hsend, List.append_nil]
    rfl
  · obtain ⟨data, hdata, hsend⟩ := sendRequestToServer_isNamed hid (.inr (.inl rfl)) hfield { c with
      awaiting := false
      inbox := []
      responseCodes := c.responseCodes ++ [serverCodeCksumReady]
      numberOfTrialsTOSendFile := c.numberOfTrialsTOSendFile + 1 }
    rw [hsend]
    obtain ⟨cksum', data', hdata', hresend⟩ := reSendFileToServer_cases (E := E)
      (c := post clientCodeCksumErr data { c with
        awaiting := false
        inbox := []
        responseCodes := c.responseCodes ++ [serverCodeCksumReady]
        numberOfTrialsTOSendFile := c.numberOfTrialsTOSendFile + 1 }) hid
    refine ⟨[data, data'], [clientCodeCksumErr], clientCodeSendFile, cksum',
      c.numberOfTrialsTOSendFile + 1, .again hdata hdata', by decide, ?_⟩
    rw [hresend]
    simp [await, post]
  · obtain ⟨data, hdata, hsend⟩ := sendRequestToServer_isNamed hid (.inr (.inr rfl)) hfield { c with
      awaiting := false
      inbox := []
      responseCodes := c.responseCodes ++ [serverCodeCksumReady]
      numberOfTrialsTOSendFile := 1
      cksumOfLastFile := 0 }
    refine ⟨[data], [], clientCodeCksumErrFinal, 0, 1, .named hdata, by decide, ?_⟩
    rw [hsend, List.append_nil]
    rfl

theorem reported_kept (h : Agrees E db c)
    (hlast : c.requestCodes.getLast? ≠ some clientCodeSendPublicKey)
    (hattached : c.clientIdHex ≠ []) (hout : c.outbox = []) {filename : Str} {size cksum : ℕ}
    (hcksum : cksum < 4294967296) (hin : c.inbox = reported c.clientIdBytes filename size cksum) :
    Kept E db c (receiveResponseFromServer E c) := by
  have hno : ¬ KeyOutstanding c := fun hkey => hlast hkey.2
  have hkeyed (hk : serverCodeSwitchingKeys ∈ c.responseCodes ++ [serverCodeCksumReady]) :
      serverCodeSwitchingKeys ∈ c.responseCodes := by
    simpa [serverCodeSwitchingKeys, serverCodeCksumReady] using hk
  obtain ⟨requests, codes, last, cksum', trials, hex, hlast', hreceive⟩ :=
    reported_cases (E := E) h.idLength hcksum hin
  rw [hreceive]
  refine ⟨⟨h.nameLength, h.idLength, h.attached, fun hk => h.keyed (hkeyed hk),
    fun _ hk => h.agreed hno (hkeyed hk), .exchanging rfl ?_ hattached ?_ rfl⟩, ?_⟩
  · simpa using hlast'
  · simpa [hout] using hex
  · rintro x (hown | hpending)
    · exact .inl hown
    · exact absurd hpending (nil_ne_responseHead x)

/-- A response read to its end leaves the client in agreement. -/
theorem receive_kept (h : Agrees E db c) (hin : c.inbox ≠ []) :
    Kept E db c (receiveResponseFromServer E c) := by
  cases h.phase with
  | idle _ _ hnil => exact absurd hnil hin
  | registering _ _ _ _ hnil => exact absurd hnil hin
  | registered _ _ hnew hout hid hlisted hin => exact registered_kept h hnew hout hid hlisted hin
  | keyAsked _ _ _ _ _ _ _ hnil => exact absurd hnil hin
  | keyAnswered _ hattached hout hsize haes hdecrypt hlisted hin =>
    exact keyAnswered_kept h hattached hout hsize haes hdecrypt hlisted hin
  | exchanging _ _ _ _ hnil => exact absurd hnil hin
  | reported _ hlast hattached hout _ hcksum hin =>
    exact reported_kept h hlast hattached hout hcksum hin
  | told _ hlast hout hcase =>
    rcases hcase with hnil | hin | hin
    · exact absurd hnil hin
    · exact told_kept h hlast hout (.inl rfl) (uuidField_length _) hin
    · exact told_kept h hlast hout (.inr rfl) (uuidField_length _) hin

theorem edited_kept (h : Agrees E db c) (files : Bytes → Option Bytes) :
    Kept E db c { c with files := files } := by
  refine ⟨⟨h.nameLength, h.idLength, h.attached, h.keyed, h.agreed, ?_⟩, fun _ howns => howns⟩
  cases h.phase with
  | idle hawait hout hin => exact .idle hawait hout hin
  | registering hawait hlast hlen hout hin => exact .registering hawait hlast hlen hout hin
  | registered hawait hlast hnew hout hid hlisted hin =>
    exact .registered hawait hlast hnew hout hid hlisted hin
  | keyAsked hkey hattached hpair hprivate hid hlen hout hin =>
    exact .keyAsked hkey hattached hpair hprivate hid hlen hout hin
  | keyAnswered hkey hattached hout hsize haes hdecrypt hlisted hin =>
    exact .keyAnswered hkey hattached hout hsize haes hdecrypt hlisted hin
  | exchanging hawait hlast hattached hout hin =>
    exact .exchanging hawait hlast hattached hout hin
  | reported hawait hlast hattached hout hsize hcksum hin =>
    exact .reported hawait hlast hattached hout hsize hcksum hin
  | told hawait hlast hout hin => exact .told hawait hlast hout hin

theorem corrupted_isNamed {clientId data : Bytes} {code : ℕ} (h : IsNamed clientId code data)
    (encrypted : Bytes) : corrupted data encrypted = data := by
  obtain ⟨field, hid, hcode, hfield, rfl⟩ := h
  refine corrupted_other ?_ encrypted
  rcases hcode with rfl | rfl | rfl <;> simp [nameMessage, clientCodeSendFile, clientCodeCksumOk,
    clientCodeCksumErr, clientCodeCksumErrFinal]

theorem corrupted_isUpload {clientId data : Bytes} (h : IsUpload clientId data)
    (encrypted : Bytes) : IsUpload clientId (corrupted data encrypted) := by
  obtain ⟨owner, field, content, hid, howner, hfield, hcontent, rfl⟩ := h
  obtain ⟨content', hcontent', hdata, -⟩ := corrupted_upload hid howner hfield hcontent encrypted
  exact ⟨owner, field, content', hid, howner, hfield, hcontent', hdata⟩

theorem Exchange.corrupted {clientId request : Bytes} {rest : List Bytes}
    (h : Exchange clientId (request :: rest)) (encrypted : Bytes) :
    Exchange clientId (Network.corrupted request encrypted :: rest) := by
  cases h with
  | upload h => exact .upload (corrupted_isUpload h encrypted)
  | named h =>
    rw [corrupted_isNamed h]
    exact .named h
  | again h h' =>
    rw [corrupted_isNamed h]
    exact .again h h'

theorem corrupted_kept (h : Agrees E db c) {request : Bytes} {rest : List Bytes}
    (hout : c.outbox = request :: rest) (encrypted : Bytes) :
    Kept E db c { c with outbox := corrupted request encrypted :: rest } := by
  have hsame {m : Message} (hm : c.outbox = [m.encode]) (hcode : m.code ≠ clientCodeSendFile) :
      { c with outbox := corrupted request encrypted :: rest } = c := by
    rw [hm] at hout
    obtain ⟨rfl, rfl⟩ := List.cons.inj hout
    rw [corrupted_other hcode, ← hm]
  have hnil (hnil : c.outbox = []) : False := by
    rw [hout] at hnil
    cases hnil
  cases h.phase with
  | idle _ hno => exact (hnil hno).elim
  | registering _ _ hlen hm =>
    have hcode : clientCodeRegister ≠ clientCodeSendFile := by decide
    rw [hsame hm hcode]
    exact .refl h
  | registered _ _ _ hno => exact (hnil hno).elim
  | keyAsked _ _ hpair _ hid hlen hm =>
    have hcode : clientCodeSendPublicKey ≠ clientCodeSendFile := by decide
    rw [hsame hm hcode]
    exact .refl h
  | keyAnswered _ _ hno => exact (hnil hno).elim
  | exchanging hawait hlast hattached hex hin =>
    refine ⟨⟨h.nameLength, h.idLength, h.attached, h.keyed, h.agreed, ?_⟩, fun _ howns => howns⟩
    rw [hout] at hex
    exact .exchanging hawait hlast hattached (hex.corrupted encrypted) hin
  | reported _ _ _ hno => exact (hnil hno).elim
  | told _ _ hno => exact (hnil hno).elim

end Steps

section Serve

variable {E : Externals} {s s' : Server KeyedDisk} {c c' : Client}

/-- A request handled: the tables and the client after it. -/
structure Handled (E : Externals) (s s' : Server KeyedDisk) (c c' : Client) : Prop where
  consistent : Consistent s'
  agrees : Agrees E s'.database c'
  owns : ∀ clientId, Owns c' clientId → Owns c clientId ∨
    s.database.clientExistsById clientId = false
  kept : ∀ clientId name key, ¬ Owns c clientId → (clientId, name, key) ∈ roster s.database →
    (clientId, name, key) ∈ roster s'.database

theorem Handled.of_roster (h : Agrees E s.database c) (hs' : Consistent s')
    (hroster : roster s'.database = roster s.database) {rest : List Bytes} {sent : Bytes}
    (hphase : Phase E s.database (answered c rest sent))
    (hin : ∀ clientId, c.inbox ++ sent ≠ responseHead serverCodeRegistrationOk 0 clientId) :
    Handled E s s' c (answered c rest sent) := by
  have hagrees : Agrees E s.database (answered c rest sent) :=
    ⟨h.nameLength, h.idLength, h.attached, h.keyed, h.agreed, hphase⟩
  refine ⟨hs', hagrees.of_roster ?_, ?_, ?_⟩
  · intro clientId name key _ hmem
    rwa [hroster]
  · rintro clientId (hown | hpending)
    · exact .inl (.inl hown)
    · exact absurd hpending (hin clientId)
  · intro clientId name key _ hmem
    rwa [hroster]

variable {env : Draws} (hs : Consistent s) (h : Agrees E s.database c)
include hs h

theorem registering_handled (hfresh : s.database.clientExistsById env.uuid = false)
    (hawait : c.awaiting = true) (hlast : c.requestCodes.getLast? = some clientCodeRegister)
    (hlen : c.clientName.length = 255) (hin : c.inbox = []) :
    ∃ s' sent left, Turned (System.turnWith E env s (registerMessage c.clientName hlen).encode) s'
      sent left ∧ Handled E s s' c (answered c [] sent) := by
  have hlast' : c.requestCodes.getLast? ≠ some clientCodeSendPublicKey := by
    rw [hlast]
    decide
  cases hname : decodeUtf8 c.clientName with
  | none =>
    refine ⟨_, _, _, turned_register_undecodable rfl rfl hname, .of_roster h hs rfl ?_ ?_⟩
    · exact .told hawait hlast' rfl (.inl (by simp [answered, hin]))
    · simp only [hin, List.append_nil]
      exact nil_ne_responseHead
  | some name =>
    cases hexists : s.database.clientExistsByName (stripNul name) with
    | true =>
      refine ⟨_, _, _, turned_register_taken rfl rfl hname hexists, .of_roster h hs rfl ?_ ?_⟩
      · exact .told hawait hlast' rfl (.inr (.inl (by simp [answered, hin])))
      · intro clientId
        rw [hin, List.nil_append, refused, ← List.append_nil (responseHead _ _ (uuidField [])),
          ← List.append_nil (responseHead _ _ clientId)]
        exact responseHead_ne (by decide) (by decide) (by decide) _ _ _ _ _ _
    | false =>
      have hknown : nameOf c = some (stripNul name) := by rw [nameOf, hname, Option.map_some]
      -- an attached client has its name in the tables
      have hnew : c.clientIdHex = [] := by
        by_contra hattached
        obtain ⟨key, name', hname', hmem⟩ := h.attached hattached
        rw [hknown] at hname'
        obtain rfl := Option.some.inj hname'
        rw [existsByName_of_mem_roster hmem] at hexists
        cases hexists
      have hroster := roster_register env.now (stripNul name) hfresh
      have hnokey : serverCodeSwitchingKeys ∉ c.responseCodes := fun hkeyed => h.keyed hkeyed hnew
      have hinbox : (answered c [] (responseHead serverCodeRegistrationOk 0 env.uuid)).inbox =
          responseHead serverCodeRegistrationOk 0 env.uuid := by
        simp [answered, hin]
      refine ⟨_, _, _, turned_register rfl rfl hname hexists,
        hs.after_register _ env.uuid_length hfresh hexists,
        ⟨h.nameLength, h.idLength, fun hattached => absurd hnew hattached, h.keyed,
          fun _ hkeyed => absurd hkeyed hnokey, ?_⟩, ?_, ?_⟩
      · have hlisted : ListedAs (register env.now env.uuid (stripNul name) s).database
            (answered c [] (responseHead serverCodeRegistrationOk 0 env.uuid)) env.uuid none := by
          refine ⟨_, hknown, ?_⟩
          rw [hroster]
          exact List.mem_append_right _ (List.mem_singleton_self _)
        exact .registered hawait hlast hnew rfl env.uuid_length hlisted hinbox
      · rintro clientId (hown | hpending)
        · exact .inl (.inl hown)
        · rw [hinbox] at hpending
          rw [← responseHead_inj hpending]
          exact .inr hfresh
      · intro clientId name' key _ hmem
        rw [hroster]
        exact List.mem_append_left _ hmem

theorem keyAsked_handled (hkey : KeyOutstanding c) (hattached : c.clientIdHex ≠ []) {pair : KeyPair}
    (hpair : KeyPairLaws E pair.publicKey pair.privateKey)
    (hprivate : c.privateKey = E.base64Encode pair.privateKey)
    (hid : c.clientIdBytes.length = 16) (hlen : c.clientName.length = 255) (hin : c.inbox = []) :
    ∃ s' sent left, Turned (System.turnWith E env s (keyMessage c.clientIdBytes c.clientName
      pair.publicKey hid hlen hpair.length_public).encode) s' sent left ∧
      Handled E s s' c (answered c [] sent) := by
  obtain ⟨key, name, hname, hmem⟩ := h.attached hattached
  obtain ⟨decoded, hdecoded, hstrip⟩ := Option.map_eq_some_iff.mp hname
  obtain ⟨cipher, hcipher, hsize⟩ := hpair.encrypts env.seed (env.random aesKeySize)
    (env.random_length aesKeySize)
  have hrequest := keyRequest_append hlen hpair.length_public hdecoded
  rw [hstrip] at hrequest
  have hlisted : ListedAs (setKeys env.now name pair.publicKey (env.random aesKeySize) s).database c
      c.clientIdBytes (some (env.random aesKeySize)) := by
    have hset := mem_roster_setKeys env.now name pair.publicKey
      (env.random aesKeySize) hmem
    rw [if_pos rfl] at hset
    exact ⟨name, hname, hset⟩
  have hinbox : (answered c [] (responseHead serverCodeSwitchingKeys cipher.length c.clientIdBytes ++
      cipher)).inbox =
        responseHead serverCodeSwitchingKeys cipher.length c.clientIdBytes ++ cipher := by
    simp [answered, hin]
  refine ⟨_, _, _, turned_key rfl rfl (exists_of_mem_roster hmem) hrequest hpair.imported hcipher
    hsize, hs.after_setKeys _ _ _ _, ⟨h.nameLength, hid, fun _ => ⟨_, hlisted⟩, h.keyed,
      fun hno => absurd hkey hno, ?_⟩, ?_, ?_⟩
  · refine .keyAnswered hkey hattached rfl hsize (env.random_length aesKeySize) ?_ hlisted hinbox
    have hdecode : E.base64Decode c.privateKey = pair.privateKey := by
      rw [hprivate, hpair.decode_encode]
    exact (congrArg (E.oaepDecrypt · cipher) hdecode).trans (hpair.decrypt_encrypt _ _ _ hcipher)
  · rintro clientId (hown | hpending)
    · exact .inl (.inl hown)
    · replace hpending := hinbox.symm.trans hpending
      rw [← List.append_nil (responseHead serverCodeRegistrationOk 0 clientId)] at hpending
      exact absurd hpending (responseHead_ne (by decide) (by decide) (by decide) _ _ _ _ _ _)
  · intro clientId name' key' hother hmem'
    have hset := mem_roster_setKeys env.now name pair.publicKey
      (env.random aesKeySize) hmem'
    -- the row of the client's name is the client's
    have hne : name' ≠ name := by
      rintro rfl
      exact hother (.inl ⟨hattached, roster_of_name hs.sound hmem hmem'⟩)
    rwa [if_neg hne] at hset

theorem exchanging_handled (hawait : c.awaiting = true)
    (hlast : c.requestCodes.getLast? ≠ some clientCodeSendPublicKey)
    (hattached : c.clientIdHex ≠ []) {request : Bytes} {rest : List Bytes}
    (hex : Exchange c.clientIdBytes (request :: rest)) (hin : c.inbox = []) :
    ∃ s' sent left, Turned (System.turnWith E env s request) s' sent left ∧
      Handled E s s' c (answered c rest sent) := by
  obtain ⟨key, name, -, hmem⟩ := h.attached hattached
  have hknown := exists_of_mem_roster hmem
  have hnone (x : Bytes) : c.inbox ++ [] ≠ responseHead serverCodeRegistrationOk 0 x := by
    rw [hin]
    exact nil_ne_responseHead x
  cases hex with
  | upload hdata =>
    obtain ⟨s', sent, left, hturn, hs', hroster, hsent⟩ := turned_isUpload env hs hknown hdata
    refine ⟨s', sent, left, hturn, ?_⟩
    rcases hsent with rfl | ⟨filename, size, cksum, hsize, hcksum, rfl⟩
    · exact .of_roster h hs' hroster (.told hawait hlast rfl (.inl (by simp [answered, hin])))
        hnone
    · have hinbox : (answered c [] (reported c.clientIdBytes filename size cksum)).inbox =
          reported c.clientIdBytes filename size cksum := by
        simp [answered, hin]
      refine .of_roster h hs' hroster (.reported hawait hlast hattached rfl hsize hcksum hinbox) ?_
      intro x
      rw [hin, List.nil_append, reported, ← List.append_nil (responseHead _ _ x)]
      exact responseHead_ne (by decide) (by decide) (by decide) _ _ _ _ _ _
  | named hdata =>
    obtain ⟨s', sent, left, hturn, hs', hroster, hsent⟩ := turned_isNamed env hs hknown hdata
    refine ⟨s', sent, left, hturn, ?_⟩
    rcases hsent with rfl | ⟨-, rfl⟩
    · exact .of_roster h hs' hroster (.told hawait hlast rfl (.inl (by simp [answered, hin])))
        hnone
    · refine .of_roster h hs' hroster
        (.told hawait hlast rfl (.inr (.inr (by simp [answered, hin])))) ?_
      intro x
      rw [hin, List.nil_append, acknowledged, ← List.append_nil (responseHead _ _ (uuidField _)),
        ← List.append_nil (responseHead _ _ x)]
      exact responseHead_ne (by decide) (by decide) (by decide) _ _ _ _ _ _
  | again hdata hdata' =>
    obtain ⟨s', sent, left, hturn, hs', hroster, hsent⟩ := turned_isNamed env hs hknown hdata
    refine ⟨s', sent, left, hturn, ?_⟩
    -- only a request that is not followed by another is answered
    rcases hsent with rfl | ⟨hno, -⟩
    · exact .of_roster h hs' hroster
        (.exchanging hawait hlast hattached (.upload hdata') (by simp [answered, hin])) hnone
    · exact absurd rfl hno

/-- Every request of a client in agreement leaves it in agreement. -/
theorem request_handled (hfresh : s.database.clientExistsById env.uuid = false) {request : Bytes}
    {rest : List Bytes} (hout : c.outbox = request :: rest) :
    ∃ s' sent left, Turned (System.turnWith E env s request) s' sent left ∧
      Handled E s s' c (answered c rest sent) := by
  have hnil (hnil : c.outbox = []) : False := by
    rw [hout] at hnil
    cases hnil
  cases h.phase with
  | idle _ hno => exact (hnil hno).elim
  | registering hawait hlast hlen hm hin =>
    rw [hm] at hout
    obtain ⟨rfl, rfl⟩ := List.cons.inj hout
    exact registering_handled hs h hfresh hawait hlast hlen hin
  | registered _ _ _ hno => exact (hnil hno).elim
  | keyAsked hkey hattached hpair hprivate hid hlen hm hin =>
    rw [hm] at hout
    obtain ⟨rfl, rfl⟩ := List.cons.inj hout
    exact keyAsked_handled hs h hkey hattached hpair hprivate hid hlen hin
  | keyAnswered _ _ hno => exact (hnil hno).elim
  | exchanging hawait hlast hattached hex hin =>
    rw [hout] at hex
    exact exchanging_handled hs h hawait hlast hattached hex hin
  | reported _ _ _ hno => exact (hnil hno).elim
  | told _ _ hno => exact (hnil hno).elim

end Serve

section Runs

variable {E : Externals} {sys sys' : System}

theorem Agreement.of_kept (h : Agreement E sys) {i : ℕ} {c : Client}
    (hc : Kept E sys.server.database (sys.client i) c) : Agreement E (sys.setClient i c) := by
  have howns (j : ℕ) (clientId : Bytes) (hown : Owns ((sys.setClient i c).client j) clientId) :
      Owns (sys.client j) clientId := by
    by_cases hj : j = i
    · subst hj
      rw [System.setClient_self] at hown
      exact hc.owns clientId hown
    · rwa [System.setClient_other _ hj] at hown
  refine ⟨h.consistent, ?_, ?_⟩
  · intro j
    by_cases hj : j = i
    · subst hj
      rw [System.setClient_self]
      exact hc.agrees
    · rw [System.setClient_other _ hj]
      exact h.agrees j
  · intro j k clientId hown hown'
    exact h.distinct j k clientId (howns j _ hown) (howns k _ hown')

theorem Agreement.of_handled (h : Agreement E sys) {i : ℕ} {s' : Server KeyedDisk} {c' : Client}
    (hc : Handled E sys.server s' (sys.client i) c') (log : List Served) :
    Agreement E ⟨s', Function.update sys.client i c', log⟩ := by
  have hother {j : ℕ} (hj : j ≠ i) : Function.update sys.client i c' j = sys.client j :=
    Function.update_of_ne hj _ _
  have hself : Function.update sys.client i c' i = c' := Function.update_self _ _ _
  -- nobody else has the id the client gets
  have hfresh {j : ℕ} (hj : j ≠ i) {clientId : Bytes} (hown : Owns c' clientId)
      (hown' : Owns (sys.client j) clientId) : False := by
    rcases hc.owns clientId hown with hown | hnew
    · exact hj (h.distinct j i clientId hown' hown)
    · obtain ⟨key, name, -, hmem⟩ := (h.agrees j).listed hown'
      rw [exists_of_mem_roster hmem] at hnew
      cases hnew
  refine ⟨hc.consistent, ?_, ?_⟩
  · intro j
    by_cases hj : j = i
    · subst hj
      simp only [hself]
      exact hc.agrees
    · simp only [hother hj]
      apply (h.agrees j).of_roster
      intro clientId name key hown hmem
      exact hc.kept clientId name key (fun hown' => hj (h.distinct j i clientId hown hown')) hmem
  · intro j k clientId hown hown'
    simp only at hown hown'
    by_cases hj : j = i
    · by_cases hk : k = i
      · rw [hj, hk]
      · subst hj
        rw [hself] at hown
        rw [hother hk] at hown'
        exact (hfresh hk hown hown').elim
    · rw [hother hj] at hown
      by_cases hk : k = i
      · subst hk
        rw [hself] at hown'
        exact (hfresh hj hown' hown).elim
      · rw [hother hk] at hown'
        exact h.distinct j k clientId hown hown'

theorem Agreement.serve (h : Agreement E sys) (i : ℕ) {env : Draws}
    (hfresh : sys.server.database.clientExistsById env.uuid = false) :
    Agreement E (sys.serve E i env) := by
  cases hout : (sys.client i).outbox with
  | nil =>
    rw [System.serve_nil E hout]
    exact h
  | cons request rest =>
    obtain ⟨s', sent, left, hturn, hhandled⟩ :=
      request_handled h.consistent (h.agrees i) hfresh hout
    rw [System.serve_cons E hout, hturn.server_eq, hturn.sent_eq]
    exact h.of_handled hhandled _

/-- Every move keeps the invariant. -/
theorem Agreement.step (h : Agreement E sys) (move : Move) (hp : Permitted E sys move) :
    Agreement E (sys.step E move) := by
  cases move with
  | call i method =>
    simp only [System.step]
    split_ifs with hawait
    · exact h
    · refine h.of_kept (method_kept (h.agrees i) (Bool.eq_false_iff.mpr hawait) method ?_)
      rintro pair rfl
      exact hp
  | serve i env => exact h.serve i hp
  | resume i =>
    simp only [System.step, System.resume]
    split_ifs with hready hstarved
    · exact h
    · exact h.of_kept (receive_kept (h.agrees i) hready.2)
    · exact h
  | corrupt i encrypted =>
    simp only [System.step]
    cases hout : (sys.client i).outbox with
    | nil => exact h
    | cons request rest => exact h.of_kept (corrupted_kept (h.agrees i) hout encrypted)
  | edit i path content => exact h.of_kept (edited_kept (h.agrees i) _)

theorem Agreement.moves (h : Agreement E sys) {moves : List Move} (hrun : Moves E sys moves sys') :
    Agreement E sys' := by
  exact hrun.invariant (fun sys move hp h => Agreement.step h move hp) h

/-- Clients that have just been started against a server in any state it can reach. An id a
client finds in its details file is one it was registered with under its name, and each
client has its own. -/
structure Begun (E : Externals) (sys : System) : Prop where
  server : ∃ acts, ServerRuns.Run E sys.server acts
  started : ∀ i, ∃ files connects, sys.client i = Client.new files connects
  registered : ∀ i, (sys.client i).clientIdHex ≠ [] →
    ∃ key, ListedAs sys.server.database (sys.client i) (sys.client i).clientIdBytes key
  distinct : ∀ i j, (sys.client i).clientIdHex ≠ [] → (sys.client j).clientIdHex ≠ [] →
    (sys.client i).clientIdBytes = (sys.client j).clientIdBytes → i = j

theorem length_hexToBytesArray (hex : Bytes) : (hexToBytesArray hex).length = hex.length / 2 := by
  induction hex using hexToBytesArray.induct with
  | case1 a b rest ih =>
    rw [hexToBytesArray, List.length_cons, ih, List.length_cons, List.length_cons]
    omega
  | case2 hex hshort =>
    rcases hex with _ | ⟨a, _ | ⟨b, rest⟩⟩
    · rfl
    · simp [hexToBytesArray]
    · exact absurd rfl (hshort a b rest)

theorem loadRegistrationDetails_eq (c : Client) (hid : c.clientIdBytes.length = 16) :
    ∃ hex bytes key, bytes.length = 16 ∧ loadRegistrationDetails c =
      { c with clientIdHex := hex, clientIdBytes := bytes, privateKey := key } := by
  unfold loadRegistrationDetails
  split_ifs
  · obtain ⟨found, hex⟩ := readLine (c.files clientDetailsPath) 2 []
    simp only
    split_ifs with hvalid
    · have hlen : hex.length = 32 := by
        simp only [verifyClientIdHex, Bool.and_eq_true, decide_eq_true_eq] at hvalid
        exact hvalid.2.1
      refine ⟨hex, hexToBytesArray hex, _, ?_, rfl⟩
      rw [length_hexToBytesArray, hlen]
    · exact ⟨c.clientIdHex, c.clientIdBytes, c.privateKey, hid, rfl⟩
  · exact ⟨c.clientIdHex, c.clientIdBytes, c.privateKey, hid, rfl⟩

/-- The name a process sends: the second line of `transfer.info`, brought to its size. -/
def nameField (files : Bytes → Option Bytes) : Bytes :=
  resize 255 ((readLine (files serverFilePath) 2 []).2.take 255)

theorem new_clientName {files : Bytes → Option Bytes} (h : (files serverFilePath).isSome = true)
    (connects : Bool) : (Client.new files connects).clientName = nameField files := by
  obtain ⟨hex, bytes, key, -, hload⟩ := loadRegistrationDetails_eq (loadClientName
    ⟨[], [], List.replicate 16 0, [], [], 0, 1, [], connects, files, [], false, [], false, [], []⟩)
    List.length_replicate
  simp only [Client.new, if_pos h, hload]
  rfl

theorem new_eq (files : Bytes → Option Bytes) (connects : Bool) :
    ∃ name hex bytes key connected, bytes.length = 16 ∧
      (connected = true → name.length = 255) ∧
      Client.new files connects = ⟨name, hex, bytes, key, [], 0, 1, [], connected, files, [], false,
        [], false, [], []⟩ := by
  by_cases hfile : (files serverFilePath).isSome
  · obtain ⟨hex, bytes, key, hlen, hload⟩ := loadRegistrationDetails_eq (loadClientName
      ⟨[], [], List.replicate 16 0, [], [], 0, 1, [], connects, files, [], false, [], false, [], []⟩)
      List.length_replicate
    refine ⟨resize 255 (loadClientName ⟨[], [], List.replicate 16 0, [], [], 0, 1, [], connects,
        files, [], false, [], false, [], []⟩).clientName, hex, bytes, key, connects, hlen,
      fun _ => length_resize 255 _, ?_⟩
    simp only [Client.new, if_pos hfile, hload]
    rfl
  · refine ⟨[], [], List.replicate 16 0, [], false, List.length_replicate, nofun, ?_⟩
    simp only [Client.new, if_neg hfile]

theorem new_idle (files : Bytes → Option Bytes) (connects : Bool) :
    let c := Client.new files connects
    c.awaiting = false ∧ c.outbox = [] ∧ c.inbox = [] ∧ c.responseCodes = [] ∧
      c.clientIdBytes.length = 16 ∧ (c.connectedToServer = true → c.clientName.length = 255) := by
  obtain ⟨name, hex, bytes, key, connected, hlen, hname, hnew⟩ := new_eq files connects
  rw [hnew]
  exact ⟨rfl, rfl, rfl, rfl, hlen, hname⟩

theorem Begun.agreement (h : Begun E sys) : Agreement E sys := by
  obtain ⟨acts, hserver⟩ := h.server
  have hnew (i : ℕ) : (sys.client i).awaiting = false ∧ (sys.client i).outbox = [] ∧
      (sys.client i).inbox = [] ∧ (sys.client i).responseCodes = [] ∧
      (sys.client i).clientIdBytes.length = 16 ∧
      ((sys.client i).connectedToServer = true → (sys.client i).clientName.length = 255) := by
    obtain ⟨files, connects, hc⟩ := h.started i
    rw [hc]
    exact new_idle files connects
  refine ⟨hserver.invariant.1, ?_, ?_⟩
  · intro i
    obtain ⟨hawait, hout, hin, hcodes, hid, hname⟩ := hnew i
    have hnokey : serverCodeSwitchingKeys ∉ (sys.client i).responseCodes := by
      rw [hcodes]
      exact List.not_mem_nil
    exact ⟨hname, hid, h.registered i, fun hkeyed => absurd hkeyed hnokey,
      fun _ hkeyed => absurd hkeyed hnokey, .idle hawait hout hin⟩
  · intro i j clientId hown hown'
    have hattached {k : ℕ} (hown : Owns (sys.client k) clientId) :
        (sys.client k).clientIdHex ≠ [] ∧ (sys.client k).clientIdBytes = clientId := by
      rcases hown with hown | hpending
      · exact hown
      · rw [(hnew k).2.2.1] at hpending
        exact absurd hpending (nil_ne_responseHead clientId)
    obtain ⟨hi, rfl⟩ := hattached hown
    obtain ⟨hj, hsame⟩ := hattached hown'
    exact h.distinct i j hi hj hsame.symm

/-- Whenever a client awaits no answer to a public-key request and has had one, its key is the
one in the row of its id, and every file is decrypted with it. -/
theorem keys_agree {sys₀ : System} (h₀ : Begun E sys₀) {moves : List Move}
    (hrun : Moves E sys₀ moves sys) (i : ℕ) (hdone : ¬ KeyOutstanding (sys.client i))
    (hkeyed : serverCodeSwitchingKeys ∈ (sys.client i).responseCodes) :
    sys.server.database.getAesKeyOfClient (sys.client i).clientIdBytes =
        some (sys.client i).aesKey ∧
      ∀ encrypted, contentOf E sys.server.database (sys.client i).clientIdBytes encrypted =
        (E.aesDecrypt (sys.client i).aesKey encrypted).bind E.unpad := by
  have h := h₀.agreement.moves hrun
  obtain ⟨-, name, -, hmem⟩ := (h.agrees i).agreed hdone hkeyed
  have hkey := getAesKeyOfClient_eq h.consistent.sound hmem
  refine ⟨hkey, fun encrypted => ?_⟩
  rw [contentOf, hkey, Option.bind_some]

/-- The address `127.0.0.1:1234`. -/
def addressLine : Bytes := [49, 50, 55, 46, 48, 46, 48, 46, 49, 58, 49, 50, 51, 52]

/-- The `transfer.info` of a client `a` that sends `f`. -/
def infoOfA : Bytes := addressLine ++ [newline, 97, newline, 102]

def filesOfA : Bytes → Option Bytes :=
  Function.update (Function.update (fun _ => none) [102] (some [7])) serverFilePath (some infoOfA)

def keyPairOfA : KeyPair := ⟨derKey, [48, 7]⟩

def systemOfA : System := ⟨.empty, fun _ => Client.new filesOfA true, []⟩

def registerAndKey : List Move :=
  [.call 0 .registerToServer, .serve 0 (constantDraws 1), .resume 0,
    .call 0 (.generateRSAKeyPair keyPairOfA), .serve 0 (constantDraws 2), .resume 0]

theorem begun_systemOfA : Begun plainCiphers systemOfA := by
  have hnew (i : ℕ) : (systemOfA.client i).clientIdHex = [] := rfl
  exact ⟨⟨[], .start⟩, fun _ => ⟨filesOfA, true, rfl⟩, fun i h => absurd (hnew i) h,
    fun i _ h => absurd (hnew i) h⟩

theorem moves_registerAndKey :
    Moves plainCiphers systemOfA registerAndKey (systemOfA.steps plainCiphers registerAndKey) := by
  have hpair : KeyPairLaws plainCiphers keyPairOfA.publicKey keyPairOfA.privateKey :=
    keyPairLaws_plainCiphers _
  refine .of_permitted ⟨trivial, ?_, trivial, hpair, ?_, trivial, trivial⟩
  · change Database.clientExistsById _ _ = false
    decide +kernel
  · change Database.clientExistsById _ _ = false
    decide +kernel

theorem keys_agree_exchanged :
    let sys := systemOfA.steps plainCiphers registerAndKey
    sys.server.database.getAesKeyOfClient (sys.client 0).clientIdBytes =
        some (sys.client 0).aesKey ∧
      ∀ encrypted, contentOf plainCiphers sys.server.database (sys.client 0).clientIdBytes
        encrypted = (plainCiphers.aesDecrypt (sys.client 0).aesKey encrypted).bind
          plainCiphers.unpad := by
  have hkeyed : ((systemOfA.steps plainCiphers registerAndKey).client 0).awaiting = false ∧
      serverCodeSwitchingKeys ∈
        ((systemOfA.steps plainCiphers registerAndKey).client 0).responseCodes := by
    decide +kernel
  exact keys_agree begun_systemOfA moves_registerAndKey 0 (not_keyOutstanding_of_idle hkeyed.1)
    hkeyed.2

end Runs

end EncryptedTransfer.KeyAgreement
