import EncryptedTransfer.FileHandler
import EncryptedTransfer.KeyAgreement

/-!
# The identity of a client, kept across its processes

What the details file holds after a registration and any number of key exchanges, in one process
or in many, and what a process reads back from it.
-/
namespace EncryptedTransfer.PersistedIdentity
open TextLines FileHandler
open ServerStores hiding Client Client.new
open ByteFormats Text ServerCalls ServerHandlers ClientMessages Network
open ClientProcess hiding loadRegistrationDetails readLine

def loadRegistrationDetails (c : Client) : Bool × Client :=
  if (c.files clientDetailsPath).isSome then
    let (found, clientIdHex) := ClientProcess.readLine (c.files clientDetailsPath) 2 []
    if ¬ found then (false, c)
    else if ¬ verifyClientIdHex clientIdHex then (false, c)
    else
      let c := { c with clientIdHex := clientIdHex, clientIdBytes := hexToBytesArray clientIdHex }
      let (found, privateKey) :=
        ClientProcess.readLine (c.files clientDetailsPath) 3 c.privateKey
      if ¬ found then (false, { c with privateKey := privateKey })
      else (true, { c with privateKey := privateKey })
  else (false, c)

theorem loadRegistrationDetails_snd (c : Client) :
    (loadRegistrationDetails c).2 = ClientProcess.loadRegistrationDetails c := by
  unfold loadRegistrationDetails ClientProcess.loadRegistrationDetails
  split_ifs with hfile
  · cases hfound : (ClientProcess.readLine (c.files clientDetailsPath) 2 []).1 with
    | false => simp [hfound]
    | true =>
      cases hvalid :
        verifyClientIdHex (ClientProcess.readLine (c.files clientDetailsPath) 2 []).2 with
      | false => simp [hfound, hvalid]
      | true =>
        simp only [hfound, hvalid, not_true_eq_false, ↓reduceIte, Bool.and_self]
        split_ifs <;> rfl
  · rfl

/-- A method is called, a response is read, other files change, or the process ends and another is
started on the machine. The details file is left to the client. -/
inductive Step where
  | call (method : Method)
  | receive (arrived : Bytes)
  | edit (files : Bytes → Option Bytes)
  | restart (files : Bytes → Option Bytes) (connects : Bool)

variable (E : Externals)

/-- These files, with the details file of the client. -/
def keepDetails (c : Client) (files : Bytes → Option Bytes) : Bytes → Option Bytes :=
  Function.update files clientDetailsPath (c.files clientDetailsPath)

def Step.run (c : Client) : Step → Client
  | call method => method.run E c
  | receive arrived => receiveResponseFromServer E { c with inbox := c.inbox ++ arrived }
  | edit files => { c with files := keepDetails c files }
  | restart files connects => .new (keepDetails c files) connects

def Step.exchanged (c : Client) : Step → Option Bytes
  | call (.generateRSAKeyPair pair) =>
    if c.connectedToServer then some (E.base64Encode pair.privateKey) else none
  | _ => none

def run (c : Client) : List Step → Client
  | [] => c
  | step :: steps => run (step.run E c) steps

def exchanges (c : Client) : List Step → List Bytes
  | [] => []
  | step :: steps => (step.exchanged E c).toList ++ exchanges (step.run E c) steps

def standing (c : Client) : (Bytes → Option Bytes) × Bytes × Bool :=
  (c.files, c.clientIdHex, c.connectedToServer)

section Standing

variable {E} {c : Client}

theorem standing_registerToServer : standing (registerToServer c) = standing c := by
  unfold registerToServer
  split_ifs <;> rfl

theorem standing_sendFileToServer : standing (sendFileToServer E c) = standing c := by
  obtain ⟨path, cksum, outbox, awaiting, codes, hsend⟩ := sendFileToServer_frame E c
  rw [hsend]
  rfl

theorem standing_compareCksums (filename : Bytes) (cksum : ℕ) :
    standing (compareCksums E filename cksum c) = standing c := by
  obtain ⟨trials, noted, outbox, codes, hsend⟩ := compareCksums_frame E filename cksum c
  rw [hsend]
  rfl

theorem standing_readResponse : standing (readResponse c).2 = standing c := by
  obtain ⟨starved, hrest, -⟩ := readResponse_spec c
  rw [hrest]
  rfl

theorem standing_handleResponse {response : Response}
    (h : (c.files clientDetailsPath).isSome = true) :
    standing (handleResponse E response c) = standing c := by
  unfold handleResponse
  split_ifs
  · rw [saveRegistrationDetails, if_pos h]
  · unfold handleAESKeyFromServer
    split <;> rfl
  · exact standing_compareCksums _ _
  · rfl

theorem standing_receiveResponseFromServer (h : (c.files clientDetailsPath).isSome = true) :
    standing (receiveResponseFromServer E c) = standing c := by
  rw [receiveResponseFromServer_read, standing_handleResponse]
  · exact standing_readResponse
  · have hfiles : (readResponse c).2.files = c.files := congrArg Prod.fst standing_readResponse
    rw [← hfiles] at h
    exact h

end Standing

theorem newline_notMem_resize {s : Bytes} (h : newline ∉ s) (n : ℕ) : newline ∉ resize n s := by
  intro hmem
  rcases List.mem_append.mp hmem with htake | hzeros
  · exact h (List.mem_of_mem_take htake)
  · exact absurd (List.eq_of_mem_replicate hzeros) (by decide)

/-- The padded name, the id in hexadecimal and the last of the keys. -/
def detailLines (name clientId : Bytes) (keys : List Bytes) : List Bytes :=
  [name, encodeUtf8 (hex clientId)] ++ keys.getLast?.toList

/-- The details file is this client's, and while it is connected the client knows its id. -/
structure Identified (name clientId : Bytes) (keys : List Bytes) (c : Client) : Prop where
  idLength : clientId.length = 16
  clean : ∀ line ∈ detailLines name clientId keys, newline ∉ line
  details : c.files clientDetailsPath = some (unlines newline (detailLines name clientId keys))
  known : c.connectedToServer = true → c.clientIdHex = encodeUtf8 (hex clientId)

section Lines

variable {name clientId key : Bytes} {keys : List Bytes}

theorem hex_ne_nil (h : clientId.length = 16) : encodeUtf8 (hex clientId) ≠ [] := by
  intro hnil
  have hlen := DetailsFile.length_hex clientId
  rw [hnil, h] at hlen
  simp at hlen

theorem clean_concat (h : ∀ line ∈ detailLines name clientId keys, newline ∉ line)
    (hkey : newline ∉ key) : ∀ line ∈ detailLines name clientId (keys ++ [key]), newline ∉ line := by
  simp only [detailLines, List.getLast?_concat, Option.toList_some, List.mem_append] at h ⊢
  intro line hline
  rcases hline with hfirst | hlast
  · exact h line (.inl hfirst)
  · rwa [List.mem_singleton.mp hlast]

/-- A key takes the third line. -/
theorem replaced_detailLines : replaced 3 key (detailLines name clientId keys) =
    detailLines name clientId (keys ++ [key]) := by
  simp only [detailLines, List.getLast?_concat, Option.toList_some]
  cases keys.getLast? <;> rfl

end Lines

section Identity

variable {E} {c c' : Client} {name clientId key : Bytes} {keys : List Bytes}

theorem Identified.isSome (h : Identified name clientId keys c) :
    (c.files clientDetailsPath).isSome = true := by
  rw [h.details]
  rfl

theorem Identified.of_standing (h : Identified name clientId keys c)
    (hsame : standing c' = standing c) : Identified name clientId keys c' := by
  obtain ⟨hfiles, hhex, hconnected⟩ : c'.files = c.files ∧ c'.clientIdHex = c.clientIdHex ∧
      c'.connectedToServer = c.connectedToServer := by
    simpa only [standing, Prod.mk.injEq] using hsame
  constructor
  · exact h.idLength
  · exact h.clean
  · rw [hfiles, h.details]
  · rw [hhex, hconnected]
    exact h.known

theorem identified_receive (hname : newline ∉ c.clientName)
    (hnew : c.files clientDetailsPath = none)
    (hcode : (readResponse c).1.code = serverCodeRegistrationOk) :
    Identified c.clientName (readResponse c).1.clientId [] (receiveResponseFromServer E c) := by
  obtain ⟨starved, hrest, -, hid⟩ := readResponse_spec c
  have hregistered : receiveResponseFromServer E c = saveRegistrationDetails
      (readResponse c).1.clientId { (readResponse c).2 with
        responseCodes := (readResponse c).2.responseCodes ++ [(readResponse c).1.code] } := by
    rw [receiveResponseFromServer_read, handleResponse, if_pos hcode]
  rw [hregistered, hrest, saveRegistrationDetails, if_neg (by simp [hnew])]
  constructor
  · exact hid
  · intro line hline
    simp only [detailLines, List.getLast?_nil, Option.toList_none, List.append_nil,
      List.mem_cons, List.not_mem_nil, or_false] at hline
    rcases hline with rfl | rfl
    · exact hname
    · exact DetailsFile.newline_notMem_hex _
  · simp [appendLine, hnew, unlines, detailLines]
  · exact fun _ => rfl

theorem loadRegistrationDetails_eq (hid : clientId.length = 16)
    (hclean : ∀ line ∈ detailLines name clientId keys, newline ∉ line)
    (hdetails : c.files clientDetailsPath =
      some (unlines newline (detailLines name clientId keys))) :
    loadRegistrationDetails c =
      ((ClientProcess.readLine (c.files clientDetailsPath) 3 c.privateKey).1, { c with
        clientIdHex := encodeUtf8 (hex clientId)
        clientIdBytes := clientId
        privateKey := (ClientProcess.readLine (c.files clientDetailsPath) 3 c.privateKey).2 }) := by
  have hsecond : ClientProcess.readLine (c.files clientDetailsPath) 2 [] =
      (true, encodeUtf8 (hex clientId)) := by
    rw [hdetails]
    apply readLine_of_line (by omega)
    rw [lines_unlines hclean]
    rfl
  rw [loadRegistrationDetails, if_pos (by rw [hdetails]; rfl), hsecond]
  simp only [DetailsFile.verifyClientIdHex_hex hid, DetailsFile.hexToBytesArray_hex,
    not_true_eq_false, ↓reduceIte]
  cases ClientProcess.readLine (c.files clientDetailsPath) 3 c.privateKey with
  | mk found privateKey => cases found <;> rfl

theorem known_new (hid : clientId.length = 16)
    (hclean : ∀ line ∈ detailLines name clientId keys, newline ∉ line)
    {files : Bytes → Option Bytes} (hdetails : files clientDetailsPath =
      some (unlines newline (detailLines name clientId keys))) {connects : Bool}
    (hconnected : (Client.new files connects).connectedToServer = true) :
    (Client.new files connects).clientIdHex = encodeUtf8 (hex clientId) := by
  rw [Client.new] at hconnected ⊢
  split_ifs at hconnected ⊢ with hinfo
  · rw [← loadRegistrationDetails_snd, loadRegistrationDetails_eq hid hclean hdetails]

theorem Identified.exchange (h : Identified name clientId keys c) (pair : KeyPair)
    (hkey : ∀ key ∈ (Step.call (.generateRSAKeyPair pair)).exchanged E c, newline ∉ key) :
    Identified name clientId
      (keys ++ ((Step.call (.generateRSAKeyPair pair)).exchanged E c).toList)
      (generateRSAKeyPair E pair c) := by
  cases hconnected : c.connectedToServer with
  | false => simpa [Step.exchanged, generateRSAKeyPair, hconnected] using h
  | true =>
    have hattached : c.clientIdHex ≠ [] := by
      rw [h.known hconnected]
      exact hex_ne_nil h.idLength
    have hfile := h.isSome
    have hwritten : replaceLine clientDetailsPath 3 (E.base64Encode pair.privateKey) c.files
        clientDetailsPath = some (unlines newline (detailLines name clientId
          (keys ++ [E.base64Encode pair.privateKey]))) := by
      rw [replaceLine_self, h.details, Option.getD_some, lines_unlines h.clean,
        replaced_detailLines]
    simp only [Step.exchanged, hconnected, ↓reduceIte, Option.mem_some, forall_eq'] at hkey
    simp only [Step.exchanged, generateRSAKeyPair, savePrivateKey, hconnected, hattached, hfile,
      true_and, ne_eq, not_false_eq_true, ↓reduceIte, Option.toList_some]
    constructor
    · exact h.idLength
    · exact clean_concat h.clean hkey
    · exact hwritten
    · exact fun _ => h.known hconnected

theorem Identified.step (h : Identified name clientId keys c) (step : Step)
    (hkey : ∀ key ∈ step.exchanged E c, newline ∉ key) :
    Identified name clientId (keys ++ (step.exchanged E c).toList) (step.run E c) := by
  have hquiet (hnone : step.exchanged E c = none)
      (hstep : Identified name clientId keys (step.run E c)) :
      Identified name clientId (keys ++ (step.exchanged E c).toList) (step.run E c) := by
    rwa [hnone, Option.toList_none, List.append_nil]
  have hkept (files : Bytes → Option Bytes) : keepDetails c files clientDetailsPath =
      some (unlines newline (detailLines name clientId keys)) := by
    rw [keepDetails, Function.update_self, h.details]
  cases step with
  | call method =>
    cases method with
    | registerToServer => exact hquiet rfl (h.of_standing standing_registerToServer)
    | generateRSAKeyPair pair => exact h.exchange pair hkey
    | sendFileToServer => exact hquiet rfl (h.of_standing standing_sendFileToServer)
  | receive arrived =>
    exact hquiet rfl (h.of_standing (standing_receiveResponseFromServer h.isSome))
  | edit files => exact hquiet rfl ⟨h.idLength, h.clean, hkept files, h.known⟩
  | restart files connects =>
    have hfiles : (Client.new (keepDetails c files) connects).files = keepDetails c files := by
      obtain ⟨name, hex, bytes, key, connected, -, -, hnew⟩ :=
        KeyAgreement.new_eq (keepDetails c files) connects
      rw [hnew]
    refine hquiet rfl ⟨h.idLength, h.clean, ?_, fun hconnected => ?_⟩
    · rw [Step.run, hfiles, hkept]
    · exact known_new h.idLength h.clean (hkept files) hconnected

/-- What a run keeps. -/
theorem Identified.run (h : Identified name clientId keys c) (steps : List Step)
    (hkeys : ∀ key ∈ exchanges E c steps, newline ∉ key) :
    Identified name clientId (keys ++ exchanges E c steps) (run E c steps) := by
  induction steps generalizing c keys with
  | nil => simpa only [exchanges, PersistedIdentity.run, List.append_nil] using h
  | cons step steps ih =>
    simp only [exchanges, List.mem_append, or_imp, forall_and, Option.mem_toList] at hkeys
    have hrest := ih (h.step step hkeys.1) hkeys.2
    rwa [List.append_assoc] at hrest

end Identity

/-- Where the details file has this content, a process reads back this id and this key; and so
does its constructor, unless the server's file is missing. -/
structure Restores (clientId key content : Bytes) : Prop where
  load : ∀ c : Client, c.files clientDetailsPath = some content →
    loadRegistrationDetails c = (true, { c with
      clientIdHex := encodeUtf8 (hex clientId)
      clientIdBytes := clientId
      privateKey := key })
  new : ∀ files connects, files clientDetailsPath = some content →
    (files serverFilePath).isSome = true →
      (Client.new files connects).clientIdHex = encodeUtf8 (hex clientId) ∧
        (Client.new files connects).clientIdBytes = clientId ∧
        (Client.new files connects).privateKey = key

section Restores

variable {name clientId key : Bytes} {keys : List Bytes}

theorem detailLines_concat : detailLines name clientId (keys ++ [key]) =
    [name, encodeUtf8 (hex clientId), key] := by
  simp [detailLines]

theorem loadRegistrationDetails_key (hid : clientId.length = 16)
    (hclean : ∀ line ∈ detailLines name clientId (keys ++ [key]), newline ∉ line) {c : Client}
    (hdetails : c.files clientDetailsPath =
      some (unlines newline (detailLines name clientId (keys ++ [key])))) :
    loadRegistrationDetails c = (true, { c with
      clientIdHex := encodeUtf8 (hex clientId)
      clientIdBytes := clientId
      privateKey := key }) := by
  have hthird : ClientProcess.readLine (c.files clientDetailsPath) 3 c.privateKey = (true, key) := by
    rw [hdetails]
    apply readLine_of_line (by omega)
    rw [lines_unlines hclean, detailLines_concat]
    rfl
  rw [loadRegistrationDetails_eq hid hclean hdetails, hthird]

theorem restores_details (hid : clientId.length = 16)
    (hclean : ∀ line ∈ detailLines name clientId (keys ++ [key]), newline ∉ line) :
    Restores clientId key (unlines newline (detailLines name clientId (keys ++ [key]))) := by
  constructor
  · intro c hdetails
    exact loadRegistrationDetails_key hid hclean hdetails
  · intro files connects hdetails hinfo
    rw [Client.new, if_pos hinfo, ← loadRegistrationDetails_snd,
      loadRegistrationDetails_key hid hclean hdetails]
    exact ⟨rfl, rfl, rfl⟩

end Restores

section Persistence

variable {E : Externals} {c : Client} {name clientId key : Bytes} {keys : List Bytes}

/-- A client registers where there is no details file, and then exchanges keys, in this process
and in later ones. The details file has the padded name, the id and the last key, and every later
process restores them. -/
theorem identity_persists (hname : newline ∉ name) (hpadded : c.clientName = resize 255 name)
    (hnew : c.files clientDetailsPath = none)
    (hcode : (readResponse c).1.code = serverCodeRegistrationOk)
    (hid : (readResponse c).1.clientId = clientId) {steps : List Step}
    (hkeys : exchanges E (receiveResponseFromServer E c) steps = keys ++ [key])
    (hclean : ∀ key' ∈ keys ++ [key], newline ∉ key') :
    ∃ content,
      (run E (receiveResponseFromServer E c) steps).files clientDetailsPath = some content ∧
        Ended newline content ∧
        lines newline content = [resize 255 name, encodeUtf8 (hex clientId), key] ∧
        (encodeUtf8 (hex clientId)).length = 32 ∧
        (∀ digit ∈ encodeUtf8 (hex clientId), isHexDigit digit = true) ∧
        Restores clientId key content := by
  have hclear : newline ∉ c.clientName := by
    rw [hpadded]
    exact newline_notMem_resize hname 255
  have hregistered := identified_receive (E := E) hclear hnew hcode
  rw [hpadded, hid] at hregistered
  rw [← hkeys] at hclean
  have hrun := hregistered.run steps hclean
  rw [hkeys, List.nil_append] at hrun
  refine ⟨_, hrun.details, ?_, ?_, ?_, ?_, restores_details hrun.idLength hrun.clean⟩
  · exact ended_unlines _
  · rw [lines_unlines hrun.clean, detailLines_concat]
  · rw [DetailsFile.length_hex, hrun.idLength]
  · exact fun _ hdigit => DetailsFile.isHexDigit_of_mem_hex hdigit

end Persistence

def registeringA : Client :=
  { Client.new KeyAgreement.filesOfA true with
    inbox := ServerEffects.responseHead serverCodeRegistrationOk 0 (List.replicate 16 1) }

def twoExchanges : List Step :=
  [.call (.generateRSAKeyPair KeyAgreement.keyPairOfA), .restart KeyAgreement.filesOfA true,
    .call (.generateRSAKeyPair ⟨CryptoLaws.derKey, [48, 9]⟩)]

theorem identity_persists_twice : ∃ content,
    (run CryptoLaws.plainCiphers (receiveResponseFromServer CryptoLaws.plainCiphers registeringA)
        twoExchanges).files clientDetailsPath = some content ∧
      Ended newline content ∧
      lines newline content =
        [resize 255 [97], encodeUtf8 (hex (List.replicate 16 1)), [48, 9]] ∧
      (encodeUtf8 (hex (List.replicate 16 1))).length = 32 ∧
      (∀ digit ∈ encodeUtf8 (hex (List.replicate 16 1)), isHexDigit digit = true) ∧
      Restores (List.replicate 16 1) [48, 9] content := by
  have hkeys : exchanges CryptoLaws.plainCiphers
      (receiveResponseFromServer CryptoLaws.plainCiphers registeringA) twoExchanges =
        [[48, 7]] ++ [[48, 9]] := by decide +kernel
  exact identity_persists (by decide) (by decide +kernel) (by decide +kernel) (by decide +kernel)
    (by decide +kernel) hkeys (by decide)

end EncryptedTransfer.PersistedIdentity
