import EncryptedTransfer.UploadDialogue
import EncryptedTransfer.UploadOutcome

/-!
# Files of any size

The size of a file, of what is read of it and of its encryption are each kept in 32 bits.
What a transfer over a network that changes nothing comes to, whatever the file's size is.
-/
namespace EncryptedTransfer.LargeFiles
open ServerStores hiding Client Client.new
open ByteFormats Text ServerCalls ServerHandlers ServerConsistency ServerEffects ServerRuns
open StreamFraming FileLedger CryptoLaws ClientProcess Network ClientMessages ServerTurns
open ClientRoster KeyAgreement UploadOutcome FirstTransfer ClientReactions

section Keys

variable {E : Externals} {c c' : Client} {sys sys' : System}

/-- A client that has a key has read a response with one. -/
def KeyWasSent (c : Client) : Prop := c.aesKey ≠ [] → serverCodeSwitchingKeys ∈ c.responseCodes

theorem KeyWasSent.of_eq (h : KeyWasSent c) (hkey : c'.aesKey = c.aesKey)
    (hcodes : ∀ code ∈ c.responseCodes, code ∈ c'.responseCodes) : KeyWasSent c' := by
  intro hne
  rw [hkey] at hne
  exact hcodes _ (h hne)

theorem keyWasSent_new (files : Bytes → Option Bytes) (connects : Bool) :
    KeyWasSent (Client.new files connects) := by
  obtain ⟨name, hex, bytes, key, connected, -, -, hnew⟩ := new_eq files connects
  have hnone : (Client.new files connects).aesKey = [] := by rw [hnew]
  exact fun hne => absurd hnone hne

theorem KeyWasSent.call (h : KeyWasSent c) (method : Method) : KeyWasSent (method.run E c) := by
  have hsame : (method.run E c).aesKey = c.aesKey ∧
      (method.run E c).responseCodes = c.responseCodes := by
    cases method with
    | registerToServer =>
      simp only [Method.run, registerToServer]
      split_ifs <;> exact ⟨rfl, rfl⟩
    | generateRSAKeyPair pair =>
      simp only [Method.run, generateRSAKeyPair, savePrivateKey]
      split_ifs <;> exact ⟨rfl, rfl⟩
    | sendFileToServer =>
      obtain ⟨path, cksum, outbox, awaiting, codes, hsend⟩ := sendFileToServer_frame E c
      rw [Method.run, hsend]
      exact ⟨rfl, rfl⟩
  refine h.of_eq hsame.1 fun code hcode => ?_
  rw [hsame.2]
  exact hcode

theorem compareCksums_keys (filename : Bytes) (cksum : ℕ) (c : Client) :
    (compareCksums E filename cksum c).aesKey = c.aesKey ∧
      (compareCksums E filename cksum c).responseCodes = c.responseCodes := by
  obtain ⟨trials, noted, outbox, codes, hsend⟩ := compareCksums_frame E filename cksum c
  rw [hsend]
  exact ⟨rfl, rfl⟩

theorem KeyWasSent.receive (h : KeyWasSent c) : KeyWasSent (receiveResponseFromServer E c) := by
  have hread : (readResponse c).2.aesKey = c.aesKey ∧
      (readResponse c).2.responseCodes = c.responseCodes := by
    simp only [readResponse]
    split_ifs <;> exact ⟨rfl, rfl⟩
  obtain ⟨c₁, hc₁⟩ : ∃ c₁ : Client, c₁ = { (readResponse c).2 with
      responseCodes := (readResponse c).2.responseCodes ++ [(readResponse c).1.code] } := ⟨_, rfl⟩
  have hcodes : c₁.responseCodes = c.responseCodes ++ [(readResponse c).1.code] := by
    rw [hc₁, hread.2]
  have hkey : c₁.aesKey = c.aesKey := by rw [hc₁, hread.1]
  have hbefore : KeyWasSent c₁ := h.of_eq hkey fun code hcode => by
    rw [hcodes]
    exact List.mem_append_left _ hcode
  rw [receiveResponseFromServer_read, ← hc₁, handleResponse]
  split_ifs with hregistered hkeys hreport
  · rw [saveRegistrationDetails]
    split_ifs
    · exact hbefore
    · exact hbefore
  · intro _
    rw [handleAESKeyFromServer]
    have hmem : serverCodeSwitchingKeys ∈ c₁.responseCodes := by
      rw [hcodes, hkeys]
      exact List.mem_append_right _ (List.mem_singleton_self _)
    cases E.oaepDecrypt (E.base64Decode c₁.privateKey) (readResponse c).1.payload <;> exact hmem
  · rw [handleFileResponse_read]
    have hsame := compareCksums_keys (E := E) (readReport c₁).1.2.1 (readReport c₁).1.2.2
      (readReport c₁).2
    refine hbefore.of_eq hsame.1 fun code hcode => ?_
    rw [hsame.2]
    exact hcode
  · exact hbefore

theorem keyWasSent_step (h : ∀ i, KeyWasSent (sys.client i)) (move : Move) (i : ℕ) :
    KeyWasSent ((sys.step E move).client i) := by
  have hset (j : ℕ) (c : Client) (hc : KeyWasSent c) : KeyWasSent ((sys.setClient j c).client i) := by
    by_cases hj : i = j
    · subst hj
      rw [System.setClient_self]
      exact hc
    · rw [System.setClient_other _ hj]
      exact h i
  cases move with
  | call j method =>
    simp only [System.step]
    split_ifs
    · exact h i
    · exact hset j _ ((h j).call method)
  | serve j env =>
    simp only [System.step]
    cases hout : (sys.client j).outbox with
    | nil =>
      rw [System.serve_nil E hout]
      exact h i
    | cons request rest =>
      rw [System.serve_cons E hout]
      exact hset j _ (h j)
  | resume j =>
    simp only [System.step, System.resume]
    split_ifs
    · exact h i
    · exact hset j _ (h j).receive
    · exact h i
  | corrupt j encrypted =>
    simp only [System.step]
    cases (sys.client j).outbox with
    | nil => exact h i
    | cons request rest => exact hset j _ (h j)
  | edit j path content => exact hset j _ (h j)

theorem keyWasSent {sys₀ : System} (h₀ : Begun E sys₀) {moves : List Move}
    (hrun : Moves E sys₀ moves sys) (i : ℕ) : KeyWasSent (sys.client i) := by
  have hstep (sys : System) (move : Move) (_ : Permitted E sys move)
      (h : ∀ i, KeyWasSent (sys.client i)) : ∀ i, KeyWasSent ((sys.step E move).client i) :=
    keyWasSent_step h move
  refine hrun.invariant hstep (fun i => ?_) i
  obtain ⟨files, connects, hc⟩ := h₀.started i
  rw [hc]
  exact keyWasSent_new files connects

end Keys

section Sizes

variable {E : Externals} {c : Client} {file : Bytes}

def announced (upload : Bytes) : ℕ := ofLe ((upload.drop 39).take 4)

theorem uploadOf_eq (hid : c.clientIdBytes.length = 16) : uploadOf E c file =
    (uploadMessage c.clientIdBytes c.clientIdBytes (resize 255 (fileNameOf c.filePath))
      (sentOf E c file) hid hid (length_resize 255 _) (length_sentOf E c file)).encode := by
  have hsend := congrArg Client.outbox (sendFileItem_itemOf (E := E) hid file c)
  have hposted : (sendFileItem ⟨c.clientIdBytes, clientCodeSendFile, [], []⟩ (itemOf E c file)
      c).outbox = c.outbox ++ [uploadOf E c file] := rfl
  rw [hposted] at hsend
  exact List.singleton_inj.mp (List.append_cancel_left hsend)

theorem announced_upload {clientId owner field content : Bytes} (hid : clientId.length = 16)
    (howner : owner.length = 16) (hfield : field.length = 255)
    (hcontent : content.length < 4294967296) :
    announced (uploadMessage clientId owner field content hid howner hfield hcontent).encode =
      content.length := by
  let m := uploadMessage clientId owner field content hid howner hfield hcontent
  have hsplit : m.encode = (m.header ++ owner) ++ (leBytes 4 content.length ++ (field ++ content)) := by
    simp [m, Message.encode, uploadMessage]
  have hlen : (m.header ++ owner).length = 39 := by
    rw [List.length_append, m.header_length, howner]
  rw [announced, hsplit, List.drop_left' hlen, List.take_left' (leBytes_length _ _)]
  exact ofLe_leBytes_of_lt hcontent

/-- Exactly the files of fewer than `2 ^ 32 - 16` bytes are announced with the size of their
encryption. -/
theorem length_sentOf_iff (haes : AesLaws E) (hkey : c.aesKey.length = 16) :
    (sentOf E c file).length = (E.aesEncrypt c.aesKey file).length ↔
      file.length < 2 ^ 32 - 16 := by
  have hwhole := haes.length_encrypt c.aesKey file hkey
  have hread := haes.length_encrypt c.aesKey (file.take (file.length % 2 ^ 32)) hkey
  rw [List.length_take] at hread
  rw [sentOf, List.length_take, hwhole, hread]
  omega

end Sizes

/-- The server has the file under the name of this field. -/
def Saved (E : Externals) (s : Server KeyedDisk) (clientId field file : Bytes) : Prop :=
  ∃ name, filenameOf E field = some name ∧ (entry s (clientId, name)).map Prod.fst = some file

/-- A file on its way: whose it is, under which key and in which name field. -/
structure Sending where
  clientId : Bytes
  aesKey : Bytes
  field : Bytes
  file : Bytes

/-- The stages of the transfer of a whole file that nothing changes on its way. -/
inductive Stage (E : Externals) (t : Sending) (s : Server KeyedDisk) (c : Client) : Prop
  | uploading (hcode : c.requestCodes.getLast? = some clientCodeSendFile)
      (hcksum : c.cksumOfLastFile = cksumOf t.file) {content : Bytes}
      (hid : t.clientId.length = 16) (hfield : t.field.length = 255)
      (hcontent : content.length < 4294967296)
      (hread : (E.aesDecrypt t.aesKey content).bind E.unpad = some t.file)
      (hout : c.outbox =
        [(uploadMessage t.clientId t.clientId t.field content hid hid hfield hcontent).encode])
      (hin : c.inbox = [])
  | stuck (hcode : c.requestCodes.getLast? = some clientCodeSendFile) (hout : c.outbox = [])
      (hin : c.inbox = [])
  | reported (hcode : c.requestCodes.getLast? = some clientCodeSendFile)
      (hcksum : c.cksumOfLastFile = cksumOf t.file) (hout : c.outbox = []) {name : Str} {size : ℕ}
      (hin : c.inbox = reported t.clientId name size (cksumOf t.file).toNat)
      (hsaved : Saved E s t.clientId t.field t.file)
  | confirming (hcode : c.requestCodes.getLast? = some clientCodeCksumOk) {field : Bytes}
      (hid : t.clientId.length = 16) (hfield : field.length = 255)
      (hout : c.outbox =
        [(nameMessage t.clientId clientCodeCksumOk field hid (.inl rfl) hfield).encode])
      (hin : c.inbox = []) (hsaved : Saved E s t.clientId t.field t.file)
  | told (hcode : c.requestCodes.getLast? = some clientCodeCksumOk) (hout : c.outbox = [])
      (hin : c.inbox = [] ∨ c.inbox = acknowledged t.clientId)
      (hsaved : Saved E s t.clientId t.field t.file)

section Stages

variable {E : Externals} {t : Sending} {s s' : Server KeyedDisk} {c c' : Client}

theorem Stage.saved (h : Stage E t s c)
    (hcode : c.requestCodes.getLast? = some clientCodeCksumOk) :
    Saved E s t.clientId t.field t.file := by
  have hne (hsend : c.requestCodes.getLast? = some clientCodeSendFile) : False := by
    rw [hcode] at hsend
    exact absurd (Option.some.inj hsend) (by decide)
  cases h with
  | uploading hsend => exact (hne hsend).elim
  | stuck hsend => exact (hne hsend).elim
  | reported hsend => exact (hne hsend).elim
  | confirming _ _ _ _ _ hsaved => exact hsaved
  | told _ _ _ hsaved => exact hsaved

theorem Stage.not_keyOutstanding (h : Stage E t s c) : ¬ KeyOutstanding c := by
  cases h with
  | uploading hcode => exact not_keyOutstanding_of_last hcode (by decide)
  | stuck hcode => exact not_keyOutstanding_of_last hcode (by decide)
  | reported hcode => exact not_keyOutstanding_of_last hcode (by decide)
  | confirming hcode => exact not_keyOutstanding_of_last hcode (by decide)
  | told hcode => exact not_keyOutstanding_of_last hcode (by decide)

theorem Stage.of_server (h : Stage E t s c) (hsaved : Saved E s t.clientId t.field t.file →
    Saved E s' t.clientId t.field t.file) : Stage E t s' c := by
  cases h with
  | uploading hcode hcksum hid hfield hcontent hread hout hin =>
    exact .uploading hcode hcksum hid hfield hcontent hread hout hin
  | stuck hcode hout hin => exact .stuck hcode hout hin
  | reported hcode hcksum hout hin h => exact .reported hcode hcksum hout hin (hsaved h)
  | confirming hcode hid hfield hout hin h =>
    exact .confirming hcode hid hfield hout hin (hsaved h)
  | told hcode hout hin h => exact .told hcode hout hin (hsaved h)

theorem Saved.confirm (hs : Consistent s) (now : Str) (clientId : Bytes) (filename : Str)
    (h : Saved E s t.clientId t.field t.file) :
    Saved E (confirm now clientId filename s) t.clientId t.field t.file := by
  obtain ⟨name, hname, hentry⟩ := h
  refine ⟨name, hname, ?_⟩
  rw [hs.sound.entry_confirm now clientId filename, Ledger.apply]
  by_cases hk : (t.clientId, name) = (clientId, filename)
  · rw [← hk, Function.update_self, Option.map_map]
    exact hentry
  · rw [Function.update_of_ne hk]
    exact hentry

theorem Stage.serve_upload (hs : Consistent s) {env : Draws}
    (hknown : s.database.clientExistsById t.clientId = true)
    (hkey : s.database.getAesKeyOfClient t.clientId = some t.aesKey)
    (hsize : t.file.length < 2 ^ 32) (hcode : c.requestCodes.getLast? = some clientCodeSendFile)
    (hcksum : c.cksumOfLastFile = cksumOf t.file) {content : Bytes}
    (hid : t.clientId.length = 16) (hfield : t.field.length = 255)
    (hcontent : content.length < 4294967296)
    (hread : (E.aesDecrypt t.aesKey content).bind E.unpad = some t.file) (hin : c.inbox = []) :
    let w := System.turnWith E env s
      (uploadMessage t.clientId t.clientId t.field content hid hid hfield hcontent).encode
    Stage E t w.server (answered c [] w.conn.sent.flatten) := by
  intro w
  have hstuck {s' : Server KeyedDisk} {left : Bytes} (hturned : Turned w s' [] left) :
      Stage E t w.server (answered c [] w.conn.sent.flatten) := by
    rw [hturned.sent_eq]
    exact .stuck hcode rfl (by simp [answered, hin])
  have hdata : contentOf E s.database t.clientId content = some t.file := by
    rw [contentOf, hkey, Option.bind_some]
    exact hread
  have hsum : Cksum.Server.cksumCalc t.file = some (cksumOf t.file).toNat := by
    rw [Cksum.cksumCalc_eq hsize, cksumOf, Nat.mod_eq_of_lt hsize, List.take_length]
  cases hname : filenameOf E t.field with
  | none => exact hstuck (turned_upload_undecodable rfl rfl hid hfield hcontent hknown hname)
  | some name =>
    by_cases hnul : nul ∈ name
    · exact hstuck (turned_upload_nul rfl rfl hid hfield hcontent hknown hs hname hdata hnul)
    · have hturned : Turned w _ _ _ :=
        turned_upload rfl rfl hid hfield hcontent hknown hs hname hdata hnul hsum
      rw [if_pos (show t.file.length < 4294967296 by omega)] at hturned
      have hin' : (answered c [] (ClientMessages.reported t.clientId name t.file.length
          (cksumOf t.file).toNat)).inbox =
            ClientMessages.reported t.clientId name t.file.length (cksumOf t.file).toNat := by
        simp [answered, hin]
      rw [hturned.server_eq, hturned.sent_eq]
      refine .reported hcode hcksum rfl hin' ⟨name, hname, ?_⟩
      have hentry := congrFun (hs.sound.entry_store env.now t.clientId name t.file)
        (t.clientId, name)
      rw [Ledger.apply, Function.update_self] at hentry
      exact congrArg (Option.map Prod.fst) hentry

theorem Stage.serve (h : Stage E t s c) (hs : Consistent s) (env : Draws)
    (hknown : s.database.clientExistsById t.clientId = true)
    (hkey : s.database.getAesKeyOfClient t.clientId = some t.aesKey)
    (hsize : t.file.length < 2 ^ 32) {request : Bytes} {rest : List Bytes}
    (hout : c.outbox = request :: rest) :
    Stage E t (System.turnWith E env s request).server
      (answered c rest (System.turnWith E env s request).conn.sent.flatten) := by
  have hnil (hnil : c.outbox = []) : False := by
    rw [hout] at hnil
    cases hnil
  cases h with
  | uploading hcode hcksum hid hfield hcontent hread hreq hin =>
    rw [hreq] at hout
    obtain ⟨rfl, rfl⟩ := List.cons.inj hout
    exact Stage.serve_upload hs hknown hkey hsize hcode hcksum hid hfield hcontent hread hin
  | stuck _ hno => exact (hnil hno).elim
  | reported _ _ hno => exact (hnil hno).elim
  | confirming hcode hid hfield hreq hin hsaved =>
    rename_i field
    rw [hreq] at hout
    obtain ⟨rfl, rfl⟩ := List.cons.inj hout
    cases hname : filenameOf E field with
    | none =>
      have hturned : Turned (System.turnWith E env s
          (nameMessage t.clientId clientCodeCksumOk field hid (.inl rfl) hfield).encode) s [] [] :=
        turned_cksumOk_undecodable hknown hfield rfl hname
      rw [hturned.server_eq, hturned.sent_eq]
      exact .told hcode rfl (.inl (by simp [answered, hin])) hsaved
    | some name =>
      have hturned : Turned (System.turnWith E env s
          (nameMessage t.clientId clientCodeCksumOk field hid (.inl rfl) hfield).encode)
            (confirm env.now t.clientId name s) (acknowledged t.clientId) [] :=
        turned_cksumOk hknown hfield rfl hname
      rw [hturned.server_eq, hturned.sent_eq]
      exact .told hcode rfl (.inr (by simp [answered, hin])) (hsaved.confirm hs _ _ _)
  | told _ hno => exact (hnil hno).elim

structure Keeps (t : Sending) (c : Client) : Prop where
  clientId : c.clientIdBytes = t.clientId
  aesKey : c.aesKey = t.aesKey
  attached : c.clientIdHex ≠ []
  keyed : serverCodeSwitchingKeys ∈ c.responseCodes

theorem Stage.receive (h : Stage E t s c) (hc : Keeps t c) (hid : t.clientId.length = 16)
    (hin : c.inbox ≠ []) :
    Stage E t s (receiveResponseFromServer E c) ∧ Keeps t (receiveResponseFromServer E c) := by
  cases h with
  | uploading _ _ _ _ _ _ _ hno => exact absurd hno hin
  | stuck _ _ hno => exact absurd hno hin
  | reported hcode hcksum hout hreport hsaved =>
    rename_i name size
    have hsum : c.cksumOfLastFile = UInt32.ofNat (cksumOf t.file).toNat := by
      rw [hcksum, UInt32.ofNat_toNat]
    have hfield := length_reportField name
    have hreceive := receiveResponseFromServer_reported (E := E) hid (cksumOf t.file).toNat_lt hreport
    simp only [hsum, ↓reduceIte] at hreceive
    rw [hc.clientId, sendRequestToServer_name hid (.inl rfl) hfield] at hreceive
    rw [hreceive]
    refine ⟨.confirming ?_ hid hfield ?_ rfl hsaved, rfl, hc.aesKey, hc.attached,
      List.mem_append_left _ hc.keyed⟩
    · exact List.getLast?_concat
    · simp [await, post, hout]
  | confirming _ _ _ _ hno => exact absurd hno hin
  | told hcode hout hcases hsaved =>
    rcases hcases with hno | hack
    · exact absurd hno hin
    · have hreceive := receiveResponseFromServer_told (E := E) (uuidField_length t.clientId)
        (.inr rfl) hack
      rw [hreceive]
      exact ⟨.told hcode hout (.inl rfl) hsaved, hc.clientId, hc.aesKey, hc.attached,
        List.mem_append_left _ hc.keyed⟩

end Stages

section Runs

variable {E : Externals} {t : Sending} {i : ℕ} {sys sys' : System}

structure Running (E : Externals) (t : Sending) (i : ℕ) (sys : System) : Prop where
  agreement : Agreement E sys
  keeps : Keeps t (sys.client i)
  stage : Stage E t sys.server (sys.client i)

/-- The client starts no call of its own, and its requests arrive as they are. -/
def Undisturbed (i : ℕ) (move : Move) : Prop :=
  (∀ method, move ≠ .call i method) ∧ ∀ encrypted, move ≠ .corrupt i encrypted

theorem Running.of_client (h : Running E t i sys) {j : ℕ} {c : Client}
    (hagreement : Agreement E (sys.setClient j c))
    (hc : j = i → Keeps t c ∧ Stage E t sys.server c) : Running E t i (sys.setClient j c) := by
  by_cases hj : j = i
  · subst hj
    obtain ⟨hkeeps, hstage⟩ := hc rfl
    refine ⟨hagreement, ?_, ?_⟩
    · rwa [System.setClient_self]
    · rwa [System.setClient_self]
  · refine ⟨hagreement, ?_, ?_⟩
    · rw [System.setClient_other _ (Ne.symm hj)]
      exact h.keeps
    · rw [System.setClient_other _ (Ne.symm hj)]
      exact h.stage

theorem Running.serve (h : Running E t i sys) (hsize : t.file.length < 2 ^ 32) (j : ℕ) {env : Draws}
    (hfresh : sys.server.database.clientExistsById env.uuid = false) :
    Running E t i (sys.serve E j env) := by
  have hagreement := h.agreement.serve j hfresh
  cases hout : (sys.client j).outbox with
  | nil =>
    rw [System.serve_nil E hout]
    exact h
  | cons request rest =>
    rw [System.serve_cons E hout] at hagreement ⊢
    by_cases hj : j = i
    · subst hj
      obtain ⟨-, name, -, hmem⟩ := (h.agreement.agrees j).agreed h.stage.not_keyOutstanding
        h.keeps.keyed
      rw [h.keeps.clientId, h.keeps.aesKey] at hmem
      have hstage := h.stage.serve h.agreement.consistent env (exists_of_mem_roster hmem)
        (getAesKeyOfClient_eq h.agreement.consistent.sound hmem) hsize hout
      refine ⟨hagreement, ?_, ?_⟩
      · simp only [Function.update_self]
        exact ⟨h.keeps.clientId, h.keeps.aesKey, h.keeps.attached, h.keeps.keyed⟩
      · simp only [Function.update_self]
        exact hstage
    · obtain ⟨m, rfl, hown⟩ := request_other h.agreement hj h.keeps.attached hout
      rw [h.keeps.clientId] at hown
      have hclient (c : Client) : Function.update sys.client j c i = sys.client i :=
        Function.update_of_ne (Ne.symm hj) _ _
      refine ⟨hagreement, ?_, ?_⟩
      · simp only [hclient]
        exact h.keeps
      · simp only [hclient]
        refine h.stage.of_server ?_
        rintro ⟨name, hname, hentry⟩
        refine ⟨name, hname, ?_⟩
        rw [entry_turnWith h.agreement.consistent hfresh m hown, hentry]

theorem Running.step (h : Running E t i sys) (hsize : t.file.length < 2 ^ 32) (move : Move)
    (hp : Permitted E sys move) (hmove : Undisturbed i move) : Running E t i (sys.step E move) := by
  have hagreement := h.agreement.step move hp
  have hagrees := h.agreement.agrees i
  cases move with
  | call j method =>
    simp only [System.step] at hagreement ⊢
    split_ifs at hagreement ⊢
    · exact h
    · exact h.of_client hagreement fun hj => absurd (hj ▸ rfl) (hmove.1 method)
  | serve j env => exact h.serve hsize j hp
  | resume j =>
    simp only [System.step, System.resume] at hagreement ⊢
    split_ifs at hagreement ⊢ with hready
    · exact h
    · refine h.of_client hagreement ?_
      rintro rfl
      have hid : t.clientId.length = 16 := by rw [← h.keeps.clientId, hagrees.idLength]
      exact (h.stage.receive h.keeps hid hready.2).symm
    · exact h
  | corrupt j encrypted =>
    simp only [System.step] at hagreement ⊢
    cases hout : (sys.client j).outbox with
    | nil => exact h
    | cons request rest =>
      simp only [hout] at hagreement
      exact h.of_client hagreement fun hj => absurd (hj ▸ rfl) (hmove.2 encrypted)
  | edit j path content =>
    refine h.of_client hagreement ?_
    rintro rfl
    refine ⟨⟨h.keeps.clientId, h.keeps.aesKey, h.keeps.attached, h.keeps.keyed⟩, ?_⟩
    cases h.stage with
    | uploading hcode hcksum hid hfield hcontent hread hout hin =>
      exact .uploading hcode hcksum hid hfield hcontent hread hout hin
    | stuck hcode hout hin => exact .stuck hcode hout hin
    | reported hcode hcksum hout hin hsaved => exact .reported hcode hcksum hout hin hsaved
    | confirming hcode hid hfield hout hin hsaved =>
      exact .confirming hcode hid hfield hout hin hsaved
    | told hcode hout hin hsaved => exact .told hcode hout hin hsaved

theorem Running.moves (hsize : t.file.length < 2 ^ 32) {moves : List Move}
    (hrun : Moves E sys moves sys') (hmoves : ∀ move ∈ moves, Undisturbed i move)
    (h : Running E t i sys) : Running E t i sys' := by
  induction hrun with
  | nil sys => exact h
  | cons move hp _ ih =>
    refine ih (fun m hm => hmoves m (List.mem_cons_of_mem _ hm)) ?_
    exact h.step hsize move hp (hmoves move (List.mem_cons_self ..))

/-- What a call sends, at first or again, is announced with the size of the whole encryption, and
once the client has confirmed a checksum the server has the whole file. Meanwhile the other
clients make requests of their own. -/
structure Whole (E : Externals) (sys : System) (i : ℕ) (file : Bytes) : Prop where
  size : ∀ c, c = sendFileToServer E (sys.client i) ∨
    c = reSendFileToServer E (loadFilePath (sys.client i)).2 → ∃ upload, c.outbox = [upload] ∧
      announced upload = (E.aesEncrypt (sys.client i).aesKey file).length
  saved : ∀ moves sys', Moves E sys (.call i .sendFileToServer :: moves) sys' →
    (∀ move ∈ moves, Undisturbed i move) →
    (sys'.client i).requestCodes.getLast? = some clientCodeCksumOk →
    ∃ name, filenameOf E (resize 255 (fileNameOf (loadFilePath (sys.client i)).2.filePath)) =
        some name ∧
      (stored sys'.server ((sys.client i).clientIdBytes, name)).1 = some file

variable {file : Bytes}

theorem outbox_first (E : Externals) (file : Bytes) {c : Client} (hout : c.outbox = [])
    (hid : c.clientIdBytes.length = 16) :
    ∃ upload, (first E c file).outbox = [upload] ∧ announced upload = (sentOf E c file).length ∧
      upload = (uploadMessage c.clientIdBytes c.clientIdBytes
        (resize 255 (fileNameOf (loadFilePath c).2.filePath)) (sentOf E c file) hid hid
        (length_resize 255 _) (length_sentOf E c file)).encode := by
  obtain ⟨path, hpath⟩ := loadFilePath_eq c
  have hupload : uploadOf E (loadFilePath c).2 file = (uploadMessage c.clientIdBytes c.clientIdBytes
      (resize 255 (fileNameOf (loadFilePath c).2.filePath)) (sentOf E c file) hid hid
      (length_resize 255 _) (length_sentOf E c file)).encode := by
    rw [hpath]
    exact uploadOf_eq (c := { c with filePath := path }) hid
  refine ⟨_, ?_, announced_upload hid hid (length_resize 255 _) (length_sentOf E c file), rfl⟩
  rw [← hupload, first]
  simp only [await, posted, hpath, hout]
  rfl

/-- A file is sent again as it was sent at first. -/
theorem reSendFileToServer_loaded {c : Client} (hfile : fileToSend c = some file) :
    reSendFileToServer E (loadFilePath c).2 = first E c file := by
  obtain ⟨⟨-, -, -, hkey⟩, hread⟩ := fileToSend_eq_some.mp hfile
  obtain ⟨path, hpath⟩ := loadFilePath_eq c
  refine reSendFileToServer_some ?_ hread
  rw [hpath]
  exact hkey

theorem running_first (haes : AesLaws E) (hagreement : Agreement E sys)
    (hidle : (sys.client i).awaiting = false) (hkeyed : KeyWasSent (sys.client i))
    (hfile : fileToSend (sys.client i) = some file) (hsize : file.length < 2 ^ 32 - 16)
    (hp : Permitted E sys (.call i .sendFileToServer)) :
    Running E ⟨(sys.client i).clientIdBytes, (sys.client i).aesKey,
      resize 255 (fileNameOf (loadFilePath (sys.client i)).2.filePath), file⟩ i
      (sys.step E (.call i .sendFileToServer)) := by
  have hagrees := hagreement.agrees i
  have hid := hagrees.idLength
  obtain ⟨hout, hin⟩ := hagrees.idle hidle
  obtain ⟨⟨-, hattached, -, hkey⟩, -⟩ := fileToSend_eq_some.mp hfile
  have hne : (sys.client i).aesKey ≠ [] := by
    intro hnil
    rw [hnil] at hkey
    cases hkey
  have hstep := hagreement.step _ hp
  have hcalled : sys.step E (.call i .sendFileToServer) =
      sys.setClient i (first E (sys.client i) file) := by
    rw [← sendFileToServer_some hfile]
    simp only [System.step, hidle, Bool.false_eq_true, ↓reduceIte]
    rfl
  obtain ⟨upload, hupload, -, rfl⟩ := outbox_first E file hout hid
  have hwhole : sentOf E (sys.client i) file = E.aesEncrypt (sys.client i).aesKey file :=
    (sentOf_eq haes hkey hsize).1
  obtain ⟨path, hpath⟩ := loadFilePath_eq (sys.client i)
  rw [hcalled] at hstep ⊢
  refine ⟨hstep, ?_, ?_⟩
  · rw [System.setClient_self, first, hpath]
    exact ⟨rfl, rfl, hattached, hkeyed hne⟩
  · rw [System.setClient_self, System.setClient_server]
    refine .uploading ?_ ?_ hid (length_resize 255 _) (length_sentOf E _ file) ?_ hupload ?_
    · rw [first, hpath]
      exact List.getLast?_concat
    · rfl
    · rw [hwhole]
      exact haes.decrypt_encrypt _ _ hkey
    · rw [first, hpath]
      exact hin

theorem Whole.announced_lt (h : Whole E sys i file) (haes : AesLaws E)
    (hout : (sys.client i).outbox = []) (hid : (sys.client i).clientIdBytes.length = 16)
    (hfile : fileToSend (sys.client i) = some file) : file.length < 2 ^ 32 - 16 := by
  obtain ⟨⟨-, -, -, hkey⟩, -⟩ := fileToSend_eq_some.mp hfile
  obtain ⟨upload, hupload, hannounced, -⟩ := outbox_first E file hout hid
  obtain ⟨upload', hupload', hlen⟩ := h.size _ (.inl rfl)
  rw [sendFileToServer_some hfile] at hupload'
  obtain rfl : upload = upload' := List.singleton_inj.mp (hupload.symm.trans hupload')
  exact (length_sentOf_iff haes hkey).mp (hannounced.symm.trans hlen)

/-- Exactly the files of fewer than `2 ^ 32 - 16` bytes are sent whole. -/
theorem whole_iff (haes : AesLaws E) {sys₀ : System} (h₀ : Begun E sys₀) {before : List Move}
    (hbefore : Moves E sys₀ before sys) (hidle : (sys.client i).awaiting = false)
    (hfile : fileToSend (sys.client i) = some file) :
    Whole E sys i file ↔ file.length < 2 ^ 32 - 16 := by
  have hagreement := h₀.agreement.moves hbefore
  have hagrees := hagreement.agrees i
  obtain ⟨hout, -⟩ := hagrees.idle hidle
  obtain ⟨⟨-, -, -, hkey⟩, -⟩ := fileToSend_eq_some.mp hfile
  obtain ⟨upload, hupload, hannounced, -⟩ :=
    outbox_first E file hout hagrees.idLength
  have hsend := sendFileToServer_some (E := E) hfile
  constructor
  · exact fun h => h.announced_lt haes hout hagrees.idLength hfile
  · intro hsize
    have hlen := hannounced.trans ((length_sentOf_iff haes hkey).mpr hsize)
    refine ⟨?_, ?_⟩
    · rintro c (rfl | rfl)
      · exact ⟨upload, by rw [hsend, hupload], hlen⟩
      · exact ⟨upload, by rw [reSendFileToServer_loaded hfile, hupload], hlen⟩
    intro moves sys' hrun hmoves hcode
    cases hrun with
    | cons _ hp hrest =>
      have hlt : file.length < 2 ^ 32 := by omega
      have hdone := Running.moves hlt hrest hmoves
        (running_first haes hagreement hidle (keyWasSent h₀ hbefore i) hfile hsize hp)
      obtain ⟨name, hname, hentry⟩ := hdone.stage.saved hcode
      refine ⟨name, hname, ?_⟩
      rw [hdone.agreement.consistent.stored_eq]
      obtain ⟨e, he, hcontent⟩ := Option.map_eq_some_iff.mp hentry
      rw [he]
      exact congrArg some hcontent

end Runs

def filesWith (content : Bytes) : Bytes → Option Bytes :=
  Function.update (Function.update (fun _ => none) [102] (some content)) serverFilePath
    (some infoOfA)

def systemWith (content : Bytes) : System :=
  ⟨.empty, fun _ => Client.new (filesWith content) true, []⟩

theorem begun_systemWith (content : Bytes) : Begun plainCiphers (systemWith content) := by
  have hnew (i : ℕ) : ((systemWith content).client i).clientIdHex = [] := rfl
  exact ⟨⟨[], .start⟩, fun _ => ⟨filesWith content, true, rfl⟩, fun i h => absurd (hnew i) h,
    fun i _ h => absurd (hnew i) h⟩

def keyedWith (content : Bytes) : System := (systemWith content).steps plainCiphers registerAndKey

theorem keyedWith_eq (content : Bytes) :
    keyedWith content = (systemWith content).steps plainCiphers registerAndKey := rfl

attribute [irreducible] keyedWith

theorem moves_keyedWith (content : Bytes) :
    Moves plainCiphers (systemWith content) registerAndKey (keyedWith content) ∧
      ((keyedWith content).client 0).awaiting = false ∧
      fileToSend ((keyedWith content).client 0) = some content := by
  have hinfo : filesWith content serverFilePath = some infoOfA :=
    Function.update_self ..
  have hother : ∀ path, path ≠ serverFilePath → path ≠ [102] → filesWith content path = none := by
    intro path hinfo hfile
    rw [filesWith, Function.update_of_ne hinfo, Function.update_of_ne hfile]
  have hfile : filesWith content [102] = some content := by
    rw [filesWith, Function.update_of_ne (by decide), Function.update_self]
  have hdetails : filesWith content clientDetailsPath = none := hother _ (by decide) (by decide)
  have hlines : splitLines infoOfA =
      addressLine :: encodeUtf8 ['a'] :: [102] :: [] := by decide
  have hpair : KeyPairLaws plainCiphers keyPairOfA.publicKey
    keyPairOfA.privateKey := keyPairLaws_plainCiphers _
  have hempty : ServerRuns.Run plainCiphers (systemWith content).server [] := .start
  have hnew : (systemWith content).client 0 = Client.new (filesWith content) true := rfl
  have hfree : (systemWith content).server.database.clientExistsByName ['a'] = false := rfl
  have hfresh : (systemWith content).server.database.clientExistsById (constantDraws 1).uuid =
    false := rfl
  obtain ⟨hrest, hnone, -, -, hpath⟩ := resting_new hdetails hinfo hlines (by decide)
  have hsome : ((Client.new (filesWith content) true).files serverFilePath).isSome = true := by
    rw [hrest.files _ (by decide), hinfo, Option.isSome_some]
  obtain ⟨c₁, hregistered, -⟩ := performed_register (E := plainCiphers) (constantDraws 1) [] hnew
    hrest (by decide) (by decide) hsome hnone hfree
  obtain ⟨c, hbegun, hkeyed⟩ := performed_begin hempty hnew hdetails hinfo hlines (by decide)
    (by decide) hfree hpair (constantDraws 2) hfresh [] []
  have hmoves : movesOf 0 .registerToServer [constantDraws 1] ++
      movesOf 0 (.generateRSAKeyPair keyPairOfA) [constantDraws 2] =
        registerAndKey := rfl
  rw [perform_eq_steps, perform_eq_steps, System.steps, System.steps, ← List.foldl_append, hmoves]
    at hbegun
  rw [keyedWith_eq]
  refine ⟨.of_permitted ⟨trivial, ?_, trivial, hpair, ?_, trivial, trivial⟩, ?_, ?_⟩
  · rw [Permitted, step_call_server]
    exact hfresh
  · rw [← perform_singleton, Permitted, step_call_server, hregistered.server]
    rfl
  · rw [System.steps, hbegun.client, hkeyed.resting.awaiting]
  · have hinfo' : c.files serverFilePath = some infoOfA := by
      rw [hkeyed.resting.files _ (by decide), hinfo]
    have hload : loadFilePath c = (true, { c with filePath := [102] }) := by
      have hread := hpath c.filePath
      rw [hinfo] at hread
      simp only [loadFilePath, hinfo', Option.isSome_some, ↓reduceIte, hread]
      rfl
    rw [System.steps, hbegun.client]
    refine fileToSend_eq_some.mpr ⟨⟨hkeyed.resting.connected, hkeyed.attached, ?_, hkeyed.aesKey⟩, ?_⟩
    · rw [hload]
    · rw [hload]
      have hother : ([102] : Bytes) ≠ clientDetailsPath := by decide
      exact (hkeyed.resting.files _ hother).trans hfile

theorem whole_iff_small :
    Whole plainCiphers (keyedWith [7]) 0 [7] ↔ ([7] : Bytes).length < 2 ^ 32 - 16 := by
  obtain ⟨hrun, hidle, hfile⟩ := moves_keyedWith [7]
  exact whole_iff aesLaws_plainCiphers (begun_systemWith [7]) hrun hidle hfile

/-- A file of `2 ^ 32` bytes is announced with the size of an encryption of nothing. -/
theorem large_file_cut :
    let file := List.replicate (2 ^ 32) 0
    Moves plainCiphers (systemWith file) registerAndKey (keyedWith file) ∧
      ((keyedWith file).client 0).awaiting = false ∧
      fileToSend ((keyedWith file).client 0) = some file ∧
      ¬ Whole plainCiphers (keyedWith file) 0 file := by
  intro file
  obtain ⟨hrun, hidle, hfile⟩ := moves_keyedWith file
  refine ⟨hrun, hidle, hfile, fun h => ?_⟩
  have hagrees := ((begun_systemWith file).agreement.moves hrun).agrees 0
  have hsize := h.announced_lt aesLaws_plainCiphers (hagrees.idle hidle).1 hagrees.idLength hfile
  have hlen : file.length = 2 ^ 32 := List.length_replicate
  omega

end EncryptedTransfer.LargeFiles
