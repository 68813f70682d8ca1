import EncryptedTransfer.ServerHandlers

/-!
# Which calls each kind of request issues

Read off the handlers once, whatever the calls answer: a property that the calls of a kind
preserve is then preserved by its handler.
-/
namespace EncryptedTransfer.ServerFootprints
open ByteFormats Text ServerStores ServerCalls ServerHandlers Interaction Program

/-- The calls on the host each kind of request issues. -/
def Footprint : Kind → HostCall → Prop
  | _, .getClientName _ | _, .clientExistsById _ => True
  | .register, .clientExistsByName _ | .register, .uuid4 | .register, .clientMapPut _ _
  | .register, .insertNewClient _ _ => True
  | .sendPublicKey, .getRandomBytes _ | .sendPublicKey, .insertKeysOfClient _ _ _
  | .sendPublicKey, .oaepEncrypt _ _ => True
  | .sendFile, .getAesKeyOfClient _ | .sendFile, .pathExists _ | .sendFile, .mkdir _
  | .sendFile, .writeFile _ _ | .sendFile, .fileMapPut _ _ | .sendFile, .clientAddFile _ _ _
  | .sendFile, .readFile _ | .sendFile, .fileExists _ _ => True
  | .sendFile, .updateCksumVerification _ _ verified => verified = false
  | .sendFile, .insertFileDetails clientId filename pathname verified =>
    pathname = filePath clientId filename ∧ verified = false
  | .cksumOk, .updateCksumVerification _ _ verified => verified = true
  | .cksumErrFinal, .pathExists _ | .cksumErrFinal, .remove _
  | .cksumErrFinal, .deleteFileOfClient _ _ | .cksumErrFinal, .clientMapGet _
  | .cksumErrFinal, .clientRemoveFile _ _ | .cksumErrFinal, .fileMapGet _
  | .cksumErrFinal, .fileMapPop _ => True
  | _, _ => False

/-- Writes of the connection, the host calls in `A`, and reads where `reads` allows them. -/
def Within (reads : Prop) (A : HostCall → Prop) : Call → Prop
  | .recv _ => reads
  | .send _ => True
  | .host c => A c

variable {reads : Prop} {A B : HostCall → Prop} {α : Type}

theorem Within.mono (h : ∀ c, A c → B c) (c : Call) (hc : Within reads A c) : Within True B c := by
  cases c with
  | host c => exact h c hc
  | _ => trivial

theorem within_recv (n : ℕ) : Issues (Within True A) (recv n) := .issue trivial

theorem within_send (data : Bytes) : Issues (Within reads A) (send data) := .issue trivial

theorem within_host {c : HostCall} (h : A c) : Issues (Within reads A) (host c) := .issue h

theorem within_pure (a : α) : Issues (Within reads A) (pure a : Proc α) := .done _

theorem within_guarded {p : Proc Unit} (h : Issues (Within reads A) p) :
    Issues (Within reads A) (guarded p) := .attempt h fun _ => .done _

theorem within_respond (code : ℕ) (clientId : Bytes) :
    Issues (Within reads A) (respond code clientId) :=
  .bind (.ofOption _ _) fun _ => .bind (.ofOption _ _) fun _ => within_send _

variable (E : Externals) (request : Request) (payload : Bytes)

theorem within_readFilename (field : Bytes) : Issues (Within reads A) (readFilename E field) :=
  .bind (.ofOption _ _) fun _ => within_pure _

theorem footprint_handleClientRegistration :
    Issues (Within False (Footprint .register)) (handleClientRegistration payload) := by
  apply within_guarded
  refine .bind (.ofOption _ _) fun clientName => .bind (within_host trivial) fun found => ?_
  split_ifs
  · exact within_respond _ _
  · refine .bind (within_host trivial) fun clientId => .bind (.ofOption _ _) fun response => ?_
    refine .bind (within_host trivial) fun _ => .bind (within_host trivial) fun _ => ?_
    exact .bind (.ofOption _ _) fun _ => within_send _

theorem footprint_sendAesKeyToClient :
    Issues (Within False (Footprint .sendPublicKey)) (sendAesKeyToClient E request payload) := by
  apply within_guarded
  refine .bind (within_host trivial) fun _ => .bind (.ofOption _ _) fun fields => ?_
  refine .bind (.ofOption _ _) fun clientName => .bind (within_host trivial) fun aesKey => ?_
  refine .bind (within_host trivial) fun _ => .bind (.ofOption _ _) fun _ => ?_
  refine .bind (within_host trivial) fun cipher => .bind (.ofOption _ _) fun response => ?_
  exact .bind (.ofOption _ _) fun data => within_send _

theorem within_sendCksum (clientId : Bytes) (filename : Str) (contentSize cksum : ℕ) :
    Issues (Within reads A) (sendCksum clientId filename contentSize cksum) := by
  refine .bind (.ofOption _ _) fun response => .bind (.ofOption _ _) fun data => ?_
  exact .bind (within_send _) fun _ => .bind (.ofOption _ _) fun data => within_send _

/-- The disk calls on behalf of one file. -/
def AtFile (clientId : Bytes) (filename : Str) : HostCall → Prop
  | .mkdir path => path = filesDir ∨ path = clientDir clientId
  | .writeFile path _ | .readFile path | .remove path => path = filePath clientId filename
  | _ => True

theorem within_makeDir {dirName : Str} (h : A (.pathExists dirName)) (h' : A (.mkdir dirName)) :
    Issues (Within reads A) (makeDir dirName) := by
  refine .bind (within_host h) fun found => ?_
  split_ifs
  · exact within_host h'
  · exact within_pure _

theorem footprint_processFileContent (filename : Str) (encrypted : Bytes) :
    Issues (Within False fun c => Footprint .sendFile c ∧ AtFile request.clientId filename c)
      (processFileContent E request filename encrypted) := by
  have hfree {c : HostCall} (h : Footprint .sendFile c) (h' : AtFile request.clientId filename c) :
      Issues (Within False fun c => Footprint .sendFile c ∧ AtFile request.clientId filename c)
        (host c) :=
    within_host ⟨h, h'⟩
  apply within_guarded
  refine .bind (hfree trivial trivial) fun _ => .bind (hfree trivial trivial) fun aesKey => ?_
  refine .bind (.ofOption _ _) fun aesKey => .bind (.ofOption _ _) fun padded => ?_
  refine .bind (.ofOption _ _) fun content => ?_
  refine .bind (within_makeDir ⟨trivial, trivial⟩ ⟨trivial, .inl rfl⟩) fun _ => ?_
  refine .bind (within_makeDir ⟨trivial, trivial⟩ ⟨trivial, .inr rfl⟩) fun _ => ?_
  refine .bind (hfree trivial rfl) fun _ => .bind (hfree trivial trivial) fun _ => ?_
  refine .bind (hfree trivial trivial) fun _ => .bind (hfree trivial rfl) fun stored => ?_
  refine .bind (.ofOption _ _) fun cksum => ?_
  refine .bind (.bind (hfree trivial trivial) fun found => ?_) fun _ => ?_
  · split_ifs
    · exact hfree rfl trivial
    · exact hfree ⟨rfl, rfl⟩ trivial
  · exact within_sendCksum _ _ _ _

theorem footprint_handleFileRequest :
    Issues (Within True (Footprint .sendFile)) (handleFileRequest E request) := by
  apply within_guarded
  refine .bind (within_recv _) fun fileData => ?_
  split_ifs
  · refine .bind (.ofOption _ _) fun fields => .bind (within_readFilename E _) fun filename => ?_
    refine .bind (within_recv _) fun encrypted => ?_
    exact (footprint_processFileContent E request _ _).mono (Within.mono fun _ h => h.1)
  · exact within_pure _

theorem footprint_handleCksumOk :
    Issues (Within True (Footprint .cksumOk)) (handleCksumOk E request) := by
  apply within_guarded
  refine .bind (within_host trivial) fun _ => .bind (within_recv _) fun field => ?_
  refine .bind (within_readFilename E _) fun filename => .bind (within_host rfl) fun _ => ?_
  exact within_respond _ _

theorem footprint_handleCksumErr :
    Issues (Within True (Footprint .cksumErr)) (handleCksumErr request) := by
  apply within_guarded
  refine .bind (.bind (within_recv _) fun field => .bind (.ofOption _ _) fun _ => ?_) fun _ =>
    within_pure _
  exact .bind (within_host trivial) fun _ => within_pure _

theorem within_removeStored {path : Str} (h : A (.pathExists path)) (h' : A (.remove path)) :
    Issues (Within reads A) (removeStored path) := by
  refine .bind (within_host h) fun found => ?_
  split_ifs
  · exact within_host h'
  · exact within_pure _

theorem within_forgetOwned {clientId : Bytes} {path : Str} (h : A (.clientMapGet clientId))
    (h' : A (.clientRemoveFile clientId path)) :
    Issues (Within reads A) (forgetOwned clientId path) := by
  refine .bind (within_host h) fun client => ?_
  split_ifs
  · exact within_host h'
  · exact within_pure _

theorem within_forgetFile {path : Str} (h : A (.fileMapGet path)) (h' : A (.fileMapPop path)) :
    Issues (Within reads A) (forgetFile path) := by
  refine .bind (within_host h) fun file => ?_
  split_ifs
  · exact within_host h'
  · exact within_pure _

theorem footprint_deleteFile (clientId : Bytes) (filename : Str) :
    Issues (Within False fun c => Footprint .cksumErrFinal c ∧ AtFile clientId filename c)
      (deleteFile clientId filename) := by
  refine .bind (within_removeStored ⟨trivial, trivial⟩ ⟨trivial, rfl⟩) fun _ => ?_
  refine .bind (within_host ⟨trivial, trivial⟩) fun _ => ?_
  refine .bind (within_forgetOwned ⟨trivial, trivial⟩ ⟨trivial, trivial⟩) fun _ => ?_
  exact within_forgetFile ⟨trivial, trivial⟩ ⟨trivial, trivial⟩

theorem footprint_handleCksumErrFinal :
    Issues (Within True (Footprint .cksumErrFinal)) (handleCksumErrFinal E request) := by
  apply within_guarded
  refine .bind (within_recv _) fun field => .bind (within_readFilename E _) fun filename => ?_
  refine .bind (within_host trivial) fun _ => .bind ?_ fun _ => within_respond _ _
  exact (footprint_deleteFile _ _).mono (Within.mono fun _ h => h.1)

theorem footprint_dispatch :
    Issues (Within True (Footprint (kindOf request.code))) (dispatch E request payload) := by
  rw [dispatch_eq]
  cases kindOf request.code with
  | register =>
    exact (footprint_handleClientRegistration payload).mono (Within.mono fun _ h => h)
  | sendPublicKey =>
    exact (footprint_sendAesKeyToClient E request payload).mono (Within.mono fun _ h => h)
  | sendFile => exact footprint_handleFileRequest E request
  | cksumOk => exact footprint_handleCksumOk E request
  | cksumErr => exact footprint_handleCksumErr request
  | cksumErrFinal => exact footprint_handleCksumErrFinal E request
  | unknown => exact within_pure ()

/-- A request issues the calls of its kind, and the query of the gate. -/
theorem footprint_handleRequest :
    Issues (Within True (Footprint (kindOf request.code))) (handleRequest E request payload) := by
  have hgate : Issues (Within True (Footprint (kindOf request.code))) (turnedAway request) := by
    apply Issues.attempt _ fun _ => within_pure _
    split_ifs
    · exact within_pure _
    · refine .bind (within_host ?_) fun found => within_pure _
      cases kindOf request.code <;> trivial
  refine .bind hgate fun away => ?_
  split_ifs
  · exact within_guarded (within_respond _ _)
  · exact footprint_dispatch E request payload

theorem footprint_receiveRequest : Issues (Within True fun _ => False) receiveRequest := by
  refine .attempt (.bind (within_recv _) fun requestData => ?_) fun _ => within_pure _
  split_ifs
  · refine .bind (.ofOption _ _) fun fields => ?_
    exact .bind (within_recv _) fun payload => within_pure _
  · exact within_pure _

end EncryptedTransfer.ServerFootprints
