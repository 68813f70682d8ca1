import EncryptedTransfer.DiskConfinement
import EncryptedTransfer.FaultyDatabase

/-!
# What a success response says of the stores

The responses 2100, 2103 and 2104 are each sent after a change of the tables whose failure the
handler does not notice. Whether such a response is true is decided by the tables before the
request and by the calls that fail.
-/
namespace EncryptedTransfer.TruthfulReplies
open ByteFormats Text ServerStores ServerCalls ServerHandlers ServerEffects ServerFootprints
open FaultyDatabase CryptoLaws Interaction Program

def Owns (db : Database) (clientId : Bytes) (clientName : Str) : Prop :=
  ∃ row ∈ db.clients, row.clientId = clientId ∧ row.clientName = clientName ∧
    ∀ other ∈ db.clients, other.clientName = clientName → other = row

/-- The file has a row with the flag. -/
def Flagged (db : Database) (clientId : Bytes) (filename : Str) (v : Bool) : Prop :=
  ∃ row ∈ db.files, row.clientId = clientId ∧ row.filename = filename ∧ row.verified = v

section Rows

variable {db : Database} {now : Str} {clientId : Bytes} {clientName filename : Str} {v : Bool}

theorem Owns.exists (h : Owns db clientId clientName) : db.clientExistsById clientId = true := by
  obtain ⟨row, hrow, hid, _⟩ := h
  exact Database.clientExistsById_iff.mpr ⟨row, hrow, hid⟩

theorem insertNewClient_known (h : db.clientExistsById clientId = true) :
    db.insertNewClient now clientName clientId = db := by
  rw [Database.insertNewClient, if_pos h]

theorem owns_insertNewClient (h : db.clientExistsById clientId = false) :
    Owns (db.insertNewClient now clientName clientId) clientId clientName ↔
      db.clientExistsByName clientName = false := by
  have hno : ¬ db.clientExistsById clientId = true := by simp [h]
  rw [Database.insertNewClient, if_neg hno, Bool.eq_false_iff, ne_eq,
    Database.clientExistsByName_iff]
  constructor
  · rintro ⟨row, hrow, hid, _, honly⟩ ⟨other, hother, hname⟩
    have hsame := honly other (List.mem_append_left _ hother) hname
    exact hno (Database.clientExistsById_iff.mpr ⟨other, hother, hsame ▸ hid⟩)
  · intro hfree
    refine ⟨_, List.mem_append_right _ (List.mem_singleton_self _), rfl, rfl, ?_⟩
    intro other hother hname
    rcases List.mem_append.mp hother with hold | hnew
    · exact absurd ⟨other, hold, hname⟩ hfree
    · exact List.mem_singleton.mp hnew

theorem Flagged.exists (h : Flagged db clientId filename v) :
    db.fileExists clientId filename = true := by
  obtain ⟨row, hrow, hid, hname, _⟩ := h
  exact Database.fileExists_iff.mpr ⟨row, hrow, hid, hname⟩

theorem flagged_updateCksumVerification :
    Flagged (db.updateCksumVerification now clientId filename v) clientId filename v ↔
      db.fileExists clientId filename = true := by
  rw [Database.fileExists_iff]
  constructor
  · rintro ⟨row, hrow, hid, hname, _⟩
    obtain ⟨old, hold, rfl⟩ := List.mem_map.mp hrow
    refine ⟨old, hold, ?_⟩
    split_ifs at hid with hkey
    · exact hkey
    · rw [if_neg hkey] at hname
      exact ⟨hid, hname⟩
  · rintro ⟨old, hold, hid, hname⟩
    refine ⟨_, List.mem_map.mpr ⟨old, hold, rfl⟩, ?_⟩
    rw [if_pos ⟨hid, hname⟩]
    exact ⟨hid, hname, rfl⟩

theorem fileExists_deleteFileOfClient :
    (db.deleteFileOfClient now clientId filename).fileExists clientId filename = false := by
  rw [Bool.eq_false_iff, ne_eq, Database.fileExists_iff]
  rintro ⟨row, hrow, hkey⟩
  have hkept := (List.mem_filter.mp hrow).2
  simp [hkey] at hkept

theorem flagged_insertFileDetails (h : Keyed db)
    (hx : db.fileExists clientId filename = false) :
    Flagged (db.insertFileDetails now clientId filename (filePath clientId filename) v) clientId
      filename v := by
  have hno : ¬ db.fileExists clientId filename = true := by simp [hx]
  rw [Database.insertFileDetails, h.path_taken, if_neg hno]
  exact ⟨_, List.mem_append_right _ (List.mem_singleton_self _), rfl, rfl, rfl⟩

end Rows

/-- What the server relies on of the disk: no file is read where none is seen, or after it was
removed. -/
structure FilesAgree (δ : Type) [FileSystem δ] : Prop where
  unseen : ∀ (disk : δ) (path : Str), FileSystem.pathExists disk path = false →
    FileSystem.readFile disk path = none
  removed : ∀ (disk disk' : δ) (path : Str), FileSystem.remove disk path = some disk' →
    FileSystem.readFile disk' path = none

theorem filesAgree_keyedDisk : FilesAgree KeyedDisk := by
  constructor
  · intro disk path h
    have h' : disk.pathExists path = false := h
    show disk.readFile path = none
    unfold KeyedDisk.pathExists at h'
    unfold KeyedDisk.readFile
    split_ifs at h' ⊢ with hn
    · rfl
    · simpa using (Bool.or_eq_false_iff.mp h').1
  · intro disk disk' path h
    have h' : disk.remove path = some disk' := h
    show disk'.readFile path = none
    unfold KeyedDisk.remove at h'
    split_ifs at h' with hn
    obtain rfl := Option.some.inj h'
    simp [KeyedDisk.readFile]

theorem filesAgree_disk : FilesAgree WindowsPaths.Disk := by
  constructor
  · intro disk path h
    have h' : disk.pathExists path = false := h
    show disk.readFile path = none
    unfold WindowsPaths.Disk.pathExists at h'
    unfold WindowsPaths.Disk.readFile
    by_cases hread : nul ∉ path ∧ WindowsPaths.namesFile path = true
    · rw [if_neg hread.1] at h'
      rw [if_pos hread]
      simpa [hread.2] using (Bool.or_eq_false_iff.mp h').2
    · rw [if_neg hread]
  · intro disk disk' path h
    have h' : disk.remove path = some disk' := h
    show disk'.readFile path = none
    unfold WindowsPaths.Disk.remove at h'
    split_ifs at h' with hn
    obtain rfl := Option.some.inj h'
    simp [WindowsPaths.Disk.readFile, WindowsPaths.Disk.target]

section Responses

variable {δ : Type} [FileSystem δ] (E : Externals) (env : Draws) (d : Delivery) (faults : Faults)
  (request : Request) (payload : Bytes) (w : World δ)

def replies : List Bytes :=
  (faultyHandled E env d faults request payload w).conn.sent.drop w.conn.sent.length

/-- The messages begin with a response of this code that carries the id. -/
def Sends (code : ℕ) (clientId : Bytes) (messages : List Bytes) : Prop :=
  clientId.length = 16 ∧
    ∃ size rest, messages.head? = some (responseHead code size clientId ++ rest)

/-- Every success response is true of the stores as they are when it is sent. -/
structure Truthful : Prop where
  registered : ∀ clientId,
    Sends serverCodeRegistrationOk clientId (replies E env d faults request payload w) →
      ∃ clientName, decodeUtf8 payload = some clientName ∧
        Owns (faultyHandled E env d faults request payload w).server.database clientId
          (stripNul clientName)
  stored : ∀ clientId,
    Sends serverCodeCksumReady clientId (replies E env d faults request payload w) →
      ∃ contentSize filename content cksum,
        uploadHeader E (w.conn.recv d 275).1 = some (contentSize, filename) ∧
        Flagged (faultyHandled E env d faults request payload w).server.database clientId filename
          false ∧
        FileSystem.readFile (faultyHandled E env d faults request payload w).server.disk
          (filePath clientId filename) = some content ∧
        Cksum.Server.cksumCalc content = some cksum ∧
        (replies E env d faults request payload w)[1]? = some (cksumReport filename cksum)
  confirmed : kindOf request.code = .cksumOk → ∀ clientId,
    Sends serverCodeMessageReceived clientId (replies E env d faults request payload w) →
      ∃ filename, filenameOf E (w.conn.recv d 255).1 = some filename ∧
        Flagged (faultyHandled E env d faults request payload w).server.database clientId filename
          true
  erased : kindOf request.code = .cksumErrFinal → ∀ clientId,
    Sends serverCodeMessageReceived clientId (replies E env d faults request payload w) →
      ∃ filename, filenameOf E (w.conn.recv d 255).1 = some filename ∧
        (faultyHandled E env d faults request payload w).server.database.fileExists clientId
          filename = false ∧
        FileSystem.readFile (faultyHandled E env d faults request payload w).server.disk
          (filePath clientId filename) = none

/-- An upload that is answered, with its name and content. -/
structure Answered (filename : Str) (content : Bytes) : Prop where
  admitted : admits faults w.server.database request.clientId = true
  received : ∃ contentSize,
    uploadHeader E (w.conn.recv d 275).1 = some (contentSize, filename) ∧
      contentOf E w.server.database request.clientId
        ((w.conn.recv d 275).2.recv d contentSize).1 = some content
  keyRead : faults 2 (.getAesKeyOfClient request.clientId) = false
  written : (saved w.server.disk request.clientId filename content).isSome = true
  loaded : (w.server.clientMap request.clientId).isSome = true
  size_lt : content.length < 4294967296

/-- What makes the answer to a request true, by the tables before it and the calls that fail. -/
def Supported : Prop :=
  let db := w.server.database
  let clientId := request.clientId
  match kindOf request.code with
  | .register => ∀ clientName, decodeUtf8 payload = some clientName →
      refuses faults db (stripNul clientName) = true ∨
      (faults 1 (.insertNewClient (stripNul clientName) env.uuid) = false ∧
        db.clientExistsById env.uuid = false ∧
        db.clientExistsByName (stripNul clientName) = false) ∨
      Owns db env.uuid (stripNul clientName)
  | .sendFile => ∀ filename content, Answered E d faults request w filename content →
      Flagged db clientId filename false ∨
      (db.fileExists clientId filename = false ∧
        faults 4 (.insertFileDetails clientId filename (filePath clientId filename) false) =
          false) ∨
      (db.fileExists clientId filename = true ∧ faults 3 (.fileExists clientId filename) = false ∧
        faults 4 (.updateCksumVerification clientId filename false) = false)
  | .cksumOk => admits faults db clientId = true → ∀ filename,
      filenameOf E (w.conn.recv d 255).1 = some filename →
      Flagged db clientId filename true ∨
      (db.fileExists clientId filename = true ∧
        faults 2 (.updateCksumVerification clientId filename true) = false)
  | .cksumErrFinal => admits faults db clientId = true → ∀ filename,
      filenameOf E (w.conn.recv d 255).1 = some filename →
      (removed w.server.disk (filePath clientId filename)).isSome = true →
      db.fileExists clientId filename = false ∨
      faults 2 (.deleteFileOfClient clientId filename) = false
  | _ => True

theorem responseHead_inj {code code' size size' : ℕ} {clientId clientId' rest rest' : Bytes}
    (hcode : code < 65536) (hcode' : code' < 65536) (hid : clientId.length = 16)
    (hid' : clientId'.length = 16)
    (h : responseHead code size clientId ++ rest = responseHead code' size' clientId' ++ rest') :
    code = code' ∧ clientId = clientId' := by
  simp only [responseHead, List.append_assoc] at h
  obtain ⟨_, h⟩ := List.append_inj h (by simp)
  obtain ⟨hbytes, h⟩ := List.append_inj h (by simp)
  obtain ⟨_, h⟩ := List.append_inj h (by simp)
  obtain ⟨hsame, _⟩ := List.append_inj h (by rw [hid, hid'])
  have hnum := congrArg ofLe hbytes
  rw [ofLe_leBytes_of_lt (by simpa using hcode), ofLe_leBytes_of_lt (by simpa using hcode')] at hnum
  exact ⟨hnum, hsame⟩

theorem not_sends_nil (code : ℕ) (clientId : Bytes) : ¬ Sends code clientId [] := by
  rintro ⟨_, size, rest, h⟩
  cases h

theorem sends_cons {code code' size : ℕ} {clientId clientId' rest : Bytes} {more : List Bytes}
    (hcode : code < 65536) (hcode' : code' < 65536) (hid : clientId'.length = 16) :
    Sends code clientId ((responseHead code' size clientId' ++ rest) :: more) ↔
      code = code' ∧ clientId = clientId' := by
  constructor
  · rintro ⟨hlen, size', rest', h⟩
    exact responseHead_inj hcode hcode' hlen hid (Option.some.inj h).symm
  · rintro ⟨rfl, rfl⟩
    exact ⟨hid, size, rest, rfl⟩

variable {E env d faults request payload w}

theorem replies_eq {messages : List Bytes}
    (h : (faultyHandled E env d faults request payload w).conn.sent = w.conn.sent ++ messages) :
    replies E env d faults request payload w = messages := by
  rw [replies, h, List.drop_left]

theorem truthful_of_none
    (h : ∀ code, code = serverCodeRegistrationOk ∨ code = serverCodeCksumReady ∨
      code = serverCodeMessageReceived → ∀ clientId,
        ¬ Sends code clientId (replies E env d faults request payload w)) :
    Truthful E env d faults request payload w :=
  ⟨fun clientId hs => absurd hs (h _ (.inl rfl) clientId),
    fun clientId hs => absurd hs (h _ (.inr (.inl rfl)) clientId),
    fun _ clientId hs => absurd hs (h _ (.inr (.inr rfl)) clientId),
    fun _ clientId hs => absurd hs (h _ (.inr (.inr rfl)) clientId)⟩

theorem truthful_of_silent
    (h : (faultyHandled E env d faults request payload w).conn.sent = w.conn.sent) :
    Truthful E env d faults request payload w := by
  apply truthful_of_none
  intro code _ clientId
  rw [replies_eq (h.trans (List.append_nil _).symm)]
  exact not_sends_nil code clientId

theorem truthful_of_other (code size : ℕ) {clientId rest : Bytes} {more : List Bytes}
    (hcode : code = serverCodeRegistrationErr ∨ code = serverCodeSwitchingKeys)
    (hid : clientId.length = 16)
    (h : (faultyHandled E env d faults request payload w).conn.sent =
      w.conn.sent ++ ((responseHead code size clientId ++ rest) :: more)) :
    Truthful E env d faults request payload w := by
  apply truthful_of_none
  intro code' hcode' clientId'
  have hlt : code < 65536 := by rcases hcode with rfl | rfl <;> decide
  have hlt' : code' < 65536 := by rcases hcode' with rfl | rfl | rfl <;> decide
  rw [replies_eq h, sends_cons hlt' hlt hid]
  rintro ⟨rfl, _⟩
  rcases hcode with rfl | rfl <;> rcases hcode' with h | h | h <;> cases h

variable (E env d faults request payload w) in
theorem sent_sendAesKeyToClient (n : ℕ) :
    ∃ messages, (run (faultyMachine E env d faults) (sendAesKeyToClient E request payload)
        (w, n)).2.1.conn.sent = w.conn.sent ++ messages ∧
      (messages = [] ∨ ∃ size rest, messages =
        [responseHead serverCodeSwitchingKeys size (uuidField request.clientId) ++ rest]) := by
  cases hu : unpack publicKeyFormat payload with
  | none => simp [sendAesKeyToClient, faulty_host, swallowed, hostCall, ok_ite, hu]
  | some fields =>
  obtain ⟨field, publicKey, _⟩ := fields
  cases hd : decodeUtf8 field with
  | none =>
    simp [sendAesKeyToClient, faulty_host, swallowed, hostCall, ok_ite, hu, decode, hd]
  | some name =>
  cases hi : E.importKey publicKey with
  | false =>
    simp [sendAesKeyToClient, faulty_host, swallowed, hostCall, ok_ite, hu, decode, hd, hi]
  | true =>
  cases hc : E.oaepEncrypt env.seed publicKey (env.random aesKeySize) with
  | none =>
    simp [sendAesKeyToClient, faulty_host, swallowed, hostCall, ok_ite, hu, decode, hd, hi, hc,
      orRaise]
  | some cipher =>
  have hcode : serverCodeSwitchingKeys < 65536 := by decide
  by_cases hlen : cipher.length < 4294967296
  · have hid := uuidField_length request.clientId
    refine ⟨_, ?_, .inr ⟨cipher.length, cipher, rfl⟩⟩
    simp [sendAesKeyToClient, faulty_host, swallowed, hostCall, ok_ite, hu, decode, hd, hi, hc,
      orRaise, newResponse_eq hcode hlen, pack, Field.pack, hcode, hlen, serverVersion,
      List.take_of_length_le, hid, responseHead, Conn.push]
  · simp [sendAesKeyToClient, faulty_host, swallowed, hostCall, ok_ite, hu, decode, hd, hi, hc,
      orRaise, newResponse, Response.new, hlen]

theorem sends_header {code' size : ℕ} {clientId' : Bytes} (hcode' : code' < 65536)
    (hid : clientId'.length = 16)
    (hsent : (faultyHandled E env d faults request payload w).conn.sent =
      w.conn.sent ++ [responseHead code' size clientId'])
    {code : ℕ} (hcode : code < 65536) {clientId : Bytes} :
    Sends code clientId (replies E env d faults request payload w) ↔
      code = code' ∧ clientId = clientId' := by
  have hsends : Sends code clientId ((responseHead code' size clientId' ++ []) :: []) ↔ _ :=
    sends_cons hcode hcode' hid
  rwa [List.append_nil, ← replies_eq hsent] at hsends

theorem truthful_registrationOk {clientId : Bytes} (hid : clientId.length = 16)
    (hsent : (faultyHandled E env d faults request payload w).conn.sent =
      w.conn.sent ++ [responseHead serverCodeRegistrationOk 0 clientId]) :
    Truthful E env d faults request payload w ↔
      ∃ clientName, decodeUtf8 payload = some clientName ∧
        Owns (faultyHandled E env d faults request payload w).server.database clientId
          (stripNul clientName) := by
  have hsends {code : ℕ} (hcode : code < 65536) {x : Bytes} :=
    @sends_header _ _ E env d faults request payload w _ _ _ (by decide) hid hsent _ hcode x
  constructor
  · exact fun h => h.registered clientId ((hsends (by decide)).mpr ⟨rfl, rfl⟩)
  · intro h
    refine ⟨fun x hx => ?_, fun x hx => ?_, fun _ x hx => ?_, fun _ x hx => ?_⟩
    · obtain ⟨_, rfl⟩ := (hsends (by decide)).mp hx
      exact h
    · exact absurd ((hsends (by decide)).mp hx).1 (by decide)
    · exact absurd ((hsends (by decide)).mp hx).1 (by decide)
    · exact absurd ((hsends (by decide)).mp hx).1 (by decide)

theorem truthful_messageReceived {clientId : Bytes} (hid : clientId.length = 16)
    (hsent : (faultyHandled E env d faults request payload w).conn.sent =
      w.conn.sent ++ [responseHead serverCodeMessageReceived 0 clientId]) :
    Truthful E env d faults request payload w ↔
      (kindOf request.code = .cksumOk →
        ∃ filename, filenameOf E (w.conn.recv d 255).1 = some filename ∧
          Flagged (faultyHandled E env d faults request payload w).server.database clientId filename
            true) ∧
      (kindOf request.code = .cksumErrFinal →
        ∃ filename, filenameOf E (w.conn.recv d 255).1 = some filename ∧
          (faultyHandled E env d faults request payload w).server.database.fileExists clientId
            filename = false ∧
          FileSystem.readFile (faultyHandled E env d faults request payload w).server.disk
            (filePath clientId filename) = none) := by
  have hsends {code : ℕ} (hcode : code < 65536) {x : Bytes} :=
    @sends_header _ _ E env d faults request payload w _ _ _ (by decide) hid hsent _ hcode x
  have hown := (hsends (by decide)).mpr ⟨rfl, rfl⟩
  constructor
  · exact fun h => ⟨fun hk => h.confirmed hk clientId hown, fun hk => h.erased hk clientId hown⟩
  · rintro ⟨hok, hfinal⟩
    refine ⟨fun x hx => ?_, fun x hx => ?_, fun hk x hx => ?_, fun hk x hx => ?_⟩
    · exact absurd ((hsends (by decide)).mp hx).1 (by decide)
    · exact absurd ((hsends (by decide)).mp hx).1 (by decide)
    · obtain ⟨_, rfl⟩ := (hsends (by decide)).mp hx
      exact hok hk
    · obtain ⟨_, rfl⟩ := (hsends (by decide)).mp hx
      exact hfinal hk

theorem truthful_cksumReady {clientId : Bytes} {contentSize size cksum : ℕ} {filename : Str}
    {content : Bytes} (hid : clientId.length = 16)
    (hsent : (faultyHandled E env d faults request payload w).conn.sent = w.conn.sent ++
      [responseHead serverCodeCksumReady 0 clientId ++ leBytes 4 size, cksumReport filename cksum])
    (hheader : uploadHeader E (w.conn.recv d 275).1 = some (contentSize, filename))
    (hread : FileSystem.readFile (faultyHandled E env d faults request payload w).server.disk
      (filePath clientId filename) = some content)
    (hcksum : Cksum.Server.cksumCalc content = some cksum) :
    Truthful E env d faults request payload w ↔
      Flagged (faultyHandled E env d faults request payload w).server.database clientId filename
        false := by
  have hreplies := replies_eq hsent
  have hsends {code : ℕ} (hcode : code < 65536) {x : Bytes} :
      Sends code x (replies E env d faults request payload w) ↔
        code = serverCodeCksumReady ∧ x = clientId := by
    rw [hreplies, sends_cons hcode (by decide) hid]
  constructor
  · intro h
    obtain ⟨_, filename', _, _, hheader', hflagged, _⟩ :=
      h.stored clientId ((hsends (by decide)).mpr ⟨rfl, rfl⟩)
    obtain ⟨rfl, rfl⟩ := Prod.mk.inj (Option.some.inj (hheader.symm.trans hheader'))
    exact hflagged
  · intro h
    refine ⟨fun x hx => ?_, fun x hx => ?_, fun _ x hx => ?_, fun _ x hx => ?_⟩
    · exact absurd ((hsends (by decide)).mp hx).1 (by decide)
    · obtain ⟨_, rfl⟩ := (hsends (by decide)).mp hx
      exact ⟨contentSize, filename, content, cksum, hheader, h, hread, hcksum, by rw [hreplies]; rfl⟩
    · exact absurd ((hsends (by decide)).mp hx).1 (by decide)
    · exact absurd ((hsends (by decide)).mp hx).1 (by decide)

variable (hc : request.code ≠ clientCodeRegister)
include hc

theorem truthful_turnedAway (ha : admits faults w.server.database request.clientId = false) :
    Truthful E env d faults request payload w := by
  have hsent : (faultyHandled E env d faults request payload w).conn.sent =
      w.conn.sent ++ [responseHead serverCodeRegistrationErr 0 (uuidField []) ++ []] := by
    rw [faultyHandled_turnedAway E env d faults payload hc ha, List.append_nil]
    rfl
  exact truthful_of_other _ _ (.inl rfl) (uuidField_length []) hsent

theorem truthful_sendPublicKey (hk : kindOf request.code = .sendPublicKey) :
    Truthful E env d faults request payload w := by
  cases ha : admits faults w.server.database request.clientId with
  | false => exact truthful_turnedAway hc ha
  | true =>
    have heq := faultyHandled_admitted E env d faults payload hc ha
    rw [dispatch_eq, hk] at heq
    obtain ⟨messages, hsent, hm⟩ := sent_sendAesKeyToClient E env d faults request payload w 1
    rw [← heq] at hsent
    rcases hm with rfl | ⟨size, rest, rfl⟩
    · exact truthful_of_silent (hsent.trans (List.append_nil _))
    · exact truthful_of_other _ _ (.inr rfl) (uuidField_length _) hsent

theorem truthful_cksumErr (hk : kindOf request.code = .cksumErr ∨ kindOf request.code = .unknown) :
    Truthful E env d faults request payload w := by
  cases ha : admits faults w.server.database request.clientId with
  | false => exact truthful_turnedAway hc ha
  | true =>
    have heq := faultyHandled_admitted E env d faults payload hc ha
    apply truthful_of_silent
    rcases hk with hk | hk
    · rw [heq, dispatch_eq, hk]
      simp only [run_faulty_cksumErr]
      rfl
    · rw [heq, dispatch_eq, hk]
      rfl

theorem truthful_cksumOk (hk : kindOf request.code = .cksumOk) (hw : Keyed w.server.database) :
    Truthful E env d faults request payload w ↔ Supported E env d faults request payload w := by
  simp only [Supported, hk]
  cases ha : admits faults w.server.database request.clientId with
  | false => exact ⟨fun _ h => (nomatch h), fun _ => truthful_turnedAway hc ha⟩
  | true =>
  have heq := faultyHandled_admitted E env d faults payload hc ha
  rw [dispatch_eq, hk] at heq
  simp only at heq
  cases hname : filenameOf E (w.conn.recv d 255).1 with
  | none =>
    refine ⟨fun _ _ filename h => (nomatch h), fun _ => truthful_of_silent ?_⟩
    rw [heq, run_faulty_cksumOk_undecodable E env d faults w hname]
    rfl
  | some filename =>
  rw [run_faulty_cksumOk E env d faults w hname] at heq
  have hid := hw.idLength_of_admits ha
  have hsent : (faultyHandled E env d faults request payload w).conn.sent =
      w.conn.sent ++ [responseHead serverCodeMessageReceived 0 request.clientId] := by
    rw [heq, uuidField_eq hid]
    rfl
  rw [truthful_messageReceived hid hsent, heq]
  simp only [hk, hname, forall_const, Option.some.injEq, exists_eq_left', forall_eq', reduceCtorEq,
    false_implies, and_true]
  split_ifs with hf
  · simp [hf]
  · simpa [hf, flagged_updateCksumVerification] using Flagged.exists

theorem truthful_cksumErrFinal (hδ : FilesAgree δ) (hk : kindOf request.code = .cksumErrFinal)
    (hw : Keyed w.server.database) :
    Truthful E env d faults request payload w ↔ Supported E env d faults request payload w := by
  simp only [Supported, hk]
  cases ha : admits faults w.server.database request.clientId with
  | false => exact ⟨fun _ h => (nomatch h), fun _ => truthful_turnedAway hc ha⟩
  | true =>
  have heq := faultyHandled_admitted E env d faults payload hc ha
  rw [dispatch_eq, hk] at heq
  simp only at heq
  by_cases hstuck : ∀ filename, filenameOf E (w.conn.recv d 255).1 = some filename →
      removed w.server.disk (filePath request.clientId filename) = none
  · refine ⟨fun _ _ filename hname hdisk => ?_, fun _ => truthful_of_silent ?_⟩
    · simp [hstuck filename hname] at hdisk
    · rw [heq, run_faulty_cksumErrFinal_stuck E env d faults w hstuck]
      rfl
  push Not at hstuck
  obtain ⟨filename, hname, hdisk⟩ := hstuck
  obtain ⟨disk, hdisk⟩ := Option.ne_none_iff_exists'.mp hdisk
  have hgone : FileSystem.readFile disk (filePath request.clientId filename) = none := by
    unfold removed at hdisk
    split_ifs at hdisk with hp
    · exact hδ.removed _ _ _ hdisk
    · rw [← Option.some.inj hdisk]
      exact hδ.unseen _ _ (Bool.eq_false_iff.mpr hp)
  rw [run_faulty_cksumErrFinal E env d faults w hname hdisk] at heq
  have hid := hw.idLength_of_admits ha
  have hsent : (faultyHandled E env d faults request payload w).conn.sent =
      w.conn.sent ++ [responseHead serverCodeMessageReceived 0 request.clientId] := by
    rw [heq, uuidField_eq hid]
    rfl
  rw [truthful_messageReceived hid hsent, heq]
  simp only [hk, hname, forall_const, Option.some.injEq, exists_eq_left', forall_eq', reduceCtorEq,
    false_implies, true_and, hgone, hdisk, Option.isSome_some, and_true]
  split_ifs with hf
  · simp [hf]
  · simp [hf, fileExists_deleteFileOfClient]

omit hc in
theorem flagged_recorded {db : Database} (h : Keyed db) (now : Str) (clientId : Bytes)
    (filename : Str) :
    Flagged (recorded faults now clientId filename db) clientId filename false ↔
      Flagged db clientId filename false ∨
      (db.fileExists clientId filename = false ∧
        faults 4 (.insertFileDetails clientId filename (filePath clientId filename) false) =
          false) ∨
      (db.fileExists clientId filename = true ∧ faults 3 (.fileExists clientId filename) = false ∧
        faults 4 (.updateCksumVerification clientId filename false) = false) := by
  have hexists (hx : db.fileExists clientId filename = false) :
      ¬ Flagged db clientId filename false := by
    intro hflagged
    simp [hflagged.exists] at hx
  unfold recorded
  cases hx : db.fileExists clientId filename with
  | false =>
    have hno := hexists hx
    simp only [Bool.false_eq_true, and_false, ↓reduceIte, false_and, or_false, true_and]
    split_ifs with hf
    · simp [hf, hno]
    · simp [hf, hno, flagged_insertFileDetails h hx]
  | true =>
    rw [h.insertFileDetails_known hx, ite_self]
    simp only [and_true, reduceCtorEq, false_and, false_or, true_and]
    split_ifs with hq hf
    · simp [hq, hf]
    · simp [hq, hf, flagged_updateCksumVerification, hx]
    · simp [hq]

omit hc in
theorem Answered.unique {f g : Str} {x y : Bytes} (h : Answered E d faults request w f x)
    (h' : Answered E d faults request w g y) : f = g ∧ x = y := by
  obtain ⟨contentSize, hheader, hcontent⟩ := h.received
  obtain ⟨contentSize', hheader', hcontent'⟩ := h'.received
  obtain ⟨rfl, rfl⟩ := Prod.mk.inj (Option.some.inj (hheader.symm.trans hheader'))
  exact ⟨rfl, Option.some.inj (hcontent.symm.trans hcontent')⟩

variable (env payload) in
theorem faultyHandled_sendFile (hk : kindOf request.code = .sendFile)
    (ha : admits faults w.server.database request.clientId = true) {contentSize : ℕ}
    {filename : Str} (h : uploadHeader E (w.conn.recv d 275).1 = some (contentSize, filename)) :
    faultyHandled E env d faults request payload w =
      (run (faultyMachine E env d faults)
        (processFileContent E request filename ((w.conn.recv d 275).2.recv d contentSize).1)
        (⟨w.server, ((w.conn.recv d 275).2.recv d contentSize).2⟩, 1)).2.1 := by
  have hrecv := run_faulty_recv E env d faults w 1 275
  rw [faultyHandled_admitted E env d faults payload hc ha, dispatch_eq, hk]
  simp only
  rw [run_handleFileRequest_headed E request hrecv h, run_bind, run_faulty_recv, andThen_ok]

theorem truthful_of_unanswered (hk : kindOf request.code = .sendFile)
    (h : ∀ filename content, ¬ Answered E d faults request w filename content) :
    Truthful E env d faults request payload w := by
  cases ha : admits faults w.server.database request.clientId with
  | false => exact truthful_turnedAway hc ha
  | true =>
  apply truthful_of_silent
  cases hheader : uploadHeader E (w.conn.recv d 275).1 with
  | none =>
    have hrecv := run_faulty_recv E env d faults w 1 275
    rw [faultyHandled_admitted E env d faults payload hc ha, dispatch_eq, hk]
    simp only
    rw [run_handleFileRequest_headless E hrecv hheader]
    rfl
  | some header =>
  obtain ⟨contentSize, filename⟩ := header
  rw [faultyHandled_sendFile env payload hc hk ha hheader]
  by_cases hread : faults 2 (.getAesKeyOfClient request.clientId) = true ∨
      contentOf E w.server.database request.clientId
        ((w.conn.recv d 275).2.recv d contentSize).1 = none
  · rw [run_faulty_processFileContent_unreadable E env d faults
      ⟨w.server, ((w.conn.recv d 275).2.recv d contentSize).2⟩ hread]
    rfl
  push Not at hread
  obtain ⟨hkey, hcontent⟩ := hread
  rw [ne_eq, Bool.not_eq_true] at hkey
  obtain ⟨content, hcontent⟩ := Option.ne_none_iff_exists'.mp hcontent
  have hstuck : saved w.server.disk request.clientId filename content = none ∨
      w.server.clientMap request.clientId = none ∨ ¬ content.length < 4294967296 := by
    by_contra hno
    push Not at hno
    obtain ⟨hsaved, hclient, hsize⟩ := hno
    exact h filename content ⟨ha, ⟨contentSize, hheader, hcontent⟩, hkey,
      Option.isSome_iff_ne_none.mpr hsaved, Option.isSome_iff_ne_none.mpr hclient, hsize⟩
  rw [run_faulty_processFileContent E env d faults
    ⟨w.server, ((w.conn.recv d 275).2.recv d contentSize).2⟩ hkey hcontent]
  simp only
  rw [run_faulty_keepContent_silent E env d faults
    ⟨w.server, ((w.conn.recv d 275).2.recv d contentSize).2⟩ hstuck]
  rfl

/-- The answer to an upload is true exactly where its row is there and not verified. -/
theorem Answered.truthful (hk : kindOf request.code = .sendFile) (hw : Keyed w.server.database)
    {filename : Str} {content : Bytes} (h : Answered E d faults request w filename content) :
    Truthful E env d faults request payload w ↔
      Flagged (recorded faults env.now request.clientId filename w.server.database)
        request.clientId filename false := by
  obtain ⟨contentSize, hheader, hcontent⟩ := h.received
  have hid := hw.idLength_of_admits h.admitted
  have heq := faultyHandled_sendFile env payload hc hk h.admitted hheader
  generalize hconn : ((w.conn.recv d 275).2.recv d contentSize).2 = conn at heq
  have hquiet : conn.sent = w.conn.sent := hconn ▸ rfl
  obtain ⟨⟨disk, stored⟩, hsaved⟩ := Option.isSome_iff_exists.mp h.written
  obtain ⟨cksum, hcksum⟩ := Cksum.cksumCalc_isSome stored
  obtain ⟨clientMap, fileMap, hrun⟩ := run_faulty_keepContent E env d faults
    ⟨w.server, conn⟩ hid hsaved h.loaded h.size_lt hcksum cksum.toNat_lt
  rw [run_faulty_processFileContent E env d faults ⟨w.server, conn⟩ h.keyRead hcontent, hrun] at heq
  have hsent : (faultyHandled E env d faults request payload w).conn.sent = w.conn.sent ++
      [responseHead serverCodeCksumReady 0 request.clientId ++ leBytes 4 content.length,
        cksumReport filename cksum.toNat] := by
    rw [heq, ← hquiet]
    simp [Conn.push]
  have hfound : FileSystem.readFile disk (filePath request.clientId filename) = some stored := by
    simp only [saved, Option.bind_eq_bind, Option.bind_eq_some_iff, Option.pure_def,
      Option.some.injEq, Prod.mk.injEq] at hsaved
    obtain ⟨_, _, _, _, _, _, _, hfound, rfl, rfl⟩ := hsaved
    exact hfound
  rw [truthful_cksumReady hid hsent hheader (by rw [heq]; exact hfound) hcksum, heq]

theorem truthful_sendFile (hk : kindOf request.code = .sendFile) (hw : Keyed w.server.database) :
    Truthful E env d faults request payload w ↔ Supported E env d faults request payload w := by
  simp only [Supported, hk]
  by_cases h : ∃ filename content, Answered E d faults request w filename content
  · obtain ⟨filename, content, h⟩ := h
    rw [h.truthful hc hk hw, flagged_recorded hw]
    constructor
    · intro hrow filename' content' h'
      obtain ⟨rfl, rfl⟩ := h.unique h'
      exact hrow
    · exact fun hall => hall filename content h
  · push Not at h
    exact iff_of_true (truthful_of_unanswered hc hk h)
      (fun filename content h' => absurd h' (h filename content))

omit hc in
theorem truthful_register (hk : kindOf request.code = .register) :
    Truthful E env d faults request payload w ↔ Supported E env d faults request payload w := by
  have heq := faultyHandled_register E env d faults payload (w := w) (kindOf_eq_register.mp hk)
  simp only [Supported, hk]
  cases hname : decodeUtf8 payload with
  | none =>
    refine ⟨fun _ clientName h => (nomatch h), fun _ => truthful_of_silent ?_⟩
    simp [heq, handleClientRegistration, decode, hname]
  | some clientName =>
  simp only [Option.some.injEq, forall_eq']
  cases hr : refuses faults w.server.database (stripNul clientName) with
  | true =>
    refine ⟨fun _ => .inl rfl, fun _ => ?_⟩
    have hsent : (faultyHandled E env d faults request payload w).conn.sent =
        w.conn.sent ++ [responseHead serverCodeRegistrationErr 0 (uuidField []) ++ []] := by
      rw [heq, run_faulty_refused E env d faults w hname hr, List.append_nil]
      rfl
    exact truthful_of_other _ _ (.inl rfl) (uuidField_length []) hsent
  | false =>
  rw [run_faulty_registered E env d faults w hname hr] at heq
  have hsent : (faultyHandled E env d faults request payload w).conn.sent =
      w.conn.sent ++ [responseHead serverCodeRegistrationOk 0 env.uuid] := by
    rw [heq]
    rfl
  rw [truthful_registrationOk env.uuid_length hsent, heq]
  simp only [hname, Option.some.injEq, exists_eq_left', reduceCtorEq, false_or]
  cases hx : w.server.database.clientExistsById env.uuid with
  | true => 
    rw [insertNewClient_known hx, ite_self]
    simp
  | false =>
    have hno : ¬ Owns w.server.database env.uuid (stripNul clientName) := by
      intro h
      simp [h.exists] at hx
    split_ifs with hf
    · simp [hf, hno]
    · simp [hf, hno, owns_insertNewClient hx]

end Responses

/-- In every state of a run whose database calls have failed in any pattern: the success
responses to a request are true exactly where the calls their truth needs do not fail, and what
the handlers do not check holds already. -/
theorem truthful_iff {δ : Type} [FileSystem δ] (hδ : FilesAgree δ) {E : Externals} {s : Server δ}
    (h : FaultyRun E s) (env : Draws) (d : Delivery) (faults : Faults) (request : Request)
    (payload : Bytes) (conn : Conn) :
    Truthful E env d faults request payload ⟨s, conn⟩ ↔
      Supported E env d faults request payload ⟨s, conn⟩ := by
  have hs := h.keyed
  by_cases hc : request.code = clientCodeRegister
  · exact truthful_register (kindOf_eq_register.mpr hc)
  cases hk : kindOf request.code with
  | register => exact truthful_register hk
  | sendFile => exact truthful_sendFile hc hk hs
  | cksumOk => exact truthful_cksumOk hc hk hs
  | cksumErrFinal => exact truthful_cksumErrFinal hc hδ hk hs
  | sendPublicKey =>
    have hyes : Supported E env d faults request payload ⟨s, conn⟩ := by
      simp only [Supported, hk]
    exact iff_of_true (truthful_sendPublicKey hc hk) hyes
  | cksumErr =>
    have hyes : Supported E env d faults request payload ⟨s, conn⟩ := by
      simp only [Supported, hk]
    exact iff_of_true (truthful_cksumErr hc (.inl hk)) hyes
  | unknown =>
    have hyes : Supported E env d faults request payload ⟨s, conn⟩ := by
      simp only [Supported, hk]
    exact iff_of_true (truthful_cksumErr hc (.inr hk)) hyes

def oneClient : Server KeyedDisk :=
  ServerConsistency.register (constantDraws 1).now (constantDraws 1).uuid ['a'] Server.empty

theorem oneClient_run : FaultyRun plainCiphers oneClient :=
  .ofRun ((ServerRuns.Run.start (E := plainCiphers)).register (constantDraws 1)
    (show nul ∉ ['a'] by decide) (by decide) (by decide))

def confirmation : Request := ⟨(constantDraws 1).uuid, 3, clientCodeCksumOk, 0⟩

def nameSent : Conn := ⟨padField 255 ['f'], 0, [], []⟩

theorem truthful_iff_oneClient :
    FilesAgree KeyedDisk ∧ FaultyRun plainCiphers oneClient ∧
      (Truthful plainCiphers (constantDraws 1) .whole (fun _ _ => false) confirmation []
          ⟨oneClient, nameSent⟩ ↔
        Supported plainCiphers (constantDraws 1) .whole (fun _ _ => false) confirmation []
          ⟨oneClient, nameSent⟩) :=
  ⟨filesAgree_keyedDisk, oneClient_run,
    truthful_iff filesAgree_keyedDisk oneClient_run _ _ _ _ _ _⟩

/-- With no failure at all the server acknowledges a confirmation of a file it does not have. -/
theorem unknown_file_acknowledged :
    ∃ s : Server KeyedDisk, FaultyRun plainCiphers s ∧
      ¬ Truthful plainCiphers (constantDraws 1) .whole (fun _ _ => false) confirmation []
        ⟨s, nameSent⟩ := by
  refine ⟨oneClient, oneClient_run, ?_⟩
  have hk : kindOf confirmation.code = .cksumOk := rfl
  have hname : filenameOf plainCiphers (nameSent.recv .whole 255).1 = some ['f'] := by
    have htake : nameSent.inbox.take 255 = padField 255 ['f'] :=
      List.take_of_length_le (length_padField (n := 255) (s := ['f']) (by decide)).le
    rw [recv_whole, htake, filenameOf_padField _ (by decide)]
    rfl
  have hnone : oneClient.database.fileExists confirmation.clientId ['f'] = false := rfl
  rw [truthful_cksumOk (by decide) hk oneClient_run.keyed]
  intro h
  simp only [Supported, hk] at h
  rcases h (by decide) ['f'] hname with h | ⟨h, _⟩
  · simp [h.exists] at hnone
  · simp [h] at hnone

end EncryptedTransfer.TruthfulReplies
