import EncryptedTransfer.ServerConsistency
import EncryptedTransfer.ServerHandlers

/-!
# What the handlers do

Every handler run to its end against a server whose stores agree: the change of the stores,
what it reads and what it sends.
-/
namespace EncryptedTransfer.ServerEffects
open ByteFormats Text ServerStores ServerCalls ServerHandlers ServerConsistency
open Interaction Program

section Calls

variable {δ : Type} [FileSystem δ] (E : Externals) (env : Draws) (d : Delivery)

@[simp] theorem run_recv (n : ℕ) (w : World δ) : run (machine E env d) (recv n) w =
    (.ok (w.conn.recv d n).1, { w with conn := (w.conn.recv d n).2 }) := rfl

@[simp] theorem run_send (data : Bytes) (w : World δ) : run (machine E env d) (send data) w =
    (.ok (), { w with conn := w.conn.push data }) := rfl

@[simp] theorem host_eq (c : HostCall) : host c = .call (.host c) .done := rfl

@[simp] theorem run_guarded {σ : Type} (M : Machine calls PyError σ) (p : Proc Unit) (w : σ) :
    run M (guarded p) w = (.ok (), (run M p w).2) := by
  unfold guarded
  rw [run_attempt]
  obtain ⟨o, w'⟩ := run M p w
  cases o <;> rfl

theorem exists_insertNewClient (db : Database) (now clientName : Str) (clientId x : Bytes)
    (h : db.clientExistsById x = true) :
    (db.insertNewClient now clientName clientId).clientExistsById x = true := by
  unfold Database.insertNewClient
  split_ifs
  · exact h
  · simp only [Database.clientExistsById, List.any_append, Bool.or_eq_true]
    exact .inl h

theorem exists_hostCall (c : HostCall) (s : Server δ) (x : Bytes)
    (h : s.database.clientExistsById x = true) :
    (hostCall E env c s).2.database.clientExistsById x = true := by
  cases c with
  | insertNewClient clientName clientId => exact exists_insertNewClient _ _ _ _ _ h
  | insertKeysOfClient clientName publicKey aesKey =>
    exact ((retouched_insertKeysOfClient _ _ _ _ _).exists_eq x).trans h
  | insertFileDetails clientId filename pathname verified =>
    exact ((retouched_insertFileDetails _ _ _ _ _ _).exists_eq x).trans h
  | updateCksumVerification clientId filename verified =>
    exact ((retouched_updateCksumVerification _ _ _ _ _).exists_eq x).trans h
  | deleteFileOfClient clientId filename =>
    exact ((retouched_deleteFileOfClient _ _ _ _).exists_eq x).trans h
  | mkdir path | writeFile path content | remove path =>
    simp only [hostCall, onDisk_database]
    exact h
  | clientAddFile clientId filePath file | fileMapPop filePath =>
    simp only [hostCall]
    split <;> exact h
  | clientRemoveFile clientId filePath =>
    simp only [hostCall]
    split
    · split_ifs <;> exact h
    · exact h
  | _ => exact h

end Calls

/-- The packed header of a response, with the client id. -/
def responseHead (code size : ℕ) (clientId : Bytes) : Bytes :=
  leBytes 1 serverVersion ++ (leBytes 2 code ++ (leBytes 4 size ++ clientId))

theorem uuidField_length (clientId : Bytes) : (uuidField clientId).length = 16 := by
  simp [uuidField]
  omega

theorem pack_response {code size : ℕ} (hcode : code < 65536) (hsize : size < 4294967296)
    {clientId : Bytes} (hid : clientId.length = 16) :
    pack responseFormat (serverVersion, code, size, clientId, ()) =
      some (responseHead code size clientId) := by
  simp [pack, Field.pack, hcode, hsize, hid, responseHead, serverVersion,
    List.take_of_length_le]

theorem newResponse_eq {code : ℕ} (hcode : code < 65536) {payload : Bytes}
    (hp : payload.length < 4294967296) (clientId : Bytes) :
    newResponse code clientId payload =
      pure ⟨serverVersion, code, uuidField clientId, payload, payload.length⟩ := by
  simp [newResponse, Response.new, hcode, hp, serverVersion, ofOption, pure_eq]

theorem newResponse_nil {code : ℕ} (hcode : code < 65536) (clientId : Bytes) :
    newResponse code clientId [] = pure ⟨serverVersion, code, uuidField clientId, [], 0⟩ :=
  newResponse_eq hcode (by simp) clientId

variable (E : Externals) (env : Draws) (d : Delivery)

section Respond

variable {δ : Type} [FileSystem δ]

theorem respond_eq {code : ℕ} (hcode : code < 65536) (clientId : Bytes) :
    respond code clientId = send (responseHead code 0 (uuidField clientId)) := by
  have hpack := pack_response hcode Nat.ofNat_pos (uuidField_length clientId)
  simp only [respond, newResponse_nil hcode, sendResponse, pure_eq, bind_eq, Program.bind, hpack,
    ofOption]

theorem run_respond {code : ℕ} (hcode : code < 65536) (clientId : Bytes) (w : World δ) :
    run (machine E env d) (respond code clientId) w =
      (.ok (), { w with conn := w.conn.push (responseHead code 0 (uuidField clientId)) }) := by
  rw [respond_eq hcode, run_send]

theorem run_handleClientDoesntExit (w : World δ) :
    run (machine E env d) handleClientDoesntExit w =
      (.ok (), { w with
        conn := w.conn.push (responseHead serverCodeRegistrationErr 0 (uuidField [])) }) := by
  have hcode : serverCodeRegistrationErr < 65536 := by decide
  simp [handleClientDoesntExit, run_respond E env d hcode]

/-- The name under which a file is kept, from its field. -/
def filenameOf (field : Bytes) : Option Str :=
  (decodeUtf8 field).map (fun filename => E.lower (stripNul filename))

theorem filenameOf_padField {filename : Str} (hn : nul ∉ filename) (n : ℕ) :
    filenameOf E (padField n filename) = some (E.lower filename) := by
  rw [filenameOf, decodeUtf8_padField, Option.map_some, stripNul_append_replicate hn]

theorem filenameOf_recv {filename : Str} (hfield : (encodeUtf8 filename).length ≤ 255)
    (hn : nul ∉ filename) (hlower : E.lower filename = filename) :
    filenameOf E ((Conn.mk (padField 255 filename) 0 [] []).recv .whole 255).1 = some filename := by
  have htake : (padField 255 filename).take 255 = padField 255 filename :=
    List.take_of_length_le (length_padField hfield).le
  rw [recv_whole, htake, filenameOf_padField E hn, hlower]

theorem run_readFilename {σ : Type} (M : Machine calls PyError σ) (field : Bytes) (w : σ) :
    run M (readFilename E field) w =
      match filenameOf E field with
      | some filename => (.ok filename, w)
      | none => (.error .unicodeDecodeError, w) := by
  cases h : decodeUtf8 field <;> simp [readFilename, decode, filenameOf, h]

theorem run_handleCksumErr (request : Request) (w : World δ) :
    run (machine E env d) (handleCksumErr request) w =
      (.ok (), { w with conn := (w.conn.recv d 255).2 }) := by
  cases h : decodeUtf8 (w.conn.recv d 255).1 <;>
    simp [handleCksumErr, cksumErrNotice, decode, hostCall, filenameLength, h]

theorem run_cksumErrNotice {request : Request} {w : World δ} {filename : Str}
    (h : decodeUtf8 (w.conn.recv d 255).1 = some filename) :
    run (machine E env d) (cksumErrNotice request) w =
      (.ok (w.server.database.getClientName request.clientId, stripNul filename),
        { w with conn := (w.conn.recv d 255).2 }) := by
  simp [cksumErrNotice, decode, filenameLength, h, hostCall]

theorem run_handleCksumOk {request : Request} {w : World δ} {filename : Str}
    (h : filenameOf E (w.conn.recv d 255).1 = some filename) :
    run (machine E env d) (handleCksumOk E request) w =
      (.ok (),
        { server := confirm env.now request.clientId filename w.server
          conn := (w.conn.recv d 255).2.push
            (responseHead serverCodeMessageReceived 0 (uuidField request.clientId)) }) := by
  have hcode : serverCodeMessageReceived < 65536 := by decide
  simp [handleCksumOk, hostCall, filenameLength, run_readFilename, h, run_respond E env d hcode,
    confirm]

/-- Once its name is read the request sets the file's flag and answers. -/
theorem run_handleCksumOk_named {request : Request} {w : World δ} {filename : Str}
    (h : filenameOf E (w.conn.recv d 255).1 = some filename) :
    (run (machine E env d) (handleCksumOk E request) w).2 =
      (run (machine E env d)
        (do
          host (.updateCksumVerification request.clientId filename true)
          respond serverCodeMessageReceived request.clientId)
        { w with conn := (w.conn.recv d 255).2 }).2 := by
  simp [handleCksumOk, filenameLength, run_readFilename, h, hostCall]

theorem run_handleCksumOk_undecodable {request : Request} {w : World δ}
    (h : filenameOf E (w.conn.recv d 255).1 = none) :
    run (machine E env d) (handleCksumOk E request) w =
      (.ok (), { w with conn := (w.conn.recv d 255).2 }) := by
  simp [handleCksumOk, hostCall, filenameLength, run_readFilename, h]

theorem run_handleClientRegistration_undecodable {payload : Bytes} (h : decodeUtf8 payload = none)
    (w : World δ) :
    run (machine E env d) (handleClientRegistration payload) w = (.ok (), w) := by
  simp [handleClientRegistration, decode, h]

theorem run_handleClientRegistration_taken {payload : Bytes} {clientName : Str}
    (h : decodeUtf8 payload = some clientName) {w : World δ}
    (hn : w.server.database.clientExistsByName (stripNul clientName) = true) :
    run (machine E env d) (handleClientRegistration payload) w =
      (.ok (), { w with
        conn := w.conn.push (responseHead serverCodeRegistrationErr 0 (uuidField [])) }) := by
  have hcode : serverCodeRegistrationErr < 65536 := by decide
  simp [handleClientRegistration, decode, hostCall, h, hn, run_respond E env d hcode]

theorem run_handleClientRegistration {payload : Bytes} {clientName : Str}
    (h : decodeUtf8 payload = some clientName) {w : World δ}
    (hn : w.server.database.clientExistsByName (stripNul clientName) = false) :
    run (machine E env d) (handleClientRegistration payload) w =
      (.ok (),
        { server := register env.now env.uuid (stripNul clientName) w.server
          conn := w.conn.push (responseHead serverCodeRegistrationOk 0 env.uuid) }) := by
  have hcode : serverCodeRegistrationOk < 65536 := by decide
  simp [handleClientRegistration, decode, hostCall, h, hn, newResponse_nil hcode, register,
    uuidField_eq env.uuid_length, sendResponse,
    pack_response hcode Nat.ofNat_pos env.uuid_length]

/-- The key request's name and public key. -/
def keyRequest (payload : Bytes) : Option (Str × Bytes) :=
  (unpack publicKeyFormat payload).bind (fun fields =>
    (decodeUtf8 fields.1).map (fun clientName => (stripNul clientName, fields.2.1)))

theorem keyRequest_eq_some {payload : Bytes} {clientName : Str} {publicKey : Bytes} :
    keyRequest payload = some (clientName, publicKey) ↔ ∃ field name,
      unpack publicKeyFormat payload = some (field, publicKey, ()) ∧
        decodeUtf8 field = some name ∧ stripNul name = clientName := by
  cases hu : unpack publicKeyFormat payload with
  | none => simp [keyRequest, hu]
  | some fields =>
    obtain ⟨field, key, _⟩ := fields
    cases hd : decodeUtf8 field with
    | none => simp [keyRequest, hu, hd]
    | some name =>
      simp only [keyRequest, hu, hd, Option.bind_some, Option.map_some, Option.some.injEq,
        Prod.mk.injEq, and_true, exists_eq_left', exists_and_left, and_assoc]
      exact and_comm

theorem keyRequest_padField {clientName : Str} {publicKey : Bytes} (hn : nul ∉ clientName)
    (hlen : (encodeUtf8 clientName).length ≤ 255) (hk : publicKey.length = 160) :
    keyRequest (padField 255 clientName ++ publicKey) = some (clientName, publicKey) := by
  refine keyRequest_eq_some.mpr ⟨_, _, ?_, decodeUtf8_padField 255 clientName,
    stripNul_append_replicate hn _⟩
  refine (unpack_append (f := .bytes 255) (length_padField hlen) [.bytes 160] publicKey).trans ?_
  simp [unpack, Field.size, Field.read, hk, List.take_of_length_le, List.drop_of_length_le]

theorem run_sendAesKeyToClient_malformed {payload : Bytes} (h : keyRequest payload = none)
    (request : Request) (w : World δ) :
    run (machine E env d) (sendAesKeyToClient E request payload) w = (.ok (), w) := by
  cases hu : unpack publicKeyFormat payload with
  | none => simp [sendAesKeyToClient, hostCall, hu]
  | some fields =>
    obtain ⟨field, key, _⟩ := fields
    have hn : decodeUtf8 field = none := by simpa [keyRequest, hu] using h
    simp [sendAesKeyToClient, hostCall, hu, decode, hn]

/-- What a key request does once its keys are stored. -/
def answerKey (request : Request) (publicKey aesKey : Bytes) : Proc Unit := do
  ofOption .valueError (if E.importKey publicKey then some () else none)
  let cipherAesKey ← host (.oaepEncrypt publicKey aesKey)
  let response ← newResponse serverCodeSwitchingKeys request.clientId cipherAesKey
  let data ← ofOption .structError
    (pack [.uint 1, .uint 2, .uint 4, .bytes 16, .bytes cipherAesKey.length]
      (response.version, response.code, response.payloadSize, response.clientId,
        response.payload, ()))
  send data

theorem sendAesKeyToClient_eq {payload : Bytes} {clientName : Str} {publicKey : Bytes}
    (h : keyRequest payload = some (clientName, publicKey)) (request : Request) :
    sendAesKeyToClient E request payload = guarded (do
      let _ ← host (.getClientName request.clientId)
      let aesKey ← host (.getRandomBytes aesKeySize)
      host (.insertKeysOfClient clientName publicKey aesKey)
      answerKey E request publicKey aesKey) := by
  obtain ⟨field, name, hu, hd, rfl⟩ := keyRequest_eq_some.mp h
  simp only [sendAesKeyToClient, hu, decode, hd, ofOption, bind_eq, Program.bind, answerKey]

/-- The encrypted key of the answer, where there is one. -/
def wrappedKey (publicKey aesKey : Bytes) : Option Bytes :=
  if E.importKey publicKey then
    (E.oaepEncrypt env.seed publicKey aesKey).filter (fun cipher => cipher.length < 4294967296)
  else none

theorem run_answerKey (request : Request) (publicKey aesKey : Bytes) (w : World δ) :
    (run (machine E env d) (answerKey E request publicKey aesKey) w).2 =
      match wrappedKey E env publicKey aesKey with
      | some cipher => { w with
          conn := w.conn.push (responseHead serverCodeSwitchingKeys cipher.length
            (uuidField request.clientId) ++ cipher) }
      | none => w := by
  have hcode : serverCodeSwitchingKeys < 65536 := by decide
  cases hi : E.importKey publicKey with
  | false => simp [answerKey, wrappedKey, hi]
  | true =>
    cases hc : E.oaepEncrypt env.seed publicKey aesKey with
    | none => simp [answerKey, wrappedKey, hostCall, hi, hc, orRaise]
    | some cipher =>
      by_cases hlen : cipher.length < 4294967296
      · have hid := uuidField_length request.clientId
        have hwrapped : wrappedKey E env publicKey aesKey = some cipher := by
          rw [wrappedKey, if_pos hi, hc, Option.filter_some, if_pos (decide_eq_true hlen)]
        simp [answerKey, hwrapped, hostCall, hi, hc, orRaise, newResponse_eq hcode hlen, pack,
          Field.pack, hcode, hlen, serverVersion, List.take_of_length_le, hid, responseHead]
      · have hwrapped : wrappedKey E env publicKey aesKey = none := by
          rw [wrappedKey, if_pos hi, hc, Option.filter_some, if_neg (by simp [hlen])]
        simp [answerKey, hwrapped, hostCall, hi, hc, orRaise, newResponse, Response.new, hlen]

theorem run_sendAesKeyToClient_stored {payload : Bytes} {clientName : Str} {publicKey : Bytes}
    (h : keyRequest payload = some (clientName, publicKey)) (request : Request) (w : World δ) :
    run (machine E env d) (sendAesKeyToClient E request payload) w =
      (.ok (), (run (machine E env d) (answerKey E request publicKey (env.random aesKeySize))
        { w with
          server := setKeys env.now clientName publicKey (env.random aesKeySize) w.server }).2) := by
  rw [sendAesKeyToClient_eq E h]
  simp [hostCall, setKeys]

theorem run_sendAesKeyToClient_server {payload : Bytes} {clientName : Str} {publicKey : Bytes}
    (h : keyRequest payload = some (clientName, publicKey)) (request : Request) (w : World δ) :
    (run (machine E env d) (sendAesKeyToClient E request payload) w).2.server =
      setKeys env.now clientName publicKey (env.random aesKeySize) w.server := by
  rw [run_sendAesKeyToClient_stored E env d h, run_answerKey]
  split <;> rfl

theorem run_sendAesKeyToClient {payload : Bytes} {clientName : Str} {publicKey cipher : Bytes}
    (h : keyRequest payload = some (clientName, publicKey)) {request : Request} {w : World δ}
    (hid : request.clientId.length = 16) (hi : E.importKey publicKey = true)
    (hc : E.oaepEncrypt env.seed publicKey (env.random aesKeySize) = some cipher)
    (hlen : cipher.length < 4294967296) :
    run (machine E env d) (sendAesKeyToClient E request payload) w =
      (.ok (),
        { server := setKeys env.now clientName publicKey (env.random aesKeySize) w.server
          conn := w.conn.push
            (responseHead serverCodeSwitchingKeys cipher.length request.clientId ++ cipher) }) := by
  have hwrapped : wrappedKey E env publicKey (env.random aesKeySize) = some cipher := by
    rw [wrappedKey, if_pos hi, hc, Option.filter_some, if_pos (decide_eq_true hlen)]
  rw [run_sendAesKeyToClient_stored E env d h, run_answerKey, hwrapped, uuidField_eq hid]

theorem run_handleCksumErrFinal_undecodable {request : Request} {w : World δ}
    (h : filenameOf E (w.conn.recv d 255).1 = none) :
    run (machine E env d) (handleCksumErrFinal E request) w =
      (.ok (), { w with conn := (w.conn.recv d 255).2 }) := by
  simp [handleCksumErrFinal, filenameLength, run_readFilename, h]

theorem run_handleCksumErrFinal_named {request : Request} {w : World δ} {filename : Str}
    (h : filenameOf E (w.conn.recv d 255).1 = some filename) :
    (run (machine E env d) (handleCksumErrFinal E request) w).2 =
      (run (machine E env d)
        (do
          deleteFile request.clientId filename
          respond serverCodeMessageReceived request.clientId)
        { w with conn := (w.conn.recv d 255).2 }).2 := by
  simp [handleCksumErrFinal, filenameLength, run_readFilename, h, hostCall]

end Respond

theorem not_dir_filePath {disk : KeyedDisk}
    (hdirs : ∀ p, disk.dirs p = true → p = filesDir ∨ ∃ clientId, p = clientDir clientId)
    (clientId : Bytes) (filename : Str) : disk.dirs (filePath clientId filename) = false := by
  rw [Bool.eq_false_iff]
  intro hd
  rcases hdirs _ hd with hp | ⟨x, hp⟩
  · exact filePath_ne_filesDir _ _ hp
  · exact filePath_ne_clientDir _ _ _ hp

section Disk

variable {s : Server KeyedDisk} (h : Consistent s) (clientId : Bytes) (filename : Str)
include h

theorem dirs_filePath : s.disk.dirs (filePath clientId filename) = false :=
  not_dir_filePath h.dirs clientId filename

theorem files_of_nul (hn : nul ∈ filename) : s.disk.files (filePath clientId filename) = none := by
  have hrow := h.onDisk (filePath clientId filename)
  cases hr : rows s.database (filePath clientId filename) with
  | none => simpa [hr] using hrow
  | some row =>
    obtain ⟨rfl, rfl⟩ := h.sound.row_of_path hr
    exact absurd hn (h.sound.filename row (KeyedTable.lookup_some hr).1)

theorem pathExists_filePath : FileSystem.pathExists s.disk (filePath clientId filename) =
    (s.disk.files (filePath clientId filename)).isSome := by
  have hp : FileSystem.pathExists s.disk (filePath clientId filename) =
    s.disk.pathExists (filePath clientId filename) := rfl
  rw [hp, KeyedDisk.pathExists]
  split_ifs with hn
  · simp [files_of_nul h clientId filename (nul_mem_filePath.mp hn)]
  · simp [dirs_filePath h]

theorem run_removeStored (conn : Conn) :
    run (machine E env d) (removeStored (filePath clientId filename)) ⟨s, conn⟩ =
      (.ok (), ⟨{ s with disk := { s.disk with
        files := Function.update s.disk.files (filePath clientId filename) none } }, conn⟩) := by
  cases hf : s.disk.files (filePath clientId filename) with
  | none =>
    have hup : Function.update s.disk.files (filePath clientId filename) none = s.disk.files := by
      rw [← hf, Function.update_eq_self]
    simp [removeStored, hostCall, pathExists_filePath h, hf, hup]
  | some content =>
    have hn : nul ∉ filename := by
      intro hn
      simp [files_of_nul h clientId filename hn] at hf
    have hr : FileSystem.remove s.disk (filePath clientId filename) =
        s.disk.remove (filePath clientId filename) := rfl
    simp [removeStored, hostCall, pathExists_filePath h, hf, onDisk, hr, KeyedDisk.remove,
      nul_mem_filePath, hn]

end Disk

section Maps

variable {δ : Type} [FileSystem δ] (w : World δ)

theorem run_forgetOwned (clientId : Bytes) (path : Str) :
    run (machine E env d) (forgetOwned clientId path) w =
      (.ok (), { w with server := { w.server with
        clientMap := Function.update w.server.clientMap clientId
          ((w.server.clientMap clientId).map (fun client => client.removeFile path)) } }) := by
  cases hc : w.server.clientMap clientId with
  | none =>
    have hup : Function.update w.server.clientMap clientId none = w.server.clientMap := by
      rw [← hc, Function.update_eq_self]
    simp [forgetOwned, hostCall, hc, hup]
  | some client =>
    cases hf : client.files path with
    | none =>
      have hr : client.removeFile path = client := by
        rw [Client.removeFile, ← hf, Function.update_eq_self]
      have hup : Function.update w.server.clientMap clientId (some client) =
          w.server.clientMap := by
        rw [← hc, Function.update_eq_self]
      simp [forgetOwned, hostCall, hc, hf, hr, hup]
    | some file => simp [forgetOwned, hostCall, hc, hf]

theorem run_forgetFile (path : Str) :
    run (machine E env d) (forgetFile path) w =
      (.ok (), { w with server := { w.server with
        fileMap := Function.update w.server.fileMap path none } }) := by
  cases hf : w.server.fileMap path with
  | none =>
    have hup : Function.update w.server.fileMap path none = w.server.fileMap := by
      rw [← hf, Function.update_eq_self]
    simp [forgetFile, hostCall, hf, hup]
  | some file => simp [forgetFile, hostCall, hf]

end Maps

theorem run_handleCksumErrFinal {w : World KeyedDisk} {request : Request} {filename : Str}
    (hw : Consistent w.server) (h : filenameOf E (w.conn.recv d 255).1 = some filename) :
    run (machine E env d) (handleCksumErrFinal E request) w =
      (.ok (),
        { server := eraseFile env.now request.clientId filename w.server
          conn := (w.conn.recv d 255).2.push
            (responseHead serverCodeMessageReceived 0 (uuidField request.clientId)) }) := by
  have hcode : serverCodeMessageReceived < 65536 := by decide
  simp [handleCksumErrFinal, deleteFile, hostCall, filenameLength, run_readFilename, h,
    run_removeStored E env d hw, run_forgetOwned, run_forgetFile, run_respond E env d hcode,
    eraseFile]

theorem run_makeDir {w : World KeyedDisk} {dirName : Str} (hn : nul ∉ dirName)
    (hf : w.server.disk.files dirName = none) :
    run (machine E env d) (makeDir dirName) w =
      (.ok (), { w with server := { w.server with disk := addDir w.server.disk dirName } }) := by
  have hp : FileSystem.pathExists w.server.disk dirName = w.server.disk.dirs dirName := by
    have hp : FileSystem.pathExists w.server.disk dirName = w.server.disk.pathExists dirName := rfl
    simp [hp, KeyedDisk.pathExists, hn, hf]
  have hm : FileSystem.mkdir w.server.disk dirName = w.server.disk.mkdir dirName := rfl
  cases hd : w.server.disk.dirs dirName with
  | false =>
    simp [makeDir, hostCall, hp, hd, hm, onDisk, KeyedDisk.mkdir, KeyedDisk.pathExists, hn, hf,
      addDir]
  | true =>
    have hup : Function.update w.server.disk.dirs dirName true = w.server.disk.dirs := by
      rw [← hd, Function.update_eq_self]
    simp [makeDir, hostCall, hp, hd, addDir, hup]

/-- The content of an upload: decrypted with the stored key and unpadded. -/
def contentOf (db : Database) (clientId encrypted : Bytes) : Option Bytes :=
  ((db.getAesKeyOfClient clientId).bind (fun aesKey => E.aesDecrypt aesKey encrypted)).bind E.unpad

theorem contentOf_eq_none {db : Database} {clientId encrypted : Bytes}
    (h : contentOf E db clientId encrypted = none) :
    db.getAesKeyOfClient clientId = none ∨
      (∃ aesKey, db.getAesKeyOfClient clientId = some aesKey ∧
        E.aesDecrypt aesKey encrypted = none) ∨
      ∃ aesKey padded, db.getAesKeyOfClient clientId = some aesKey ∧
        E.aesDecrypt aesKey encrypted = some padded ∧ E.unpad padded = none := by
  cases haes : db.getAesKeyOfClient clientId with
  | none => exact .inl rfl
  | some aesKey =>
    cases hdec : E.aesDecrypt aesKey encrypted with
    | none => exact .inr (.inl ⟨aesKey, rfl, hdec⟩)
    | some padded =>
      have hunpad : E.unpad padded = none := by simpa [contentOf, haes, hdec] using h
      exact .inr (.inr ⟨aesKey, padded, rfl, hdec, hunpad⟩)

theorem run_processFileContent_unreadable {w : World KeyedDisk} {request : Request}
    {filename : Str} {encrypted : Bytes}
    (h : contentOf E w.server.database request.clientId encrypted = none) :
    run (machine E env d) (processFileContent E request filename encrypted) w = (.ok (), w) := by
  rcases contentOf_eq_none E h with haes | ⟨aesKey, haes, hdec⟩ |
    ⟨aesKey, padded, haes, hdec, hunpad⟩
  · simp [processFileContent, hostCall, haes]
  · simp [processFileContent, hostCall, haes, hdec]
  · simp [processFileContent, hostCall, haes, hdec, hunpad]

theorem contentOf_eq_some {db : Database} {clientId encrypted content : Bytes} :
    contentOf E db clientId encrypted = some content ↔ ∃ aesKey padded,
      db.getAesKeyOfClient clientId = some aesKey ∧ E.aesDecrypt aesKey encrypted = some padded ∧
        E.unpad padded = some content := by
  simp only [contentOf, Option.bind_eq_some_iff]
  constructor
  · rintro ⟨padded, ⟨aesKey, hk, hd⟩, hu⟩
    exact ⟨aesKey, padded, hk, hd, hu⟩
  · rintro ⟨aesKey, padded, hk, hd, hu⟩
    exact ⟨padded, ⟨aesKey, hk, hd⟩, hu⟩

theorem run_makeDirs {w : World KeyedDisk} (hw : Consistent w.server) (clientId : Bytes) :
    run (machine E env d) (makeDir filesDir) w =
        (.ok (), { w with server := { w.server with disk := addDir w.server.disk filesDir } }) ∧
      run (machine E env d) (makeDir (clientDir clientId))
          { w with server := { w.server with disk := addDir w.server.disk filesDir } } =
        (.ok (), { w with server := addDirs clientId w.server }) := by
  have hno (p : Str) (hp : ∀ x f, filePath x f ≠ p) : w.server.disk.files p = none := by
    rw [← Option.not_isSome_iff_eq_none, hw.onDisk, KeyedTable.lookup_isSome]
    rintro ⟨row, hrow, rfl⟩
    exact hp _ _ (hw.sound.pathname row hrow).symm
  constructor
  · exact run_makeDir E env d (by decide) (hno _ filePath_ne_filesDir)
  · exact run_makeDir E env d (nul_notMem_clientDir clientId)
      (hno _ (fun x f => filePath_ne_clientDir x clientId f))

theorem run_recordFile (w : World KeyedDisk) (clientId : Bytes) (filename path : Str) :
    run (machine E env d) (recordFile clientId filename path) w =
      (.ok (), { w with server := { w.server with
        database :=
          if w.server.database.fileExists clientId filename then
            w.server.database.updateCksumVerification env.now clientId filename false
          else w.server.database.insertFileDetails env.now clientId filename path false } }) := by
  cases h : w.server.database.fileExists clientId filename <;>
    simp [recordFile, hostCall, h]

/-- A name with a NUL character stops the upload when the file is opened. -/
theorem run_processFileContent_nul {w : World KeyedDisk} {request : Request}
    {filename : Str} {encrypted content : Bytes} (hw : Consistent w.server)
    (h : contentOf E w.server.database request.clientId encrypted = some content)
    (hn : nul ∈ filename) :
    run (machine E env d) (processFileContent E request filename encrypted) w =
      (.ok (), { w with server := addDirs request.clientId w.server }) := by
  obtain ⟨aesKey, padded, hk, hd, hu⟩ := (contentOf_eq_some E).mp h
  obtain ⟨hfiles, hclient⟩ := run_makeDirs E env d hw request.clientId
  have hwrite (disk : KeyedDisk) (p : Str) : FileSystem.writeFile disk p content =
    disk.writeFile p content := rfl
  simp [processFileContent, hostCall, hk, hd, hu, hfiles, hclient, hwrite, KeyedDisk.writeFile,
    nul_mem_filePath, hn, onDisk]

/-- An accepted upload, up to its response. -/
theorem run_processFileContent_stored {w : World KeyedDisk} {request : Request}
    {filename : Str} {encrypted content : Bytes} {cksum : ℕ} (hw : Consistent w.server)
    (hid : w.server.database.clientExistsById request.clientId = true)
    (h : contentOf E w.server.database request.clientId encrypted = some content)
    (hn : nul ∉ filename) (hc : Cksum.Server.cksumCalc content = some cksum) :
    (run (machine E env d) (processFileContent E request filename encrypted) w).2 =
      (run (machine E env d) (sendCksum request.clientId filename content.length cksum)
        { w with server := store env.now request.clientId filename content w.server }).2 := by
  obtain ⟨aesKey, padded, hk, hd, hu⟩ := (contentOf_eq_some E).mp h
  obtain ⟨hfiles, hclient⟩ := run_makeDirs E env d hw request.clientId
  have hwrite (disk : KeyedDisk) (p : Str) : FileSystem.writeFile disk p content =
    disk.writeFile p content := rfl
  have hread (disk : KeyedDisk) (p : Str) : FileSystem.readFile disk p = disk.readFile p := rfl
  have hdir := dirs_filePath (hw.after_addDirs request.clientId) request.clientId filename
  rw [clientExistsById_eq] at hid
  obtain ⟨owner, howner⟩ := Option.isSome_iff_exists.mp hid
  have hmap : ∃ client, w.server.clientMap request.clientId = some client := by
    rw [hw.clientMap, loadedClients, howner]
    exact ⟨_, rfl⟩
  obtain ⟨client, hmap⟩ := hmap
  have hmap' : (addDirs request.clientId w.server).clientMap request.clientId = some client := hmap
  simp [processFileContent, hostCall, hk, hd, hu, hfiles, hclient, hwrite, KeyedDisk.writeFile,
    nul_mem_filePath, hn, onDisk, hdir, hmap', hread, KeyedDisk.readFile, orRaise, hc,
    run_recordFile]
  rw [store, hmap]
  rfl

section Report

variable {δ : Type} [FileSystem δ] (w : World δ)

def cksumReport (filename : Str) (cksum : ℕ) : Bytes :=
  (encodeUtf8 (padNul 255 filename)).take 255 ++ leBytes 4 cksum

theorem pack_cksumReport (filename : Str) {cksum : ℕ} (hc : cksum < 4294967296) :
    pack [.bytes 255, .uint 4] (encodeUtf8 (padNul clientNameLength filename), cksum, ()) =
      some (cksumReport filename cksum) := by
  have hpad : 255 - (encodeUtf8 (padNul 255 filename)).length = 0 := by
    have hlen := length_le_encodeUtf8 (padNul 255 filename)
    have hl : 255 ≤ (padNul 255 filename).length := by
      rw [padNul, List.length_append, List.length_replicate]
      omega
    omega
  simp [pack, Field.pack, hc, hpad, cksumReport, clientNameLength]

theorem sendCksum_eq {clientId : Bytes} (hid : clientId.length = 16) (filename : Str)
    {contentSize cksum : ℕ} (hs : contentSize < 4294967296) (hc : cksum < 4294967296) :
    sendCksum clientId filename contentSize cksum = (do
      send (responseHead serverCodeCksumReady 0 clientId ++ leBytes 4 contentSize)
      send (cksumReport filename cksum)) := by
  have hcode : serverCodeCksumReady < 65536 := by decide
  have hhead : pack [.uint 1, .uint 2, .uint 4, .bytes 16, .uint 4]
      (serverVersion, serverCodeCksumReady, 0, clientId, contentSize, ()) =
        some (responseHead serverCodeCksumReady 0 clientId ++ leBytes 4 contentSize) := by
    simp [pack, Field.pack, hcode, hs, hid, serverVersion, responseHead, List.take_of_length_le]
  simp only [sendCksum, newResponse_nil hcode, uuidField_eq hid, pack_cksumReport filename hc]
  simp only [pure_eq, bind_eq, Program.bind, hhead, ofOption]

theorem run_sendCksum {clientId : Bytes} (hid : clientId.length = 16) (filename : Str)
    {contentSize cksum : ℕ} (hs : contentSize < 4294967296) (hc : cksum < 4294967296) :
    run (machine E env d) (sendCksum clientId filename contentSize cksum) w =
      (.ok (), { w with
        conn := (w.conn.push (responseHead serverCodeCksumReady 0 clientId ++
          leBytes 4 contentSize)).push (cksumReport filename cksum) }) := by
  rw [sendCksum_eq hid filename hs hc, run_bind, run_send, andThen_ok, run_send]

theorem sendCksum_oversize (clientId : Bytes) (filename : Str) {contentSize : ℕ}
    (hs : ¬ contentSize < 4294967296) (cksum : ℕ) :
    sendCksum clientId filename contentSize cksum = .done (.error .structError) := by
  have hcode : serverCodeCksumReady < 65536 := by decide
  simp [sendCksum, newResponse_nil hcode, pack, Field.pack, hs, pure_eq, bind_eq, Program.bind,
    ofOption]

theorem run_sendCksum_oversize (clientId : Bytes) (filename : Str) {contentSize : ℕ}
    (hs : 4294967296 ≤ contentSize) (cksum : ℕ) :
    run (machine E env d) (sendCksum clientId filename contentSize cksum) w =
      (.error .structError, w) := by
  rw [sendCksum_oversize _ _ (not_lt.mpr hs), run_done]

theorem run_sendCksum_server (clientId : Bytes) (filename : Str) (contentSize cksum : ℕ) :
    (run (machine E env d) (sendCksum clientId filename contentSize cksum) w).2.server =
      w.server := by
  have hcode : serverCodeCksumReady < 65536 := by decide
  simp only [sendCksum, newResponse_nil hcode, run_bind, run_pure, andThen_ok, run_ofOption]
  split <;> simp only [andThen_ok, andThen_error, run_send, run_bind, run_ofOption]
  split <;> rfl

end Report

section Dispatch

variable {δ : Type} [FileSystem δ] {w : World δ} {request : Request} {payload : Bytes}

def uploadHeader (fileData : Bytes) : Option (ℕ × Str) :=
  (unpack fileFormat fileData).bind (fun fields =>
    (filenameOf E fields.2.2.1).map (fun filename => (fields.2.1, filename)))

theorem uploadHeader_eq_some {fileData : Bytes} {contentSize : ℕ} {filename : Str} :
    uploadHeader E fileData = some (contentSize, filename) ↔ ∃ clientId field,
      unpack fileFormat fileData = some (clientId, contentSize, field, ()) ∧
        filenameOf E field = some filename := by
  cases hu : unpack fileFormat fileData with
  | none => simp [uploadHeader, hu]
  | some fields =>
    obtain ⟨clientId, size, field, _⟩ := fields
    cases hf : filenameOf E field with
    | none =>
      simp only [uploadHeader, hu, Option.bind_some, hf, Option.map_none, reduceCtorEq, false_iff,
        not_exists, not_and]
      rintro _ field' he
      obtain ⟨_, _, rfl, _⟩ := by simpa using he
      simp [hf]
    | some name =>
      simp [uploadHeader, hu, hf]

theorem uploadHeader_append {owner field content : Bytes}
    (howner : owner.length = 16) (hfield : field.length = 255)
    (hcontent : content.length < 4294967296) :
    uploadHeader E (owner ++ (leBytes 4 content.length ++ field)) =
      (filenameOf E field).map (fun filename => (content.length, filename)) := by
  have hpack : pack fileFormat (owner, content.length, field, ()) =
      some (owner ++ (leBytes 4 content.length ++ field)) := by
    simp [pack, Field.pack, howner, hfield, hcontent, List.take_of_length_le]
  have hfits : Fits fileFormat (owner, content.length, field, ()) :=
    ⟨howner, hcontent, hfield, trivial⟩
  rw [uploadHeader, unpack_pack hfits hpack]
  rfl

/-- What follows the payload of an upload, as it arrives. -/
def uploadConn (clientId : Bytes) (filename : Str) (encrypted : Bytes) : Conn :=
  ⟨clientId ++ (leBytes 4 encrypted.length ++ padField 255 filename) ++ encrypted, 0, [], []⟩

theorem uploadConn_recv {clientId : Bytes} (howner : clientId.length = 16) {filename : Str}
    (hfield : (encodeUtf8 filename).length ≤ 255) (hn : nul ∉ filename)
    (hlower : E.lower filename = filename) {encrypted : Bytes}
    (hsize : encrypted.length < 4294967296) :
    let conn := uploadConn clientId filename encrypted
    uploadHeader E (conn.recv .whole 275).1 = some (encrypted.length, filename) ∧
      ((conn.recv .whole 275).2.recv .whole encrypted.length).1 = encrypted := by
  have hheader := uploadHeader_append E howner (length_padField hfield) hsize
  rw [filenameOf_padField E hn, hlower, Option.map_some] at hheader
  have hhead :
      (clientId ++ (leBytes 4 encrypted.length ++ padField 255 filename)).length = 275 := by
    simp [howner, length_padField hfield]
  constructor
  · rw [recv_whole, ← hheader]
    exact congrArg _ (List.take_left' hhead)
  · simp only [recv_whole, uploadConn, List.drop_left' hhead, List.take_length]

variable (request) in
/-- Once its header is read an upload reads its content, on any machine. -/
theorem run_handleFileRequest_headed {σ : Type} {M : Machine calls PyError σ} {s s' : σ}
    {fileData : Bytes} (hrecv : run M (recv 275) s = (.ok fileData, s')) {contentSize : ℕ}
    {filename : Str} (h : uploadHeader E fileData = some (contentSize, filename)) :
    run M (handleFileRequest E request) s = (.ok (), (run M (do
      let encrypted ← recv contentSize
      processFileContent E request filename encrypted) s').2) := by
  obtain ⟨clientId, field, hu, hf⟩ := (uploadHeader_eq_some E).mp h
  have hne : fileData ≠ [] := by
    intro he
    rw [he] at hu
    cases hu
  simp [handleFileRequest, Field.size, hrecv, hne, hu, run_readFilename, hf]

theorem run_handleFileRequest_headless {σ : Type} {M : Machine calls PyError σ} {s s' : σ}
    {fileData : Bytes} (hrecv : run M (recv 275) s = (.ok fileData, s'))
    (h : uploadHeader E fileData = none) :
    run M (handleFileRequest E request) s = (.ok (), s') := by
  by_cases hne : fileData = []
  · simp [handleFileRequest, Field.size, hrecv, hne]
  · cases hu : unpack fileFormat fileData with
    | none => simp [handleFileRequest, Field.size, hrecv, hne, hu]
    | some fields =>
      obtain ⟨clientId, size, field, _⟩ := fields
      have hf : filenameOf E field = none := by simpa [uploadHeader, hu] using h
      simp [handleFileRequest, Field.size, hrecv, hne, hu, run_readFilename, hf]

theorem run_handleFileRequest {contentSize : ℕ} {filename : Str}
    (h : uploadHeader E (w.conn.recv d 275).1 = some (contentSize, filename)) :
    run (machine E env d) (handleFileRequest E request) w =
      (.ok (), (run (machine E env d)
        (processFileContent E request filename ((w.conn.recv d 275).2.recv d contentSize).1)
        { w with conn := ((w.conn.recv d 275).2.recv d contentSize).2 }).2) := by
  rw [run_handleFileRequest_headed E request (run_recv E env d 275 w) h, run_bind, run_recv,
    andThen_ok]

theorem run_handleFileRequest_malformed (h : uploadHeader E (w.conn.recv d 275).1 = none) :
    run (machine E env d) (handleFileRequest E request) w =
      (.ok (), { w with conn := (w.conn.recv d 275).2 }) :=
  run_handleFileRequest_headless E (run_recv E env d 275 w) h

theorem run_turnedAway (request : Request) (w : World δ) :
    run (machine E env d) (turnedAway request) w =
      (.ok (decide (request.code ≠ clientCodeRegister ∧
        w.server.database.clientExistsById request.clientId = false)), w) := by
  by_cases hc : request.code = clientCodeRegister
  · simp [turnedAway, hc]
  · simp [turnedAway, hc, hostCall]

theorem run_handleRequest_unknown (hc : request.code ≠ clientCodeRegister)
    (hid : w.server.database.clientExistsById request.clientId = false) :
    run (machine E env d) (handleRequest E request payload) w =
      (.ok (), { w with
        conn := w.conn.push (responseHead serverCodeRegistrationErr 0 (uuidField [])) }) := by
  simp [handleRequest, run_turnedAway, hc, hid, run_handleClientDoesntExit]

theorem run_handleRequest (h : request.code = clientCodeRegister ∨
      w.server.database.clientExistsById request.clientId = true) :
    run (machine E env d) (handleRequest E request payload) w =
      run (machine E env d) (dispatch E request payload) w := by
  have hpass : ¬ (request.code ≠ clientCodeRegister ∧
      w.server.database.clientExistsById request.clientId = false) := by
    rintro ⟨hc, hid⟩
    rcases h with h | h
    · exact hc h
    · simp [h] at hid
  simp [handleRequest, run_turnedAway, hpass]

end Dispatch

end EncryptedTransfer.ServerEffects
