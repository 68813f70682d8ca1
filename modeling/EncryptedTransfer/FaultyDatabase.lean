import EncryptedTransfer.FlakyMachines
import EncryptedTransfer.ServerFootprints
import EncryptedTransfer.ServerRuns

/-!
# A database whose calls fail

Every method of `Database` catches its own errors, prints them and returns `None`. The handlers run
on with that answer. Runs of the server under any pattern of such failures, over any disk.
-/
namespace EncryptedTransfer.FaultyDatabase
open ByteFormats Text ServerStores ServerCalls ServerHandlers ServerConsistency ServerEffects
open ServerFootprints ServerRuns Interaction Program

/-- What a method of `Database` returns after an error it has caught (`get_client_name` returns
`False`); `none` for the calls that are no methods of it. -/
def swallowed : (c : Call) → Option c.Answer
  | .host (.clientExistsByName _) => some (none : Option Bool)
  | .host (.clientExistsById _) => some (none : Option Bool)
  | .host (.getClientName _) => some (none : Option Str)
  | .host .getClientList => some (none : Option (List (Bytes × Str)))
  | .host (.fileExists _ _) => some (none : Option Bool)
  | .host .getFileList => some (none : Option (List (Bytes × Str × Str)))
  | .host (.insertNewClient _ _) => some ()
  | .host (.insertKeysOfClient _ _ _) => some ()
  | .host (.getAesKeyOfClient _) => some (none : Option Bytes)
  | .host (.insertFileDetails _ _ _ _) => some ()
  | .host (.updateCksumVerification _ _ _) => some ()
  | .host (.deleteFileOfClient _ _) => some ()
  | _ => none

/-- Which calls of `Database` fail while a request is handled, by their number and themselves. -/
abbrev Faults := ℕ → HostCall → Bool

def Faults.at (faults : Faults) (n : ℕ) : Call → Bool
  | .host c => faults n c
  | _ => false

variable {δ : Type} [FileSystem δ] (E : Externals) (env : Draws) (d : Delivery) (faults : Faults)

def faultyMachine : Machine calls PyError (World δ × ℕ) :=
  flaky (machine E env d) swallowed faults.at

/-- The world after a request some of whose database calls have failed. -/
def faultyHandled (request : Request) (payload : Bytes) (w : World δ) : World δ :=
  (run (faultyMachine E env d faults) (handleRequest E request payload) (w, 0)).2.1

def faultyRestarted (s : Server δ) (conn : Conn) : World δ :=
  (run (faultyMachine E env d faults) loadDataFromDatabase
    (⟨{ s with clientMap := fun _ => none, fileMap := fun _ => none }, conn⟩, 0)).2.1

/-- Runs from an empty database, whatever fails. -/
inductive FaultyRun (E : Externals) : Server δ → Prop
  | start (disk : δ) : FaultyRun E ⟨.empty, disk, fun _ => none, fun _ => none⟩
  | request {s : Server δ} (env : Draws) (d : Delivery) (faults : Faults) (request : Request)
      (payload : Bytes) (conn : Conn) (h : FaultyRun E s) :
      FaultyRun E (faultyHandled E env d faults request payload ⟨s, conn⟩).server
  | restart {s : Server δ} (env : Draws) (d : Delivery) (faults : Faults) (conn : Conn)
      (h : FaultyRun E s) : FaultyRun E (faultyRestarted E env d faults s conn).server

theorem Faults.at_none (n : ℕ) (c : Call) : Faults.at (fun _ _ => false) n c = false := by
  cases c <;> rfl

theorem run_faulty_none {α : Type} (p : Proc α) (w : World δ) (n : ℕ) :
    (run (faultyMachine E env d fun _ _ => false) p (w, n)).2.1 = (run (machine E env d) p w).2 :=
  (run_flaky_never (machine E env d) swallowed Faults.at_none p (w, n)).2

theorem FaultyRun.ofCalm {E : Externals} {s : Server δ} (h : CalmRun E s) : FaultyRun E s := by
  induction h with
  | start disk => exact .start disk
  | @request s env d request payload conn h ih =>
    have hstep := ih.request env d (fun _ _ => false) request payload conn
    rwa [faultyHandled, run_faulty_none] at hstep
  | @restart s env d conn h ih =>
    have hstep := ih.restart env d (fun _ _ => false) conn
    rwa [faultyRestarted, run_faulty_none] at hstep

theorem FaultyRun.ofRun {E : Externals} {s : Server KeyedDisk}
    {acts : List (FileLedger.Act (Bytes × Str) Bytes)} (h : Run E s acts) : FaultyRun E s :=
  .ofCalm h.calm

section Calls

variable (w : World δ) (n : ℕ)

@[simp] theorem run_faulty_recv (k : ℕ) : run (faultyMachine E env d faults) (recv k) (w, n) =
    (.ok (w.conn.recv d k).1, ({ w with conn := (w.conn.recv d k).2 }, n)) := rfl

@[simp] theorem run_faulty_send (data : Bytes) :
    run (faultyMachine E env d faults) (send data) (w, n) =
      (.ok (), ({ w with conn := w.conn.push data }, n)) := rfl

/-- A method of `Database` goes to the host unless it fails, every other call always. -/
theorem faulty_host (c : HostCall) : faultyMachine E env d faults (.host c) (w, n) =
    (swallowed (.host c)).elim
      ((hostCall E env c w.server).1, ({ w with server := (hostCall E env c w.server).2 }, n))
      (fun a => (if faults n c then .ok a else (hostCall E env c w.server).1,
        ({ w with server := if faults n c then w.server else (hostCall E env c w.server).2 },
          n + 1))) := by
  cases h : swallowed (.host c) with
  | none =>
    rw [faultyMachine, flaky_sure _ _ h]
    rfl
  | some a =>
    rw [faultyMachine, flaky_counted _ _ h]
    cases hf : faults n c <;> simp [Faults.at, hf]

theorem run_faulty_sure {α : Type} {p : Proc α}
    (h : Issues (Within True fun c => swallowed (.host c) = none) p) :
    run (faultyMachine E env d faults) p (w, n) =
      ((run (machine E env d) p w).1, ((run (machine E env d) p w).2, n)) := by
  apply run_flaky_sure
  apply h.mono
  intro c hc
  cases c with
  | host c => exact hc
  | _ => rfl

theorem run_faulty_respond {code : ℕ} (hcode : code < 65536) (clientId : Bytes) :
    run (faultyMachine E env d faults) (respond code clientId) (w, n) =
      (.ok (), ({ w with conn := w.conn.push (responseHead code 0 (uuidField clientId)) }, n)) := by
  rw [respond_eq hcode, run_faulty_send]

end Calls

theorem ok_ite {α : Type} (p : Prop) [Decidable p] (a b : α) :
    (if p then .ok a else .ok b) = (.ok (if p then a else b) : Except PyError α) := by
  split_ifs <;> rfl

/-- The conditions on the tables no failure breaks. -/
structure Keyed (db : Database) : Prop where
  idLength : ∀ row ∈ db.clients, row.clientId.length = 16
  pathname : ∀ row ∈ db.files, row.pathname = filePath row.clientId row.filename

theorem Keyed.retouched {db db' : Database} (h : Keyed db) (hr : Retouched db db')
    (hf : ∀ row ∈ db'.files, row.pathname = filePath row.clientId row.filename) : Keyed db' := by
  obtain ⟨g, hg, hk⟩ := hr
  refine ⟨?_, hf⟩
  intro row hrow
  rw [hg] at hrow
  obtain ⟨old, hold, rfl⟩ := List.mem_map.mp hrow
  rw [(hk old).1]
  exact h.idLength old hold

theorem Keyed.insertNewClient {db : Database} (h : Keyed db) (now clientName : Str)
    {clientId : Bytes} (hlen : clientId.length = 16) :
    Keyed (db.insertNewClient now clientName clientId) := by
  unfold Database.insertNewClient
  split_ifs
  · exact h
  · refine ⟨?_, h.pathname⟩
    intro row hrow
    rcases List.mem_append.mp hrow with hold | hnew
    · exact h.idLength row hold
    · rw [List.mem_singleton.mp hnew]
      exact hlen

theorem Keyed.insertFileDetails {db : Database} (h : Keyed db) (now : Str) (clientId : Bytes)
    (filename : Str) (v : Bool) :
    Keyed (db.insertFileDetails now clientId filename (filePath clientId filename) v) := by
  apply h.retouched (retouched_insertFileDetails db now clientId filename _ v)
  unfold Database.insertFileDetails
  split_ifs
  · exact h.pathname
  · intro row hrow
    rcases List.mem_append.mp hrow with hold | hnew
    · exact h.pathname row hold
    · rw [List.mem_singleton.mp hnew]

theorem Keyed.updateCksumVerification {db : Database} (h : Keyed db) (now : Str)
    (clientId : Bytes) (filename : Str) (v : Bool) :
    Keyed (db.updateCksumVerification now clientId filename v) := by
  apply h.retouched (retouched_updateCksumVerification db now clientId filename v)
  intro row hrow
  obtain ⟨old, hold, rfl⟩ := List.mem_map.mp hrow
  split_ifs <;> exact h.pathname old hold

theorem Keyed.deleteFileOfClient {db : Database} (h : Keyed db) (now : Str) (clientId : Bytes)
    (filename : Str) : Keyed (db.deleteFileOfClient now clientId filename) := by
  apply h.retouched (retouched_deleteFileOfClient db now clientId filename)
  exact fun row hrow => h.pathname row (List.mem_of_mem_filter hrow)

theorem Keyed.path_taken {db : Database} (h : Keyed db) (clientId : Bytes) (filename : Str) :
    db.files.any (fun row => row.pathname = filePath clientId filename) =
      db.fileExists clientId filename := by
  rw [Bool.eq_iff_iff, Database.fileExists_iff, List.any_eq_true]
  constructor
  · rintro ⟨row, hrow, hpath⟩
    rw [h.pathname row hrow, decide_eq_true_eq, filePath_inj] at hpath
    exact ⟨row, hrow, hpath⟩
  · rintro ⟨row, hrow, hid, hname⟩
    refine ⟨row, hrow, ?_⟩
    rw [h.pathname row hrow, hid, hname, decide_eq_true_eq]

theorem Keyed.insertFileDetails_known {db : Database} (h : Keyed db) {clientId : Bytes}
    {filename : Str} (hx : db.fileExists clientId filename = true) (now : Str) (v : Bool) :
    db.insertFileDetails now clientId filename (filePath clientId filename) v = db := by
  rw [Database.insertFileDetails, h.path_taken, if_pos hx]

theorem Keyed.hostCall {k : Kind} (hk : k ≠ .register) {c : HostCall} (hc : Footprint k c)
    {s : Server δ} (h : Keyed s.database) : Keyed (hostCall E env c s).2.database := by
  cases c with
  | insertNewClient clientName clientId =>
    cases k with
    | register => exact absurd rfl hk
    | _ => cases hc
  | insertKeysOfClient clientName publicKey aesKey =>
    exact h.retouched (retouched_insertKeysOfClient _ _ _ _ _) h.pathname
  | insertFileDetails clientId filename pathname verified =>
    have hpath : pathname = filePath clientId filename := by
      cases k with
      | sendFile => exact hc.1
      | _ => cases hc
    rw [hpath]
    exact h.insertFileDetails env.now clientId filename verified
  | updateCksumVerification clientId filename verified =>
    exact h.updateCksumVerification env.now clientId filename verified
  | deleteFileOfClient clientId filename => exact h.deleteFileOfClient env.now clientId filename
  | mkdir path | writeFile path content | remove path =>
    simp only [ServerCalls.hostCall, onDisk_database]
    exact h
  | clientAddFile clientId filePath file | fileMapPop filePath =>
    simp only [ServerCalls.hostCall]
    split <;> exact h
  | clientRemoveFile clientId filePath =>
    simp only [ServerCalls.hostCall]
    split
    · split_ifs <;> exact h
    · exact h
  | _ => exact h

section Handlers

variable (w : World δ) {request : Request}

def admits (db : Database) (clientId : Bytes) : Bool :=
  !faults 0 (.clientExistsById clientId) && db.clientExistsById clientId

theorem run_faulty_turnedAway (request : Request) :
    run (faultyMachine E env d faults) (turnedAway request) (w, 0) =
      if request.code = clientCodeRegister then (.ok false, (w, 0))
      else (.ok (!admits faults w.server.database request.clientId), (w, 1)) := by
  by_cases hc : request.code = clientCodeRegister
  · simp [turnedAway, hc]
  · cases hf : faults 0 (.clientExistsById request.clientId) <;>
      simp [turnedAway, hc, faulty_host, swallowed, hostCall, admits, hf]

variable {faults} in
theorem Keyed.idLength_of_admits {db : Database} (h : Keyed db) {clientId : Bytes}
    (ha : admits faults db clientId = true) : clientId.length = 16 := by
  obtain ⟨row, hrow, rfl⟩ := Database.clientExistsById_iff.mp (Bool.and_eq_true_iff.mp ha).2
  exact h.idLength row hrow

def refuses (db : Database) (clientName : Str) : Bool :=
  !faults 0 (.clientExistsByName clientName) && db.clientExistsByName clientName

variable {payload : Bytes} {clientName : Str}

theorem run_faulty_refused (h : decodeUtf8 payload = some clientName)
    (hn : refuses faults w.server.database (stripNul clientName) = true) :
    run (faultyMachine E env d faults) (handleClientRegistration payload) (w, 0) =
      (.ok (), ({ w with
        conn := w.conn.push (responseHead serverCodeRegistrationErr 0 (uuidField [])) }, 1)) := by
  have hcode : serverCodeRegistrationErr < 65536 := by decide
  simp only [refuses, Bool.and_eq_true, Bool.not_eq_true'] at hn
  simp [handleClientRegistration, decode, hostCall, h, hn, faulty_host, swallowed,
    run_faulty_respond E env d faults _ _ hcode]

theorem run_faulty_registered (h : decodeUtf8 payload = some clientName)
    (hn : refuses faults w.server.database (stripNul clientName) = false) :
    run (faultyMachine E env d faults) (handleClientRegistration payload) (w, 0) =
      (.ok (), (
        { server := { w.server with
            database :=
              if faults 1 (.insertNewClient (stripNul clientName) env.uuid) then w.server.database
              else w.server.database.insertNewClient env.now (stripNul clientName) env.uuid
            clientMap := Function.update w.server.clientMap env.uuid
              (some (.new env.uuid (stripNul clientName))) }
          conn := w.conn.push (responseHead serverCodeRegistrationOk 0 env.uuid) }, 2)) := by
  have hcode : serverCodeRegistrationOk < 65536 := by decide
  have hfound : (if faults 0 (.clientExistsByName (stripNul clientName)) = true then none
      else some (w.server.database.clientExistsByName (stripNul clientName))) ≠ some true := by
    intro hfound
    simp only [ite_eq_iff, reduceCtorEq, and_false, Option.some.injEq, false_or] at hfound
    simp [refuses, hfound] at hn
  simp [handleClientRegistration, decode, hostCall, h, hfound, newResponse_nil hcode,
    uuidField_eq env.uuid_length, sendResponse, faulty_host, swallowed, ok_ite,
    pack_response hcode Nat.ofNat_pos env.uuid_length]
  split_ifs <;> rfl

variable {filename : Str}

theorem run_faulty_cksumOk (h : filenameOf E (w.conn.recv d 255).1 = some filename) :
    run (faultyMachine E env d faults) (handleCksumOk E request) (w, 1) =
      (.ok (), (
        { server := { w.server with
            database :=
              if faults 2 (.updateCksumVerification request.clientId filename true) then
                w.server.database
              else w.server.database.updateCksumVerification env.now request.clientId filename true }
          conn := (w.conn.recv d 255).2.push
            (responseHead serverCodeMessageReceived 0 (uuidField request.clientId)) }, 3)) := by
  have hcode : serverCodeMessageReceived < 65536 := by decide
  simp [handleCksumOk, hostCall, filenameLength, run_readFilename, h,
    run_faulty_respond E env d faults _ _ hcode, faulty_host, swallowed, ok_ite]
  split_ifs <;> rfl

theorem run_faulty_cksumOk_undecodable (h : filenameOf E (w.conn.recv d 255).1 = none) :
    run (faultyMachine E env d faults) (handleCksumOk E request) (w, 1) =
      (.ok (), ({ w with conn := (w.conn.recv d 255).2 }, 2)) := by
  simp [handleCksumOk, hostCall, filenameLength, run_readFilename, h, faulty_host, swallowed, ok_ite]

theorem run_faulty_cksumErr :
    (run (faultyMachine E env d faults) (handleCksumErr request) (w, 1)).2.1 =
      { w with conn := (w.conn.recv d 255).2 } := by
  cases h : decodeUtf8 (w.conn.recv d 255).1 <;>
    simp [handleCksumErr, cksumErrNotice, decode, hostCall, filenameLength, h, faulty_host,
      swallowed, ok_ite]

/-- The disk after `if os.path.exists(file_path): os.remove(file_path)`. -/
def removed (disk : δ) (path : Str) : Option δ :=
  if FileSystem.pathExists disk path then FileSystem.remove disk path else some disk

theorem run_faulty_removeStored (path : Str) (n : ℕ) :
    run (faultyMachine E env d faults) (removeStored path) (w, n) =
      ((onDisk w.server (removed w.server.disk path)).1,
        ({ w with server := (onDisk w.server (removed w.server.disk path)).2 }, n)) := by
  by_cases hp : FileSystem.pathExists w.server.disk path = true <;>
    simp [removeStored, faulty_host, swallowed, hostCall, removed, hp, onDisk]

theorem run_faulty_cksumErrFinal (h : filenameOf E (w.conn.recv d 255).1 = some filename)
    {disk : δ} (hdisk : removed w.server.disk (filePath request.clientId filename) = some disk) :
    run (faultyMachine E env d faults) (handleCksumErrFinal E request) (w, 1) =
      (.ok (), (
        { server :=
          { database :=
              if faults 2 (.deleteFileOfClient request.clientId filename) then w.server.database
              else w.server.database.deleteFileOfClient env.now request.clientId filename
            disk := disk
            clientMap := Function.update w.server.clientMap request.clientId
              ((w.server.clientMap request.clientId).map (fun client =>
                client.removeFile (filePath request.clientId filename)))
            fileMap := Function.update w.server.fileMap (filePath request.clientId filename) none }
          conn := (w.conn.recv d 255).2.push
            (responseHead serverCodeMessageReceived 0 (uuidField request.clientId)) }, 3)) := by
  have hcode : serverCodeMessageReceived < 65536 := by decide
  have howned (path : Str) (w : World δ) (n : ℕ) :
      run (faultyMachine E env d faults) (forgetOwned request.clientId path) (w, n) = _ :=
    run_faulty_sure E env d faults w n (within_forgetOwned rfl rfl)
  have hfile (path : Str) (w : World δ) (n : ℕ) :
      run (faultyMachine E env d faults) (forgetFile path) (w, n) = _ :=
    run_faulty_sure E env d faults w n (within_forgetFile rfl rfl)
  simp only [run_forgetOwned, run_forgetFile] at howned hfile
  simp [handleCksumErrFinal, deleteFile, hostCall, filenameLength, run_readFilename, h,
    run_faulty_removeStored, hdisk, onDisk, howned, hfile,
    run_faulty_respond E env d faults _ _ hcode, faulty_host, swallowed, ok_ite]
  split_ifs <;> simp

theorem run_faulty_cksumErrFinal_stuck
    (h : ∀ filename, filenameOf E (w.conn.recv d 255).1 = some filename →
      removed w.server.disk (filePath request.clientId filename) = none) :
    (run (faultyMachine E env d faults) (handleCksumErrFinal E request) (w, 1)).2.1.conn =
      (w.conn.recv d 255).2 := by
  cases hf : filenameOf E (w.conn.recv d 255).1 with
  | none => simp [handleCksumErrFinal, filenameLength, run_readFilename, hf]
  | some filename =>
    simp [handleCksumErrFinal, deleteFile, hostCall, filenameLength, run_readFilename, hf,
      run_faulty_removeStored, h filename hf, onDisk, faulty_host, swallowed, ok_ite]

/-- The disk after `os.mkdir(dir_name)` where the directory is missing. -/
def madeDir (disk : δ) (dirName : Str) : Option δ :=
  if FileSystem.pathExists disk dirName then some disk else FileSystem.mkdir disk dirName

theorem run_faulty_makeDir (dirName : Str) (n : ℕ) :
    run (faultyMachine E env d faults) (makeDir dirName) (w, n) =
      ((onDisk w.server (madeDir w.server.disk dirName)).1,
        ({ w with server := (onDisk w.server (madeDir w.server.disk dirName)).2 }, n)) := by
  by_cases hp : FileSystem.pathExists w.server.disk dirName = true <;>
    simp [makeDir, faulty_host, swallowed, hostCall, madeDir, hp, onDisk]

/-- The disk after an upload is written, and what is read back of it. -/
def saved (disk : δ) (clientId : Bytes) (filename : Str) (content : Bytes) :
    Option (δ × Bytes) := do
  let disk ← madeDir disk filesDir
  let disk ← madeDir disk (clientDir clientId)
  let disk ← FileSystem.writeFile disk (filePath clientId filename) content
  let stored ← FileSystem.readFile disk (filePath clientId filename)
  pure (disk, stored)

def recorded (now : Str) (clientId : Bytes) (filename : Str) (db : Database) : Database :=
  if faults 3 (.fileExists clientId filename) = false ∧ db.fileExists clientId filename then
    if faults 4 (.updateCksumVerification clientId filename false) then db
    else db.updateCksumVerification now clientId filename false
  else
    if faults 4 (.insertFileDetails clientId filename (filePath clientId filename) false) then db
    else db.insertFileDetails now clientId filename (filePath clientId filename) false

theorem run_faulty_recordFile (clientId : Bytes) (filename : Str) :
    run (faultyMachine E env d faults)
        (recordFile clientId filename (filePath clientId filename)) (w, 3) =
      (.ok (), ({ w with server := { w.server with
        database := recorded faults env.now clientId filename w.server.database } }, 5)) := by
  cases hf : faults 3 (.fileExists clientId filename) <;>
    cases hx : w.server.database.fileExists clientId filename <;>
    simp [recordFile, faulty_host, swallowed, hostCall, hf, hx, recorded] <;>
    split_ifs <;> rfl

def keepContent (clientId : Bytes) (filename : Str) (content : Bytes) : Proc Unit := do
  makeDir filesDir
  makeDir (clientDir clientId)
  let path := filePath clientId filename
  host (.writeFile path content)
  let file := File.new clientId filename path
  host (.fileMapPut path file)
  host (.clientAddFile clientId path file)
  let stored ← host (.readFile path)
  let cksum ← ofOption .indexError (Cksum.Server.cksumCalc stored)
  recordFile clientId filename path
  sendCksum clientId filename content.length cksum

theorem run_faulty_processFileContent {encrypted content : Bytes}
    (hk : faults 2 (.getAesKeyOfClient request.clientId) = false)
    (h : contentOf E w.server.database request.clientId encrypted = some content) :
    run (faultyMachine E env d faults) (processFileContent E request filename encrypted) (w, 1) =
      (.ok (),
        (run (faultyMachine E env d faults) (keepContent request.clientId filename content)
          (w, 3)).2) := by
  obtain ⟨aesKey, padded, haes, hdec, hunpad⟩ := (contentOf_eq_some E).mp h
  simp [processFileContent, faulty_host, swallowed, hostCall, hk, haes, hdec, hunpad, ok_ite,
    keepContent]

theorem run_faulty_processFileContent_unreadable {encrypted : Bytes}
    (h : faults 2 (.getAesKeyOfClient request.clientId) = true ∨
      contentOf E w.server.database request.clientId encrypted = none) :
    (run (faultyMachine E env d faults) (processFileContent E request filename encrypted)
      (w, 1)).2.1 = w := by
  cases hk : faults 2 (.getAesKeyOfClient request.clientId) with
  | true => simp [processFileContent, faulty_host, swallowed, hostCall, hk, ok_ite]
  | false =>
    have hnone := h.resolve_left (by simp [hk])
    rcases contentOf_eq_none E hnone with haes | ⟨aesKey, haes, hdec⟩ |
      ⟨aesKey, padded, haes, hdec, hunpad⟩
    · simp [processFileContent, faulty_host, swallowed, hostCall, hk, haes, ok_ite]
    · simp [processFileContent, faulty_host, swallowed, hostCall, hk, haes, hdec, ok_ite]
    · simp [processFileContent, faulty_host, swallowed, hostCall, hk, haes, hdec, hunpad, ok_ite]

variable {content : Bytes} {clientId : Bytes}

/-- An upload that is written and small enough is answered with the checksum of what is read
back. -/
theorem run_faulty_keepContent {stored : Bytes} {disk : δ} {cksum : ℕ}
    (hid : clientId.length = 16)
    (hdisk : saved w.server.disk clientId filename content = some (disk, stored))
    (hclient : (w.server.clientMap clientId).isSome = true)
    (hsize : content.length < 4294967296) (hcksum : Cksum.Server.cksumCalc stored = some cksum)
    (hlt : cksum < 4294967296) :
    ∃ clientMap fileMap,
      run (faultyMachine E env d faults) (keepContent clientId filename content) (w, 3) =
        (.ok (), (
          { server := ⟨recorded faults env.now clientId filename w.server.database, disk,
              clientMap, fileMap⟩
            conn := (w.conn.push (responseHead serverCodeCksumReady 0 clientId ++
              leBytes 4 content.length)).push (cksumReport filename cksum) }, 5)) := by
  obtain ⟨client, hclient⟩ := Option.isSome_iff_exists.mp hclient
  simp only [saved, Option.bind_eq_bind, Option.bind_eq_some_iff, Option.pure_def,
    Option.some.injEq, Prod.mk.injEq] at hdisk
  obtain ⟨disk1, h1, disk2, h2, disk3, h3, stored, h4, rfl, rfl⟩ := hdisk
  simp [keepContent, faulty_host, swallowed, hostCall, run_faulty_makeDir, h1, h2, onDisk, h3,
    hclient, h4, orRaise, hcksum, run_faulty_recordFile, sendCksum_eq hid filename hsize hlt]

theorem run_faulty_keepContent_silent
    (h : saved w.server.disk clientId filename content = none ∨
      w.server.clientMap clientId = none ∨ ¬ content.length < 4294967296) :
    (run (faultyMachine E env d faults) (keepContent clientId filename content)
      (w, 3)).2.1.conn = w.conn := by
  cases h1 : madeDir w.server.disk filesDir with
  | none => simp [keepContent, run_faulty_makeDir, h1, onDisk]
  | some disk1 =>
  cases h2 : madeDir disk1 (clientDir clientId) with
  | none => simp [keepContent, run_faulty_makeDir, h1, h2, onDisk]
  | some disk2 =>
  cases h3 : FileSystem.writeFile disk2 (filePath clientId filename) content with
  | none =>
    simp [keepContent, run_faulty_makeDir, h1, h2, onDisk, faulty_host, swallowed, hostCall, h3]
  | some disk3 =>
  cases hclient : w.server.clientMap clientId with
  | none =>
    simp [keepContent, run_faulty_makeDir, h1, h2, onDisk, faulty_host, swallowed, hostCall, h3,
      hclient]
  | some client =>
  cases h4 : FileSystem.readFile disk3 (filePath clientId filename) with
  | none =>
    simp [keepContent, run_faulty_makeDir, h1, h2, onDisk, faulty_host, swallowed, hostCall, h3,
      hclient, h4, orRaise]
  | some stored =>
    have hsize : ¬ content.length < 4294967296 := by
      simpa [saved, h1, h2, h3, h4, hclient] using h
    obtain ⟨cksum, hcksum⟩ := Cksum.cksumCalc_isSome stored
    simp [keepContent, run_faulty_makeDir, h1, h2, onDisk, faulty_host, swallowed, hostCall, h3,
      hclient, h4, orRaise, hcksum, run_faulty_recordFile, sendCksum_oversize _ _ hsize]

end Handlers

section Requests

variable {w : World δ} {request : Request} (payload : Bytes)

theorem faultyHandled_register (hc : request.code = clientCodeRegister) :
    faultyHandled E env d faults request payload w =
      (run (faultyMachine E env d faults) (handleClientRegistration payload) (w, 0)).2.1 := by
  simp [faultyHandled, handleRequest, run_faulty_turnedAway, hc, dispatch]

theorem faultyHandled_admitted (hc : request.code ≠ clientCodeRegister)
    (ha : admits faults w.server.database request.clientId = true) :
    faultyHandled E env d faults request payload w =
      (run (faultyMachine E env d faults) (dispatch E request payload) (w, 1)).2.1 := by
  simp [faultyHandled, handleRequest, run_faulty_turnedAway, hc, ha]

theorem faultyHandled_turnedAway (hc : request.code ≠ clientCodeRegister)
    (ha : admits faults w.server.database request.clientId = false) :
    faultyHandled E env d faults request payload w =
      { w with conn := w.conn.push (responseHead serverCodeRegistrationErr 0 (uuidField [])) } := by
  have hcode : serverCodeRegistrationErr < 65536 := by decide
  simp [faultyHandled, handleRequest, run_faulty_turnedAway, hc, ha, handleClientDoesntExit,
    run_faulty_respond E env d faults _ _ hcode]

theorem faulty_preserves {α : Type} {A : HostCall → Prop} {p : Proc α}
    (hp : Issues (Within True A) p) {P : Server δ → Prop}
    (hA : ∀ c s, A c → P s → P (hostCall E env c s).2) {n : ℕ} (hw : P w.server) :
    P (run (faultyMachine E env d faults) p (w, n)).2.1.server := by
  have hrun : ∀ (c : Call) (s : World δ × ℕ), Within True A c → P s.1.server →
      P (faultyMachine E env d faults c s).2.1.server := by
    intro c s hc hs
    refine flaky_keeps (machine E env d) faults.at (P := fun w : World δ => P w.server) hs
      fun hs => ?_
    cases c with
    | host c => exact hA c s.1.server hc hs
    | _ => exact hs
  exact hp.run_preserves _ (P := fun s : World δ × ℕ => P s.1.server) hrun hw

theorem Keyed.faultyHandled (hw : Keyed w.server.database) :
    Keyed (faultyHandled E env d faults request payload w).server.database := by
  by_cases hc : request.code = clientCodeRegister
  · rw [faultyHandled_register E env d faults payload hc]
    cases hname : decodeUtf8 payload with
    | none => simpa [handleClientRegistration, decode, hname] using hw
    | some name =>
      cases hr : refuses faults w.server.database (stripNul name) with
      | true =>
        rw [run_faulty_refused E env d faults w hname hr]
        exact hw
      | false =>
        rw [run_faulty_registered E env d faults w hname hr]
        simp only
        split_ifs
        · exact hw
        · exact hw.insertNewClient env.now _ env.uuid_length
  · have hk : kindOf request.code ≠ .register := mt kindOf_eq_register.mp hc
    exact faulty_preserves E env d faults (P := fun s => Keyed s.database)
      (footprint_handleRequest E request payload) (fun c s hc hs => hs.hostCall E env hk hc) hw

/-- The calls of a start. -/
def Loads : HostCall → Prop
  | .clearMaps | .getClientList | .getFileList | .clientMapPut _ _ | .fileMapPut _ _
  | .clientAddFile _ _ _ => True
  | _ => False

theorem within_forM {α : Type} {reads : Prop} {A : HostCall → Prop} {p : α → Proc Unit}
    (h : ∀ a, Issues (Within reads A) (p a)) (as : List α) :
    Issues (Within reads A) (as.forM p) := by
  induction as with
  | nil => exact within_pure ()
  | cons a as ih => exact .bind (h a) fun _ => ih

theorem loads_loadDataFromDatabase : Issues (Within True Loads) loadDataFromDatabase := by
  apply within_guarded
  refine .bind (within_host trivial) fun _ => .bind (within_host trivial) fun clients => ?_
  refine .bind (.ofOption _ _) fun clients => ?_
  refine .bind (within_forM (fun item => within_host trivial) clients) fun _ => ?_
  refine .bind (within_host trivial) fun files => .bind (.ofOption _ _) fun files => ?_
  exact within_forM (fun item => .bind (within_host trivial) fun _ => within_host trivial) files

theorem faultyRestarted_database (s : Server δ) (conn : Conn) :
    (faultyRestarted E env d faults s conn).server.database = s.database := by
  refine faulty_preserves E env d faults (P := fun s' => s'.database = s.database)
    loads_loadDataFromDatabase ?_ rfl
  intro c s' hc hs'
  cases c with
  | clientAddFile clientId filePath file =>
    simp only [hostCall]
    split <;> exact hs'
  | clearMaps | getClientList | getFileList | clientMapPut clientId client
  | fileMapPut filePath file => exact hs'
  | _ => cases hc

theorem FaultyRun.keyed {E : Externals} {s : Server δ} (h : FaultyRun E s) : Keyed s.database := by
  induction h with
  | start disk =>
    have hno {α : Type} (row : α) : row ∉ ([] : List α) := List.not_mem_nil
    exact ⟨fun row hrow => absurd hrow (hno row), fun row hrow => absurd hrow (hno row)⟩
  | request env d faults request payload conn h ih =>
    exact ih.faultyHandled E env d faults payload
  | restart env d faults conn h ih =>
    rw [faultyRestarted_database]
    exact ih

end Requests

end EncryptedTransfer.FaultyDatabase
