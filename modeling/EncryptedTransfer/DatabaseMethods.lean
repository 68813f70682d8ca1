import EncryptedTransfer.AtomicMethods
import EncryptedTransfer.GateFailures
import EncryptedTransfer.ServerThreads

/-!
# The methods of `database.py`

Each method opens a connection of its own to `server.db`, executes one statement or two, commits
and closes the connection. The threads of the server run these methods statement by statement
over one data base, and every statement may fail.
-/
namespace EncryptedTransfer.DatabaseMethods
open ByteFormats Text ServerStores ServerCalls ServerHandlers ServerThreads FaultyDatabase
open Transactions ThreadPools Interaction Program

inductive Write where
  /-- `INSERT INTO clients (client_id, client_name, last_seen) VALUES(?, ?, ?)`. -/
  | insertClient (clientId : Bytes) (clientName lastSeen : Str)
  /-- `UPDATE clients SET public_key = ?, AES_key = ?, last_seen = ? WHERE client_name = ?`. -/
  | updateKeys (publicKey aesKey : Bytes) (lastSeen clientName : Str)
  /-- `UPDATE clients SET last_seen = ? WHERE client_id = ?`. -/
  | updateLastSeen (lastSeen : Str) (clientId : Bytes)
  /-- `INSERT INTO files (client_id, filename, pathname, verified) VALUES(?, ?, ?, ?)`. -/
  | insertFile (clientId : Bytes) (filename pathname : Str) (verified : Bool)
  /-- `UPDATE files SET verified = ? WHERE client_id = ? AND filename = ?`. -/
  | updateVerified (verified : Bool) (clientId : Bytes) (filename : Str)
  /-- `DELETE FROM files WHERE client_id = ? AND filename = ?`. -/
  | deleteFile (clientId : Bytes) (filename : Str)

inductive Query where
  /-- `SELECT * FROM clients where client_name = ?`. -/
  | clientsByName (clientName : Str)
  /-- `SELECT * FROM clients where client_id = ?`. -/
  | clientsById (clientId : Bytes)
  /-- `SELECT client_name FROM clients where client_id = ?`. -/
  | nameById (clientId : Bytes)
  /-- `SELECT * FROM clients`. -/
  | clients
  /-- `SELECT * FROM files where client_id = ? AND filename = ?`. -/
  | filesByName (clientId : Bytes) (filename : Str)
  /-- `SELECT * FROM files`. -/
  | files
  /-- `SELECT AES_key FROM clients where client_id = ?`. -/
  | keyById (clientId : Bytes)

inductive Row where
  | client (row : ClientRow)
  | name (clientName : Str)
  | key (aesKey : Option Bytes)
  | file (row : FileRow)

/-- A row whose primary key is taken is refused. -/
def write : Write → Database → Option Database
  | .insertClient clientId clientName lastSeen, db =>
    if db.clients.any (fun row => row.clientId = clientId) then none
    else some { db with
      clients := db.clients ++ [⟨clientId, clientName, none, some lastSeen, none⟩] }
  | .updateKeys publicKey aesKey lastSeen clientName, db =>
    some { db with clients := db.clients.map fun row =>
      if row.clientName = clientName then
        { row with publicKey := some publicKey, aesKey := some aesKey, lastSeen := some lastSeen }
      else row }
  | .updateLastSeen lastSeen clientId, db =>
    some { db with clients := db.clients.map fun row =>
      if row.clientId = clientId then { row with lastSeen := some lastSeen } else row }
  | .insertFile clientId filename pathname verified, db =>
    if db.files.any (fun row => row.pathname = pathname) then none
    else some { db with files := db.files ++ [⟨clientId, filename, pathname, verified⟩] }
  | .updateVerified verified clientId filename, db =>
    some { db with files := db.files.map fun row =>
      if row.clientId = clientId ∧ row.filename = filename then { row with verified := verified }
      else row }
  | .deleteFile clientId filename, db =>
    some { db with files := db.files.filter fun row =>
      ¬ (row.clientId = clientId ∧ row.filename = filename) }

def select : Query → Database → List Row
  | .clientsByName clientName, db =>
    (db.clients.filter fun row => row.clientName = clientName).map .client
  | .clientsById clientId, db =>
    (db.clients.filter fun row => row.clientId = clientId).map .client
  | .nameById clientId, db =>
    (db.clients.filter fun row => row.clientId = clientId).map fun row => .name row.clientName
  | .clients, db => db.clients.map .client
  | .filesByName clientId filename, db =>
    (db.files.filter fun row => row.clientId = clientId ∧ row.filename = filename).map .file
  | .files, db => db.files.map .file
  | .keyById clientId, db =>
    (db.clients.filter fun row => row.clientId = clientId).map fun row => .key row.aesKey

abbrev sqlite : Engine := ⟨Database, Write, Query, Row, write, select⟩

/-- `server.db` among the stores. -/
abbrev serverDb (δ : Type) : Place sqlite (Server δ) :=
  ⟨Server.database, fun s db => { s with database := db }, fun _ _ => rfl, fun _ => rfl⟩

/-- An error of SQLite is one of its own; `None.close()` is an `AttributeError`. -/
abbrev errors : Errors PyError := ⟨.osError, .attributeError⟩

abbrev DbMethod (α : Type) := Method sqlite PyError Str α

/-- `if not results: return False; return True`. -/
def existsMethod (statement : Query) : DbMethod (Option Bool) :=
  .query statement (fun results => .ok (some (!results.isEmpty))) none

def clientExistsByName (clientName : Str) : DbMethod (Option Bool) :=
  existsMethod (.clientsByName clientName)

def clientExistsById (clientId : Bytes) : DbMethod (Option Bool) :=
  existsMethod (.clientsById clientId)

def fileExists (clientId : Bytes) (filename : Str) : DbMethod (Option Bool) :=
  existsMethod (.filesByName clientId filename)

/-- `False`, here `none`, where there is no row and after an error. -/
def getClientName (clientId : Bytes) : DbMethod (Option Str) :=
  .query (.nameById clientId) (fun results =>
    match results with
    | [] => .ok none
    | .name clientName :: _ => .ok (some clientName)
    | _ :: _ => .error .typeError) none

def clientItem : Row → Option (Bytes × Str)
  | .client row => some (row.clientId, row.clientName)
  | _ => none

def fileItem : Row → Option (Bytes × Str × Str)
  | .file row => some (row.clientId, row.filename, row.pathname)
  | _ => none

def getClientList : DbMethod (Option (List (Bytes × Str))) :=
  .query .clients (fun results => .ok (some (results.filterMap clientItem))) none

def getFileList : DbMethod (Option (List (Bytes × Str × Str))) :=
  .query .files (fun results => .ok (some (results.filterMap fileItem))) none

/-- `return results[0][0]`, an `IndexError` where there is no row. -/
def getAesKeyOfClient (clientId : Bytes) : DbMethod (Option Bytes) :=
  .query (.keyById clientId) (fun results =>
    match results with
    | [] => .error .indexError
    | .key aesKey :: _ => .ok aesKey
    | _ :: _ => .error .typeError) none

def insertNewClient (clientName : Str) (clientId : Bytes) : DbMethod Unit :=
  .update (fun dateTime => [.insertClient clientId clientName dateTime]) ()

def insertKeysOfClient (clientName : Str) (publicKey aesKey : Bytes) : DbMethod Unit :=
  .update (fun dateTime => [.updateKeys publicKey aesKey dateTime clientName]) ()

def insertFileDetails (clientId : Bytes) (filename pathname : Str) (verified : Bool) :
    DbMethod Unit :=
  .update (fun dateTime =>
    [.insertFile clientId filename pathname verified, .updateLastSeen dateTime clientId]) ()

def updateCksumVerification (clientId : Bytes) (filename : Str) (verified : Bool) :
    DbMethod Unit :=
  .update (fun dateTime =>
    [.updateVerified verified clientId filename, .updateLastSeen dateTime clientId]) ()

def deleteFileOfClient (clientId : Bytes) (filename : Str) : DbMethod Unit :=
  .update (fun dateTime =>
    [.deleteFile clientId filename, .updateLastSeen dateTime clientId]) ()

/-- The calls of the handlers that are methods of `Database`. -/
def method : (c : Call) → Option (DbMethod c.Answer)
  | .host (.clientExistsByName clientName) => some (clientExistsByName clientName)
  | .host (.clientExistsById clientId) => some (clientExistsById clientId)
  | .host (.getClientName clientId) => some (getClientName clientId)
  | .host .getClientList => some getClientList
  | .host (.fileExists clientId filename) => some (fileExists clientId filename)
  | .host .getFileList => some getFileList
  | .host (.insertNewClient clientName clientId) => some (insertNewClient clientName clientId)
  | .host (.insertKeysOfClient clientName publicKey aesKey) =>
    some (insertKeysOfClient clientName publicKey aesKey)
  | .host (.getAesKeyOfClient clientId) => some (getAesKeyOfClient clientId)
  | .host (.insertFileDetails clientId filename pathname verified) =>
    some (insertFileDetails clientId filename pathname verified)
  | .host (.updateCksumVerification clientId filename verified) =>
    some (updateCksumVerification clientId filename verified)
  | .host (.deleteFileOfClient clientId filename) => some (deleteFileOfClient clientId filename)
  | _ => none

theorem method_isSome (c : Call) : (method c).isSome = (swallowed c).isSome := by
  cases c with
  | host c => cases c <;> rfl
  | _ => rfl

variable {δ : Type}

def atTime (now : Str) (x : ServerThreads.Input) : ServerThreads.Input :=
  { x with env := { x.env with now := now } }

section Works

variable (now : Str) (s : Server δ)

abbrev works {α : Type} (m : DbMethod α) : Except PyError α × Server δ :=
  m.atomically (serverDb δ) errors .works now s

theorem any_eq_filter {α : Type} (p : α → Bool) (l : List α) :
    l.any p = !(l.filter p).isEmpty := by
  induction l with
  | nil => rfl
  | cons a l ih => cases h : p a <;> simp [h, ih]

theorem works_existsMethod {statement : Query} {found : Bool}
    (h : (!(select statement s.database).isEmpty) = found) :
    works now s (existsMethod statement) = (.ok (some found), s) := by
  simp only [existsMethod, Method.atomically, answerTo, h]

theorem works_clientExistsByName (clientName : Str) :
    works now s (clientExistsByName clientName) =
      (.ok (some (s.database.clientExistsByName clientName)), s) := by
  apply works_existsMethod
  rw [Database.clientExistsByName, any_eq_filter, select, List.isEmpty_map]

theorem works_clientExistsById (clientId : Bytes) :
    works now s (clientExistsById clientId) =
      (.ok (some (s.database.clientExistsById clientId)), s) := by
  apply works_existsMethod
  rw [Database.clientExistsById, any_eq_filter, select, List.isEmpty_map]

theorem works_fileExists (clientId : Bytes) (filename : Str) :
    works now s (fileExists clientId filename) =
      (.ok (some (s.database.fileExists clientId filename)), s) := by
  apply works_existsMethod
  rw [Database.fileExists, any_eq_filter, select, List.isEmpty_map]

theorem works_getClientName (clientId : Bytes) : works now s (getClientName clientId) =
    (.ok (s.database.getClientName clientId), s) := by
  have h : s.database.getClientName clientId =
      ((s.database.clients.filter fun row => row.clientId = clientId).head?).map
        ClientRow.clientName := by
    rw [Database.getClientName, List.head?_filter]
  simp only [getClientName, Method.atomically, answerTo, select, h]
  cases s.database.clients.filter fun row => row.clientId = clientId <;> rfl

theorem works_getAesKeyOfClient (clientId : Bytes) : works now s (getAesKeyOfClient clientId) =
    (.ok (s.database.getAesKeyOfClient clientId), s) := by
  have h : s.database.getAesKeyOfClient clientId =
      ((s.database.clients.filter fun row => row.clientId = clientId).head?).bind
        ClientRow.aesKey := by
    rw [Database.getAesKeyOfClient, List.head?_filter]
  simp only [getAesKeyOfClient, Method.atomically, answerTo, select, h]
  cases s.database.clients.filter fun row => row.clientId = clientId <;> rfl

theorem works_getClientList :
    works now s getClientList = (.ok (some s.database.getClientList), s) := by
  have h (rows : List ClientRow) : (rows.map Row.client).filterMap clientItem =
      rows.map fun row => (row.clientId, row.clientName) := by
    induction rows with
    | nil => rfl
    | cons row rows ih => simp [clientItem, ih]
  simp only [getClientList, Method.atomically, answerTo, select, h, Database.getClientList]

theorem works_getFileList :
    works now s getFileList = (.ok (some s.database.getFileList), s) := by
  have h (rows : List FileRow) : (rows.map Row.file).filterMap fileItem =
      rows.map fun row => (row.clientId, row.filename, row.pathname) := by
    induction rows with
    | nil => rfl
    | cons row rows ih => simp [fileItem, ih]
  simp only [getFileList, Method.atomically, answerTo, select, h, Database.getFileList]

theorem works_update (statements : Str → List Write) :
    works now s (.update statements ()) =
      (.ok (), { s with
        database := (sqlite.writeAll (statements now) s.database).getD s.database }) := rfl

theorem works_insertNewClient (clientName : Str) (clientId : Bytes) :
    works now s (insertNewClient clientName clientId) = (.ok (), { s with
      database := s.database.insertNewClient now clientName clientId }) := by
  rw [insertNewClient, works_update]
  by_cases h : s.database.clientExistsById clientId = true
  · have hw : write (.insertClient clientId clientName now) s.database = none := if_pos h
    simp [Engine.writeAll, hw, Database.insertNewClient, h]
  · have hw : write (.insertClient clientId clientName now) s.database = some _ := if_neg h
    simp [Engine.writeAll, hw, Database.insertNewClient, h]

theorem works_insertFileDetails (clientId : Bytes) (filename pathname : Str) (verified : Bool) :
    works now s (insertFileDetails clientId filename pathname verified) = (.ok (), { s with
      database := s.database.insertFileDetails now clientId filename pathname verified }) := by
  rw [insertFileDetails, works_update]
  by_cases h : s.database.files.any (fun row => row.pathname = pathname) = true
  · have hw : write (.insertFile clientId filename pathname verified) s.database = none := if_pos h
    simp only [Engine.writeAll, List.foldlM_cons, hw, Database.insertFileDetails, if_pos h]
    rfl
  · have hw : write (.insertFile clientId filename pathname verified) s.database = some _ :=
      if_neg h
    simp only [Engine.writeAll, List.foldlM_cons, hw, Database.insertFileDetails, if_neg h]
    rfl

end Works

variable [FileSystem δ] (E : Externals)

/-- The stores where each method of `Database` works, prints an error it has caught, or raises. -/
def unreliable (x : Ending × Str × ServerThreads.Input) : Machine calls PyError (Server δ) :=
  fun c s =>
    match swallowed c with
    | none => shared E x.2.2 c s
    | some a =>
      match x.1 with
      | .works => shared E (atTime x.2.1 x.2.2) c s
      | .prints => (.ok a, s)
      | .raises => (.error .attributeError, s)

variable (x : Ending × Str × ServerThreads.Input) (s : Server δ)

theorem atomic_method {c : Call} {m : DbMethod c.Answer} (hm : method c = some m)
    (hfallback : swallowed c = some m.fallback)
    (hworks : works x.2.1 s m = shared E (atTime x.2.1 x.2.2) c s) :
    atomic (serverDb δ) errors method (shared E) x c s = unreliable E x c s := by
  obtain ⟨ending, now, y⟩ := x
  simp only [atomic, hm, unreliable, hfallback]
  cases ending with
  | works => exact hworks
  | prints | raises => rfl

/-- The methods, statement by statement, have the effects and answers of the calls. -/
theorem atomic_eq_unreliable (c : Call) :
    atomic (serverDb δ) errors method (shared E) x c s = unreliable E x c s := by
  cases c with
  | recv n => rfl
  | send data => rfl
  | host c =>
    cases c with
    | clientExistsByName clientName =>
      exact atomic_method E x s rfl rfl (works_clientExistsByName _ s clientName)
    | clientExistsById clientId =>
      exact atomic_method E x s rfl rfl (works_clientExistsById _ s clientId)
    | getClientName clientId =>
      exact atomic_method E x s rfl rfl (works_getClientName _ s clientId)
    | getClientList => exact atomic_method E x s rfl rfl (works_getClientList _ s)
    | fileExists clientId filename =>
      exact atomic_method E x s rfl rfl (works_fileExists _ s clientId filename)
    | getFileList => exact atomic_method E x s rfl rfl (works_getFileList _ s)
    | insertNewClient clientName clientId =>
      exact atomic_method E x s rfl rfl (works_insertNewClient _ s clientName clientId)
    | insertKeysOfClient clientName publicKey aesKey => exact atomic_method E x s rfl rfl rfl
    | getAesKeyOfClient clientId =>
      exact atomic_method E x s rfl rfl (works_getAesKeyOfClient _ s clientId)
    | insertFileDetails clientId filename pathname verified =>
      exact atomic_method E x s rfl rfl
        (works_insertFileDetails _ s clientId filename pathname verified)
    | updateCksumVerification clientId filename verified => exact atomic_method E x s rfl rfl rfl
    | deleteFileOfClient clientId filename => exact atomic_method E x s rfl rfl rfl
    | _ => rfl

theorem shared_database {c : Call} (h : method c = none) (x : ServerThreads.Input) :
    (shared E x c s).2.database = s.database := by
  cases c with
  | recv n => rfl
  | send data => rfl
  | host c =>
    cases c with
    | clientExistsByName | clientExistsById | getClientName | getClientList | fileExists
    | getFileList | insertNewClient | insertKeysOfClient | getAesKeyOfClient
    | insertFileDetails | updateCksumVerification | deleteFileOfClient => cases h
    | mkdir | writeFile | remove => exact onDisk_database _ _
    | clientAddFile clientId filePath file =>
      simp only [shared, hostCall]
      split <;> rfl
    | clientRemoveFile clientId filePath =>
      simp only [shared, hostCall]
      split
      · split_ifs <;> rfl
      · rfl
    | fileMapPop filePath =>
      simp only [shared, hostCall]
      split_ifs <;> rfl
    | _ => rfl

/-- One access of `server.db`, or another call. -/
abbrev statement (x : Transactions.Input Str ServerThreads.Input) :
    Machine (accesses sqlite calls Str) PyError (Connections sqlite (Server δ)) :=
  access (serverDb δ) errors (shared E) x

def statementTurn : Program (accesses sqlite calls Str) PyError Bool :=
  expand errors method (sessionTurn E)

abbrev anything {I : Interface} {ε σ : Type} : Demand I ε σ := fun _ _ _ _ => True

theorem atomic_shared : atomic (serverDb δ) errors method (shared E) = unreliable E := by
  funext x c s
  exact atomic_eq_unreliable E x s c

/-- Statement by statement, in any order of the threads and with any failures, exactly those
stores are reached, by the same calls outside `Database`, that are reached where every method
is one step that works, prints or raises. -/
theorem statements_atomic_iff (s₀ s : Server δ) (trace : Trace calls PyError) :
    (∃ p, Run (statement E) (statementTurn E) anything (.fresh s₀) p ∧ p.state.state = s ∧
        p.trace.filterMap told = trace) ↔
      ∃ q, Run (unreliable E) (sessionTurn E) anything s₀ q ∧ q.state = s ∧
        q.trace.filterMap (shown method) = trace := by
  rw [← atomic_shared]
  exact run_access_iff fun x c s h => shared_database E s h x

end EncryptedTransfer.DatabaseMethods
