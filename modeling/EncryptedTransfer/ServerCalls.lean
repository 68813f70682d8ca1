import EncryptedTransfer.Interaction
import EncryptedTransfer.ServerStores

/-!
# The calls of the server's handlers

Every call is one atomic step: a `Database` method, an operation on the disk or on a map,
a draw of randomness, or a read or write of the connection.
-/
namespace EncryptedTransfer.ServerCalls
open ByteFormats Text ServerStores Interaction

/-- The exceptions the handlers catch. -/
inductive PyError where
  | structError
  | unicodeDecodeError
  | typeError
  | valueError
  | keyError
  | attributeError
  | indexError
  | osError
  | connectionError
  deriving DecidableEq, Repr

/-- Code the repository calls and does not contain: Python's `str.lower`, PyCryptodome on
the server, Crypto++ on the client. `none` is a raised exception. -/
structure Externals where
  lower : Str → Str
  /-- `AES.new(key, MODE_CBC, iv=0).decrypt(data)`. -/
  aesDecrypt : Bytes → Bytes → Option Bytes
  /-- `unpad(data, AES.block_size)`. -/
  unpad : Bytes → Option Bytes
  /-- Whether `RSA.importKey` accepts the key. -/
  importKey : Bytes → Bool
  /-- `PKCS1_OAEP.new(key).encrypt(plain)` with its random seed as first argument. -/
  oaepEncrypt : Bytes → Bytes → Bytes → Option Bytes
  /-- `AESWrapper::encrypt` under a key of the right length. -/
  aesEncrypt : Bytes → Bytes → Bytes
  /-- `RSAPrivateWrapper(key).decrypt(cipher)`. -/
  oaepDecrypt : Bytes → Bytes → Option Bytes
  base64Encode : Bytes → Bytes
  base64Decode : Bytes → Bytes

/-- The random draws and the clock during one step. -/
structure Draws where
  uuid : Bytes
  uuid_length : uuid.length = 16
  random : ℕ → Bytes
  random_length : ∀ n, (random n).length = n
  seed : Bytes
  now : Str

inductive HostCall where
  | clientExistsByName (clientName : Str)
  | clientExistsById (clientId : Bytes)
  | getClientName (clientId : Bytes)
  | getClientList
  | fileExists (clientId : Bytes) (filename : Str)
  | getFileList
  | insertNewClient (clientName : Str) (clientId : Bytes)
  | insertKeysOfClient (clientName : Str) (publicKey aesKey : Bytes)
  | getAesKeyOfClient (clientId : Bytes)
  | insertFileDetails (clientId : Bytes) (filename pathname : Str) (verified : Bool)
  | updateCksumVerification (clientId : Bytes) (filename : Str) (verified : Bool)
  | deleteFileOfClient (clientId : Bytes) (filename : Str)
  | pathExists (path : Str)
  | mkdir (path : Str)
  | writeFile (path : Str) (content : Bytes)
  | readFile (path : Str)
  | remove (path : Str)
  | clearMaps
  | clientMapPut (clientId : Bytes) (client : Client)
  | clientMapGet (clientId : Bytes)
  | clientAddFile (clientId : Bytes) (filePath : Str) (file : File)
  | clientRemoveFile (clientId : Bytes) (filePath : Str)
  | fileMapPut (filePath : Str) (file : File)
  | fileMapGet (filePath : Str)
  | fileMapPop (filePath : Str)
  | uuid4
  | getRandomBytes (n : ℕ)
  | oaepEncrypt (publicKey plain : Bytes)

/-- The answers; `none` of a query of `Database` is a `None` it returns after an error. -/
abbrev HostCall.Answer : HostCall → Type
  | clientExistsByName _ | clientExistsById _ | fileExists _ _ => Option Bool
  | getClientName _ => Option Str
  | getClientList => Option (List (Bytes × Str))
  | getFileList => Option (List (Bytes × Str × Str))
  | getAesKeyOfClient _ => Option Bytes
  | pathExists _ => Bool
  | readFile _ | uuid4 | getRandomBytes _ | oaepEncrypt _ _ => Bytes
  | clientMapGet _ => Option Client
  | fileMapGet _ => Option File
  | _ => Unit

inductive Call where
  | recv (n : ℕ)
  | send (data : Bytes)
  | host (c : HostCall)

abbrev Call.Answer : Call → Type
  | recv _ => Bytes
  | send _ => Unit
  | host c => c.Answer

abbrev calls : Interface := ⟨Call, Call.Answer⟩

abbrev Proc (α : Type) := Program calls PyError α

variable {δ : Type}

/-- A disk operation that raises where the file system gives `none`. -/
def onDisk (s : Server δ) (r : Option δ) : Except PyError Unit × Server δ :=
  match r with
  | some disk => (.ok (), { s with disk := disk })
  | none => (.error .osError, s)

@[simp] theorem onDisk_database (s : Server δ) (r : Option δ) :
    (onDisk s r).2.database = s.database := by
  cases r <;> rfl

def orRaise {α : Type} (e : PyError) (r : Option α) : Except PyError α :=
  match r with
  | some a => .ok a
  | none => .error e

variable [FileSystem δ]

/-- One call on the shared stores, with no fault of the database or the disk. -/
def hostCall (E : Externals) (env : Draws) :
    (c : HostCall) → Server δ → Except PyError c.Answer × Server δ
  | .clientExistsByName clientName, s =>
    (.ok (some (s.database.clientExistsByName clientName)), s)
  | .clientExistsById clientId, s => (.ok (some (s.database.clientExistsById clientId)), s)
  | .getClientName clientId, s => (.ok (s.database.getClientName clientId), s)
  | .getClientList, s => (.ok (some s.database.getClientList), s)
  | .fileExists clientId filename, s =>
    (.ok (some (s.database.fileExists clientId filename)), s)
  | .getFileList, s => (.ok (some s.database.getFileList), s)
  | .insertNewClient clientName clientId, s =>
    (.ok (), { s with database := s.database.insertNewClient env.now clientName clientId })
  | .insertKeysOfClient clientName publicKey aesKey, s =>
    (.ok (), { s with
      database := s.database.insertKeysOfClient env.now clientName publicKey aesKey })
  | .getAesKeyOfClient clientId, s => (.ok (s.database.getAesKeyOfClient clientId), s)
  | .insertFileDetails clientId filename pathname verified, s =>
    (.ok (), { s with
      database := s.database.insertFileDetails env.now clientId filename pathname verified })
  | .updateCksumVerification clientId filename verified, s =>
    (.ok (), { s with
      database := s.database.updateCksumVerification env.now clientId filename verified })
  | .deleteFileOfClient clientId filename, s =>
    (.ok (), { s with database := s.database.deleteFileOfClient env.now clientId filename })
  | .pathExists path, s => (.ok (FileSystem.pathExists s.disk path), s)
  | .mkdir path, s => onDisk s (FileSystem.mkdir s.disk path)
  | .writeFile path content, s => onDisk s (FileSystem.writeFile s.disk path content)
  | .readFile path, s => (orRaise .osError (FileSystem.readFile s.disk path), s)
  | .remove path, s => onDisk s (FileSystem.remove s.disk path)
  | .clearMaps, s => (.ok (), { s with clientMap := fun _ => none, fileMap := fun _ => none })
  | .clientMapPut clientId client, s =>
    (.ok (), { s with clientMap := Function.update s.clientMap clientId (some client) })
  | .clientMapGet clientId, s => (.ok (s.clientMap clientId), s)
  | .clientAddFile clientId filePath file, s =>
    match s.clientMap clientId with
    | some client => (.ok (), { s with
        clientMap := Function.update s.clientMap clientId (some (client.addFile filePath file)) })
    | none => (.error .keyError, s)
  | .clientRemoveFile clientId filePath, s =>
    match s.clientMap clientId with
    | some client =>
      if (client.files filePath).isSome then
        (.ok (), { s with
          clientMap := Function.update s.clientMap clientId (some (client.removeFile filePath)) })
      else (.error .keyError, s)
    | none => (.error .attributeError, s)
  | .fileMapPut filePath file, s =>
    (.ok (), { s with fileMap := Function.update s.fileMap filePath (some file) })
  | .fileMapGet filePath, s => (.ok (s.fileMap filePath), s)
  | .fileMapPop filePath, s =>
    if (s.fileMap filePath).isSome then
      (.ok (), { s with fileMap := Function.update s.fileMap filePath none })
    else (.error .keyError, s)
  | .uuid4, s => (.ok env.uuid, s)
  | .getRandomBytes n, s => (.ok (env.random n), s)
  | .oaepEncrypt publicKey plain, s =>
    (orRaise .valueError (E.oaepEncrypt env.seed publicKey plain), s)

/-- One side of a connection: the bytes still to be read, the number of reads made, what
each read returned, and what was sent. -/
structure Conn where
  inbox : Bytes
  reads : ℕ
  received : List Bytes
  sent : List Bytes
  deriving DecidableEq

/-- How the network hands over the stream: `none` gives a read all it asks for, `some c` at
most `c` bytes (but not none while there are any). -/
abbrev Delivery := ℕ → Option ℕ

/-- Every read is given all it asks for. -/
def Delivery.whole : Delivery := fun _ => none

def Delivery.amount (d : Delivery) (conn : Conn) (n : ℕ) : ℕ :=
  match d conn.reads with
  | none => min n conn.inbox.length
  | some c => min (min n conn.inbox.length) (max 1 c)

def Conn.recv (d : Delivery) (conn : Conn) (n : ℕ) : Bytes × Conn :=
  let data := conn.inbox.take (d.amount conn n)
  (data, { conn with
    inbox := conn.inbox.drop (d.amount conn n)
    reads := conn.reads + 1
    received := conn.received ++ [data] })

def Conn.push (conn : Conn) (data : Bytes) : Conn := { conn with sent := conn.sent ++ [data] }

structure World (δ : Type) where
  server : Server δ
  conn : Conn

/-- A session's machine: the host without faults and its own connection. -/
def machine (E : Externals) (env : Draws) (d : Delivery) :
    Program.Machine calls PyError (World δ)
  | .recv n, w => (.ok (w.conn.recv d n).1, { w with conn := (w.conn.recv d n).2 })
  | .send data, w => (.ok (), { w with conn := w.conn.push data })
  | .host c, w => ((hostCall E env c w.server).1, { w with server := (hostCall E env c w.server).2 })

@[simp] theorem machine_recv (E : Externals) (env : Draws) (d : Delivery) (n : ℕ) (w : World δ) :
    machine E env d (.recv n) w =
      (.ok (w.conn.recv d n).1, { w with conn := (w.conn.recv d n).2 }) := rfl

@[simp] theorem machine_send (E : Externals) (env : Draws) (d : Delivery) (data : Bytes)
    (w : World δ) : machine E env d (.send data) w =
      (.ok (), { w with conn := w.conn.push data }) := rfl

@[simp] theorem machine_host (E : Externals) (env : Draws) (d : Delivery) (c : HostCall)
    (w : World δ) : machine E env d (.host c) w =
      ((hostCall E env c w.server).1, { w with server := (hostCall E env c w.server).2 }) := rfl

theorem recv_whole (conn : Conn) (n : ℕ) :
    conn.recv .whole n = (conn.inbox.take n, { conn with
      inbox := conn.inbox.drop n
      reads := conn.reads + 1
      received := conn.received ++ [conn.inbox.take n] }) := by
  have h : Delivery.whole.amount conn n = min n conn.inbox.length := rfl
  have ht : conn.inbox.take (min n conn.inbox.length) = conn.inbox.take n := by
    rw [List.take_eq_take_iff]
    omega
  have hd : conn.inbox.drop (min n conn.inbox.length) = conn.inbox.drop n := by
    rcases le_total n conn.inbox.length with hn | hn
    · rw [min_eq_left hn]
    · rw [min_eq_right hn, List.drop_length, List.drop_of_length_le hn]
  simp only [Conn.recv, h, ht, hd]

end EncryptedTransfer.ServerCalls
