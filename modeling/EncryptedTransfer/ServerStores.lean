import Mathlib.Logic.Function.Basic
import EncryptedTransfer.Text

/-!
# The server's four stores

The two tables of `server.db`, the disk, and the maps `__client_map` and `__file_map`.
The methods of `Database` are functions on the tables as SQLite runs their statements;
the disk is any type with the operations of `FileSystem`.
-/
namespace EncryptedTransfer.ServerStores
open ByteFormats Text

structure ClientRow where
  clientId : Bytes
  clientName : Str
  publicKey : Option Bytes
  lastSeen : Option Str
  aesKey : Option Bytes
  deriving DecidableEq

structure FileRow where
  clientId : Bytes
  filename : Str
  pathname : Str
  verified : Bool
  deriving DecidableEq

structure Database where
  clients : List ClientRow
  files : List FileRow
  deriving DecidableEq

namespace Database

def empty : Database := ⟨[], []⟩

def clientExistsByName (db : Database) (clientName : Str) : Bool :=
  db.clients.any (fun row => row.clientName = clientName)

def clientExistsById (db : Database) (clientId : Bytes) : Bool :=
  db.clients.any (fun row => row.clientId = clientId)

/-- `False` (here `none`) where no row is found. -/
def getClientName (db : Database) (clientId : Bytes) : Option Str :=
  (db.clients.find? (fun row => row.clientId = clientId)).map ClientRow.clientName

/-- The columns of `get_client_list` the server reads. -/
def getClientList (db : Database) : List (Bytes × Str) :=
  db.clients.map (fun row => (row.clientId, row.clientName))

def fileExists (db : Database) (clientId : Bytes) (filename : Str) : Bool :=
  db.files.any (fun row => row.clientId = clientId ∧ row.filename = filename)

/-- The columns of `get_file_list` the server reads. -/
def getFileList (db : Database) : List (Bytes × Str × Str) :=
  db.files.map (fun row => (row.clientId, row.filename, row.pathname))

/-- `client_id` is the primary key: a second row with it is refused. -/
def insertNewClient (db : Database) (now clientName : Str) (clientId : Bytes) : Database :=
  if db.clientExistsById clientId then db
  else { db with clients := db.clients ++ [⟨clientId, clientName, none, some now, none⟩] }

def insertKeysOfClient (db : Database) (now clientName : Str) (publicKey aesKey : Bytes) :
    Database :=
  { db with
    clients := db.clients.map (fun row =>
      if row.clientName = clientName then
        { row with publicKey := some publicKey, aesKey := some aesKey, lastSeen := some now }
      else row) }

/-- `None` for a NULL key, and also where no row is found (the `IndexError` is caught). -/
def getAesKeyOfClient (db : Database) (clientId : Bytes) : Option Bytes :=
  (db.clients.find? (fun row => row.clientId = clientId)).bind ClientRow.aesKey

/-- `UPDATE clients SET last_seen = ? WHERE client_id = ?`. -/
def updateLastSeen (db : Database) (now : Str) (clientId : Bytes) : Database :=
  { db with
    clients := db.clients.map (fun row =>
      if row.clientId = clientId then { row with lastSeen := some now } else row) }

/-- `pathname` is the primary key: where it is taken the insert raises and nothing is
committed. -/
def insertFileDetails (db : Database) (now : Str) (clientId : Bytes) (filename pathname : Str)
    (verified : Bool) : Database :=
  if db.files.any (fun row => row.pathname = pathname) then db
  else updateLastSeen
    { db with files := db.files ++ [⟨clientId, filename, pathname, verified⟩] } now clientId

def updateCksumVerification (db : Database) (now : Str) (clientId : Bytes) (filename : Str)
    (verified : Bool) : Database :=
  updateLastSeen
    { db with
      files := db.files.map (fun row =>
        if row.clientId = clientId ∧ row.filename = filename then
          { row with verified := verified }
        else row) } now clientId

def deleteFileOfClient (db : Database) (now : Str) (clientId : Bytes) (filename : Str) :
    Database :=
  updateLastSeen
    { db with
      files := db.files.filter (fun row =>
        ¬ (row.clientId = clientId ∧ row.filename = filename)) } now clientId

@[simp] theorem updateLastSeen_files (db : Database) (now : Str) (clientId : Bytes) :
    (db.updateLastSeen now clientId).files = db.files := rfl

theorem clientExistsById_iff {db : Database} {clientId : Bytes} :
    db.clientExistsById clientId = true ↔ ∃ row ∈ db.clients, row.clientId = clientId := by
  simp [clientExistsById]

theorem clientExistsByName_iff {db : Database} {clientName : Str} :
    db.clientExistsByName clientName = true ↔
      ∃ row ∈ db.clients, row.clientName = clientName := by
  simp [clientExistsByName]

theorem fileExists_iff {db : Database} {clientId : Bytes} {filename : Str} :
    db.fileExists clientId filename = true ↔
      ∃ row ∈ db.files, row.clientId = clientId ∧ row.filename = filename := by
  simp [fileExists]

end Database

/-- The operations of `os` and `open` the server uses; `none` is a raised exception. -/
class FileSystem (δ : Type) where
  pathExists : δ → Str → Bool
  mkdir : δ → Str → Option δ
  writeFile : δ → Str → Bytes → Option δ
  readFile : δ → Str → Option Bytes
  remove : δ → Str → Option δ

/-- A disk keyed by the path string. -/
structure KeyedDisk where
  files : Str → Option Bytes
  dirs : Str → Bool

namespace KeyedDisk

def empty : KeyedDisk := ⟨fun _ => none, fun _ => false⟩

def pathExists (d : KeyedDisk) (path : Str) : Bool :=
  if nul ∈ path then false else (d.files path).isSome || d.dirs path

def mkdir (d : KeyedDisk) (path : Str) : Option KeyedDisk :=
  if nul ∈ path ∨ d.pathExists path then none
  else some { d with dirs := Function.update d.dirs path true }

/-- A path with a NUL character is refused by `open`. -/
def writeFile (d : KeyedDisk) (path : Str) (content : Bytes) : Option KeyedDisk :=
  if nul ∈ path ∨ d.dirs path then none
  else some { d with files := Function.update d.files path (some content) }

def readFile (d : KeyedDisk) (path : Str) : Option Bytes :=
  if nul ∈ path then none else d.files path

def remove (d : KeyedDisk) (path : Str) : Option KeyedDisk :=
  if nul ∈ path ∨ d.files path = none then none
  else some { d with files := Function.update d.files path none }

instance : FileSystem KeyedDisk := ⟨pathExists, mkdir, writeFile, readFile, remove⟩

end KeyedDisk

def sep : Char := Char.ofNat 92

def hexDigit (n : ℕ) : Char := if n < 10 then Char.ofNat (48 + n) else Char.ofNat (87 + n)

def hex (data : Bytes) : Str :=
  data.flatMap (fun b => [hexDigit (b.toNat / 16), hexDigit (b.toNat % 16)])

def filesDir : Str := ['f', 'i', 'l', 'e', 's']

/-- The client's directory, `files\<hex id>`. -/
def clientDir (clientId : Bytes) : Str := filesDir ++ sep :: hex clientId

/-- `files\<hex id>\<filename>`. -/
def filePath (clientId : Bytes) (filename : Str) : Str := clientDir clientId ++ sep :: filename

theorem hexDigit_inj {m n : ℕ} (hm : m < 16) (hn : n < 16) (h : hexDigit m = hexDigit n) :
    m = n := by
  have hd : ∀ m : Fin 16, ∀ n : Fin 16, hexDigit m = hexDigit n → m = n := by decide
  exact congrArg Fin.val (hd ⟨m, hm⟩ ⟨n, hn⟩ h)

@[simp] theorem hex_length (data : Bytes) : (hex data).length = 2 * data.length := by
  induction data with
  | nil => rfl
  | cons b data ih =>
    have he : hex (b :: data) = [hexDigit (b.toNat / 16), hexDigit (b.toNat % 16)] ++ hex data :=
      List.flatMap_cons
    rw [he, List.length_append, ih, List.length_cons, List.length_cons, List.length_cons,
      List.length_nil]
    omega

theorem hex_inj {a b : Bytes} (h : hex a = hex b) : a = b := by
  induction a generalizing b with
  | nil =>
    have hl := congrArg List.length h
    simp only [hex_length, List.length_nil] at hl
    exact (List.eq_nil_of_length_eq_zero (by omega)).symm
  | cons x a ih =>
    cases b with
    | nil =>
      have hl := congrArg List.length h
      simp only [hex_length, List.length_nil, List.length_cons] at hl
      omega
    | cons y b =>
      simp only [hex, List.flatMap_cons, List.cons_append, List.nil_append, List.cons.injEq] at h
      obtain ⟨hhi, hlo, hrest⟩ := h
      have hx := x.toNat_lt
      have hy := y.toNat_lt
      have e1 := hexDigit_inj (by omega) (by omega) hhi
      have e2 := hexDigit_inj (by omega) (by omega) hlo
      have hxy : x = y := UInt8.toNat_inj.mp (by omega)
      rw [hxy, ih hrest]

theorem mem_hex {data : Bytes} {c : Char} (h : c ∈ hex data) : ∃ n : Fin 16, c = hexDigit n := by
  obtain ⟨b, _, hb⟩ := List.mem_flatMap.mp h
  have hlt := b.toNat_lt
  simp only [List.mem_cons, List.not_mem_nil, or_false] at hb
  rcases hb with hb | hb
  · exact ⟨⟨b.toNat / 16, by omega⟩, hb⟩
  · exact ⟨⟨b.toNat % 16, by omega⟩, hb⟩

theorem sep_notMem_hex (data : Bytes) : sep ∉ hex data := by
  have hd : ∀ n : Fin 16, sep ≠ hexDigit n := by decide
  intro h
  obtain ⟨n, hn⟩ := mem_hex h
  exact hd n hn

theorem split_at_first {α : Type} {x : α} {a a' b b' : List α} (ha : x ∉ a) (ha' : x ∉ a')
    (h : a ++ x :: b = a' ++ x :: b') : a = a' ∧ b = b' := by
  induction a generalizing a' with
  | nil =>
    cases a' with
    | nil => exact ⟨rfl, (List.cons.inj h).2⟩
    | cons y a' => exact absurd (List.cons.inj h).1 fun he => ha' (by simp [he])
  | cons y a ih =>
    cases a' with
    | nil => exact absurd (List.cons.inj h).1 fun he => ha (by simp [he])
    | cons z a' =>
      obtain ⟨rfl, ht⟩ := List.cons.inj h
      obtain ⟨rfl, rfl⟩ := ih (fun hm => ha (by simp [hm])) (fun hm => ha' (by simp [hm])) ht
      exact ⟨rfl, rfl⟩

/-- A stored path determines the client and the name. -/
theorem filePath_inj {x y : Bytes} {f g : Str} :
    filePath x f = filePath y g ↔ x = y ∧ f = g := by
  constructor
  · intro h
    simp only [filePath, clientDir, List.append_assoc, List.append_cancel_left_eq,
      List.cons_append, List.cons.injEq, true_and] at h
    obtain ⟨hxy, hfg⟩ := split_at_first (sep_notMem_hex x) (sep_notMem_hex y) h
    exact ⟨hex_inj hxy, hfg⟩
  · rintro ⟨rfl, rfl⟩
    rfl

theorem nul_notMem_clientDir (clientId : Bytes) : nul ∉ clientDir clientId := by
  have hd : ∀ n : Fin 16, nul ≠ hexDigit n := by decide
  intro h
  simp only [clientDir, List.mem_append, List.mem_cons] at h
  rcases h with h | h | h
  · revert h
    decide
  · revert h
    decide
  · obtain ⟨n, hn⟩ := mem_hex h
    exact hd n hn

theorem nul_mem_filePath {clientId : Bytes} {filename : Str} :
    nul ∈ filePath clientId filename ↔ nul ∈ filename := by
  have hs : nul ≠ sep := by decide
  simp [filePath, nul_notMem_clientDir, hs]

theorem filePath_ne_filesDir (clientId : Bytes) (filename : Str) :
    filePath clientId filename ≠ filesDir := by
  intro h
  have hl := congrArg List.length h
  simp [filePath, clientDir] at hl

theorem filePath_ne_clientDir (x y : Bytes) (filename : Str) :
    filePath x filename ≠ clientDir y := by
  intro h
  simp only [filePath, clientDir, List.append_assoc, List.append_cancel_left_eq,
    List.cons_append, List.cons.injEq, true_and] at h
  exact sep_notMem_hex y (h ▸ by simp)

theorem clientDir_ne_filesDir (clientId : Bytes) : clientDir clientId ≠ filesDir := by
  intro h
  have hl := congrArg List.length h
  simp [clientDir] at hl

/-- An id as the constructors store it, packed into 16 bytes. -/
def uuidField (clientId : Bytes) : Bytes :=
  clientId.take 16 ++ List.replicate (16 - clientId.length) 0

theorem uuidField_eq {clientId : Bytes} (h : clientId.length = 16) :
    uuidField clientId = clientId := by
  simp [uuidField, ← h]

structure File where
  clientId : Bytes
  filename : Str
  pathname : Str
  deriving DecidableEq

def File.new (clientId : Bytes) (filename pathname : Str) : File :=
  ⟨uuidField clientId, filename, pathname⟩

/-- A client object; `files` is its dictionary from paths to files. -/
structure Client where
  clientId : Bytes
  clientName : Str
  files : Str → Option File

def Client.new (clientId : Bytes) (clientName : Str) : Client :=
  ⟨uuidField clientId, clientName, fun _ => none⟩

def Client.addFile (client : Client) (filePath : Str) (file : File) : Client :=
  { client with files := Function.update client.files filePath (some file) }

def Client.removeFile (client : Client) (filePath : Str) : Client :=
  { client with files := Function.update client.files filePath none }

/-- What the sessions share. -/
structure Server (δ : Type) where
  database : Database
  disk : δ
  clientMap : Bytes → Option Client
  fileMap : Str → Option File

/-- A server over an empty database and disk. -/
def Server.empty : Server KeyedDisk := ⟨.empty, .empty, fun _ => none, fun _ => none⟩

end EncryptedTransfer.ServerStores
