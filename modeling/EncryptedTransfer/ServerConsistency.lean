import EncryptedTransfer.FileLedger
import EncryptedTransfer.KeyedTable
import EncryptedTransfer.ServerStores

/-!
# Agreement of the four stores

What the handlers do to the shared stores, as functions, and the invariant they keep: disk,
table and maps hold the same files, and the maps are those a reload builds.
-/
namespace EncryptedTransfer.ServerConsistency
open ByteFormats Text ServerStores KeyedTable FileLedger

def fileOf (row : FileRow) : File := .new row.clientId row.filename row.pathname

abbrev rows (db : Database) : Str → Option FileRow := lookup FileRow.pathname db.files

abbrev clients (db : Database) : Bytes → Option ClientRow := lookup ClientRow.clientId db.clients

def loadedFiles (db : Database) : Str → Option File := fun p => (rows db p).map fileOf

def filesOf (found : Str → Option FileRow) (clientId : Bytes) : Str → Option File :=
  fun p => ((found p).filter (fun row => row.clientId = clientId)).map fileOf

def loadedClients (db : Database) : Bytes → Option Client :=
  fun clientId => (clients db clientId).map (fun row =>
    ⟨uuidField row.clientId, row.clientName, filesOf (rows db) row.clientId⟩)

theorem filesOf_update_own (found : Str → Option FileRow) {clientId : Bytes} (p : Str)
    {o : Option FileRow} (ho : ∀ row, o = some row → row.clientId = clientId) :
    filesOf (Function.update found p o) clientId =
      Function.update (filesOf found clientId) p (o.map fileOf) := by
  funext q
  by_cases hq : q = p
  · subst hq
    cases o with
    | none => simp [filesOf]
    | some row => simp [filesOf, Option.filter_some, ho row rfl]
  · simp [filesOf, hq]

/-- A path that only one client's rows have is no file of another client. -/
theorem filesOf_update_other {found : Str → Option FileRow} {clientId owner : Bytes} {p : Str}
    {o : Option FileRow} (hne : clientId ≠ owner)
    (ho : ∀ row, o = some row → row.clientId = owner)
    (hp : ∀ row, found p = some row → row.clientId = owner) :
    filesOf (Function.update found p o) clientId = filesOf found clientId := by
  have hnone (o : Option FileRow) (ho : ∀ row, o = some row → row.clientId = owner) :
      o.filter (fun row => row.clientId = clientId) = none := by
    rw [Option.filter_eq_none_iff]
    intro row hrow
    simp [ho row hrow, hne.symm]
  funext q
  by_cases hq : q = p
  · subst hq
    simp [filesOf, hnone o ho, hnone _ hp]
  · simp [filesOf, hq]

theorem filesOf_map (found : Str → Option FileRow) {g : FileRow → FileRow}
    (hg : ∀ row, (g row).clientId = row.clientId ∧ fileOf (g row) = fileOf row)
    (clientId : Bytes) : filesOf (fun p => (found p).map g) clientId = filesOf found clientId := by
  funext p
  cases hp : found p with
  | none => simp [filesOf, hp]
  | some row =>
    simp only [filesOf, hp, Option.map_some, Option.filter_some, (hg row).1]
    split_ifs
    · rw [Option.map_some, Option.map_some, (hg row).2]
    · rfl

/-- The tables' own conditions. -/
structure Sound (db : Database) : Prop where
  idLength : ∀ row ∈ db.clients, row.clientId.length = 16
  uniqueIds : Unique ClientRow.clientId db.clients
  uniqueNames : Unique ClientRow.clientName db.clients
  uniquePaths : Unique FileRow.pathname db.files
  pathname : ∀ row ∈ db.files, row.pathname = filePath row.clientId row.filename
  filename : ∀ row ∈ db.files, nul ∉ row.filename
  owned : ∀ row ∈ db.files, db.clientExistsById row.clientId = true

def Pathed (db : Database) : Prop :=
  ∀ row ∈ db.files, row.pathname = filePath row.clientId row.filename

/-- The four stores agree. -/
structure Consistent (s : Server KeyedDisk) : Prop where
  sound : Sound s.database
  onDisk : ∀ p, (s.disk.files p).isSome = (rows s.database p).isSome
  dirs : ∀ p, s.disk.dirs p = true → p = filesDir ∨ ∃ clientId, p = clientDir clientId
  clientMap : s.clientMap = loadedClients s.database
  fileMap : s.fileMap = loadedFiles s.database

theorem Pathed.key_iff {db : Database} (h : Pathed db) {row : FileRow} (hrow : row ∈ db.files)
    {clientId : Bytes} {filename : Str} :
    (row.clientId = clientId ∧ row.filename = filename) ↔
      row.pathname = filePath clientId filename := by
  rw [h row hrow, filePath_inj]

theorem Pathed.fileExists_eq {db : Database} (h : Pathed db) (clientId : Bytes) (filename : Str) :
    db.fileExists clientId filename = (rows db (filePath clientId filename)).isSome := by
  rw [Bool.eq_iff_iff, Database.fileExists_iff, lookup_isSome]
  constructor
  · rintro ⟨row, hrow, hk⟩
    exact ⟨row, hrow, (h.key_iff hrow).mp hk⟩
  · rintro ⟨row, hrow, hk⟩
    exact ⟨row, hrow, (h.key_iff hrow).mpr hk⟩

theorem Pathed.row_of_path {db : Database} (h : Pathed db) {clientId : Bytes} {filename : Str}
    {row : FileRow} (hrow : rows db (filePath clientId filename) = some row) :
    row.clientId = clientId ∧ row.filename = filename := by
  obtain ⟨hm, hp⟩ := lookup_some hrow
  exact (h.key_iff hm).mpr hp

theorem Sound.row_of_path {db : Database} (h : Sound db) {clientId : Bytes} {filename : Str}
    {row : FileRow} (hrow : rows db (filePath clientId filename) = some row) :
    row.clientId = clientId ∧ row.filename = filename :=
  Pathed.row_of_path h.pathname hrow

theorem Sound.key_iff {db : Database} (h : Sound db) {row : FileRow} (hrow : row ∈ db.files)
    {clientId : Bytes} {filename : Str} :
    (row.clientId = clientId ∧ row.filename = filename) ↔
      row.pathname = filePath clientId filename :=
  Pathed.key_iff h.pathname hrow

theorem Sound.fileExists_eq {db : Database} (h : Sound db) (clientId : Bytes) (filename : Str) :
    db.fileExists clientId filename = (rows db (filePath clientId filename)).isSome :=
  Pathed.fileExists_eq h.pathname clientId filename

theorem clientExistsById_eq (db : Database) (clientId : Bytes) :
    db.clientExistsById clientId = (clients db clientId).isSome := by
  rw [Bool.eq_iff_iff, Database.clientExistsById_iff, lookup_isSome]

theorem Sound.idLength_of_exists {db : Database} (h : Sound db) {clientId : Bytes}
    (hid : db.clientExistsById clientId = true) : clientId.length = 16 := by
  obtain ⟨row, hrow, rfl⟩ := Database.clientExistsById_iff.mp hid
  exact h.idLength row hrow

/-- The clients table after changes of other columns. -/
def Retouched (db db' : Database) : Prop :=
  ∃ g : ClientRow → ClientRow, db'.clients = db.clients.map g ∧
    ∀ row, (g row).clientId = row.clientId ∧ (g row).clientName = row.clientName

theorem retouched_refl (db : Database) : Retouched db db := ⟨id, by simp, fun _ => ⟨rfl, rfl⟩⟩

theorem retouched_updateLastSeen (db : Database) (now : Str) (clientId : Bytes) :
    Retouched db (db.updateLastSeen now clientId) := by
  refine ⟨_, rfl, ?_⟩
  intro row
  split_ifs <;> exact ⟨rfl, rfl⟩

theorem retouched_updateCksumVerification (db : Database) (now : Str) (clientId : Bytes)
    (filename : Str) (v : Bool) :
    Retouched db (db.updateCksumVerification now clientId filename v) :=
  retouched_updateLastSeen _ _ _

theorem retouched_deleteFileOfClient (db : Database) (now : Str) (clientId : Bytes)
    (filename : Str) : Retouched db (db.deleteFileOfClient now clientId filename) :=
  retouched_updateLastSeen _ _ _

theorem retouched_insertFileDetails (db : Database) (now : Str) (clientId : Bytes)
    (filename pathname : Str) (v : Bool) :
    Retouched db (db.insertFileDetails now clientId filename pathname v) := by
  unfold Database.insertFileDetails
  split_ifs
  · exact retouched_refl _
  · exact retouched_updateLastSeen _ _ _

theorem retouched_insertKeysOfClient (db : Database) (now clientName : Str)
    (publicKey aesKey : Bytes) :
    Retouched db (db.insertKeysOfClient now clientName publicKey aesKey) := by
  refine ⟨_, rfl, ?_⟩
  intro row
  split_ifs <;> exact ⟨rfl, rfl⟩

theorem Retouched.exists_eq {db db' : Database} (h : Retouched db db') (clientId : Bytes) :
    db'.clientExistsById clientId = db.clientExistsById clientId := by
  obtain ⟨g, hg, hk⟩ := h
  simp [Database.clientExistsById, hg, List.any_map, Function.comp_def, hk]

theorem Retouched.loadedClients_eq {db db' : Database} (h : Retouched db db')
    (hf : ∀ clientId, filesOf (rows db') clientId = filesOf (rows db) clientId) :
    loadedClients db' = loadedClients db := by
  obtain ⟨g, hg, hk⟩ := h
  funext clientId
  simp only [loadedClients, clients, hg, hf, lookup_map fun row => (hk row).1, Option.map_map,
    Function.comp_def, hk]

theorem Retouched.sound {db db' : Database} (h : Retouched db db') (hs : Sound db)
    (uniquePaths : Unique FileRow.pathname db'.files)
    (hf : ∀ row ∈ db'.files, row.pathname = filePath row.clientId row.filename ∧
      nul ∉ row.filename ∧ db.clientExistsById row.clientId = true) : Sound db' := by
  have hex := h.exists_eq
  obtain ⟨g, hg, hk⟩ := h
  refine ⟨?_, ?_, ?_, uniquePaths, fun row hrow => (hf row hrow).1,
    fun row hrow => (hf row hrow).2.1, ?_⟩
  · intro row hrow
    rw [hg] at hrow
    obtain ⟨old, hold, rfl⟩ := List.mem_map.mp hrow
    rw [(hk old).1]
    exact hs.idLength old hold
  · rw [hg]
    exact hs.uniqueIds.map fun row => (hk row).1
  · rw [hg]
    exact hs.uniqueNames.map fun row => (hk row).2
  · intro row hrow
    rw [hex]
    exact (hf row hrow).2.2

section Requests

variable {δ : Type} (now : Str) (clientId : Bytes) (filename clientName : Str)

def confirm (s : Server δ) : Server δ :=
  { s with database := s.database.updateCksumVerification now clientId filename true }

def register (s : Server δ) : Server δ :=
  { s with
    database := s.database.insertNewClient now clientName clientId
    clientMap := Function.update s.clientMap clientId (some (.new clientId clientName)) }

def setKeys (publicKey aesKey : Bytes) (s : Server δ) : Server δ :=
  { s with database := s.database.insertKeysOfClient now clientName publicKey aesKey }

def addDir (disk : KeyedDisk) (path : Str) : KeyedDisk :=
  { disk with dirs := Function.update disk.dirs path true }

def addDirs (s : Server KeyedDisk) : Server KeyedDisk :=
  { s with disk := addDir (addDir s.disk filesDir) (clientDir clientId) }

/-- The accepted upload of a file. -/
def store (content : Bytes) (s : Server KeyedDisk) : Server KeyedDisk :=
  let path := filePath clientId filename
  let file := File.new clientId filename path
  let disk := (addDirs clientId s).disk
  { database :=
      if s.database.fileExists clientId filename then
        s.database.updateCksumVerification now clientId filename false
      else s.database.insertFileDetails now clientId filename path false
    disk := { disk with files := Function.update disk.files path (some content) }
    clientMap := Function.update s.clientMap clientId
      ((s.clientMap clientId).map (fun client => client.addFile path file))
    fileMap := Function.update s.fileMap path (some file) }

def eraseFile (s : Server KeyedDisk) : Server KeyedDisk :=
  let path := filePath clientId filename
  { database := s.database.deleteFileOfClient now clientId filename
    disk := { s.disk with files := Function.update s.disk.files path none }
    clientMap := Function.update s.clientMap clientId
      ((s.clientMap clientId).map (fun client => client.removeFile path))
    fileMap := Function.update s.fileMap path none }

end Requests

/-- The change of a row under `update_cksum_verification`, by its path. -/
def setVerified (path : Str) (v : Bool) (row : FileRow) : FileRow :=
  if row.pathname = path then { row with verified := v } else row

theorem setVerified_keeps (path : Str) (v : Bool) (row : FileRow) :
    (setVerified path v row).pathname = row.pathname ∧
      (setVerified path v row).clientId = row.clientId ∧
      (setVerified path v row).filename = row.filename := by
  unfold setVerified
  split_ifs <;> exact ⟨rfl, rfl, rfl⟩

theorem Pathed.updateCksumVerification_files {db : Database} (h : Pathed db) (now : Str)
    (clientId : Bytes) (filename : Str) (v : Bool) :
    (db.updateCksumVerification now clientId filename v).files =
      db.files.map (setVerified (filePath clientId filename) v) := by
  apply List.map_congr_left
  intro row hrow
  simp only [h.key_iff hrow, setVerified]

theorem Pathed.rows_updateCksumVerification {db : Database} (h : Pathed db) (now : Str)
    (clientId : Bytes) (filename : Str) (v : Bool) (p : Str) :
    rows (db.updateCksumVerification now clientId filename v) p =
      (rows db p).map (setVerified (filePath clientId filename) v) := by
  rw [rows, h.updateCksumVerification_files]
  exact lookup_map (fun row => (setVerified_keeps _ v row).1) p

theorem Sound.updateCksumVerification_files {db : Database} (h : Sound db) (now : Str)
    (clientId : Bytes) (filename : Str) (v : Bool) :
    (db.updateCksumVerification now clientId filename v).files =
      db.files.map (setVerified (filePath clientId filename) v) :=
  Pathed.updateCksumVerification_files h.pathname now clientId filename v

theorem Sound.deleteFileOfClient_files {db : Database} (h : Sound db) (now : Str)
    (clientId : Bytes) (filename : Str) :
    (db.deleteFileOfClient now clientId filename).files =
      db.files.filter (fun row => row.pathname ≠ filePath clientId filename) := by
  apply List.filter_congr
  intro row hrow
  simp only [h.key_iff hrow, ne_eq]

theorem Sound.rows_updateCksumVerification {db : Database} (h : Sound db) (now : Str)
    (clientId : Bytes) (filename : Str) (v : Bool) (p : Str) :
    rows (db.updateCksumVerification now clientId filename v) p =
      (rows db p).map (setVerified (filePath clientId filename) v) :=
  Pathed.rows_updateCksumVerification h.pathname now clientId filename v p

theorem Sound.rows_deleteFileOfClient {db : Database} (h : Sound db) (now : Str)
    (clientId : Bytes) (filename : Str) :
    rows (db.deleteFileOfClient now clientId filename) =
      Function.update (rows db) (filePath clientId filename) none := by
  rw [rows, h.deleteFileOfClient_files]
  exact @lookup_delete _ _ FileRow.pathname _ _ _

theorem insertFileDetails_files {db : Database} {now : Str} {clientId : Bytes}
    {filename pathname : Str} {v : Bool} (h : rows db pathname = none) :
    (db.insertFileDetails now clientId filename pathname v).files =
      db.files ++ [⟨clientId, filename, pathname, v⟩] := by
  have hno : db.files.any (fun row => row.pathname = pathname) = false := by
    simpa [rows] using lookup_eq_none.mp h
  simp [Database.insertFileDetails, hno]

theorem rows_insertFileDetails {db : Database} {now : Str} {clientId : Bytes}
    {filename pathname : Str} {v : Bool} (h : rows db pathname = none) :
    rows (db.insertFileDetails now clientId filename pathname v) =
      Function.update (rows db) pathname (some ⟨clientId, filename, pathname, v⟩) := by
  rw [rows, insertFileDetails_files h]
  exact @lookup_append _ _ FileRow.pathname _ _ ⟨clientId, filename, pathname, v⟩ h

theorem Sound.rows_store {s : Server KeyedDisk} (h : Sound s.database) (now : Str)
    (clientId : Bytes) (filename : Str) (content : Bytes) :
    rows (store now clientId filename content s).database =
      Function.update (rows s.database) (filePath clientId filename)
        (some ⟨clientId, filename, filePath clientId filename, false⟩) := by
  have hex := h.fileExists_eq clientId filename
  cases hr : rows s.database (filePath clientId filename) with
  | none =>
    simp only [store, hex, hr, Option.isSome_none, Bool.false_eq_true, ↓reduceIte]
    exact rows_insertFileDetails hr
  | some row =>
    obtain ⟨hid, hname⟩ := h.row_of_path hr
    have hp := (lookup_some hr).2
    simp only [store, hex, hr, Option.isSome_some, ↓reduceIte]
    funext q
    rw [h.rows_updateCksumVerification]
    by_cases hq : q = filePath clientId filename
    · subst hq
      simp [hr, setVerified, hp, hid, hname]
    · rw [Function.update_of_ne hq]
      cases hrq : rows s.database q with
      | none => rfl
      | some old =>
        have hold : old.pathname ≠ filePath clientId filename := by
          rw [(lookup_some hrq).2]
          exact hq
        simp [setVerified, hold]

theorem Retouched.loadedClients_change {db db' : Database} (h : Retouched db db')
    {clientId : Bytes} {p : Str} {o : Option FileRow}
    (ho : ∀ row, o = some row → row.clientId = clientId)
    (hp : ∀ row, rows db p = some row → row.clientId = clientId)
    (hr : rows db' = Function.update (rows db) p o) :
    loadedClients db' = Function.update (loadedClients db) clientId
      ((loadedClients db clientId).map (fun client =>
        { client with files := Function.update client.files p (o.map fileOf) })) := by
  obtain ⟨g, hg, hk⟩ := h
  funext x
  by_cases hx : x = clientId
  · subst hx
    cases hc : clients db x with
    | none => simp [loadedClients, clients, hg, lookup_map fun row => (hk row).1, hc]
    | some row =>
      obtain rfl := (lookup_some hc).2
      simp [loadedClients, clients, hg, lookup_map fun row => (hk row).1, hc, hk, hr,
        filesOf_update_own _ _ ho]
  · rw [Function.update_of_ne hx]
    cases hc : clients db x with
    | none => simp [loadedClients, clients, hg, lookup_map fun row => (hk row).1, hc]
    | some row =>
      obtain rfl := (lookup_some hc).2
      simp [loadedClients, clients, hg, lookup_map fun row => (hk row).1, hc, hk, hr,
        filesOf_update_other hx ho hp]

theorem loadedFiles_change {db db' : Database} {p : Str} {o : Option FileRow}
    (hr : rows db' = Function.update (rows db) p o) :
    loadedFiles db' = Function.update (loadedFiles db) p (o.map fileOf) := by
  funext q
  by_cases hq : q = p
  · subst hq
    simp [loadedFiles, hr]
  · simp [loadedFiles, hr, hq]

theorem retouched_store (now : Str) (clientId : Bytes) (filename : Str) (content : Bytes)
    (s : Server KeyedDisk) :
    Retouched s.database (store now clientId filename content s).database := by
  simp only [store]
  split_ifs
  · exact retouched_updateCksumVerification _ _ _ _ _
  · exact retouched_insertFileDetails _ _ _ _ _ _

theorem Sound.after_verification {db : Database} (h : Sound db) (now : Str) (clientId : Bytes)
    (filename : Str) (v : Bool) : Sound (db.updateCksumVerification now clientId filename v) := by
  apply (retouched_updateCksumVerification db now clientId filename v).sound h
  · rw [h.updateCksumVerification_files]
    exact h.uniquePaths.map fun row => (setVerified_keeps _ v row).1
  · intro row hrow
    rw [h.updateCksumVerification_files] at hrow
    obtain ⟨old, hold, rfl⟩ := List.mem_map.mp hrow
    obtain ⟨hpath, hid, hname⟩ := setVerified_keeps (filePath clientId filename) v old
    rw [hpath, hid, hname]
    exact ⟨h.pathname old hold, h.filename old hold, h.owned old hold⟩

theorem Sound.after_delete {db : Database} (h : Sound db) (now : Str) (clientId : Bytes)
    (filename : Str) : Sound (db.deleteFileOfClient now clientId filename) := by
  apply (retouched_deleteFileOfClient db now clientId filename).sound h
  · exact h.uniquePaths.filter _
  · intro row hrow
    have hold := List.mem_of_mem_filter hrow
    exact ⟨h.pathname row hold, h.filename row hold, h.owned row hold⟩

theorem Sound.after_insert {db : Database} (h : Sound db) (now : Str) {clientId : Bytes}
    {filename : Str} (v : Bool) (hid : db.clientExistsById clientId = true)
    (hname : nul ∉ filename) (hno : rows db (filePath clientId filename) = none) :
    Sound (db.insertFileDetails now clientId filename (filePath clientId filename) v) := by
  apply (retouched_insertFileDetails db now clientId filename _ v).sound h
  · rw [insertFileDetails_files hno]
    exact h.uniquePaths.append hno
  · intro row hrow
    rw [insertFileDetails_files hno] at hrow
    rcases List.mem_append.mp hrow with hold | hnew
    · exact ⟨h.pathname row hold, h.filename row hold, h.owned row hold⟩
    · rw [List.mem_singleton.mp hnew]
      exact ⟨rfl, hname, hid⟩

theorem Consistent.after_addDirs {s : Server KeyedDisk} (h : Consistent s) (clientId : Bytes) :
    Consistent (addDirs clientId s) := by
  refine ⟨h.sound, h.onDisk, ?_, h.clientMap, h.fileMap⟩
  intro p hp
  by_cases h1 : p = clientDir clientId
  · exact .inr ⟨clientId, h1⟩
  by_cases h2 : p = filesDir
  · exact .inl h2
  · exact h.dirs p (by simpa [addDirs, addDir, h1, h2] using hp)

theorem Consistent.after_store {s : Server KeyedDisk} (h : Consistent s) (now : Str) {clientId : Bytes}
    {filename : Str} (content : Bytes) (hid : s.database.clientExistsById clientId = true)
    (hname : nul ∉ filename) :
    Consistent (store now clientId filename content s) := by
  have hrows := h.sound.rows_store now clientId filename content
  have ht := retouched_store now clientId filename content s
  have hlen := h.sound.idLength_of_exists hid
  refine ⟨?_, ?_, ?_, ?_, ?_⟩
  · have hex := h.sound.fileExists_eq clientId filename
    simp only [store]
    split_ifs with hc
    · exact h.sound.after_verification _ _ _ _
    · rw [Bool.eq_false_iff.mpr hc, eq_comm, Option.isSome_eq_false_iff,
        Option.isNone_iff_eq_none] at hex
      exact h.sound.after_insert now false hid hname hex
  · intro p
    rw [hrows]
    by_cases hp : p = filePath clientId filename
    · subst hp
      simp [store]
    · rw [Function.update_of_ne hp]
      simp [store, hp, addDirs, addDir, h.onDisk]
  · exact (h.after_addDirs clientId).dirs
  · rw [ht.loadedClients_change (by simp) (fun row hr => (h.sound.row_of_path hr).1) hrows]
    rw [← h.clientMap]
    rfl
  · rw [loadedFiles_change hrows, ← h.fileMap]
    rfl

theorem Consistent.after_confirm {s : Server KeyedDisk} (h : Consistent s) (now : Str)
    (clientId : Bytes) (filename : Str) : Consistent (confirm now clientId filename s) := by
  have ht := retouched_updateCksumVerification s.database now clientId filename true
  have hrows : rows (s.database.updateCksumVerification now clientId filename true) = fun p =>
      (rows s.database p).map (setVerified (filePath clientId filename) true) :=
    funext (h.sound.rows_updateCksumVerification now clientId filename true)
  have hkeep : ∀ row, (setVerified (filePath clientId filename) true row).clientId = row.clientId ∧
      fileOf (setVerified (filePath clientId filename) true row) = fileOf row := by
    intro row
    obtain ⟨hpath, hid, hname⟩ := setVerified_keeps (filePath clientId filename) true row
    exact ⟨hid, by rw [fileOf, fileOf, hpath, hid, hname]⟩
  refine ⟨h.sound.after_verification _ _ _ _, ?_, h.dirs, ?_, ?_⟩
  · intro p
    simp [confirm, hrows, h.onDisk]
  · apply h.clientMap.trans
    apply (ht.loadedClients_eq _).symm
    intro x
    rw [hrows, filesOf_map _ hkeep]
  · apply h.fileMap.trans
    funext p
    simp only [loadedFiles, confirm, hrows, Option.map_map, Function.comp_def,
      hkeep]

theorem Consistent.after_eraseFile {s : Server KeyedDisk} (h : Consistent s) (now : Str)
    (clientId : Bytes) (filename : Str) : Consistent (eraseFile now clientId filename s) := by
  have hrows := h.sound.rows_deleteFileOfClient now clientId filename
  have ht := retouched_deleteFileOfClient s.database now clientId filename
  refine ⟨h.sound.after_delete _ _ _, ?_, h.dirs, ?_, ?_⟩
  · intro p
    simp only [eraseFile, hrows]
    by_cases hp : p = filePath clientId filename
    · simp [hp]
    · simp [hp, h.onDisk]
  · have hc := ht.loadedClients_change (o := none) (by simp)
      (fun row hr => (h.sound.row_of_path hr).1) hrows
    rw [← h.clientMap] at hc
    exact hc.symm
  · have hf := loadedFiles_change hrows
    rw [← h.fileMap] at hf
    exact hf.symm

theorem Consistent.after_setKeys {s : Server KeyedDisk} (h : Consistent s) (now clientName : Str)
    (publicKey aesKey : Bytes) : Consistent (setKeys now clientName publicKey aesKey s) := by
  have ht := retouched_insertKeysOfClient s.database now clientName publicKey aesKey
  refine ⟨?_, h.onDisk, h.dirs, ?_, h.fileMap⟩
  · apply ht.sound h.sound h.sound.uniquePaths
    intro row hrow
    exact ⟨h.sound.pathname row hrow, h.sound.filename row hrow, h.sound.owned row hrow⟩
  · exact h.clientMap.trans (ht.loadedClients_eq fun _ => rfl).symm

theorem insertNewClient_clients {db : Database} (now clientName : Str) {clientId : Bytes}
    (hid : db.clientExistsById clientId = false) :
    db.insertNewClient now clientName clientId =
      { db with clients := db.clients ++ [⟨clientId, clientName, none, some now, none⟩] } := by
  simp [Database.insertNewClient, hid]

theorem Consistent.after_register {s : Server KeyedDisk} (h : Consistent s) (now : Str)
    {clientId : Bytes} {clientName : Str} (hlen : clientId.length = 16)
    (hid : s.database.clientExistsById clientId = false)
    (hname : s.database.clientExistsByName clientName = false) :
    Consistent (register now clientId clientName s) := by
  have hnoid : clients s.database clientId = none := by
    rw [clientExistsById_eq] at hid
    exact Option.not_isSome_iff_eq_none.mp (by simp [hid])
  have hnoname : lookup ClientRow.clientName s.database.clients clientName = none := by
    rw [lookup_eq_none]
    intro row hrow he
    rw [Bool.eq_false_iff] at hname
    exact hname (Database.clientExistsByName_iff.mpr ⟨row, hrow, he⟩)
  have hdb := insertNewClient_clients now clientName hid
  have hfiles : filesOf (rows s.database) clientId = fun _ => none := by
    funext p
    cases hr : rows s.database p with
    | none => simp [filesOf, hr]
    | some row =>
      have hne : row.clientId ≠ clientId := by
        rintro rfl
        simp [h.sound.owned row (lookup_some hr).1] at hid
      simp [filesOf, hr, Option.filter_some, hne]
  refine ⟨⟨?_, ?_, ?_, ?_, ?_, ?_, ?_⟩, ?_, h.dirs, ?_, ?_⟩ <;>
    simp only [register, hdb]
  · intro row hrow
    rcases List.mem_append.mp hrow with hold | hnew
    · exact h.sound.idLength row hold
    · rw [List.mem_singleton.mp hnew]
      exact hlen
  · exact h.sound.uniqueIds.append hnoid
  · exact h.sound.uniqueNames.append hnoname
  · exact h.sound.uniquePaths
  · exact h.sound.pathname
  · exact h.sound.filename
  · intro row hrow
    have hown := Database.clientExistsById_iff.mp (h.sound.owned row hrow)
    obtain ⟨owner, howner, he⟩ := hown
    exact Database.clientExistsById_iff.mpr ⟨owner, by simp [howner], he⟩
  · exact h.onDisk
  · rw [h.clientMap]
    funext x
    have hlook := @lookup_append _ _ ClientRow.clientId _ _
      ⟨clientId, clientName, none, some now, none⟩ hnoid
    by_cases hx : x = clientId
    · subst hx
      simp [loadedClients, clients, hlook, rows, hfiles, Client.new]
    · simp [loadedClients, clients, hlook, rows, hx]
  · exact h.fileMap

/-- What the server keeps under a client and a name: content and verification. -/
def entry (s : Server KeyedDisk) : Ledger (Bytes × Str) Bytes := fun k =>
  (s.disk.files (filePath k.1 k.2)).bind (fun content =>
    (rows s.database (filePath k.1 k.2)).map (fun row => (content, row.verified)))

theorem filePath_ne {clientId x : Bytes} {filename f : Str} (h : (x, f) ≠ (clientId, filename)) :
    filePath x f ≠ filePath clientId filename := by
  rw [Ne, filePath_inj]
  rintro ⟨rfl, rfl⟩
  exact h rfl

theorem Sound.entry_store {s : Server KeyedDisk} (h : Sound s.database) (now : Str)
    (clientId : Bytes) (filename : Str) (content : Bytes) :
    entry (store now clientId filename content s) =
      (entry s).apply (.accept (clientId, filename) content) := by
  funext ⟨x, f⟩
  rw [Ledger.apply, entry, h.rows_store]
  by_cases hk : (x, f) = (clientId, filename)
  · obtain ⟨rfl, rfl⟩ := Prod.mk.inj hk
    simp [store]
  · simp [store, addDirs, addDir, entry, hk, filePath_ne hk]

theorem Sound.entry_confirm {s : Server KeyedDisk} (h : Sound s.database) (now : Str)
    (clientId : Bytes) (filename : Str) :
    entry (confirm now clientId filename s) =
      (entry s).apply (.confirm (clientId, filename)) := by
  funext ⟨x, f⟩
  simp only [Ledger.apply, entry, confirm, h.rows_updateCksumVerification]
  by_cases hk : (x, f) = (clientId, filename)
  · obtain ⟨rfl, rfl⟩ := Prod.mk.inj hk
    cases hr : rows s.database (filePath x f) with
    | none => simp
    | some row => simp [setVerified, (lookup_some hr).2, Option.map_bind]
  · rw [Function.update_of_ne hk]
    cases hr : rows s.database (filePath x f) with
    | none => simp [entry, hr]
    | some row => simp [entry, hr, setVerified, (lookup_some hr).2, filePath_ne hk]

theorem Sound.entry_eraseFile {s : Server KeyedDisk} (h : Sound s.database) (now : Str)
    (clientId : Bytes) (filename : Str) :
    entry (eraseFile now clientId filename s) =
      (entry s).apply (.discard (clientId, filename)) := by
  funext ⟨x, f⟩
  simp only [Ledger.apply, entry, eraseFile, h.rows_deleteFileOfClient]
  by_cases hk : (x, f) = (clientId, filename)
  · obtain ⟨rfl, rfl⟩ := Prod.mk.inj hk
    simp
  · simp [entry, hk, filePath_ne hk]

@[simp] theorem entry_register (now : Str) (clientId : Bytes) (clientName : Str)
    (s : Server KeyedDisk) : entry (register now clientId clientName s) = entry s := by
  have hf : (s.database.insertNewClient now clientName clientId).files = s.database.files := by
    unfold Database.insertNewClient
    split_ifs <;> rfl
  funext k
  simp only [entry, rows, register, hf]

theorem Sound.found_eq_singleton {db : Database} (h : Sound db) {clientId : Bytes}
    {filename : Str} {v : Bool} :
    db.files.filter (fun row => row.clientId = clientId ∧ row.filename = filename) =
        [⟨clientId, filename, filePath clientId filename, v⟩] ↔
      rows db (filePath clientId filename) =
        some ⟨clientId, filename, filePath clientId filename, v⟩ := by
  have hfilter : db.files.filter (fun row => row.clientId = clientId ∧ row.filename = filename) =
      db.files.filter (fun row => row.pathname = filePath clientId filename) := by
    apply List.filter_congr
    intro row hrow
    simp only [h.key_iff hrow]
  rw [hfilter, h.uniquePaths.filter_eq_singleton]

theorem Sound.row_eq {db : Database} (h : Sound db) {clientId : Bytes} {filename : Str}
    {row : FileRow} (hr : rows db (filePath clientId filename) = some row) :
    row = ⟨clientId, filename, filePath clientId filename, row.verified⟩ := by
  obtain ⟨rfl, rfl⟩ := h.row_of_path hr
  rw [← (lookup_some hr).2]

/-- A file is on the disk exactly where the table has its row, once. -/
theorem Consistent.onDisk_iff_row {s : Server KeyedDisk} (h : Consistent s) (clientId : Bytes)
    (filename : Str) :
    (s.disk.files (filePath clientId filename)).isSome = true ↔
      ∃ v, s.database.files.filter (fun row => row.clientId = clientId ∧ row.filename = filename) =
        [⟨clientId, filename, filePath clientId filename, v⟩] := by
  simp only [h.sound.found_eq_singleton, h.onDisk]
  constructor
  · intro hr
    obtain ⟨row, hr⟩ := Option.isSome_iff_exists.mp hr
    exact ⟨row.verified, by rw [hr, ← h.sound.row_eq hr]⟩
  · rintro ⟨v, hv⟩
    rw [hv]
    rfl

theorem Sound.entry_eq_some {s : Server KeyedDisk} (h : Sound s.database) {clientId : Bytes}
    {filename : Str} {content : Bytes} {v : Bool} :
    entry s (clientId, filename) = some (content, v) ↔
      s.disk.files (filePath clientId filename) = some content ∧
        s.database.files.filter (fun row => row.clientId = clientId ∧ row.filename = filename) =
          [⟨clientId, filename, filePath clientId filename, v⟩] := by
  rw [h.found_eq_singleton]
  constructor
  · intro he
    obtain ⟨c, hc, hm⟩ := Option.bind_eq_some_iff.mp he
    obtain ⟨row, hr, heq⟩ := Option.map_eq_some_iff.mp hm
    obtain ⟨rfl, rfl⟩ := Prod.mk.inj heq
    have hrow := h.row_eq hr
    exact ⟨hc, hrow ▸ hr⟩
  · rintro ⟨hc, hr⟩
    simp [entry, hc, hr]

theorem Consistent.onDisk_iff_fileMap {s : Server KeyedDisk} (h : Consistent s)
    (clientId : Bytes) (filename : Str) (hlen : clientId.length = 16) :
    (s.disk.files (filePath clientId filename)).isSome = true ↔
      s.fileMap (filePath clientId filename) =
        some ⟨clientId, filename, filePath clientId filename⟩ := by
  rw [h.onDisk, h.fileMap, loadedFiles]
  constructor
  · intro hr
    obtain ⟨row, hr⟩ := Option.isSome_iff_exists.mp hr
    obtain ⟨hid, hname⟩ := h.sound.row_of_path hr
    simp [hr, fileOf, File.new, hid, hname, (lookup_some hr).2, uuidField_eq hlen]
  · intro hf
    obtain ⟨row, hr, _⟩ := Option.map_eq_some_iff.mp hf
    simp [hr]

theorem Consistent.onDisk_iff_clientMap {s : Server KeyedDisk} (h : Consistent s)
    (clientId : Bytes) (filename : Str) (hlen : clientId.length = 16) :
    (s.disk.files (filePath clientId filename)).isSome = true ↔
      ∃ client, s.clientMap clientId = some client ∧ client.files (filePath clientId filename) =
        some ⟨clientId, filename, filePath clientId filename⟩ := by
  rw [h.onDisk, h.clientMap, loadedClients]
  constructor
  · intro hr
    obtain ⟨row, hr⟩ := Option.isSome_iff_exists.mp hr
    obtain ⟨hid, hname⟩ := h.sound.row_of_path hr
    have howned := h.sound.owned row (lookup_some hr).1
    rw [hid, clientExistsById_eq] at howned
    obtain ⟨owner, howner⟩ := Option.isSome_iff_exists.mp howned
    refine ⟨_, by rw [howner]; rfl, ?_⟩
    simp [filesOf, (lookup_some howner).2, hr, Option.filter_some, fileOf, File.new, hid, hname,
      (lookup_some hr).2, uuidField_eq hlen]
  · rintro ⟨client, hc, hf⟩
    obtain ⟨owner, howner, rfl⟩ := Option.map_eq_some_iff.mp hc
    obtain ⟨row, hr, _⟩ := Option.map_eq_some_iff.mp hf
    rw [(Option.filter_eq_some_iff.mp hr).1]
    rfl

/-- What the four stores have of a client's file. -/
def stored (s : Server KeyedDisk) (k : Bytes × Str) :
    Option Bytes × List FileRow × Option File × Option File :=
  let path := filePath k.1 k.2
  (s.disk.files path, s.database.files.filter (fun row => row.clientId = k.1 ∧ row.filename = k.2),
    s.fileMap path, (s.clientMap k.1).bind (fun client => client.files path))

theorem Consistent.clientMap_files {s : Server KeyedDisk} (h : Consistent s) (k : Bytes × Str) :
    (s.clientMap k.1).bind (fun client => client.files (filePath k.1 k.2)) =
      (rows s.database (filePath k.1 k.2)).map fileOf := by
  rw [h.clientMap, loadedClients]
  cases hrow : rows s.database (filePath k.1 k.2) with
  | none => cases clients s.database k.1 <;> simp [filesOf, hrow]
  | some row =>
    obtain ⟨hid, -⟩ := h.sound.row_of_path hrow
    have howned := h.sound.owned row (lookup_some hrow).1
    rw [hid, clientExistsById_eq] at howned
    obtain ⟨owner, howner⟩ := Option.isSome_iff_exists.mp howned
    have hsame := (lookup_some howner).2
    simp [howner, filesOf, hrow, hsame, hid]

/-- The stores have nothing or one and the same entry. -/
theorem Consistent.stored_eq {s : Server KeyedDisk} (h : Consistent s) (k : Bytes × Str) :
    stored s k = (entry s k).elim (none, [], none, none) (fun e =>
      (some e.1, [⟨k.1, k.2, filePath k.1 k.2, e.2⟩], some (.new k.1 k.2 (filePath k.1 k.2)),
        some (.new k.1 k.2 (filePath k.1 k.2)))) := by
  have hdisk := h.onDisk (filePath k.1 k.2)
  have hmap : s.fileMap (filePath k.1 k.2) = (rows s.database (filePath k.1 k.2)).map fileOf := by
    rw [h.fileMap, loadedFiles]
  simp only [stored, h.clientMap_files, hmap]
  cases hrow : rows s.database (filePath k.1 k.2) with
  | none =>
    have hfile : s.disk.files (filePath k.1 k.2) = none := by simpa [hrow] using hdisk
    have htable : s.database.files.filter (fun row => row.clientId = k.1 ∧ row.filename = k.2) =
        [] := by
      rw [List.filter_eq_nil_iff]
      intro row hmem hkey
      have hpath := (h.sound.key_iff hmem).mp (of_decide_eq_true hkey)
      exact lookup_eq_none.mp hrow row hmem hpath
    have hentry : entry s k = none := by rw [entry, hfile, Option.bind_none]
    rw [hfile, htable, hentry]
    rfl
  | some row =>
    have hrow_eq := h.sound.row_eq hrow
    obtain ⟨content, hfile⟩ : ∃ content, s.disk.files (filePath k.1 k.2) = some content := by
      rw [hrow] at hdisk
      exact Option.isSome_iff_exists.mp hdisk
    have htable := h.sound.found_eq_singleton.mpr (hrow.trans (congrArg some hrow_eq))
    have hentry : entry s k = some (content, row.verified) := by
      rw [entry, hfile, Option.bind_some, hrow, Option.map_some]
    rw [hfile, htable, hentry, Option.map_some, hrow_eq]
    rfl

end EncryptedTransfer.ServerConsistency
