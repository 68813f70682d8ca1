import EncryptedTransfer.DatabaseMethods
import EncryptedTransfer.ServerConsistency

/-!
# What the stores keep in every interleaving

The threads run over one data base whose methods may fail in any pattern. A file is entered, in
the table and in the maps, only by a thread that has been given the AES key of its client, and
no client row or key is ever removed.
-/
namespace EncryptedTransfer.StoreInvariants
open ByteFormats Text ServerStores ServerCalls ServerHandlers ServerFootprints ServerThreads
open ServerConsistency DatabaseMethods KeyedTable Transactions ThreadPools Interaction Program

/-- A client has a row with an AES key. -/
def HasKey (db : Database) (clientId : Bytes) : Prop :=
  ∃ row ∈ db.clients, row.clientId = clientId ∧ row.aesKey.isSome = true

/-- The tables under their primary keys, with every file filed under a client that has a key. -/
structure Filed (db : Database) : Prop where
  idLength : ∀ row ∈ db.clients, row.clientId.length = 16
  uniqueIds : Unique ClientRow.clientId db.clients
  uniquePaths : Unique FileRow.pathname db.files
  pathname : ∀ row ∈ db.files, row.pathname = filePath row.clientId row.filename
  keyed : ∀ row ∈ db.files, HasKey db row.clientId

theorem filed_empty : Filed .empty where
  idLength _ h := by cases h
  uniqueIds := unique_nil
  uniquePaths := unique_nil
  pathname _ h := by cases h
  keyed _ h := by cases h

theorem hasKey_of_getAesKey {db : Database} {clientId key : Bytes}
    (h : db.getAesKeyOfClient clientId = some key) : HasKey db clientId := by
  obtain ⟨row, hfind, hkey⟩ := Option.bind_eq_some_iff.mp h
  refine ⟨row, List.mem_of_find?_eq_some hfind, ?_, ?_⟩
  · simpa using List.find?_some hfind
  · rw [hkey]
    rfl

/-- Changes of the clients that keep their ids and their having a key. -/
structure KeepsKeys (g : ClientRow → ClientRow) : Prop where
  id : ∀ row, (g row).clientId = row.clientId
  key : ∀ row, row.aesKey.isSome = true → (g row).aesKey.isSome = true

theorem HasKey.map {db : Database} {clientId : Bytes} (hk : HasKey db clientId)
    {g : ClientRow → ClientRow} (hg : KeepsKeys g) (files : List FileRow) :
    HasKey ⟨db.clients.map g, files⟩ clientId := by
  obtain ⟨row, hrow, hid, hkey⟩ := hk
  exact ⟨g row, List.mem_map_of_mem hrow, (hg.id row).trans hid, hg.key row hkey⟩

theorem Filed.map {db : Database} (h : Filed db) {g : ClientRow → ClientRow} (hg : KeepsKeys g)
    {files : List FileRow} (hunique : Unique FileRow.pathname files)
    (hfiles : ∀ row ∈ files, row.pathname = filePath row.clientId row.filename ∧
      HasKey db row.clientId) : Filed ⟨db.clients.map g, files⟩ where
  idLength row hrow := by
    obtain ⟨old, hold, rfl⟩ := List.mem_map.mp hrow
    rw [hg.id]
    exact h.idLength old hold
  uniqueIds := h.uniqueIds.map hg.id
  uniquePaths := hunique
  pathname row hrow := (hfiles row hrow).1
  keyed row hrow := (hfiles row hrow).2.map hg files

theorem keepsKeys_lastSeen (now : Str) (clientId : Bytes) : KeepsKeys fun row =>
    if row.clientId = clientId then { row with lastSeen := some now } else row := by
  constructor <;> intro row <;> split_ifs <;> simp

theorem keepsKeys_insertKeys (now clientName : Str) (publicKey aesKey : Bytes) :
    KeepsKeys fun row => if row.clientName = clientName then
      { row with publicKey := some publicKey, aesKey := some aesKey, lastSeen := some now }
      else row := by
  constructor <;> intro row <;> split_ifs <;> simp

section Updates

variable {db : Database} (h : Filed db) (now : Str)
include h

theorem Filed.files (row : FileRow) (hrow : row ∈ db.files) :
    row.pathname = filePath row.clientId row.filename ∧ HasKey db row.clientId :=
  ⟨h.pathname row hrow, h.keyed row hrow⟩

theorem Filed.insertNewClient (clientName : Str) {clientId : Bytes}
    (hlen : clientId.length = 16) : Filed (db.insertNewClient now clientName clientId) := by
  unfold Database.insertNewClient
  split_ifs with hx
  · exact h
  · rw [clientExistsById_eq, Bool.not_eq_true, Option.isSome_eq_false_iff,
      Option.isNone_iff_eq_none] at hx
    refine ⟨?_, h.uniqueIds.append hx, h.uniquePaths, h.pathname, ?_⟩
    · intro row hrow
      rcases List.mem_append.mp hrow with hold | hnew
      · exact h.idLength row hold
      · rw [List.mem_singleton.mp hnew]
        exact hlen
    · intro row hrow
      obtain ⟨client, hclient, hid⟩ := h.keyed row hrow
      exact ⟨client, List.mem_append_left _ hclient, hid⟩

theorem Filed.insertKeysOfClient (clientName : Str) (publicKey aesKey : Bytes) :
    Filed (db.insertKeysOfClient now clientName publicKey aesKey) :=
  h.map (keepsKeys_insertKeys now clientName publicKey aesKey) h.uniquePaths h.files

theorem Filed.insertFileDetails {clientId : Bytes} (hk : HasKey db clientId) (filename : Str)
    (verified : Bool) : Filed (db.insertFileDetails now clientId filename
      (filePath clientId filename) verified) := by
  unfold Database.insertFileDetails
  split_ifs with hx
  · exact h
  · have hfree : lookup FileRow.pathname db.files (filePath clientId filename) = none := by
      simpa [lookup_eq_none] using hx
    apply h.map (keepsKeys_lastSeen now clientId) (h.uniquePaths.append hfree)
    intro row hrow
    rcases List.mem_append.mp hrow with hold | hnew
    · exact h.files row hold
    · rw [List.mem_singleton.mp hnew]
      exact ⟨rfl, hk⟩

theorem Filed.updateCksumVerification (clientId : Bytes) (filename : Str) (verified : Bool) :
    Filed (db.updateCksumVerification now clientId filename verified) := by
  apply h.map (keepsKeys_lastSeen now clientId)
  · exact h.uniquePaths.map fun row => by split_ifs <;> rfl
  · intro row hrow
    obtain ⟨old, hold, rfl⟩ := List.mem_map.mp hrow
    split_ifs <;> exact h.files old hold

theorem Filed.deleteFileOfClient (clientId : Bytes) (filename : Str) :
    Filed (db.deleteFileOfClient now clientId filename) :=
  h.map (keepsKeys_lastSeen now clientId) (h.uniquePaths.filter _)
    fun row hrow => h.files row (List.mem_of_mem_filter hrow)

end Updates

/-- The clients whose key a thread has read, and the id it has drawn. -/
structure Given where
  keyed : List Bytes
  drawn : Option Bytes

def FileOf (keyed : Bytes → Prop) (path : Str) (file : File) : Prop :=
  ∃ clientId filename, keyed clientId ∧ path = filePath clientId filename ∧
    file = .new clientId filename path

def keyMonitor : Monitor calls PyError Given where
  allowed g c :=
    match c with
    | .host (.insertFileDetails clientId filename pathname _) =>
      pathname = filePath clientId filename ∧ clientId ∈ g.keyed
    | .host (.fileMapPut path file) => FileOf (· ∈ g.keyed) path file
    | .host (.clientAddFile clientId path file) =>
      FileOf (fun x => x = clientId ∧ clientId ∈ g.keyed) path file
    | .host (.clientMapPut clientId client) =>
      g.drawn = some clientId ∧ ∃ clientName, client = .new clientId clientName
    | .host (.insertNewClient _ clientId) => clientId.length = 16
    | _ => True
  after g c r :=
    match c, r with
    | .host (.getAesKeyOfClient clientId), .ok (some _) =>
      { g with keyed := clientId :: g.keyed }
    | .host .uuid4, .ok clientId => { g with drawn := some clientId }
    | _, _ => g

def Free : HostCall → Prop
  | .insertFileDetails _ _ _ _ | .fileMapPut _ _ | .clientAddFile _ _ _ | .clientMapPut _ _
  | .insertNewClient _ _ => False
  | _ => True

theorem allowed_of_free {reads : Prop} {A : HostCall → Prop} (hA : ∀ c, A c → Free c) (g : Given)
    {c : Call} (hc : Within reads A c) : keyMonitor.allowed g c := by
  cases c with
  | host c =>
    have hfree := hA c hc
    cases c with
    | insertFileDetails | fileMapPut | clientAddFile | clientMapPut | insertNewClient =>
      exact hfree.elim
    | _ => trivial
  | _ => trivial

theorem obeys_free {α : Type} {reads : Prop} {A : HostCall → Prop} {p : Proc α}
    (hp : Issues (Within reads A) p) (hA : ∀ c, A c → Free c) (g : Given) :
    Obeys keyMonitor p g fun _ _ => True :=
  hp.obeys (fun g _ hc => allowed_of_free hA g hc) g

theorem obeys_guarded {p : Proc Unit} {g : Given} (h : Obeys keyMonitor p g fun _ _ => True) :
    Obeys keyMonitor (guarded p) g fun _ _ => True := by
  apply Obeys.attempt
  apply h.mono
  intro g o _
  cases o <;> trivial

theorem obeys_respond (code : ℕ) (clientId : Bytes) (g : Given) :
    Obeys keyMonitor (respond code clientId) g fun _ _ => True := by
  have hwithin : Issues (Within True fun _ => False) (respond code clientId) :=
    within_respond code clientId
  exact obeys_free hwithin (fun _ h => h.elim) g

theorem obeys_makeDir (dirName : Str) (g : Given) :
    Obeys keyMonitor (makeDir dirName) g fun g' _ => g' = g := by
  refine .bind (.issue trivial fun found => ?_)
  cases found with
  | error e => rfl
  | ok found =>
    dsimp only
    split_ifs
    · exact .issue trivial fun _ => rfl
    · rfl

theorem obeys_recordFile {clientId : Bytes} {g : Given} (hk : clientId ∈ g.keyed)
    (filename : Str) : Obeys keyMonitor (recordFile clientId filename (filePath clientId filename))
      g fun _ _ => True := by
  refine .seq (.issue trivial fun r => ?_)
  rintro found rfl
  split_ifs
  · exact .issue trivial fun _ => trivial
  · exact .issue ⟨rfl, hk⟩ fun _ => trivial

variable (E : Externals) (request : Request) (payload : Bytes)

theorem obeys_processFileContent (filename : Str) (encrypted : Bytes) (g : Given) :
    Obeys keyMonitor (processFileContent E request filename encrypted) g fun _ _ => True := by
  apply obeys_guarded
  refine .seq (.issue trivial fun _ => ?_)
  rintro _ rfl
  refine .seq (.issue trivial fun _ => ?_)
  rintro aesKey rfl
  refine .seq (.ofOption (fun key hkey => ?_) nofun)
  rintro _ ⟨⟩
  -- the key was there, so the thread knows it from here on
  subst hkey
  refine .seq (.ofOption (fun padded _ => ?_) nofun)
  rintro _ ⟨⟩
  refine .seq (.ofOption (fun content _ => ?_) nofun)
  rintro _ ⟨⟩
  refine .seq ((obeys_makeDir _ _).mono ?_)
  rintro _ _ rfl _ _
  refine .seq ((obeys_makeDir _ _).mono ?_)
  rintro _ _ rfl _ _
  refine .seq (.issue trivial fun _ => ?_)
  rintro _ rfl
  refine .seq (.issue ⟨request.clientId, filename, .head _, rfl, rfl⟩ fun _ => ?_)
  rintro _ rfl
  refine .seq (.issue ⟨request.clientId, filename, ⟨rfl, .head _⟩, rfl, rfl⟩ fun _ => ?_)
  rintro _ rfl
  refine .seq (.issue trivial fun _ => ?_)
  rintro _ rfl
  refine .seq (.ofOption (fun cksum _ => ?_) nofun)
  rintro _ ⟨⟩
  refine .seq ((obeys_recordFile (.head _) filename).mono ?_)
  intro g _ _ _ _
  have hwithin : Issues (Within True fun _ => False)
      (sendCksum request.clientId filename content.length cksum) := within_sendCksum _ _ _ _
  exact obeys_free hwithin (fun _ h => h.elim) g

theorem obeys_handleFileRequest (g : Given) :
    Obeys keyMonitor (handleFileRequest E request) g fun _ _ => True := by
  apply obeys_guarded
  refine .seq (.issue trivial fun _ => ?_)
  rintro fileData rfl
  split_ifs
  · refine .seq (.ofOption (fun fields _ => ?_) nofun)
    rintro _ ⟨⟩
    have hname : Issues (Within True fun _ => False) (readFilename E fields.2.2.1) :=
      within_readFilename E _
    refine .seq ((obeys_free hname (fun _ h => h.elim) _).mono ?_)
    intro g _ _ filename _
    refine .seq (.issue trivial fun _ => ?_)
    rintro encrypted rfl
    exact obeys_processFileContent E request filename encrypted _
  · trivial

theorem uuidField_length (clientId : Bytes) : (uuidField clientId).length = 16 := by
  simp only [uuidField, List.length_append, List.length_take, List.length_replicate]
  omega

theorem response_clientId_length {version code : ℕ} {clientId payload : Bytes}
    {response : Response} (h : Response.new version code clientId payload = some response) :
    response.clientId.length = 16 := by
  unfold Response.new at h
  split_ifs at h
  cases h
  exact uuidField_length clientId

theorem obeys_handleClientRegistration (g : Given) :
    Obeys keyMonitor (handleClientRegistration payload) g fun _ _ => True := by
  apply obeys_guarded
  refine .seq (.ofOption (fun clientName _ => ?_) nofun)
  rintro _ ⟨⟩
  refine .seq (.issue trivial fun _ => ?_)
  rintro found rfl
  split_ifs
  · exact obeys_respond _ _ _
  · refine .seq (.issue trivial fun _ => ?_)
    rintro clientId rfl
    refine .seq (.ofOption (fun response hresponse => ?_) nofun)
    rintro _ ⟨⟩
    refine .seq (.issue ⟨rfl, stripNul clientName, rfl⟩ fun _ => ?_)
    rintro _ rfl
    refine .seq (.issue (response_clientId_length hresponse) fun _ => ?_)
    rintro _ rfl
    exact .seq (.ofOption (fun data _ => by rintro _ ⟨⟩; exact ⟨trivial, fun _ => trivial⟩) nofun)

theorem free_of_footprint {kind : Kind} (hregister : kind ≠ .register) (hfile : kind ≠ .sendFile)
    (c : HostCall) (h : Footprint kind c) : Free c := by
  cases kind with
  | register => exact absurd rfl hregister
  | sendFile => exact absurd rfl hfile
  | _ =>
    cases c with
    | insertFileDetails | fileMapPut | clientAddFile | clientMapPut | insertNewClient => exact h
    | _ => trivial

theorem obeys_dispatch (g : Given) :
    Obeys keyMonitor (dispatch E request payload) g fun _ _ => True := by
  have hfoot := footprint_dispatch E request payload
  rw [dispatch_eq] at hfoot ⊢
  cases hkind : kindOf request.code with
  | register => exact obeys_handleClientRegistration payload g
  | sendFile => exact obeys_handleFileRequest E request g
  | _ =>
    rw [hkind] at hfoot
    exact obeys_free hfoot (free_of_footprint (by simp) (by simp)) g

theorem obeys_handleRequest (g : Given) :
    Obeys keyMonitor (handleRequest E request payload) g fun _ _ => True := by
  have hgate : Issues (Within True Free) (turnedAway request) := by
    apply Issues.attempt _ fun _ => within_pure _
    split_ifs
    · exact within_pure _
    · exact .bind (within_host trivial) fun found => within_pure _
  refine .seq ((obeys_free hgate (fun _ h => h) g).mono ?_)
  intro g _ _ away _
  split_ifs
  · exact obeys_guarded (obeys_respond _ _ g)
  · exact obeys_dispatch E request payload g

theorem obeys_sessionTurn (g : Given) :
    Obeys keyMonitor (sessionTurn E) g fun _ _ => True := by
  refine .seq ((obeys_free footprint_receiveRequest (fun _ h => h.elim) g).mono ?_)
  intro g _ _ received _
  cases received with
  | none => trivial
  | some received =>
    exact .seq ((obeys_handleRequest E received.1 received.2 g).mono fun _ _ _ _ _ => trivial)

variable {δ : Type}

/-- The tables are filed, and the maps hold clients and files under their own keys; a file is
always one of a client that has a key. -/
structure Ordered (s : Server δ) : Prop where
  filed : Filed s.database
  clientMap : ∀ clientId client, s.clientMap clientId = some client →
    clientId.length = 16 ∧ client.clientId = clientId ∧ ∀ path file,
      client.files path = some file →
        FileOf (fun x => x = clientId ∧ HasKey s.database clientId) path file
  fileMap : ∀ path file, s.fileMap path = some file → FileOf (HasKey s.database) path file

/-- What the threads have been given is true of the stores. -/
structure Knows (s : Server δ) (g : Given) : Prop where
  keyed : ∀ clientId ∈ g.keyed, HasKey s.database clientId
  drawn : ∀ clientId, g.drawn = some clientId → clientId.length = 16

theorem FileOf.mono {P Q : Bytes → Prop} (hPQ : ∀ clientId, P clientId → Q clientId) {path : Str}
    {file : File} (h : FileOf P path file) : FileOf Q path file := by
  obtain ⟨clientId, filename, hP, hpath, hfile⟩ := h
  exact ⟨clientId, filename, hPQ clientId hP, hpath, hfile⟩

variable {s : Server δ} {g : Given}

theorem Knows.mono {s' : Server δ} (h : Knows s g)
    (hkeys : ∀ clientId, HasKey s.database clientId → HasKey s'.database clientId) :
    Knows s' g :=
  ⟨fun clientId hid => hkeys clientId (h.keyed clientId hid), h.drawn⟩

theorem Ordered.maps {s' : Server δ} (h : Ordered s) (hdb : s'.database = s.database)
    (hclients : ∀ clientId client, s'.clientMap clientId = some client →
      s.clientMap clientId = some client ∨ clientId.length = 16 ∧ client.clientId = clientId ∧
        ∀ path file, client.files path = some file →
          FileOf (fun x => x = clientId ∧ HasKey s.database clientId) path file)
    (hfiles : ∀ path file, s'.fileMap path = some file →
      s.fileMap path = some file ∨ FileOf (HasKey s.database) path file) : Ordered s' where
  filed := hdb ▸ h.filed
  clientMap clientId client hc := by
    rw [hdb]
    rcases hclients clientId client hc with hold | hnew
    · exact h.clientMap clientId client hold
    · exact hnew
  fileMap path file hf := by
    rw [hdb]
    rcases hfiles path file hf with hold | hnew
    · exact h.fileMap path file hold
    · exact hnew

theorem Ordered.tables (h : Ordered s) {db : Database} (hfiled : Filed db)
    (hkeys : ∀ clientId, HasKey s.database clientId → HasKey db clientId) :
    Ordered { s with database := db } where
  filed := hfiled
  clientMap clientId client hc := by
    obtain ⟨hlen, hid, hfiles⟩ := h.clientMap clientId client hc
    exact ⟨hlen, hid, fun path file hf =>
      (hfiles path file hf).mono fun _ hx => ⟨hx.1, hkeys clientId hx.2⟩⟩
  fileMap path file hf := (h.fileMap path file hf).mono hkeys

structure Orderly (s : Server δ) (t : Trace calls PyError) : Prop where
  ordered : Ordered s
  knows : ∀ i, Knows s (seen keyMonitor ⟨[], none⟩ i t)

theorem orderly_start (h : Ordered s) : Orderly s [] :=
  ⟨h, fun _ => ⟨fun _ hx => (by cases hx), fun _ hx => (by cases hx)⟩⟩

variable [FileSystem δ]

theorem unreliable_cases (x : Ending × Str × ServerThreads.Input) (c : Call) (s : Server δ) :
    (∃ y, unreliable E x c s = shared E y c s) ∨
      (unreliable E x c s).2 = s ∧ ∀ r, (unreliable E x c s).1 = .ok r →
        FaultyDatabase.swallowed c = some r := by
  unfold unreliable
  split
  · exact .inl ⟨_, rfl⟩
  · next a ha =>
    split
    · exact .inl ⟨_, rfl⟩
    · refine .inr ⟨rfl, fun r hr => ?_⟩
      cases hr
      exact ha
    · refine .inr ⟨rfl, fun r hr => ?_⟩
      cases hr

theorem hasKey_shared (y : ServerThreads.Input) (c : Call) (s : Server δ) {clientId : Bytes}
    (hk : HasKey s.database clientId) : HasKey (shared E y c s).2.database clientId := by
  cases hm : method c with
  | none => rwa [shared_database E s hm]
  | some m =>
    cases c with
    | recv | send => cases hm
    | host c =>
      cases c with
      | insertNewClient clientName x =>
        simp only [shared, hostCall, Database.insertNewClient]
        split_ifs
        · exact hk
        · obtain ⟨row, hrow, h⟩ := hk
          exact ⟨row, List.mem_append_left _ hrow, h⟩
      | insertKeysOfClient clientName publicKey aesKey =>
        exact hk.map (keepsKeys_insertKeys _ clientName publicKey aesKey) _
      | insertFileDetails x filename pathname verified =>
        simp only [shared, hostCall, Database.insertFileDetails]
        split_ifs
        · exact hk
        · exact hk.map (keepsKeys_lastSeen _ x) _
      | updateCksumVerification x filename verified => exact hk.map (keepsKeys_lastSeen _ x) _
      | deleteFileOfClient x filename => exact hk.map (keepsKeys_lastSeen _ x) _
      | clientExistsByName | clientExistsById | getClientName | getClientList | fileExists
      | getFileList | getAesKeyOfClient => exact hk
      | _ => cases hm

/-- What a thread learns by a call is true afterwards. -/
theorem Knows.after_shared (h : Knows s g) (y : ServerThreads.Input) (c : Call) :
    Knows (shared E y c s).2 (keyMonitor.after g c (shared E y c s).1) := by
  have hold := h.mono fun _ hk => hasKey_shared E y c s hk
  cases c with
  | host c =>
    cases c with
    | getAesKeyOfClient clientId =>
      simp only [shared, hostCall] at hold ⊢
      cases hkey : s.database.getAesKeyOfClient clientId with
      | none => exact hold
      | some key =>
        refine ⟨fun x hx => ?_, hold.drawn⟩
        rcases List.mem_cons.mp hx with rfl | hx
        · exact hasKey_of_getAesKey hkey
        · exact hold.keyed x hx
    | uuid4 =>
      refine ⟨hold.keyed, fun clientId hdrawn => ?_⟩
      cases hdrawn
      exact y.env.uuid_length
    | _ => exact hold
  | _ => exact hold

theorem Ordered.shared (h : Ordered s) (hg : Knows s g) {c : Call}
    (hallowed : keyMonitor.allowed g c) (y : ServerThreads.Input) :
    Ordered (ServerThreads.shared E y c s).2 := by
  have hkeys {clientId : Bytes} : HasKey s.database clientId →
      HasKey (ServerThreads.shared E y c s).2.database clientId := hasKey_shared E y c s
  have hsame {s' : Server δ} (hdb : s'.database = s.database)
      (hclients : s'.clientMap = s.clientMap) (hfiles : s'.fileMap = s.fileMap) : Ordered s' :=
    h.maps hdb (fun _ _ hc => .inl (hclients ▸ hc)) fun _ _ hf => .inl (hfiles ▸ hf)
  have hdisk (r : Option δ) : Ordered (onDisk s r).2 := by
    cases r <;> exact hsame rfl rfl rfl
  cases c with
  | recv n => exact h
  | send data => exact h
  | host c =>
    cases c with
    | insertNewClient clientName clientId =>
      exact h.tables (h.filed.insertNewClient _ clientName hallowed) fun _ => hkeys
    | insertKeysOfClient clientName publicKey aesKey =>
      exact h.tables (h.filed.insertKeysOfClient _ clientName publicKey aesKey) fun _ => hkeys
    | insertFileDetails clientId filename pathname verified =>
      obtain ⟨rfl, hmem⟩ := hallowed
      exact h.tables (h.filed.insertFileDetails _ (hg.keyed clientId hmem) filename verified)
        fun _ => hkeys
    | updateCksumVerification clientId filename verified =>
      exact h.tables (h.filed.updateCksumVerification _ clientId filename verified) fun _ => hkeys
    | deleteFileOfClient clientId filename =>
      exact h.tables (h.filed.deleteFileOfClient _ clientId filename) fun _ => hkeys
    | mkdir | writeFile | remove => exact hdisk _
    | clearMaps => exact h.maps rfl (fun _ _ hc => (by cases hc)) fun _ _ hf => (by cases hf)
    | clientMapPut clientId client =>
      obtain ⟨hdrawn, clientName, rfl⟩ := hallowed
      have hlen := hg.drawn clientId hdrawn
      refine h.maps rfl (fun x client hc => ?_) fun _ _ hf => .inl hf
      by_cases hx : x = clientId
      · subst hx
        simp only [ServerThreads.shared, hostCall, Function.update_self, Option.some.injEq] at hc
        subst hc
        exact .inr ⟨hlen, uuidField_eq hlen, fun _ _ hf => by cases hf⟩
      · simp only [ServerThreads.shared, hostCall, Function.update_of_ne hx] at hc
        exact .inl hc
    | clientAddFile clientId path file =>
      simp only [ServerThreads.shared, hostCall]
      cases hc : s.clientMap clientId with
      | none => exact h
      | some client =>
        obtain ⟨hlen, hid, hfiles⟩ := h.clientMap clientId client hc
        refine h.maps rfl (fun x client' hx => ?_) fun _ _ hf => .inl hf
        by_cases hne : x = clientId
        · subst hne
          simp only [Function.update_self, Option.some.injEq] at hx
          subst hx
          refine .inr ⟨hlen, hid, fun path' file' hf => ?_⟩
          by_cases hp : path' = path
          · subst hp
            simp only [Client.addFile, Function.update_self, Option.some.injEq] at hf
            subst hf
            exact hallowed.mono fun _ hx => ⟨hx.1, hg.keyed _ hx.2⟩
          · simp only [Client.addFile, Function.update_of_ne hp] at hf
            exact hfiles path' file' hf
        · simp only [Function.update_of_ne hne] at hx
          exact .inl hx
    | clientRemoveFile clientId path =>
      simp only [ServerThreads.shared, hostCall]
      cases hc : s.clientMap clientId with
      | none => exact h
      | some client =>
        obtain ⟨hlen, hid, hfiles⟩ := h.clientMap clientId client hc
        dsimp only
        split_ifs
        · refine h.maps rfl (fun x client' hx => ?_) fun _ _ hf => .inl hf
          by_cases hne : x = clientId
          · subst hne
            simp only [Function.update_self, Option.some.injEq] at hx
            subst hx
            refine .inr ⟨hlen, hid, fun path' file' hf => ?_⟩
            by_cases hp : path' = path
            · subst hp
              simp [Client.removeFile] at hf
            · simp only [Client.removeFile, Function.update_of_ne hp] at hf
              exact hfiles path' file' hf
          · simp only [Function.update_of_ne hne] at hx
            exact .inl hx
        · exact h
    | fileMapPut path file =>
      refine h.maps rfl (fun _ _ hc => .inl hc) fun path' file' hf => ?_
      by_cases hp : path' = path
      · subst hp
        simp only [ServerThreads.shared, hostCall, Function.update_self, Option.some.injEq] at hf
        subst hf
        exact .inr (hallowed.mono fun x hx => hg.keyed x hx)
      · simp only [ServerThreads.shared, hostCall, Function.update_of_ne hp] at hf
        exact .inl hf
    | fileMapPop path =>
      simp only [ServerThreads.shared, hostCall]
      split_ifs
      · refine h.maps rfl (fun _ _ hc => .inl hc) fun path' file' hf => ?_
        by_cases hp : path' = path
        · subst hp
          simp at hf
        · simp only [Function.update_of_ne hp] at hf
          exact .inl hf
      · exact h
    | _ => exact h

theorem Orderly.call {t : Trace calls PyError} (h : Orderly s t) {i : ℕ} {c : Call}
    (hallowed : keyMonitor.allowed (seen keyMonitor ⟨[], none⟩ i t) c)
    (x : Ending × Str × ServerThreads.Input) :
    Orderly (unreliable E x c s).2 (⟨i, c, (unreliable E x c s).1⟩ :: t) := by
  rcases unreliable_cases E x c s with ⟨y, hy⟩ | ⟨hs, hr⟩
  · rw [hy]
    refine ⟨h.ordered.shared E (h.knows i) hallowed y, fun j => ?_⟩
    rcases eq_or_ne j i with rfl | hj
    · rw [seen_self]
      exact (h.knows j).after_shared E y c
    · rw [seen_other hj]
      exact (h.knows j).mono fun _ => hasKey_shared E y c s
  · rw [hs]
    refine ⟨h.ordered, fun j => ?_⟩
    rcases eq_or_ne j i with rfl | hj
    · rw [seen_self]
      have hafter : keyMonitor.after (seen keyMonitor ⟨[], none⟩ j t) c (unreliable E x c s).1 =
          seen keyMonitor ⟨[], none⟩ j t := by
        cases hanswer : (unreliable E x c s).1 with
        | error e => cases c with
          | host c => cases c <;> rfl
          | _ => rfl
        | ok r =>
          have hsw := hr r hanswer
          cases c with
          | host c => cases c with
            | getAesKeyOfClient clientId => cases hsw; rfl
            | uuid4 => cases hsw
            | _ => rfl
          | _ => rfl
      rw [hafter]
      exact h.knows j
    · rw [seen_other hj]
      exact h.knows j

/-- In any interleaving of the sessions, whatever fails, the stores stay ordered. -/
theorem ordered_of_run {s₀ : Server δ} (h₀ : Ordered s₀) {p : Pool calls PyError (Server δ)}
    (h : Run (unreliable E) (sessionTurn E) anything s₀ p) : Ordered p.state :=
  (h.invariant (g := ⟨[], none⟩) (obeys_sessionTurn E) Orderly (orderly_start h₀)
    fun _ _ _ _ x hallowed _ hinv => hinv.call E hallowed x).ordered

end EncryptedTransfer.StoreInvariants
