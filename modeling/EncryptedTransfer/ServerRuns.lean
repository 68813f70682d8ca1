import EncryptedTransfer.CryptoLaws
import EncryptedTransfer.ServerEffects

/-!
# Runs of the server, one request at a time

From an empty server, whole requests and restarts in any order: the stores agree in every
state, and the files are the ledger of what the requests did.
-/
namespace EncryptedTransfer.ServerRuns
open ByteFormats Text ServerStores ServerCalls ServerHandlers ServerConsistency ServerEffects
open Interaction Program FileLedger KeyedTable CryptoLaws

variable (E : Externals)

def handled {δ : Type} [FileSystem δ] (env : Draws) (d : Delivery) (request : Request)
    (payload : Bytes) (w : World δ) : World δ :=
  (run (machine E env d) (handleRequest E request payload) w).2

section Acts

variable (d : Delivery) (db : Database) (request : Request) (conn : Conn)

/-- An upload is accepted where its name can be stored and its content is readable. -/
def uploadAct : Option (Act (Bytes × Str) Bytes) :=
  (uploadHeader E (conn.recv d 275).1).bind (fun header =>
    if nul ∈ header.2 then none
    else (contentOf E db request.clientId ((conn.recv d 275).2.recv d header.1).1).map
      (.accept (request.clientId, header.2)))

def namedAct (act : Bytes × Str → Act (Bytes × Str) Bytes) : Option (Act (Bytes × Str) Bytes) :=
  (filenameOf E (conn.recv d 255).1).map (fun filename => act (request.clientId, filename))

def actOf : Option (Act (Bytes × Str) Bytes) :=
  if db.clientExistsById request.clientId then
    match kindOf request.code with
    | .sendFile => uploadAct E d db request conn
    | .cksumOk => namedAct E d request conn .confirm
    | .cksumErrFinal => namedAct E d request conn .discard
    | _ => none
  else none

end Acts

def Follows (s : Server KeyedDisk) (act : Option (Act (Bytes × Str) Bytes))
    (s' : Server KeyedDisk) : Prop :=
  Consistent s' ∧ entry s' = act.elim (entry s) (entry s).apply

theorem Follows.unchanged {s : Server KeyedDisk} (h : Consistent s) : Follows s none s :=
  ⟨h, rfl⟩

variable {E} {env : Draws} {d : Delivery} {w : World KeyedDisk} {request : Request}
  {payload : Bytes}

theorem processFileContent_follows (hw : Consistent w.server)
    (hid : w.server.database.clientExistsById request.clientId = true) (filename : Str)
    (encrypted : Bytes) :
    Follows w.server
      (if nul ∈ filename then none
        else (contentOf E w.server.database request.clientId encrypted).map
          (.accept (request.clientId, filename)))
      (run (machine E env d) (processFileContent E request filename encrypted) w).2.server := by
  cases hc : contentOf E w.server.database request.clientId encrypted with
  | none =>
    rw [run_processFileContent_unreadable E env d hc]
    split_ifs <;> exact .unchanged hw
  | some content =>
    split_ifs with hn
    · rw [run_processFileContent_nul E env d hw hc hn]
      exact ⟨hw.after_addDirs _, rfl⟩
    · obtain ⟨cksum, hcksum⟩ := Cksum.cksumCalc_isSome content
      rw [run_processFileContent_stored E env d hw hid hc hn hcksum, run_sendCksum_server]
      exact ⟨hw.after_store _ _ hid hn, hw.sound.entry_store _ _ _ _⟩

theorem handleFileRequest_follows (hw : Consistent w.server)
    (hid : w.server.database.clientExistsById request.clientId = true) :
    Follows w.server (uploadAct E d w.server.database request w.conn)
      (run (machine E env d) (handleFileRequest E request) w).2.server := by
  cases hu : uploadHeader E (w.conn.recv d 275).1 with
  | none =>
    rw [run_handleFileRequest_malformed E env d hu, uploadAct, hu]
    exact .unchanged hw
  | some header =>
    rw [run_handleFileRequest E env d hu, uploadAct, hu]
    exact processFileContent_follows
      (w := ⟨w.server, ((w.conn.recv d 275).2.recv d header.1).2⟩) hw hid _ _

theorem handleCksumOk_follows (hw : Consistent w.server) :
    Follows w.server (namedAct E d request w.conn .confirm)
      (run (machine E env d) (handleCksumOk E request) w).2.server := by
  cases hf : filenameOf E (w.conn.recv d 255).1 with
  | none =>
    rw [run_handleCksumOk_undecodable E env d hf, namedAct, hf]
    exact .unchanged hw
  | some filename =>
    rw [run_handleCksumOk E env d hf, namedAct, hf]
    exact ⟨hw.after_confirm _ _ _, hw.sound.entry_confirm _ _ _⟩

theorem handleCksumErrFinal_follows (hw : Consistent w.server) :
    Follows w.server (namedAct E d request w.conn .discard)
      (run (machine E env d) (handleCksumErrFinal E request) w).2.server := by
  cases hf : filenameOf E (w.conn.recv d 255).1 with
  | none =>
    rw [run_handleCksumErrFinal_undecodable E env d hf, namedAct, hf]
    exact .unchanged hw
  | some filename =>
    rw [run_handleCksumErrFinal E env d hw hf, namedAct, hf]
    exact ⟨hw.after_eraseFile _ _ _, hw.sound.entry_eraseFile _ _ _⟩

theorem handleClientRegistration_follows (hw : Consistent w.server)
    (hfresh : w.server.database.clientExistsById env.uuid = false) :
    Follows w.server none (run (machine E env d) (handleClientRegistration payload) w).2.server := by
  cases hn : decodeUtf8 payload with
  | none =>
    rw [run_handleClientRegistration_undecodable E env d hn]
    exact .unchanged hw
  | some clientName =>
    cases ht : w.server.database.clientExistsByName (stripNul clientName) with
    | true =>
      rw [run_handleClientRegistration_taken E env d hn ht]
      exact .unchanged hw
    | false =>
      rw [run_handleClientRegistration E env d hn ht]
      exact ⟨hw.after_register _ env.uuid_length hfresh ht, entry_register _ _ _ _⟩

theorem sendAesKeyToClient_follows (hw : Consistent w.server) :
    Follows w.server none
      (run (machine E env d) (sendAesKeyToClient E request payload) w).2.server := by
  cases hk : keyRequest payload with
  | none =>
    rw [run_sendAesKeyToClient_malformed E env d hk]
    exact .unchanged hw
  | some keys =>
    obtain ⟨clientName, publicKey⟩ := keys
    rw [run_sendAesKeyToClient_server E env d hk]
    exact ⟨hw.after_setKeys _ _ _ _, rfl⟩

/-- One request: the stores keep agreeing, and the files change as its act says. -/
theorem handled_follows (hw : Consistent w.server)
    (hfresh : request.code = clientCodeRegister →
      w.server.database.clientExistsById env.uuid = false) :
    Follows w.server (actOf E d w.server.database request w.conn)
      (handled E env d request payload w).server := by
  unfold handled
  by_cases hk : kindOf request.code = .register
  · have hc := kindOf_eq_register.mp hk
    have hact : actOf E d w.server.database request w.conn = none := by
      simp [actOf, hk]
    rw [run_handleRequest E env d (.inl hc), dispatch_eq, hk, hact]
    exact handleClientRegistration_follows hw (hfresh hc)
  cases hid : w.server.database.clientExistsById request.clientId with
  | false =>
    rw [run_handleRequest_unknown E env d (mt kindOf_eq_register.mpr hk) hid, actOf, hid]
    exact .unchanged hw
  | true =>
    rw [run_handleRequest E env d (.inr hid), dispatch_eq, actOf, hid]
    cases hkind : kindOf request.code with
    | register => exact absurd hkind hk
    | sendPublicKey => exact sendAesKeyToClient_follows hw
    | sendFile => exact handleFileRequest_follows hw hid
    | cksumOk => exact handleCksumOk_follows hw
    | cksumErr =>
      rw [run_handleCksumErr]
      exact .unchanged hw
    | cksumErrFinal => exact handleCksumErrFinal_follows hw
    | unknown => exact .unchanged hw

section Reload

variable (E : Externals) (env : Draws) (d : Delivery) {δ : Type} [FileSystem δ] (w : World δ)

theorem run_loadClient (item : Bytes × Str) :
    run (machine E env d) (loadClient item) w =
      (.ok (), { w with server := { w.server with
        clientMap := Function.update w.server.clientMap item.1 (some (.new item.1 item.2)) } }) :=
  rfl

theorem run_loadFile {item : Bytes × Str × Str} {client : Client}
    (h : w.server.clientMap item.1 = some client) :
    run (machine E env d) (loadFile item) w =
      (.ok (), { w with server := { w.server with
        clientMap := Function.update w.server.clientMap item.1
          (some (client.addFile item.2.2 (.new item.1 item.2.1 item.2.2)))
        fileMap := Function.update w.server.fileMap item.2.2
          (some (.new item.1 item.2.1 item.2.2)) } }) := by
  simp [loadFile, hostCall, h]

theorem run_loadClients {rows : List ClientRow} (hu : Unique ClientRow.clientId rows) :
    run (machine E env d)
        (forM (rows.map (fun row => (row.clientId, row.clientName))) loadClient) w =
      (.ok (), { w with server := { w.server with
        clientMap := fun x => ((lookup ClientRow.clientId rows x).map
          (fun row => Client.new row.clientId row.clientName)).or (w.server.clientMap x) } }) := by
  induction rows generalizing w with
  | nil => simp [lookup]
  | cons row rows ih =>
    obtain ⟨hno, hu⟩ := unique_cons.mp hu
    have hmap (x : Bytes) : ((lookup ClientRow.clientId (row :: rows) x).map
        (fun row => Client.new row.clientId row.clientName)).or (w.server.clientMap x) =
        ((lookup ClientRow.clientId rows x).map
          (fun row => Client.new row.clientId row.clientName)).or
          (Function.update w.server.clientMap row.clientId
            (some (.new row.clientId row.clientName)) x) := by
      rw [lookup_cons]
      by_cases hx : row.clientId = x
      · subst hx
        simp [hno]
      · simp [hx, Ne.symm hx]
    rw [List.map_cons, List.forM_cons, run_bind, run_loadClient, andThen_ok]
    simp only [hmap]
    exact ih _ hu

theorem run_loadFiles {rows : List FileRow} (hu : Unique FileRow.pathname rows)
    (ho : ∀ row ∈ rows, (w.server.clientMap row.clientId).isSome) :
    run (machine E env d)
        (forM (rows.map (fun row => (row.clientId, row.filename, row.pathname))) loadFile) w =
      (.ok (), { w with server := { w.server with
        clientMap := fun x => (w.server.clientMap x).map (fun client => { client with
          files := fun p => (filesOf (lookup FileRow.pathname rows) x p).or (client.files p) })
        fileMap := fun p => ((lookup FileRow.pathname rows p).map fileOf).or
          (w.server.fileMap p) } }) := by
  induction rows generalizing w with
  | nil => simp [lookup, filesOf]
  | cons row rows ih =>
    obtain ⟨hno, hu⟩ := unique_cons.mp hu
    obtain ⟨client, hc⟩ := Option.isSome_iff_exists.mp (ho row (by simp))
    have hcons (x : Bytes) (p : Str) : filesOf (lookup FileRow.pathname (row :: rows)) x p =
        if p = row.pathname ∧ x = row.clientId then some (fileOf row)
        else filesOf (lookup FileRow.pathname rows) x p := by
      by_cases hp : p = row.pathname
      · subst hp
        by_cases hx : x = row.clientId
        · simp [filesOf, lookup_cons, hx, Option.filter_some]
        · simp [filesOf, lookup_cons, hx, Ne.symm hx, hno, Option.filter_some]
      · simp [filesOf, lookup_cons, hp, Ne.symm hp]
    rw [List.map_cons, List.forM_cons, run_bind, run_loadFile _ _ _ _ hc, andThen_ok, ih]
    · simp only [Prod.mk.injEq, World.mk.injEq, Server.mk.injEq, true_and, and_true]
      constructor
      · funext x
        simp only [hcons]
        by_cases hx : x = row.clientId
        · subst hx
          have hnone : filesOf (lookup FileRow.pathname rows) row.clientId row.pathname = none := by
            simp [filesOf, hno]
          simp only [Function.update_self, Option.map_some, hc, Client.addFile, and_true,
            Option.some.injEq, Client.mk.injEq, true_and]
          funext p
          by_cases hp : p = row.pathname
          · subst hp
            simp [hnone, fileOf]
          · simp [hp]
        · simp [hx]
      · funext p
        rw [lookup_cons]
        by_cases hp : row.pathname = p
        · subst hp
          simp [hno, fileOf]
        · simp [hp, Ne.symm hp]
    · exact hu
    · intro r hr
      have hsome := ho r (by simp [hr])
      by_cases hx : r.clientId = row.clientId
      · simp [hx]
      · simp [hx, hsome]

theorem run_loadDataFromDatabase (hs : Sound w.server.database) :
    run (machine E env d) loadDataFromDatabase w =
      (.ok (), { w with server := { w.server with
        clientMap := loadedClients w.server.database
        fileMap := loadedFiles w.server.database } }) := by
  have howned : ∀ row ∈ w.server.database.files,
      (lookup ClientRow.clientId w.server.database.clients row.clientId).isSome := by
    intro row hrow
    rw [← clientExistsById_eq]
    exact hs.owned row hrow
  simp only [loadDataFromDatabase, run_guarded, host_eq, run_bind, run_call, machine_host,
    hostCall, run_done, andThen_ok, run_ofOption, Database.getClientList, List.forM_eq_forM]
  rw [run_loadClients _ _ _ _ hs.uniqueIds]
  simp only [run_bind, run_call, machine_host, hostCall, run_done, andThen_ok, run_ofOption,
    Database.getFileList]
  rw [run_loadFiles _ _ _ _ hs.uniquePaths (by simpa using howned)]
  simp only [Option.or_none, Prod.mk.injEq, World.mk.injEq, Server.mk.injEq, true_and, and_true]
  constructor
  · funext x
    simp only [loadedClients, Option.map_map, clients]
    cases hr : lookup ClientRow.clientId w.server.database.clients x with
    | none => rfl
    | some row => simp [Client.new, (lookup_some hr).2]
  · rfl

/-- The server of a new process over the same tables and disk. -/
def restarted (s : Server δ) (conn : Conn) : World δ :=
  (run (machine E env d) loadDataFromDatabase
    ⟨{ s with clientMap := fun _ => none, fileMap := fun _ => none }, conn⟩).2

theorem restarted_eq {s : Server KeyedDisk} (hs : Consistent s) (conn : Conn) :
    restarted E env d s conn = ⟨s, conn⟩ := by
  rw [restarted, run_loadDataFromDatabase E env d _ hs.sound, ← hs.clientMap, ← hs.fileMap]

end Reload

/-- Runs from an empty server, with the acts on its files. -/
inductive Run (E : Externals) : Server KeyedDisk → List (Act (Bytes × Str) Bytes) → Prop
  | start : Run E .empty []
  | request {s : Server KeyedDisk} {acts : List (Act (Bytes × Str) Bytes)} (env : Draws)
      (request : Request) (payload : Bytes) (conn : Conn) (h : Run E s acts)
      (fresh : request.code = clientCodeRegister → s.database.clientExistsById env.uuid = false) :
      Run E (handled E env .whole request payload ⟨s, conn⟩).server
        (acts ++ (actOf E .whole s.database request conn).toList)
  | restart {s : Server KeyedDisk} {acts : List (Act (Bytes × Str) Bytes)} (env : Draws)
      (conn : Conn) (h : Run E s acts) : Run E (restarted E env .whole s conn).server acts

/-- Runs without failures over any disk, however the requests are delivered. -/
inductive CalmRun {δ : Type} [FileSystem δ] (E : Externals) : Server δ → Prop
  | start (disk : δ) : CalmRun E ⟨.empty, disk, fun _ => none, fun _ => none⟩
  | request {s : Server δ} (env : Draws) (d : Delivery) (request : Request) (payload : Bytes)
      (conn : Conn) (h : CalmRun E s) :
      CalmRun E (handled E env d request payload ⟨s, conn⟩).server
  | restart {s : Server δ} (env : Draws) (d : Delivery) (conn : Conn) (h : CalmRun E s) :
      CalmRun E (restarted E env d s conn).server

theorem Run.calm {E : Externals} {s : Server KeyedDisk} {acts : List (Act (Bytes × Str) Bytes)}
    (h : Run E s acts) : CalmRun E s := by
  induction h with
  | start => exact .start KeyedDisk.empty
  | request env request payload conn h fresh ih => exact ih.request env .whole request payload conn
  | restart env conn h ih => exact ih.restart env .whole conn

theorem consistent_empty : Consistent Server.empty := by
  have hrows (row : FileRow) : row ∉ Server.empty.database.files := List.not_mem_nil
  refine ⟨⟨?_, unique_nil, unique_nil, unique_nil, ?_, ?_, ?_⟩, fun _ => rfl, ?_, rfl, rfl⟩
  · intro row hrow
    cases hrow
  · exact fun row hrow => absurd hrow (hrows row)
  · exact fun row hrow => absurd hrow (hrows row)
  · exact fun row hrow => absurd hrow (hrows row)
  · intro p hp
    cases hp

/-- The stores agree in every state of a run, and hold the ledger of its acts. -/
theorem Run.invariant {s : Server KeyedDisk} {acts : List (Act (Bytes × Str) Bytes)}
    (h : Run E s acts) : Consistent s ∧ entry s = Ledger.run acts := by
  induction h with
  | start => exact ⟨consistent_empty, rfl⟩
  | @request s acts env request payload conn h fresh ih =>
    obtain ⟨hs, he⟩ := ih
    have hf : Follows s (actOf E .whole s.database request conn)
        (handled E env .whole request payload ⟨s, conn⟩).server :=
      handled_follows (w := ⟨s, conn⟩) hs fresh
    refine ⟨hf.1, hf.2.trans ?_⟩
    cases actOf E .whole s.database request conn with
    | none => simp [he]
    | some act =>
      rw [Option.toList_some, Ledger.run_append_singleton, ← he]
      rfl
  | restart env conn h ih =>
    rw [restarted_eq E env .whole ih.1]
    exact ih

/-- Disk, table and maps hold one and the same store: the content accepted last and whether
it was confirmed since. -/
theorem stores_refine_ledger {s : Server KeyedDisk} {acts : List (Act (Bytes × Str) Bytes)}
    (h : Run E s acts) {clientId : Bytes} (hid : s.database.clientExistsById clientId = true)
    (filename : Str) :
    let path := filePath clientId filename
    let found := s.database.files.filter (fun row =>
      row.clientId = clientId ∧ row.filename = filename)
    ((s.disk.files path).isSome = true ↔ ∃ v, found = [⟨clientId, filename, path, v⟩]) ∧
    ((s.disk.files path).isSome = true ↔ s.fileMap path = some ⟨clientId, filename, path⟩) ∧
    ((s.disk.files path).isSome = true ↔ ∃ client, s.clientMap clientId = some client ∧
      client.files path = some ⟨clientId, filename, path⟩) ∧
    (∀ content v, Standing acts (clientId, filename) content v ↔
      s.disk.files path = some content ∧ found = [⟨clientId, filename, path, v⟩]) ∧
    ∀ env conn, restarted E env .whole s conn = ⟨s, conn⟩ := by
  obtain ⟨hs, he⟩ := h.invariant
  have hlen := hs.sound.idLength_of_exists hid
  refine ⟨hs.onDisk_iff_row _ _, hs.onDisk_iff_fileMap _ _ hlen, hs.onDisk_iff_clientMap _ _ hlen,
    ?_, fun env conn => restarted_eq E env .whole hs conn⟩
  intro content v
  rw [← Ledger.run_eq_some, ← he, hs.sound.entry_eq_some]

theorem handled_registration (E : Externals) (env : Draws) (d : Delivery) {request : Request}
    (hcode : request.code = clientCodeRegister) {clientName : Str} (hn : nul ∉ clientName)
    (w : World KeyedDisk) (hfree : w.server.database.clientExistsByName clientName = false) :
    (handled E env d request (encodeUtf8 clientName) w).server =
      register env.now env.uuid clientName w.server := by
  have hstrip := stripNul_of_notMem hn
  rw [handled, run_handleRequest E env d (.inl hcode), dispatch_eq, kindOf_eq_register.mpr hcode]
  simp only
  rw [run_handleClientRegistration E env d (decodeUtf8_encodeUtf8 clientName)
    (by rw [hstrip, hfree]), hstrip]

theorem Run.register {E : Externals} {s : Server KeyedDisk}
    {acts : List (Act (Bytes × Str) Bytes)} (h : Run E s acts) (env : Draws)
    {clientName : Str} (hn : nul ∉ clientName)
    (hfree : s.database.clientExistsByName clientName = false)
    (hfresh : s.database.clientExistsById env.uuid = false) :
    Run E (register env.now env.uuid clientName s) acts := by
  have hrun := h.request env ⟨[], 3, clientCodeRegister, 0⟩ (encodeUtf8 clientName)
    ⟨[], 0, [], []⟩ (fun _ => hfresh)
  rw [handled_registration E env .whole rfl hn _ hfree] at hrun
  have hact : actOf E .whole s.database ⟨[], 3, clientCodeRegister, 0⟩ ⟨[], 0, [], []⟩ = none := by
    simp [actOf, kindOf]
  simpa [hact] using hrun

theorem Run.setKeys {E : Externals} {s : Server KeyedDisk}
    {acts : List (Act (Bytes × Str) Bytes)} (h : Run E s acts) (env : Draws) {clientId : Bytes}
    (hknown : s.database.clientExistsById clientId = true) {clientName : Str}
    {payload publicKey : Bytes} (hkey : keyRequest payload = some (clientName, publicKey)) :
    Run E (setKeys env.now clientName publicKey (env.random aesKeySize) s) acts := by
  have hother : clientCodeSendPublicKey ≠ clientCodeRegister := by decide
  have hkind : kindOf clientCodeSendPublicKey = .sendPublicKey := rfl
  have hrun := h.request env ⟨clientId, 3, clientCodeSendPublicKey, 0⟩ payload ⟨[], 0, [], []⟩
    (fun hcode => absurd hcode hother)
  rw [handled, run_handleRequest E env .whole (.inr hknown), dispatch_eq, hkind] at hrun
  simp only at hrun
  rw [run_sendAesKeyToClient_server E env .whole hkey] at hrun
  have hact : actOf E .whole s.database ⟨clientId, 3, clientCodeSendPublicKey, 0⟩
      ⟨[], 0, [], []⟩ = none := by
    simp [actOf, hkind]
  simpa [hact] using hrun

theorem Run.uploads {E : Externals} {s : Server KeyedDisk}
    {acts : List (Act (Bytes × Str) Bytes)} (h : Run E s acts) (env : Draws) {clientId : Bytes}
    (hid : s.database.clientExistsById clientId = true) {filename : Str}
    (hfield : (encodeUtf8 filename).length ≤ 255) (hn : nul ∉ filename)
    (hlower : E.lower filename = filename) {encrypted content : Bytes}
    (hsize : encrypted.length < 4294967296)
    (hcontent : contentOf E s.database clientId encrypted = some content) :
    Run E (store env.now clientId filename content s)
      (acts ++ [.accept (clientId, filename) content]) := by
  obtain ⟨hs, -⟩ := h.invariant
  have howner := hs.sound.idLength_of_exists hid
  obtain ⟨conn, hread, hrest⟩ : ∃ conn : Conn,
      uploadHeader E ((World.mk s conn).conn.recv .whole 275).1 =
          some (encrypted.length, filename) ∧
        ((conn.recv .whole 275).2.recv .whole encrypted.length).1 = encrypted :=
    ⟨_, uploadConn_recv E howner hfield hn hlower hsize⟩
  let request : Request := ⟨clientId, 3, clientCodeSendFile, 0⟩
  have hkind : kindOf request.code = .sendFile := rfl
  have hother : clientCodeSendFile ≠ clientCodeRegister := by decide
  have hpass : request.code = clientCodeRegister ∨
      (World.mk s conn).server.database.clientExistsById request.clientId = true := .inr hid
  have hact : actOf E .whole s.database request conn =
      some (.accept (clientId, filename) content) := by
    have hif : s.database.clientExistsById request.clientId = true := hid
    simp only [actOf, hif, hkind, uploadAct, hread, Option.bind_some, if_neg hn, hrest]
    exact congrArg (Option.map _) hcontent
  have hserver : (handled E env .whole request [] ⟨s, conn⟩).server =
      store env.now clientId filename content s := by
    obtain ⟨cksum, hcksum⟩ := Cksum.cksumCalc_isSome content
    rw [handled, run_handleRequest E env .whole hpass, dispatch_eq, hkind]
    simp only
    rw [run_handleFileRequest E env .whole hread, hrest,
      run_processFileContent_stored E env .whole hs hid hcontent hn hcksum, run_sendCksum_server]
  have hrun := h.request env request [] conn (fun hcode => absurd hcode hother)
  rwa [hact, hserver] at hrun

theorem Run.confirms {E : Externals} {s : Server KeyedDisk}
    {acts : List (Act (Bytes × Str) Bytes)} (h : Run E s acts) (env : Draws) {clientId : Bytes}
    (hid : s.database.clientExistsById clientId = true) {filename : Str}
    (hfield : (encodeUtf8 filename).length ≤ 255) (hn : nul ∉ filename)
    (hlower : E.lower filename = filename) :
    Run E (confirm env.now clientId filename s) (acts ++ [.confirm (clientId, filename)]) := by
  let request : Request := ⟨clientId, 3, clientCodeCksumOk, 0⟩
  obtain ⟨conn, hread⟩ : ∃ conn : Conn,
      filenameOf E ((World.mk s conn).conn.recv .whole 255).1 = some filename :=
    ⟨_, filenameOf_recv E hfield hn hlower⟩
  have hkind : kindOf request.code = .cksumOk := rfl
  have hother : clientCodeCksumOk ≠ clientCodeRegister := by decide
  have hpass : request.code = clientCodeRegister ∨
      (World.mk s conn).server.database.clientExistsById request.clientId = true := .inr hid
  have hact : actOf E .whole s.database request conn = some (.confirm (clientId, filename)) := by
    have hif : s.database.clientExistsById request.clientId = true := hid
    simp only [actOf, hif, hkind, namedAct, hread, if_true, Option.map_some]
    rfl
  have hserver : (handled E env .whole request [] ⟨s, conn⟩).server =
      confirm env.now clientId filename s := by
    rw [handled, run_handleRequest E env .whole hpass, dispatch_eq, hkind]
    simp only
    rw [run_handleCksumOk E env .whole hread]
  have hrun := h.request env request [] conn (fun hcode => absurd hcode hother)
  rwa [hact, hserver] at hrun

theorem Run.discards {E : Externals} {s : Server KeyedDisk}
    {acts : List (Act (Bytes × Str) Bytes)} (h : Run E s acts) (env : Draws) {clientId : Bytes}
    (hid : s.database.clientExistsById clientId = true) {filename : Str}
    (hfield : (encodeUtf8 filename).length ≤ 255) (hn : nul ∉ filename)
    (hlower : E.lower filename = filename) :
    Run E (eraseFile env.now clientId filename s) (acts ++ [.discard (clientId, filename)]) := by
  obtain ⟨hs, -⟩ := h.invariant
  let request : Request := ⟨clientId, 3, clientCodeCksumErrFinal, 0⟩
  obtain ⟨conn, hread⟩ : ∃ conn : Conn,
      filenameOf E ((World.mk s conn).conn.recv .whole 255).1 = some filename :=
    ⟨_, filenameOf_recv E hfield hn hlower⟩
  have hkind : kindOf request.code = .cksumErrFinal := rfl
  have hother : clientCodeCksumErrFinal ≠ clientCodeRegister := by decide
  have hpass : request.code = clientCodeRegister ∨
      (World.mk s conn).server.database.clientExistsById request.clientId = true := .inr hid
  have hact : actOf E .whole s.database request conn = some (.discard (clientId, filename)) := by
    have hif : s.database.clientExistsById request.clientId = true := hid
    simp only [actOf, hif, hkind, namedAct, hread, if_true, Option.map_some]
    rfl
  have hserver : (handled E env .whole request [] ⟨s, conn⟩).server =
      eraseFile env.now clientId filename s := by
    rw [handled, run_handleRequest E env .whole hpass, dispatch_eq, hkind]
    simp only
    rw [run_handleCksumErrFinal E env .whole (w := ⟨s, conn⟩) hs hread]
  have hrun := h.request env request [] conn (fun hcode => absurd hcode hother)
  rwa [hact, hserver] at hrun

/-- The server of one client `a` that has its key. -/
def keyedServer : Server KeyedDisk :=
  setKeys [] ['a'] derKey (List.replicate 16 2)
    (register [] (List.replicate 16 1) ['a'] .empty)

theorem run_keyedServer (E : Externals) : Run E keyedServer [] := by
  have hregistered := (Run.start (E := E)).register (constantDraws 1)
    (show nul ∉ ['a'] by decide) (by decide) (by decide)
  have hknown : (register (constantDraws 1).now (constantDraws 1).uuid ['a']
      Server.empty).database.clientExistsById (List.replicate 16 1) = true := by decide
  have hkey : keyRequest (padField 255 ['a'] ++ derKey) = some (['a'], derKey) :=
    keyRequest_padField (by decide) (by decide) length_derKey
  exact hregistered.setKeys (constantDraws 2) hknown hkey

theorem knows_keyedServer :
    keyedServer.database.clientExistsById (List.replicate 16 1) = true := by decide

theorem contentOf_keyedServer (lower : Str → Str) (data : Bytes) :
    contentOf { plainCiphers with lower := lower } keyedServer.database (List.replicate 16 1)
      (pkcs7Pad data) = some data := by
  have hkey : keyedServer.database.getAesKeyOfClient (List.replicate 16 1) =
      some (List.replicate 16 2) := by decide
  have hlaws := aesLaws_plainCiphers.decrypt_encrypt (List.replicate 16 2) data
    List.length_replicate
  rw [contentOf, hkey, Option.bind_some]
  exact hlaws

/-- The client `a` uploads `f` and confirms it after a restart, then uploads `g` and gives it
up. -/
theorem stores_refine_ledger_confirmed : ∃ s acts, Run plainCiphers s acts ∧
    s.database.clientExistsById (List.replicate 16 1) = true ∧
    s.disk.files (filePath (List.replicate 16 1) ['f']) = some [7] ∧
    s.disk.files (filePath (List.replicate 16 1) ['g']) = none ∧
    Standing acts (List.replicate 16 1, ['f']) [7] true ∧
    ∀ filename,
      let path := filePath (List.replicate 16 1) filename
      let found := s.database.files.filter (fun row =>
        row.clientId = List.replicate 16 1 ∧ row.filename = filename)
      ((s.disk.files path).isSome = true ↔
        ∃ v, found = [⟨List.replicate 16 1, filename, path, v⟩]) ∧
      ((s.disk.files path).isSome = true ↔
        s.fileMap path = some ⟨List.replicate 16 1, filename, path⟩) ∧
      ((s.disk.files path).isSome = true ↔
        ∃ client, s.clientMap (List.replicate 16 1) = some client ∧
          client.files path = some ⟨List.replicate 16 1, filename, path⟩) ∧
      (∀ content v, Standing acts (List.replicate 16 1, filename) content v ↔
        s.disk.files path = some content ∧
          found = [⟨List.replicate 16 1, filename, path, v⟩]) ∧
      ∀ env conn, restarted plainCiphers env .whole s conn = ⟨s, conn⟩ := by
  have hf : (encodeUtf8 ['f']).length ≤ 255 ∧ nul ∉ ['f'] ∧ plainCiphers.lower ['f'] = ['f'] := by
    decide
  have hg : (encodeUtf8 ['g']).length ≤ 255 ∧ nul ∉ ['g'] ∧ plainCiphers.lower ['g'] = ['g'] := by
    decide
  have hstored := (run_keyedServer plainCiphers).uploads (constantDraws 3) knows_keyedServer
    hf.1 hf.2.1 hf.2.2 (by decide) (contentOf_keyedServer plainCiphers.lower [7])
  have hagain := hstored.restart (constantDraws 4) ⟨[], 0, [], []⟩
  rw [restarted_eq plainCiphers _ _ hstored.invariant.1] at hagain
  have hconfirmed := hagain.confirms (constantDraws 5) knows_keyedServer hf.1 hf.2.1 hf.2.2
  have hother := hconfirmed.uploads (constantDraws 6) knows_keyedServer hg.1 hg.2.1 hg.2.2
    (by decide) (contentOf_keyedServer plainCiphers.lower [8])
  have hrun := hother.discards (constantDraws 7) knows_keyedServer hg.1 hg.2.1 hg.2.2
  refine ⟨_, _, hrun, knows_keyedServer, ?_, ?_, ?_, stores_refine_ledger hrun knows_keyedServer⟩
  · decide +kernel
  · decide +kernel
  · exact ⟨[], [_, _, _], rfl, by simp [Act.Rewrites], by simp⟩

end EncryptedTransfer.ServerRuns
