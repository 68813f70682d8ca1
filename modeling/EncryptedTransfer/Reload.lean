import EncryptedTransfer.ServerRuns

/-!
# What a new process loads

`load_data_from_database` over any tables that keep their primary keys. A file whose client has
no row stops it with a `KeyError` of `__client_map`, which is caught: the files behind it are
missing from the maps.
-/
namespace EncryptedTransfer.Reload
open ByteFormats Text ServerStores ServerCalls ServerHandlers ServerConsistency ServerEffects
open ServerRuns KeyedTable Interaction Program

def owned (db : Database) (row : FileRow) : Bool := (clients db row.clientId).isSome

/-- The files that are loaded with their clients. -/
def kept (db : Database) : List FileRow := db.files.takeWhile (owned db)

/-- The files from the first one without a client on. -/
def left (db : Database) : List FileRow := db.files.dropWhile (owned db)

/-- The files that are entered in `__file_map`, the one that stops the loading among them. -/
def entered (db : Database) : List FileRow := kept db ++ (left db).take 1

theorem kept_append_left (db : Database) : kept db ++ left db = db.files :=
  List.takeWhile_append_dropWhile

theorem owned_of_kept {db : Database} {row : FileRow} (h : row ∈ kept db) :
    owned db row = true := List.mem_takeWhile_imp h

theorem not_owned_of_left {db : Database} {row : FileRow} {rest : List FileRow}
    (h : left db = row :: rest) : owned db row = false := by
  have hhead := List.head?_dropWhile_not (owned db) db.files
  rw [← left, h] at hhead
  simpa using hhead

variable {δ : Type} [FileSystem δ] (E : Externals) (env : Draws) (d : Delivery) (w : World δ)

theorem run_forM_append {I : Interface} {ε α σ : Type} (M : Machine I ε σ)
    (f : α → Program I ε Unit) (xs ys : List α) (s : σ) :
    run M (forM (xs ++ ys) f) s = andThen M (fun _ => forM ys f) (run M (forM xs f) s) := by
  induction xs generalizing s with
  | nil => rfl
  | cons x xs ih =>
    rw [List.cons_append, List.forM_cons, List.forM_cons, run_bind, run_bind]
    obtain ⟨r | r, s'⟩ := run M (f x) s
    · rfl
    · exact ih s'

theorem run_loadFile_orphan {item : Bytes × Str × Str}
    (h : w.server.clientMap item.1 = none) :
    run (machine E env d) (loadFile item) w = (.error .keyError, { w with server := { w.server with
      fileMap := Function.update w.server.fileMap item.2.2
        (some (.new item.1 item.2.1 item.2.2)) } }) := by
  simp [loadFile, hostCall, h]

/-- The two loops, up to the first file without a client. -/
theorem run_loadKept {rows : List ClientRow} {files : List FileRow}
    (hu : KeyedTable.Unique ClientRow.clientId rows)
    (hp : KeyedTable.Unique FileRow.pathname files)
    (howned : ∀ row ∈ files, (lookup ClientRow.clientId rows row.clientId).isSome) :
    andThen (machine E env d) (fun _ => forM (files.map fun row =>
        (row.clientId, row.filename, row.pathname)) loadFile)
      (run (machine E env d) (forM (rows.map fun row => (row.clientId, row.clientName)) loadClient)
        { w with server := { w.server with clientMap := fun _ => none, fileMap := fun _ => none } }) =
      (.ok (), { w with server := { w.server with
        clientMap := loadedClients ⟨rows, files⟩, fileMap := loadedFiles ⟨rows, files⟩ } }) := by
  rw [run_loadClients _ _ _ _ hu, andThen_ok, run_loadFiles _ _ _ _ hp (by simpa using howned)]
  simp only [Option.or_none, Prod.mk.injEq, World.mk.injEq, Server.mk.injEq, true_and, and_true]
  constructor
  · funext x
    simp only [loadedClients, Option.map_map, clients]
    cases hr : lookup ClientRow.clientId rows x with
    | none => rfl
    | some row => simp [Client.new, (lookup_some hr).2]
  · rfl

/-- The maps of a new process, whatever the tables hold. -/
theorem run_loadDataFromDatabase_kept
    (hu : KeyedTable.Unique ClientRow.clientId w.server.database.clients)
    (hp : KeyedTable.Unique FileRow.pathname w.server.database.files) :
    run (machine E env d) loadDataFromDatabase w =
      (.ok (), { w with server := { w.server with
        clientMap := loadedClients ⟨w.server.database.clients, kept w.server.database⟩
        fileMap := loadedFiles ⟨w.server.database.clients, entered w.server.database⟩ } }) := by
  have hsplit := kept_append_left w.server.database
  have hpk : KeyedTable.Unique FileRow.pathname (kept w.server.database) := by
    rw [KeyedTable.Unique, ← hsplit, List.map_append] at hp
    exact hp.of_append_left
  have hfiles : w.server.database.getFileList =
      (kept w.server.database).map (fun row => (row.clientId, row.filename, row.pathname)) ++
        (left w.server.database).map fun row => (row.clientId, row.filename, row.pathname) := by
    rw [Database.getFileList, ← List.map_append, hsplit]
  have hkept := run_loadKept E env d w hu hpk fun row hrow => owned_of_kept hrow
  simp only [loadDataFromDatabase, run_guarded, host_eq, run_bind, run_call, machine_host,
    hostCall, run_done, andThen_ok, run_ofOption, Database.getClientList, List.forM_eq_forM]
  rw [run_loadClients _ _ _ _ hu, andThen_ok] at hkept
  rw [run_loadClients _ _ _ _ hu]
  simp only [run_bind, run_call, machine_host, hostCall, run_done, andThen_ok, run_ofOption,
    hfiles]
  rw [run_forM_append, hkept, andThen_ok]
  cases hleft : left w.server.database with
  | nil =>
    have hentered : entered w.server.database = kept w.server.database := by
      rw [entered, hleft, List.take_nil, List.append_nil]
    rw [hentered]
    rfl
  | cons row rest =>
    -- the first file without a client is entered, and raises
    have hrow : lookup ClientRow.clientId w.server.database.clients row.clientId = none := by
      simpa [owned] using not_owned_of_left hleft
    have horphan : loadedClients ⟨w.server.database.clients, kept w.server.database⟩
        row.clientId = none := by
      rw [loadedClients, clients, hrow, Option.map_none]
    have hfree : lookup FileRow.pathname (kept w.server.database) row.pathname = none := by
      rw [lookup_eq_none]
      intro r hr he
      rw [← hsplit, hleft, KeyedTable.Unique, List.map_append, List.nodup_append] at hp
      exact hp.2.2 _ (List.mem_map_of_mem hr) _ (List.mem_map_of_mem List.mem_cons_self) he
    have htake : entered w.server.database = kept w.server.database ++ [row] := by
      rw [entered, hleft]
      rfl
    have hentered : loadedFiles ⟨w.server.database.clients, entered w.server.database⟩ =
        Function.update (loadedFiles ⟨w.server.database.clients, kept w.server.database⟩)
          row.pathname (some (fileOf row)) :=
      loadedFiles_change (o := some row) (by rw [htake]; exact lookup_append hfree)
    rw [List.map_cons, List.forM_cons, run_bind, run_loadFile_orphan _ _ _ _ horphan, hentered]
    rfl

theorem run_loadDataFromDatabase_owned
    (hu : KeyedTable.Unique ClientRow.clientId w.server.database.clients)
    (hp : KeyedTable.Unique FileRow.pathname w.server.database.files)
    (howned : ∀ row ∈ w.server.database.files, owned w.server.database row = true) :
    run (machine E env d) loadDataFromDatabase w =
      (.ok (), { w with server := { w.server with
        clientMap := loadedClients w.server.database
        fileMap := loadedFiles w.server.database } }) := by
  have hkept : kept w.server.database = w.server.database.files :=
    List.takeWhile_eq_self_iff.mpr howned
  have hentered : entered w.server.database = w.server.database.files := by
    have hleft : left w.server.database = [] := List.dropWhile_eq_nil_iff.mpr howned
    rw [entered, hkept, hleft, List.take_nil, List.append_nil]
  rw [run_loadDataFromDatabase_kept E env d w hu hp, hkept, hentered]

theorem loadedFiles_entered_iff {db : Database}
    (hp : KeyedTable.Unique FileRow.pathname db.files) :
    loadedFiles ⟨db.clients, entered db⟩ = loadedFiles db ↔ (left db).length ≤ 1 := by
  constructor
  · intro h
    by_contra hlong
    obtain ⟨orphan, row, rest, hleft⟩ : ∃ orphan row rest, left db = orphan :: row :: rest := by
      match hl : left db with
      | [] => rw [hl] at hlong; simp at hlong
      | [_] => rw [hl] at hlong; simp at hlong
      | orphan :: row :: rest => exact ⟨orphan, row, rest, rfl⟩
    have hfiles : entered db ++ row :: rest = db.files := by
      rw [entered, hleft, ← kept_append_left db, hleft]
      simp
    have hthere : rows db row.pathname = some row := by
      rw [rows, hp.lookup_eq_some, ← hfiles]
      simp
    have hmissing : lookup FileRow.pathname (entered db) row.pathname = none := by
      rw [lookup_eq_none]
      intro r hr he
      rw [← hfiles, KeyedTable.Unique, List.map_append, List.nodup_append] at hp
      exact hp.2.2 _ (List.mem_map_of_mem hr) _ (List.mem_map_of_mem List.mem_cons_self) he
    have hat := congrFun h row.pathname
    simp [loadedFiles, rows, hmissing, hthere] at hat
  · intro hshort
    have hentered : entered db = db.files := by
      rw [entered, List.take_of_length_le hshort, kept_append_left]
    rw [hentered]

theorem loadedClients_kept {db : Database} (hshort : (left db).length ≤ 1)
    (hp : KeyedTable.Unique FileRow.pathname db.files) :
    loadedClients ⟨db.clients, kept db⟩ = loadedClients db := by
  cases hleft : left db with
  | nil =>
    have hkept : kept db = db.files := by
      rw [← kept_append_left db, hleft, List.append_nil]
    rw [hkept]
  | cons orphan rest =>
    have hrest : rest = [] := by
      rw [hleft, List.length_cons] at hshort
      exact List.eq_nil_of_length_eq_zero (by omega)
    subst hrest
    have hfiles : db.files = kept db ++ [orphan] := by rw [← hleft, kept_append_left]
    have hnone : clients db orphan.clientId = none := by
      simpa [owned] using not_owned_of_left hleft
    have hfree : lookup FileRow.pathname (kept db) orphan.pathname = none := by
      rw [hfiles, KeyedTable.Unique, List.map_append, List.nodup_append] at hp
      rw [lookup_eq_none]
      exact fun r hr he => hp.2.2 _ (List.mem_map_of_mem hr) _ (List.mem_singleton_self _) he
    have hrows : rows db = Function.update (rows ⟨db.clients, kept db⟩) orphan.pathname
        (some orphan) := by
      rw [rows, hfiles]
      exact lookup_append hfree
    funext clientId
    simp only [loadedClients]
    cases hrow : clients db clientId with
    | none => rfl
    | some row =>
      have hne : row.clientId ≠ orphan.clientId := by
        intro he
        rw [← he, (lookup_some hrow).2, hrow] at hnone
        cases hnone
      rw [Option.map_some, Option.map_some, hrows, filesOf_update_other hne]
      · intro r hr
        cases hr
        rfl
      · intro r hr
        rw [rows, hfree] at hr
        cases hr

theorem length_dropWhile_le_one {α : Type} {p : α → Bool} {l : List α} :
    (l.dropWhile p).length ≤ 1 ↔ ∀ a ∈ l.dropLast, p a = true := by
  induction l with
  | nil => simp
  | cons a l ih =>
    cases l with
    | nil => by_cases h : p a <;> simp [h]
    | cons b l =>
      rw [List.dropLast_cons_of_ne_nil (List.cons_ne_nil b l), List.forall_mem_cons, ← ih]
      by_cases h : p a <;> simp [h]

/-- A new process loads the clients with the files before the first one whose client has no row,
and enters that one too. Its maps mirror the tables exactly where no file but the last one can be
such a file. -/
theorem reload_maps (hu : KeyedTable.Unique ClientRow.clientId w.server.database.clients)
    (hp : KeyedTable.Unique FileRow.pathname w.server.database.files) :
    run (machine E env d) loadDataFromDatabase w =
        (.ok (), { w with server := { w.server with
          clientMap := loadedClients ⟨w.server.database.clients, kept w.server.database⟩
          fileMap := loadedFiles ⟨w.server.database.clients, entered w.server.database⟩ } }) ∧
      ((loadedClients ⟨w.server.database.clients, kept w.server.database⟩ =
            loadedClients w.server.database ∧
          loadedFiles ⟨w.server.database.clients, entered w.server.database⟩ =
            loadedFiles w.server.database) ↔
        ∀ row ∈ w.server.database.files.dropLast, owned w.server.database row = true) := by
  refine ⟨run_loadDataFromDatabase_kept E env d w hu hp, ?_⟩
  rw [loadedFiles_entered_iff hp, ← length_dropWhile_le_one, ← left]
  exact ⟨fun h => h.2, fun h => ⟨loadedClients_kept h hp, h⟩⟩

def orphaned : Database where
  clients := [⟨List.replicate 16 1, ['a'], none, none, none⟩]
  files := [⟨List.replicate 16 2, ['f'], ['p'], false⟩, ⟨List.replicate 16 1, ['g'], ['q'], true⟩]

theorem reload_maps_orphaned : ¬ (loadedClients ⟨orphaned.clients, kept orphaned⟩ =
      loadedClients orphaned ∧
    loadedFiles ⟨orphaned.clients, entered orphaned⟩ = loadedFiles orphaned) := by
  have hu : KeyedTable.Unique ClientRow.clientId orphaned.clients := List.nodup_singleton _
  have hp : KeyedTable.Unique FileRow.pathname orphaned.files := by
    simp [KeyedTable.Unique, orphaned]
  have hmaps := reload_maps CryptoLaws.plainCiphers (CryptoLaws.constantDraws 0) .whole
    ⟨⟨orphaned, KeyedDisk.empty, fun _ => none, fun _ => none⟩, ⟨[], 0, [], []⟩⟩ hu hp
  intro hmirror
  have hfirst := hmaps.2.mp hmirror _ List.mem_cons_self
  revert hfirst
  decide

end EncryptedTransfer.Reload
