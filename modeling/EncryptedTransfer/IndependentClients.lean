import EncryptedTransfer.ClientIsolation
import EncryptedTransfer.ClientViews
import EncryptedTransfer.SeparateViews

/-!
# Clients do not depend on each other

Registered clients send their requests in any interleaving. The parts of the clients are separate
views of the stores, so the stores and every client's answers are those of any other interleaving
of the same requests.
-/
namespace EncryptedTransfer.IndependentClients
open ByteFormats Text ServerStores ServerCalls ServerHandlers ServerConsistency ServerEffects
open ServerRuns ServerFootprints KeyedTable ClientViews SeparateViews CryptoLaws ClientIsolation

def serve (E : Externals) : Step (Server KeyedDisk) Ask Str (List Bytes) := fun a now s =>
  ((asked E a now s).server, (asked E a now s).conn.sent.drop a.conn.sent.length)

/-- A request of a registered client that is no registration, and sends its own name where it
sends a key. -/
structure Proper (s : Server KeyedDisk) (a : Ask) : Prop where
  registered : s.database.clientExistsById a.clientId = true
  code : a.request.code ≠ clientCodeRegister
  ownName : a.request.code = clientCodeSendPublicKey → ∀ clientName publicKey,
    keyRequest a.payload = some (clientName, publicKey) →
      s.database.getClientName a.clientId = some clientName

/-- What holds of the stores after requests of the clients of `s₀`. -/
structure Descends (s₀ s : Server KeyedDisk) : Prop where
  consistent : Consistent s
  names : s.database.getClientList = s₀.database.getClientList
  filesDir : s.disk.dirs filesDir = true ↔
    s₀.disk.dirs filesDir = true ∨ ∃ clientId, s.disk.dirs (clientDir clientId) = true

theorem getClientName_eq (db : Database) (clientId : Bytes) : db.getClientName clientId =
    (db.getClientList.find? (fun item => item.1 = clientId)).map Prod.snd := by
  simp only [Database.getClientName, Database.getClientList, List.find?_map, Option.map_map]
  rfl

theorem clientExistsById_eq_any (db : Database) (clientId : Bytes) :
    db.clientExistsById clientId = db.getClientList.any (fun item => item.1 = clientId) := by
  simp only [Database.clientExistsById, Database.getClientList, List.any_map]
  rfl

theorem Descends.exists_eq {s₀ s : Server KeyedDisk} (h : Descends s₀ s) (clientId : Bytes) :
    s.database.clientExistsById clientId = s₀.database.clientExistsById clientId := by
  rw [clientExistsById_eq_any, clientExistsById_eq_any, h.names]

theorem Descends.name_eq {s₀ s : Server KeyedDisk} (h : Descends s₀ s) (clientId : Bytes) :
    s.database.getClientName clientId = s₀.database.getClientName clientId := by
  rw [getClientName_eq, getClientName_eq, h.names]

theorem retouched_getClientList {db db' : Database} (h : Retouched db db') :
    db'.getClientList = db.getClientList := by
  obtain ⟨g, hg, hk⟩ := h
  rw [Database.getClientList, hg, List.map_map]
  apply List.map_congr_left
  intro row _
  rw [Function.comp_apply, (hk row).1, (hk row).2]

theorem retouched_apply (now : Str) (clientId : Bytes) (c : Change) (s : Server KeyedDisk) :
    Retouched s.database (c.apply now clientId s).database := by
  cases c with
  | idle => exact retouched_refl _
  | keys clientName publicKey aesKey => exact retouched_insertKeysOfClient _ _ _ _ _
  | confirm filename => exact retouched_updateCksumVerification _ _ _ _ _
  | erase filename => exact retouched_deleteFileOfClient _ _ _ _
  | dirs => exact retouched_refl _
  | store filename content => exact retouched_store _ _ _ _ _

theorem filesDir_apply {s₀ s : Server KeyedDisk} (now : Str) (clientId : Bytes) (c : Change)
    (h : s.disk.dirs filesDir = true ↔
      s₀.disk.dirs filesDir = true ∨ ∃ x, s.disk.dirs (clientDir x) = true) :
    (c.apply now clientId s).disk.dirs filesDir = true ↔
      s₀.disk.dirs filesDir = true ∨
        ∃ x, (c.apply now clientId s).disk.dirs (clientDir x) = true := by
  have hmade : (addDirs clientId s).disk.dirs filesDir = true := by
    simp [addDirs, addDir, (clientDir_ne_filesDir clientId).symm]
  have hown : (addDirs clientId s).disk.dirs (clientDir clientId) = true := by
    rw [dirs_addDirs, if_pos rfl]
  cases c with
  | dirs | store filename content => exact iff_of_true hmade (.inr ⟨clientId, hown⟩)
  | _ => exact h

theorem Proper.own {E : Externals} {s₀ s : Server KeyedDisk} {a : Ask} (ha : Proper s₀ a)
    (h : Descends s₀ s) : (changeOf E a (view a.clientId s)).Own a.clientId s.database := by
  unfold changeOf
  cases hk : kindOf a.request.code with
  | sendPublicKey =>
    cases hkey : keyRequest a.payload with
    | none => trivial
    | some key =>
      exact (h.name_eq _).trans (ha.ownName (kindOf_eq_sendPublicKey.mp hk) key.1 key.2 hkey)
  | sendFile =>
    cases uploadHeader E (a.read 275) with
    | none => trivial
    | some header =>
      simp only [Option.elim_some]
      cases (view a.clientId s).content E (a.encrypted header.1) with
      | none => trivial
      | some content =>
        simp only [Option.elim_some]
        split_ifs <;> trivial
  | cksumOk | cksumErrFinal => cases filenameOf E (a.read 255) <;> trivial
  | _ => trivial

/-- A request changes its client's part alone, by what that part was. -/
theorem separate_serve (E : Externals) (s₀ : Server KeyedDisk) :
    Separate Ask.clientId (serve E) view (Proper s₀) (Descends s₀) where
  keeps := by
    intro a now s ha h
    have hid : s.database.clientExistsById a.clientId = true := by
      rw [h.exists_eq, ha.registered]
    have hfollows : Follows s _ (asked E a now s).server :=
      handled_follows h.consistent (fun hc => absurd hc ha.code)
    have hserver := asked_server h.consistent hid now ha.code (E := E)
    have hnames := retouched_getClientList
      (retouched_apply now a.clientId (changeOf E a (view a.clientId s)) s)
    have hdirs := filesDir_apply now a.clientId (changeOf E a (view a.clientId s)) h.filesDir
    rw [← hserver] at hnames hdirs
    exact ⟨hfollows.1, hnames.trans h.names, hdirs⟩
  others := by
    intro a now s x ha h hx
    have hid : s.database.clientExistsById a.clientId = true := by
      rw [h.exists_eq, ha.registered]
    have hserver := asked_server h.consistent hid now ha.code (E := E)
    have hview := view_apply h.consistent.sound now a.clientId x _ (ha.own h (E := E))
    rw [if_neg hx] at hview
    exact (congrArg (view x) hserver).trans hview
  own := by
    intro a now now' s s' ha h h' hview
    have hid : s.database.clientExistsById a.clientId = true := by
      rw [h.exists_eq, ha.registered]
    have hid' : s'.database.clientExistsById a.clientId = true := by
      rw [h'.exists_eq, ha.registered]
    have hown := view_apply h.consistent.sound now a.clientId a.clientId _ (ha.own h (E := E))
    have hown' := view_apply h'.consistent.sound now' a.clientId a.clientId _
      (ha.own h' (E := E))
    rw [if_pos rfl] at hown hown'
    rw [← asked_server h.consistent hid now ha.code] at hown
    rw [← asked_server h'.consistent hid' now' ha.code, ← hview] at hown'
    constructor
    · exact hown.trans hown'.symm
    · have hconn := asked_conn h.consistent h'.consistent hid hid' now now' ha.code hview (E := E)
      exact congrArg (fun conn => conn.sent.drop a.conn.sent.length) hconn

/-- The stores are the same: the clients table up to `last_seen`, the files table as a set of rows
without an order, the disk and the maps. -/
structure SameStores (s s' : Server KeyedDisk) : Prop where
  clients : s.database.clients.map unstamped = s'.database.clients.map unstamped
  files : s.database.files.Perm s'.database.files
  disk : s.disk = s'.disk
  fileMap : s.fileMap = s'.fileMap
  clientMap : s.clientMap = s'.clientMap

section SameViews

variable {s₀ s s' : Server KeyedDisk} (h : Descends s₀ s) (h' : Descends s₀ s')
  (hview : ∀ clientId, view clientId s = view clientId s')
include h h' hview

theorem rows_eq : rows s.database = rows s'.database := by
  have hsame (row : FileRow) : rows s.database (filePath row.clientId row.filename) =
      rows s'.database (filePath row.clientId row.filename) :=
    congrFun (congrArg View.files (hview row.clientId)) row.filename
  funext p
  cases hr : rows s.database p with
  | some row =>
    obtain ⟨hmem, hp⟩ := lookup_some hr
    rw [← hr, ← hp, h.consistent.sound.pathname row hmem, hsame]
  | none =>
    cases hr' : rows s'.database p with
    | none => rfl
    | some row =>
      obtain ⟨hmem, hp⟩ := lookup_some hr'
      rw [← hr, ← hr', ← hp, h'.consistent.sound.pathname row hmem, hsame]

theorem clients_eq : s.database.clients.map unstamped = s'.database.clients.map unstamped := by
  have hall (s : Server KeyedDisk) (hs : Consistent s) :
      (s.database.clients.map unstamped).map some =
        (s.database.getClientList.map Prod.fst).map (fun clientId => (view clientId s).row) := by
    have hids : s.database.getClientList.map Prod.fst =
        s.database.clients.map ClientRow.clientId := by
      rw [Database.getClientList, List.map_map]
      rfl
    rw [List.map_map, hids]
    exact hs.sound.uniqueIds.map_some unstamped
  apply List.map_injective_iff.mpr (Option.some_injective ClientRow)
  rw [hall s h.consistent, hall s' h'.consistent, h.names, h'.names]
  simp only [hview]

theorem disk_eq : s.disk = s'.disk := by
  have hrows := rows_eq h h' hview
  have hfiles : s.disk.files = s'.disk.files := by
    funext p
    have hp := h.consistent.onDisk p
    have hp' := h'.consistent.onDisk p
    rw [← hrows] at hp'
    cases hr : rows s.database p with
    | none =>
      rw [hr, Option.isSome_none, Option.isSome_eq_false_iff, Option.isNone_iff_eq_none] at hp hp'
      rw [hp, hp']
    | some row =>
      obtain ⟨hmem, rfl⟩ := lookup_some hr
      rw [h.consistent.sound.pathname row hmem]
      exact congrFun (congrArg View.contents (hview row.clientId)) row.filename
  have hclient (x : Bytes) : s.disk.dirs (clientDir x) = s'.disk.dirs (clientDir x) :=
    congrArg View.dir (hview x)
  have hbase : s.disk.dirs filesDir = s'.disk.dirs filesDir := by
    rw [Bool.eq_iff_iff, h.filesDir, h'.filesDir]
    simp only [hclient]
  have hdirs : s.disk.dirs = s'.disk.dirs := by
    have hsame (p : Str) (hp : p = filesDir ∨ ∃ x, p = clientDir x) :
        s.disk.dirs p = s'.disk.dirs p := by
      rcases hp with rfl | ⟨x, rfl⟩
      · exact hbase
      · exact hclient x
    funext p
    cases hp : s.disk.dirs p with
    | true => exact hp.symm.trans (hsame p (h.consistent.dirs p hp))
    | false =>
      cases hp' : s'.disk.dirs p with
      | false => rfl
      | true => exact hp.symm.trans ((hsame p (h'.consistent.dirs p hp')).trans hp')
  cases hs : s.disk
  cases hs' : s'.disk
  simp only [hs, hs'] at hfiles hdirs
  rw [hfiles, hdirs]

theorem sameStores : SameStores s s' := by
  have hrows := rows_eq h h' hview
  refine ⟨clients_eq h h' hview, ?_, disk_eq h h' hview, ?_, ?_⟩
  · exact h.consistent.sound.uniquePaths.perm h'.consistent.sound.uniquePaths hrows
  · rw [h.consistent.fileMap, h'.consistent.fileMap]
    unfold loadedFiles
    rw [hrows]
  · have hloaded (db : Database) : loadedClients db = fun x =>
        ((clients db x).map unstamped).map (fun row =>
          ⟨uuidField row.clientId, row.clientName, filesOf (rows db) row.clientId⟩) := by
      funext x
      rw [Option.map_map]
      rfl
    have hclient (x : Bytes) : (clients s.database x).map unstamped =
        (clients s'.database x).map unstamped := congrArg View.row (hview x)
    rw [h.consistent.clientMap, h'.consistent.clientMap, hloaded, hloaded]
    simp only [hclient, hrows]

end SameViews

theorem consistent_restarted {E : Externals} {s : Server KeyedDisk} (hs : Consistent s)
    (env : Draws) (conn : Conn) : (restarted E env .whole s conn).server = s := by
  rw [restarted_eq E env .whole hs]

theorem dirs_registered {E : Externals} {request : Request} (hc : request.code = clientCodeRegister)
    (env : Draws) (payload : Bytes) (w : World KeyedDisk) :
    (handled E env .whole request payload w).server.disk.dirs = w.server.disk.dirs := by
  have hissues := footprint_handleRequest E request payload
  rw [kindOf_eq_register.mpr hc] at hissues
  let P := fun w' : World KeyedDisk => w'.server.disk.dirs = w.server.disk.dirs
  refine hissues.run_preserves (machine E env .whole) (P := P) ?_ rfl
  intro c w' hcall hw'
  cases c with
  | recv n => exact hw'
  | send data => exact hw'
  | host c => cases c <;> first | exact hw' | exact absurd hcall id

theorem run_filesDir {E : Externals} {s : Server KeyedDisk}
    {acts : List (FileLedger.Act (Bytes × Str) Bytes)} (h : Run E s acts) (x : Bytes)
    (hx : s.disk.dirs (clientDir x) = true) : s.disk.dirs filesDir = true := by
  induction h generalizing x with
  | start => cases hx
  | @request s acts env request payload conn h fresh ih =>
    have hs := h.invariant.1
    by_cases hc : request.code = clientCodeRegister
    · rw [dirs_registered hc] at hx ⊢
      exact ih x hx
    cases hid : s.database.clientExistsById request.clientId with
    | false =>
      rw [handled, run_handleRequest_unknown E env .whole (w := ⟨s, conn⟩) hc hid] at hx ⊢
      exact ih x hx
    | true =>
      let a : Ask := ⟨request, payload, conn, .whole, env⟩
      have hserver := asked_server hs (a := a) hid env.now hc (E := E)
      have hdirs : s.disk.dirs filesDir = true ↔
          s.disk.dirs filesDir = true ∨ ∃ x, s.disk.dirs (clientDir x) = true :=
        ⟨.inl, fun hd => hd.elim id fun hd => hd.elim ih⟩
      have hmade := filesDir_apply env.now a.clientId (changeOf E a (view a.clientId s)) hdirs
      rw [← hserver] at hmade
      exact hmade.mpr (.inr ⟨x, hx⟩)
  | @restart s acts env conn h ih =>
    rw [consistent_restarted h.invariant.1] at hx ⊢
    exact ih x hx

/-- Two interleavings of the same requests of registered clients lead to the same stores, and
every client gets the same answers. -/
theorem interleavings_agree {E : Externals} {s : Server KeyedDisk}
    {acts : List (FileLedger.Act (Bytes × Str) Bytes)} (h : Run E s acts)
    {l l' : List (Ask × Str)} (hl : ∀ a ∈ l, Proper s a.1)
    (hsame : ∀ clientId, actionsOf Ask.clientId clientId l = actionsOf Ask.clientId clientId l') :
    SameStores (run (serve E) l s) (run (serve E) l' s) ∧
      ∀ clientId, answersTo Ask.clientId (serve E) clientId l s =
        answersTo Ask.clientId (serve E) clientId l' s := by
  have hstart : Descends s s := by
    refine ⟨h.invariant.1, rfl, ?_⟩
    constructor
    · exact Or.inl
    · intro hdir
      rcases hdir with hdir | ⟨x, hx⟩
      · exact hdir
      · exact run_filesDir h x hx
  have hl' : ∀ a ∈ l', Proper s a.1 := by
    intro a ha
    have hmem : a.1 ∈ actionsOf Ask.clientId a.1.clientId l' := by
      simp only [actionsOf, List.mem_filter, decide_true, and_true]
      exact List.mem_map_of_mem ha
    rw [← hsame] at hmem
    obtain ⟨b, hb, heq⟩ := List.mem_map.mp (List.mem_filter.mp hmem).1
    exact heq ▸ hl b hb
  have hseparate := separate_serve E s
  have hview (x : Bytes) := hseparate.run_view hl hl' hstart hstart rfl (hsame x)
  constructor
  · exact sameStores (hseparate.run_keeps hl hstart) (hseparate.run_keeps hl' hstart)
      (fun x => (hview x).1)
  · exact fun x => (hview x).2

def keyAsk : Ask :=
  ⟨keyHeader, padField 255 ['b'] ++ derKey, ⟨[], 0, [], []⟩, .whole, constantDraws 3⟩

def finalAsk : Ask :=
  ⟨⟨List.replicate 16 1, 3, clientCodeCksumErrFinal, 255⟩, [],
    ⟨padField 255 ['f'], 0, [], []⟩, .whole, constantDraws 4⟩

theorem interleavings_agree_twoClients :
    SameStores (run (serve plainCiphers) [(keyAsk, ['x']), (finalAsk, ['y'])] twoClients)
        (run (serve plainCiphers) [(finalAsk, ['x']), (keyAsk, ['y'])] twoClients) ∧
      ∀ clientId, answersTo Ask.clientId (serve plainCiphers) clientId
          [(keyAsk, ['x']), (finalAsk, ['y'])] twoClients =
        answersTo Ask.clientId (serve plainCiphers) clientId
          [(finalAsk, ['x']), (keyAsk, ['y'])] twoClients := by
  have hkey : keyRequest keyAsk.payload = some (['b'], derKey) :=
    keyRequest_padField (by decide) (by decide) length_derKey
  apply interleavings_agree run_twoClients
  · intro a ha
    rcases List.mem_pair.mp ha with rfl | rfl
    · refine ⟨by decide, by decide, fun _ clientName publicKey h => ?_⟩
      rw [hkey] at h
      cases h
      decide
    · exact ⟨by decide, by decide, fun h => absurd h (by decide)⟩
  · intro clientId
    have hne : keyAsk.clientId ≠ finalAsk.clientId := by decide
    by_cases hx : keyAsk.clientId = clientId
    · have hy : finalAsk.clientId ≠ clientId := fun hy => hne (hx.trans hy.symm)
      simp [actionsOf, hx, hy]
    · by_cases hy : finalAsk.clientId = clientId <;> simp [actionsOf, hx, hy]

end EncryptedTransfer.IndependentClients
