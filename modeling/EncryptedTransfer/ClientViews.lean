import EncryptedTransfer.ServerFootprints
import EncryptedTransfer.ServerRuns

/-!
# One client's part of the stores

The rows, the files on the disk and the directory of one client. A request changes the stores by
one of a few changes, and which one depends on the request and its client's part alone. A change
of one client is a change of its own part and leaves the parts of the others as they are.
-/
namespace EncryptedTransfer.ClientViews
open ByteFormats Text ServerStores ServerCalls ServerHandlers ServerConsistency ServerEffects
open ServerFootprints ServerRuns KeyedTable Interaction Program

def unstamped (row : ClientRow) : ClientRow := { row with lastSeen := none }

/-- A client's part: its row, its files' rows and contents by name, and whether its directory is
there. -/
@[ext] structure View where
  row : Option ClientRow
  files : Str → Option FileRow
  contents : Str → Option Bytes
  dir : Bool

def view (clientId : Bytes) (s : Server KeyedDisk) : View where
  row := (clients s.database clientId).map unstamped
  files := fun f => rows s.database (filePath clientId f)
  contents := fun f => s.disk.files (filePath clientId f)
  dir := s.disk.dirs (clientDir clientId)

theorem view_aesKey (s : Server KeyedDisk) (clientId : Bytes) :
    (view clientId s).row.bind ClientRow.aesKey = s.database.getAesKeyOfClient clientId := by
  simp only [view, Option.bind_map]
  rfl

theorem clientDir_inj {x y : Bytes} : clientDir x = clientDir y ↔ x = y := by
  constructor
  · intro h
    exact (filePath_inj.mp (congrArg (· ++ sep :: []) h)).1
  · exact fun h => h ▸ rfl

/-- What a client sees of a change at one path of a client. -/
theorem update_seen {α : Type} (m : Str → α) (x y : Bytes) (f : Str) (a : α) :
    (fun g => Function.update m (filePath x f) a (filePath y g)) =
      if y = x then Function.update (fun g => m (filePath x g)) f a
      else fun g => m (filePath y g) := by
  split_ifs with hxy
  · subst hxy
    funext g
    by_cases hg : g = f
    · rw [hg, Function.update_self, Function.update_self]
    · have hne : filePath y g ≠ filePath y f := fun h => hg (filePath_inj.mp h).2
      rw [Function.update_of_ne hne, Function.update_of_ne hg]
  · funext g
    have hne : filePath y g ≠ filePath x f := fun h => hxy (filePath_inj.mp h).1
    rw [Function.update_of_ne hne]

theorem rows_setVerified (db : Database) (p q : Str) (v : Bool) :
    (rows db p).map (setVerified q v) =
      if p = q then (rows db p).map (fun row => { row with verified := v }) else rows db p := by
  cases hr : rows db p with
  | none => simp
  | some row =>
    have hp := (lookup_some hr).2
    split_ifs with hpq
    · rw [Option.map_some, Option.map_some, setVerified, if_pos (hp.trans hpq)]
    · rw [Option.map_some, setVerified, if_neg (fun h => hpq (hp.symm.trans h))]

theorem unstamped_updateLastSeen (db : Database) (now : Str) (x y : Bytes) :
    (clients (db.updateLastSeen now x) y).map unstamped = (clients db y).map unstamped := by
  have hkey (row : ClientRow) :
      (if row.clientId = x then { row with lastSeen := some now } else row).clientId =
        row.clientId := by
    split_ifs <;> rfl
  have hsame (row : ClientRow) :
      unstamped (if row.clientId = x then { row with lastSeen := some now } else row) =
        unstamped row := by
    split_ifs <;> rfl
  rw [clients, Database.updateLastSeen, lookup_map hkey, Option.map_map]
  simp only [Function.comp_def, hsame]

/-- What a request of a registered client can do to the stores. -/
inductive Change where
  | idle
  | keys (clientName : Str) (publicKey aesKey : Bytes)
  | confirm (filename : Str)
  | erase (filename : Str)
  | dirs
  | store (filename : Str) (content : Bytes)

namespace Change

variable (now : Str) (clientId : Bytes)

def apply : Change → Server KeyedDisk → Server KeyedDisk
  | idle => id
  | keys clientName publicKey aesKey => setKeys now clientName publicKey aesKey
  | confirm filename => ServerConsistency.confirm now clientId filename
  | erase filename => eraseFile now clientId filename
  | dirs => addDirs clientId
  | store filename content => ServerConsistency.store now clientId filename content

/-- The change of the client's own part. -/
def onView : Change → View → View
  | idle, v => v
  | keys _ publicKey aesKey, v =>
    { v with
      row := v.row.map (fun row =>
        { row with publicKey := some publicKey, aesKey := some aesKey }) }
  | confirm f, v =>
    { v with
      files := Function.update v.files f
        ((v.files f).map (fun row => { row with verified := true })) }
  | erase f, v =>
    { v with
      files := Function.update v.files f none
      contents := Function.update v.contents f none }
  | dirs, v => { v with dir := true }
  | store f content, v =>
    { v with
      files := Function.update v.files f (some ⟨clientId, f, filePath clientId f, false⟩)
      contents := Function.update v.contents f (some content)
      dir := true }

def Own (db : Database) : Change → Prop
  | keys clientName _ _ => db.getClientName clientId = some clientName
  | _ => True

end Change

section Seen

variable {s : Server KeyedDisk} (h : Sound s.database) (now : Str) (x y : Bytes)
include h

theorem view_confirm (f : Str) : view y (confirm now x f s) =
    if y = x then (Change.confirm f).onView x (view x s) else view y s := by
  have hrows (g : Str) : rows (confirm now x f s).database (filePath y g) =
      if filePath y g = filePath x f then
        (rows s.database (filePath y g)).map (fun row => { row with verified := true })
      else rows s.database (filePath y g) := by
    rw [confirm, h.rows_updateCksumVerification, rows_setVerified]
  have hrow := unstamped_updateLastSeen
    { s.database with files := (confirm now x f s).database.files } now x y
  split_ifs with hxy
  · subst hxy
    refine View.ext hrow ?_ rfl rfl
    funext g
    simp only [view, hrows, filePath_inj, true_and, Change.onView]
    by_cases hg : g = f
    · rw [if_pos hg, hg, Function.update_self]
    · rw [if_neg hg, Function.update_of_ne hg]
  · refine View.ext hrow ?_ rfl rfl
    funext g
    simp only [view, hrows, filePath_inj, hxy, false_and, ↓reduceIte]

theorem view_eraseFile (f : Str) : view y (eraseFile now x f s) =
    if y = x then (Change.erase f).onView x (view x s) else view y s := by
  have hrow := unstamped_updateLastSeen
    { s.database with files := (eraseFile now x f s).database.files } now x y
  have hfiles := update_seen (rows s.database) x y f none
  have hcontents := update_seen s.disk.files x y f none
  rw [← h.rows_deleteFileOfClient now] at hfiles
  split_ifs with hxy
  · subst hxy
    rw [if_pos rfl] at hfiles hcontents
    exact View.ext hrow hfiles hcontents rfl
  · rw [if_neg hxy] at hfiles hcontents
    exact View.ext hrow hfiles hcontents rfl

omit h in
theorem dirs_addDirs : (addDirs x s).disk.dirs (clientDir y) =
    if y = x then true else s.disk.dirs (clientDir y) := by
  split_ifs with hxy
  · simp [addDirs, addDir, hxy]
  · have hne : clientDir y ≠ clientDir x := fun he => hxy (clientDir_inj.mp he)
    simp [addDirs, addDir, hne, clientDir_ne_filesDir]

omit h in
theorem view_addDirs : view y (addDirs x s) =
    if y = x then Change.dirs.onView x (view x s) else view y s := by
  have hdir := dirs_addDirs x y (s := s)
  split_ifs at hdir ⊢ with hxy
  · subst hxy
    exact View.ext rfl rfl rfl hdir
  · exact View.ext rfl rfl rfl hdir

theorem view_store (f : Str) (content : Bytes) : view y (store now x f content s) =
    if y = x then (Change.store f content).onView x (view x s) else view y s := by
  have hrow : (clients (store now x f content s).database y).map unstamped =
      (clients s.database y).map unstamped := by
    simp only [store]
    split_ifs
    · exact unstamped_updateLastSeen _ now x y
    · unfold Database.insertFileDetails
      split_ifs
      · rfl
      · exact unstamped_updateLastSeen _ now x y
  have hfiles := update_seen (rows s.database) x y f (some ⟨x, f, filePath x f, false⟩)
  have hcontents := update_seen s.disk.files x y f (some content)
  have hdir : (store now x f content s).disk.dirs (clientDir y) = _ := dirs_addDirs x y (s := s)
  rw [← h.rows_store now x f content] at hfiles
  split_ifs at hdir hfiles hcontents ⊢ with hxy
  · subst hxy
    exact View.ext hrow hfiles hcontents hdir
  · exact View.ext hrow hfiles hcontents hdir

theorem view_setKeys {clientName : Str} (hname : s.database.getClientName x = some clientName)
    (publicKey aesKey : Bytes) : view y (setKeys now clientName publicKey aesKey s) =
    if y = x then (Change.keys clientName publicKey aesKey).onView x (view x s)
    else view y s := by
  have hkey (row : ClientRow) :
      (if row.clientName = clientName then
        { row with publicKey := some publicKey, aesKey := some aesKey, lastSeen := some now }
        else row).clientId = row.clientId := by
    split_ifs <;> rfl
  obtain ⟨owner, howner, rfl⟩ := Option.map_eq_some_iff.mp hname
  have hrow : (clients (setKeys now owner.clientName publicKey aesKey s).database y).map unstamped =
      if y = x then ((clients s.database x).map unstamped).map (fun row =>
        { row with publicKey := some publicKey, aesKey := some aesKey })
      else (clients s.database y).map unstamped := by
    rw [clients, setKeys, Database.insertKeysOfClient, lookup_map hkey]
    split_ifs with hxy
    · subst hxy
      have hlookup : clients s.database y = some owner := howner
      simp [hlookup, unstamped]
    · cases hr : clients s.database y with
      | none => simp [hr]
      | some row =>
        have hne : row.clientName ≠ owner.clientName := by
          intro he
          have hsame := h.uniqueNames.eq (lookup_some hr).1 (lookup_some howner).1 he
          exact hxy ((lookup_some hr).2.symm.trans (hsame ▸ (lookup_some howner).2))
        simp [hr, hne]
  split_ifs at hrow ⊢ with hxy
  · subst hxy
    exact View.ext hrow rfl rfl rfl
  · exact View.ext hrow rfl rfl rfl

theorem view_apply (c : Change) (hown : c.Own x s.database) : view y (c.apply now x s) =
    if y = x then c.onView x (view x s) else view y s := by
  cases c with
  | idle =>
    split_ifs with hxy
    · rw [hxy]
      rfl
    · rfl
  | keys clientName publicKey aesKey => exact view_setKeys h now x y hown publicKey aesKey
  | confirm f => exact view_confirm h now x y f
  | erase f => exact view_eraseFile h now x y f
  | dirs => exact view_addDirs x y
  | store f content => exact view_store h now x y f content

end Seen

/-- A request of a client with its connection, how the bytes left on it arrive, and what is drawn
for it. -/
structure Ask where
  request : Request
  payload : Bytes
  conn : Conn
  delivery : Delivery
  draws : Draws

namespace Ask

variable (a : Ask)

def clientId : Bytes := a.request.clientId

def env (now : Str) : Draws := { a.draws with now := now }

def read (n : ℕ) : Bytes := (a.conn.recv a.delivery n).1

def encrypted (contentSize : ℕ) : Bytes :=
  ((a.conn.recv a.delivery 275).2.recv a.delivery contentSize).1

end Ask

variable (E : Externals) (a : Ask)

def View.content (v : View) (encrypted : Bytes) : Option Bytes :=
  ((v.row.bind ClientRow.aesKey).bind (fun aesKey => E.aesDecrypt aesKey encrypted)).bind E.unpad

theorem view_content (s : Server KeyedDisk) (clientId encrypted : Bytes) :
    (view clientId s).content E encrypted = contentOf E s.database clientId encrypted := by
  rw [View.content, view_aesKey, contentOf]

/-- Which change a request makes, from the part of its client. -/
def changeOf (v : View) : Change :=
  match kindOf a.request.code with
  | .sendPublicKey => (keyRequest a.payload).elim .idle (fun key =>
      .keys key.1 key.2 (a.draws.random aesKeySize))
  | .sendFile => (uploadHeader E (a.read 275)).elim .idle (fun header =>
      (v.content E (a.encrypted header.1)).elim .idle (fun content =>
        if nul ∈ header.2 then .dirs else .store header.2 content))
  | .cksumOk => (filenameOf E (a.read 255)).elim .idle .confirm
  | .cksumErrFinal => (filenameOf E (a.read 255)).elim .idle .erase
  | _ => .idle

def asked (now : Str) (s : Server KeyedDisk) : World KeyedDisk :=
  handled E (a.env now) a.delivery a.request a.payload ⟨s, a.conn⟩

section Handled

variable {E a} {s s' : Server KeyedDisk} (hs : Consistent s) (hs' : Consistent s')
  (hid : s.database.clientExistsById a.clientId = true)
  (hid' : s'.database.clientExistsById a.clientId = true) (now now' : Str)

include hid in
theorem asked_eq : asked E a now s =
    (run (machine E (a.env now) a.delivery) (dispatch E a.request a.payload) ⟨s, a.conn⟩).2 := by
  rw [asked, handled, run_handleRequest E (a.env now) a.delivery (.inr hid)]

theorem handleFileRequest_eq {contentSize : ℕ} {filename : Str}
    (hheader : uploadHeader E (a.read 275) = some (contentSize, filename)) :
    (run (machine E (a.env now) a.delivery) (handleFileRequest E a.request) ⟨s, a.conn⟩).2 =
      (run (machine E (a.env now) a.delivery)
        (processFileContent E a.request filename (a.encrypted contentSize))
        ⟨s, ((a.conn.recv a.delivery 275).2.recv a.delivery contentSize).2⟩).2 := by
  have hread : uploadHeader E ((World.mk s a.conn).conn.recv a.delivery 275).1 =
    some (contentSize, filename) := hheader
  rw [run_handleFileRequest E (a.env now) a.delivery hread]
  rfl

include hs hid in
theorem handleFileRequest_server (hk : kindOf a.request.code = .sendFile) :
    (run (machine E (a.env now) a.delivery) (handleFileRequest E a.request) ⟨s, a.conn⟩).2.server =
      (changeOf E a (view a.clientId s)).apply now a.clientId s := by
  simp only [changeOf, hk, view_content]
  cases hheader : uploadHeader E (a.read 275) with
  | none =>
    have hrun : run (machine E (a.env now) a.delivery) (handleFileRequest E a.request)
        ⟨s, a.conn⟩ = _ := run_handleFileRequest_malformed E (a.env now) a.delivery hheader
    rw [hrun]
    rfl
  | some header =>
  obtain ⟨contentSize, filename⟩ := header
  rw [handleFileRequest_eq now hheader, Option.elim_some]
  generalize ((a.conn.recv a.delivery 275).2.recv a.delivery contentSize).2 = conn
  cases hcontent : contentOf E s.database a.clientId (a.encrypted contentSize) with
  | none =>
    have hrun : run (machine E (a.env now) a.delivery)
        (processFileContent E a.request filename (a.encrypted contentSize)) ⟨s, conn⟩ = _ :=
      run_processFileContent_unreadable E (a.env now) a.delivery hcontent
    rw [hrun]
    rfl
  | some content =>
  rw [Option.elim_some]
  split_ifs with hn
  · have hrun : run (machine E (a.env now) a.delivery)
        (processFileContent E a.request filename (a.encrypted contentSize)) ⟨s, conn⟩ = _ :=
      run_processFileContent_nul E (a.env now) a.delivery hs hcontent hn
    rw [hrun]
    rfl
  · obtain ⟨cksum, hcksum⟩ := Cksum.cksumCalc_isSome content
    have hrun : (run (machine E (a.env now) a.delivery)
        (processFileContent E a.request filename (a.encrypted contentSize)) ⟨s, conn⟩).2 = _ :=
      run_processFileContent_stored E (a.env now) a.delivery hs hid hcontent hn hcksum
    rw [hrun, run_sendCksum_server]
    rfl

include hs hid in
/-- A request of a registered client makes the change its client's part decides. -/
theorem asked_server (hc : a.request.code ≠ clientCodeRegister) :
    (asked E a now s).server = (changeOf E a (view a.clientId s)).apply now a.clientId s := by
  have hk : kindOf a.request.code ≠ .register := mt kindOf_eq_register.mp hc
  rw [asked_eq hid, dispatch_eq]
  cases hkind : kindOf a.request.code with
  | register => exact absurd hkind hk
  | sendFile => exact handleFileRequest_server hs hid now hkind
  | sendPublicKey =>
    simp only [changeOf, hkind]
    cases hkey : keyRequest a.payload with
    | none => simp [run_sendAesKeyToClient_malformed E (a.env now) a.delivery hkey, Change.apply]
    | some key =>
      exact run_sendAesKeyToClient_server E (a.env now) a.delivery hkey a.request ⟨s, a.conn⟩
  | cksumOk =>
    simp only [changeOf, hkind]
    cases hname : filenameOf E (a.read 255) with
    | none =>
      have hrun : run (machine E (a.env now) a.delivery) (handleCksumOk E a.request)
          ⟨s, a.conn⟩ = _ := run_handleCksumOk_undecodable E (a.env now) a.delivery hname
      rw [hrun]
      rfl
    | some filename =>
      have hrun : run (machine E (a.env now) a.delivery) (handleCksumOk E a.request)
          ⟨s, a.conn⟩ = _ := run_handleCksumOk E (a.env now) a.delivery hname
      rw [hrun]
      rfl
  | cksumErr =>
    simp only [changeOf, hkind, run_handleCksumErr]
    rfl
  | cksumErrFinal =>
    simp only [changeOf, hkind]
    cases hname : filenameOf E (a.read 255) with
    | none =>
      have hrun : run (machine E (a.env now) a.delivery) (handleCksumErrFinal E a.request)
          ⟨s, a.conn⟩ = _ := run_handleCksumErrFinal_undecodable E (a.env now) a.delivery hname
      rw [hrun]
      rfl
    | some filename =>
      have hrun : run (machine E (a.env now) a.delivery) (handleCksumErrFinal E a.request)
          ⟨s, a.conn⟩ = _ := run_handleCksumErrFinal E (a.env now) a.delivery hs hname
      rw [hrun]
      rfl
  | unknown =>
    simp only [changeOf, hkind]
    rfl

theorem run_conn {α : Type} {p : Proc α} (hp : Issues (Within True fun _ => False) p)
    {w w' : World KeyedDisk} (h : w.conn = w'.conn) (env env' : Draws) (d : Delivery) :
    (run (machine E env d) p w).2.conn = (run (machine E env' d) p w').2.conn := by
  induction p generalizing w w' with
  | done o => exact h
  | call c next ih =>
    cases c with
    | host c => exact absurd hp.1 id
    | recv n =>
      simp only [run_call, machine_recv, h]
      exact ih _ (hp.2 _) rfl
    | send data =>
      simp only [run_call, machine_send, h]
      exact ih _ (hp.2 _) rfl

theorem conn_sendAesKeyToClient :
    (run (machine E (a.env now) a.delivery) (sendAesKeyToClient E a.request a.payload)
        ⟨s, a.conn⟩).2.conn =
      (run (machine E (a.env now') a.delivery) (sendAesKeyToClient E a.request a.payload)
        ⟨s', a.conn⟩).2.conn := by
  cases hkey : keyRequest a.payload with
  | none =>
    rw [run_sendAesKeyToClient_malformed E _ _ hkey, run_sendAesKeyToClient_malformed E _ _ hkey]
  | some key =>
  obtain ⟨field, name, hu, hd, _⟩ := keyRequest_eq_some.mp hkey
  cases hi : E.importKey key.2 with
  | false => simp [sendAesKeyToClient, hostCall, hu, decode, hd, hi]
  | true =>
  cases hc : E.oaepEncrypt a.draws.seed key.2 (a.draws.random aesKeySize) with
  | none => simp [sendAesKeyToClient, hostCall, hu, decode, hd, hi, Ask.env, hc, orRaise]
  | some cipher =>
    have hanswer : Issues (Within True fun _ => False) (do
        let response ← newResponse serverCodeSwitchingKeys a.request.clientId cipher
        let data ← ofOption .structError
          (pack [.uint 1, .uint 2, .uint 4, .bytes 16, .bytes cipher.length]
            (response.version, response.code, response.payloadSize, response.clientId,
              response.payload, ()))
        send data) :=
      .bind (.ofOption _ _) fun _ => .bind (.ofOption _ _) fun data => within_send data
    simp only [sendAesKeyToClient, run_guarded, host_eq, run_bind, run_call, machine_host, hostCall,
      run_done, andThen_ok, run_ofOption, hu, decode, hd, hi, ↓reduceIte, Ask.env, hc, orRaise]
    rw [← run_bind, ← run_bind]
    apply run_conn hanswer
    rfl

include hs hs' hid hid' in
theorem conn_handleFileRequest (hview : view a.clientId s = view a.clientId s') :
    (run (machine E (a.env now) a.delivery) (handleFileRequest E a.request) ⟨s, a.conn⟩).2.conn =
      (run (machine E (a.env now') a.delivery) (handleFileRequest E a.request)
        ⟨s', a.conn⟩).2.conn := by
  cases hheader : uploadHeader E (a.read 275) with
  | none =>
    have hrun (s : Server KeyedDisk) (now : Str) : run (machine E (a.env now) a.delivery)
        (handleFileRequest E a.request) ⟨s, a.conn⟩ = _ :=
      run_handleFileRequest_malformed E (a.env now) a.delivery hheader
    rw [hrun, hrun]
  | some header =>
  obtain ⟨contentSize, filename⟩ := header
  rw [handleFileRequest_eq now hheader, handleFileRequest_eq now' hheader]
  generalize ((a.conn.recv a.delivery 275).2.recv a.delivery contentSize).2 = conn
  have hsame : contentOf E s'.database a.clientId (a.encrypted contentSize) =
      contentOf E s.database a.clientId (a.encrypted contentSize) := by
    rw [← view_content, ← view_content, hview]
  cases hcontent : contentOf E s.database a.clientId (a.encrypted contentSize) with
  | none =>
    have hrun (s : Server KeyedDisk) (now : Str)
        (h : contentOf E s.database a.clientId (a.encrypted contentSize) = none) :
        run (machine E (a.env now) a.delivery)
          (processFileContent E a.request filename (a.encrypted contentSize)) ⟨s, conn⟩ = _ :=
      run_processFileContent_unreadable E (a.env now) a.delivery h
    rw [hrun s now hcontent, hrun s' now' (hsame.trans hcontent)]
  | some content =>
  by_cases hn : nul ∈ filename
  · have hrun (s : Server KeyedDisk) (hs : Consistent s) (now : Str)
        (h : contentOf E s.database a.clientId (a.encrypted contentSize) = some content) :
        run (machine E (a.env now) a.delivery)
          (processFileContent E a.request filename (a.encrypted contentSize)) ⟨s, conn⟩ = _ :=
      run_processFileContent_nul E (a.env now) a.delivery hs h hn
    rw [hrun s hs now hcontent, hrun s' hs' now' (hsame.trans hcontent)]
  · obtain ⟨cksum, hcksum⟩ := Cksum.cksumCalc_isSome content
    have hrun (s : Server KeyedDisk) (hs : Consistent s)
        (hid : s.database.clientExistsById a.clientId = true) (now : Str)
        (h : contentOf E s.database a.clientId (a.encrypted contentSize) = some content) :
        (run (machine E (a.env now) a.delivery)
          (processFileContent E a.request filename (a.encrypted contentSize)) ⟨s, conn⟩).2 = _ :=
      run_processFileContent_stored E (a.env now) a.delivery hs hid h hn hcksum
    rw [hrun s hs hid now hcontent, hrun s' hs' hid' now' (hsame.trans hcontent)]
    apply run_conn (within_sendCksum _ _ _ _)
    rfl

include hs hs' hid hid' in
/-- What a request is answered is decided by the part of its client, whenever it is handled. -/
theorem asked_conn (hc : a.request.code ≠ clientCodeRegister)
    (hview : view a.clientId s = view a.clientId s') :
    (asked E a now s).conn = (asked E a now' s').conn := by
  have hk : kindOf a.request.code ≠ .register := mt kindOf_eq_register.mp hc
  rw [asked_eq hid, asked_eq hid', dispatch_eq]
  cases hkind : kindOf a.request.code with
  | register => exact absurd hkind hk
  | sendPublicKey => exact conn_sendAesKeyToClient now now'
  | sendFile => exact conn_handleFileRequest hs hs' hid hid' now now' hview
  | cksumOk =>
    cases hname : filenameOf E (a.read 255) with
    | none =>
      have hrun (s : Server KeyedDisk) (now : Str) : run (machine E (a.env now) a.delivery)
          (handleCksumOk E a.request) ⟨s, a.conn⟩ = _ :=
        run_handleCksumOk_undecodable E (a.env now) a.delivery hname
      simp only [hrun]
    | some filename =>
      have hrun (s : Server KeyedDisk) (now : Str) : run (machine E (a.env now) a.delivery)
          (handleCksumOk E a.request) ⟨s, a.conn⟩ = _ :=
        run_handleCksumOk E (a.env now) a.delivery hname
      simp only [hrun]
  | cksumErr => simp only [run_handleCksumErr]
  | cksumErrFinal =>
    cases hname : filenameOf E (a.read 255) with
    | none =>
      have hrun (s : Server KeyedDisk) (now : Str) : run (machine E (a.env now) a.delivery)
          (handleCksumErrFinal E a.request) ⟨s, a.conn⟩ = _ :=
        run_handleCksumErrFinal_undecodable E (a.env now) a.delivery hname
      simp only [hrun]
    | some filename =>
      have hrun (s : Server KeyedDisk) (hs : Consistent s) (now : Str) :
          run (machine E (a.env now) a.delivery) (handleCksumErrFinal E a.request)
            ⟨s, a.conn⟩ = _ :=
        run_handleCksumErrFinal E (a.env now) a.delivery hs hname
      simp only [hrun s hs now, hrun s' hs' now']
  | unknown => rfl

end Handled

end EncryptedTransfer.ClientViews
