import EncryptedTransfer.ServerFootprints
import EncryptedTransfer.ServerRuns

/-!
# Isolation in the clients table

Which requests change the name or the keys of another client's row: only a key request whose
payload carries that client's name.
-/
namespace EncryptedTransfer.ClientIsolation
open ByteFormats Text ServerStores ServerCalls ServerHandlers ServerConsistency ServerEffects
open ServerFootprints ServerRuns Interaction Program CryptoLaws

/-- The columns of a client's row that its key requests fix. -/
def keyColumns (row : ClientRow) : Bytes × Str × Option Bytes × Option Bytes :=
  (row.clientId, row.clientName, row.publicKey, row.aesKey)

def others (clientId : Bytes) (db : Database) : List (Bytes × Str × Option Bytes × Option Bytes) :=
  (db.clients.filter (fun row => row.clientId ≠ clientId)).map keyColumns

theorem others_map {db db' : Database} {g : ClientRow → ClientRow}
    (h : db'.clients = db.clients.map g) (hg : ∀ row, (g row).clientId = row.clientId)
    (clientId : Bytes) :
    others clientId db' =
      (db.clients.filter (fun row => row.clientId ≠ clientId)).map (fun row => keyColumns (g row)) := by
  simp [others, h, List.filter_map, Function.comp_def, hg]

theorem others_updateLastSeen (db : Database) (now : Str) (clientId x : Bytes) :
    others x (db.updateLastSeen now clientId) = others x db := by
  have hid (row : ClientRow) : (if row.clientId = clientId then
      { row with lastSeen := some now } else row).clientId = row.clientId := by
    split_ifs <;> rfl
  rw [others_map rfl hid]
  apply List.map_congr_left
  intro row _
  split_ifs <;> rfl

theorem others_updateCksumVerification (db : Database) (now : Str) (clientId : Bytes)
    (filename : Str) (v : Bool) (x : Bytes) :
    others x (db.updateCksumVerification now clientId filename v) = others x db :=
  others_updateLastSeen _ _ _ _

theorem others_deleteFileOfClient (db : Database) (now : Str) (clientId : Bytes)
    (filename : Str) (x : Bytes) :
    others x (db.deleteFileOfClient now clientId filename) = others x db :=
  others_updateLastSeen _ _ _ _

theorem others_insertFileDetails (db : Database) (now : Str) (clientId : Bytes)
    (filename pathname : Str) (v : Bool) (x : Bytes) :
    others x (db.insertFileDetails now clientId filename pathname v) = others x db := by
  unfold Database.insertFileDetails
  split_ifs
  · rfl
  · exact others_updateLastSeen _ _ _ _

theorem others_insertKeysOfClient (db : Database) (now clientName : Str)
    (publicKey aesKey x : Bytes) :
    others x (db.insertKeysOfClient now clientName publicKey aesKey) =
      (db.clients.filter (fun row => row.clientId ≠ x)).map (fun row =>
        if row.clientName = clientName then
          (row.clientId, row.clientName, some publicKey, some aesKey)
        else keyColumns row) := by
  refine (others_map rfl ?_ x).trans (List.map_congr_left ?_)
  · intro row
    split_ifs <;> rfl
  · intro row _
    split_ifs <;> rfl

variable {δ : Type} [FileSystem δ] {E : Externals} {env : Draws} {d : Delivery}

def WritesKeys : HostCall → Prop
  | .insertNewClient _ _ | .insertKeysOfClient _ _ _ => True
  | _ => False

theorem not_writesKeys {k : Kind} (hr : k ≠ .register) (hs : k ≠ .sendPublicKey) {c : HostCall}
    (hc : Footprint k c) : ¬ WritesKeys c := by
  intro hw
  cases c with
  | insertNewClient clientName clientId =>
    cases k with
    | register => exact hr rfl
    | _ => cases hc
  | insertKeysOfClient clientName publicKey aesKey =>
    cases k with
    | sendPublicKey => exact hs rfl
    | _ => cases hc
  | _ => cases hw

theorem others_hostCall {c : HostCall} (hc : ¬ WritesKeys c) (s : Server δ) (x : Bytes) :
    others x (hostCall E env c s).2.database = others x s.database := by
  cases c with
  | insertNewClient clientName clientId => exact absurd trivial hc
  | insertKeysOfClient clientName publicKey aesKey => exact absurd trivial hc
  | insertFileDetails clientId filename pathname v => exact others_insertFileDetails _ _ _ _ _ _ _
  | updateCksumVerification clientId filename v =>
    exact others_updateCksumVerification _ _ _ _ _ _
  | deleteFileOfClient clientId filename => exact others_deleteFileOfClient _ _ _ _ _
  | mkdir path => exact congrArg (others x) (onDisk_database _ _)
  | writeFile path content => exact congrArg (others x) (onDisk_database _ _)
  | remove path => exact congrArg (others x) (onDisk_database _ _)
  | clientAddFile clientId path file =>
    simp only [hostCall]
    split <;> rfl
  | clientRemoveFile clientId path =>
    simp only [hostCall]
    split
    · split_ifs <;> rfl
    · rfl
  | fileMapPop path =>
    simp only [hostCall]
    split_ifs <;> rfl
  | _ => rfl

theorem others_machine {c : Call} (hc : Within True (fun c => ¬ WritesKeys c) c) (w : World δ)
    (x : Bytes) :
    others x (machine E env d c w).2.server.database = others x w.server.database := by
  cases c with
  | recv n => rfl
  | send data => rfl
  | host c => exact others_hostCall hc w.server x

variable {w : World δ} {request : Request} {payload : Bytes}

theorem handled_others (hcode : request.code ≠ clientCodeRegister)
    (hkey : request.code = clientCodeSendPublicKey → keyRequest payload = none) (x : Bytes) :
    others x (handled E env d request payload w).server.database = others x w.server.database := by
  by_cases hk : request.code = clientCodeSendPublicKey
  · cases hid : w.server.database.clientExistsById request.clientId with
    | false => rw [handled, run_handleRequest_unknown E env d hcode hid]
    | true =>
      rw [handled, run_handleRequest E env d (.inr hid), dispatch_eq,
        kindOf_eq_sendPublicKey.mpr hk]
      simp only
      rw [run_sendAesKeyToClient_malformed E env d (hkey hk)]
  · have hcalls : Issues (Within True fun c => ¬ WritesKeys c) (handleRequest E request payload) :=
      (footprint_handleRequest E request payload).mono fun c =>
        Within.mono (fun c => not_writesKeys (mt kindOf_eq_register.mp hcode)
          (mt kindOf_eq_sendPublicKey.mp hk)) c
    have hstep : ∀ (c : Call) (w' : World δ), Within True (fun c => ¬ WritesKeys c) c →
        others x w'.server.database = others x w.server.database →
        others x (machine E env d c w').2.server.database = others x w.server.database :=
      fun c w' hc hw' => (others_machine hc w' x).trans hw'
    exact hcalls.run_preserves _ hstep rfl

theorem handled_others_named {clientName : Str} {publicKey : Bytes}
    (hid : w.server.database.clientExistsById request.clientId = true)
    (hcode : request.code = clientCodeSendPublicKey)
    (hkey : keyRequest payload = some (clientName, publicKey)) (x : Bytes) :
    others x (handled E env d request payload w).server.database =
      (w.server.database.clients.filter (fun row => row.clientId ≠ x)).map (fun row =>
        if row.clientName = clientName then
          (row.clientId, row.clientName, some publicKey, some (env.random aesKeySize))
        else keyColumns row) := by
  rw [handled, run_handleRequest E env d (.inr hid), dispatch_eq, kindOf_eq_sendPublicKey.mpr hcode]
  simp only
  rw [run_sendAesKeyToClient_server E env d hkey]
  exact others_insertKeysOfClient _ _ _ _ _ _

/-- The payload of the request is a key request in another client's name. -/
def NamesAnother (db : Database) (request : Request) (payload : Bytes) : Prop :=
  request.code = clientCodeSendPublicKey ∧
    ∃ clientName publicKey, keyRequest payload = some (clientName, publicKey) ∧
      ∃ row ∈ db.clients, row.clientName = clientName ∧ row.clientId ≠ request.clientId

/-- A request leaves the other clients' names and keys, whatever is drawn while it is
handled, exactly unless it is a key request in another client's name. -/
theorem others_keep_keys_iff (E : Externals) (s : Server δ) {request : Request}
    (hid : s.database.clientExistsById request.clientId = true)
    (hcode : request.code ≠ clientCodeRegister) (payload : Bytes) :
    (∀ env d conn,
      others request.clientId (handled E env d request payload ⟨s, conn⟩).server.database =
        others request.clientId s.database) ↔ ¬ NamesAnother s.database request payload := by
  constructor
  · rintro hkeep ⟨hkind, clientName, publicKey, hkey, row, hrow, hname, hne⟩
    have hmem : row ∈ s.database.clients.filter (fun row => row.clientId ≠ request.clientId) := by
      simp [hrow, hne]
    have hafter (b : UInt8) : row.aesKey = some (List.replicate aesKeySize b) := by
      have hb := hkeep (constantDraws b) .whole ⟨[], 0, [], []⟩
      rw [handled_others_named (w := ⟨s, ⟨[], 0, [], []⟩⟩) hid hkind hkey, others,
        List.map_inj_left] at hb
      have hrow' := hb row hmem
      rw [if_pos hname, keyColumns, Prod.mk.injEq, Prod.mk.injEq, Prod.mk.injEq] at hrow'
      exact hrow'.2.2.2.symm
    exact absurd ((hafter 0).symm.trans (hafter 1)) (by decide)
  · intro hno env d conn
    by_cases hkind : request.code = clientCodeSendPublicKey
    · cases hkey : keyRequest payload with
      | none => exact handled_others hcode (fun _ => hkey) _
      | some keys =>
        obtain ⟨clientName, publicKey⟩ := keys
        rw [handled_others_named (w := ⟨s, conn⟩) hid hkind hkey]
        apply List.map_congr_left
        intro row hmem
        obtain ⟨hrow, hne⟩ := List.mem_filter.mp hmem
        have hname : row.clientName ≠ clientName := fun hname =>
          hno ⟨hkind, clientName, publicKey, hkey, row, hrow, hname, by simpa using hne⟩
        rw [if_neg hname]
    · exact handled_others hcode (fun hk => absurd hk hkind) _

/-- Two clients, `a` with the id of ones and `b` with the id of twos. -/
def twoClients : Server KeyedDisk :=
  register [] (List.replicate 16 2) ['b'] (register [] (List.replicate 16 1) ['a'] .empty)

theorem run_twoClients : Run plainCiphers twoClients [] :=
  ((Run.start (E := plainCiphers)).register (constantDraws 1) (show nul ∉ ['a'] by decide)
    (by decide) (by decide)).register (constantDraws 2) (show nul ∉ ['b'] by decide)
    (by decide) (by decide)

def keyHeader : Request := ⟨List.replicate 16 2, 3, clientCodeSendPublicKey, 415⟩

theorem others_keep_keys_iff_twoClients :
    (∀ env d conn, others (List.replicate 16 2)
      (handled plainCiphers env d keyHeader (padField 255 ['b'] ++ derKey)
        ⟨twoClients, conn⟩).server.database = others (List.replicate 16 2) twoClients.database) ↔
      ¬ NamesAnother twoClients.database keyHeader (padField 255 ['b'] ++ derKey) :=
  others_keep_keys_iff plainCiphers twoClients
    (show twoClients.database.clientExistsById keyHeader.clientId = true by decide) (by decide) _

/-- The client `b` sends a key request in the name of `a`: the keys of `a` are replaced. -/
theorem key_request_in_another_name :
    Run plainCiphers twoClients [] ∧
      twoClients.database.clientExistsById (List.replicate 16 2) = true ∧
      others (List.replicate 16 2) twoClients.database =
        [(List.replicate 16 1, ['a'], none, none)] ∧
      others (List.replicate 16 2) (handled plainCiphers (constantDraws 3) .whole keyHeader
        (padField 255 ['a'] ++ derKey)
        ⟨twoClients, ⟨[], 0, [], []⟩⟩).server.database =
        [(List.replicate 16 1, ['a'], some derKey, some (List.replicate 16 3))] := by
  have hkey : keyRequest (padField 255 ['a'] ++ derKey) =
      some (['a'], derKey) :=
    keyRequest_padField (by decide) (by decide) length_derKey
  refine ⟨run_twoClients, by decide, by decide, ?_⟩
  rw [handled_others_named (by decide) rfl hkey]
  rfl

end EncryptedTransfer.ClientIsolation
