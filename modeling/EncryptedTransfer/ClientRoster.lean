import EncryptedTransfer.ServerTurns

/-!
# The roster

Which client has which name and which key, and what each request of a client makes of it.
-/
namespace EncryptedTransfer.ClientRoster
open ServerStores hiding Client Client.new
open ByteFormats Text ServerCalls ServerHandlers ServerConsistency ServerEffects
open StreamFraming ClientProcess Network ClientMessages ServerTurns

/-- The id, the name and the AES key of every row. -/
def roster (db : Database) : List (Bytes × Str × Option Bytes) :=
  db.clients.map (fun row => (row.clientId, row.clientName, row.aesKey))

section Rows

variable {db : Database} {clientId clientId' : Bytes} {name name' : Str} {key key' : Option Bytes}

theorem mem_roster : (clientId, name, key) ∈ roster db ↔
    ∃ row ∈ db.clients, row.clientId = clientId ∧ row.clientName = name ∧ row.aesKey = key := by
  simp [roster]

theorem exists_of_mem_roster (h : (clientId, name, key) ∈ roster db) :
    db.clientExistsById clientId = true := by
  obtain ⟨row, hrow, hid, -, -⟩ := mem_roster.mp h
  exact Database.clientExistsById_iff.mpr ⟨row, hrow, hid⟩

theorem existsByName_of_mem_roster (h : (clientId, name, key) ∈ roster db) :
    db.clientExistsByName name = true := by
  obtain ⟨row, hrow, -, hname, -⟩ := mem_roster.mp h
  exact Database.clientExistsByName_iff.mpr ⟨row, hrow, hname⟩

theorem roster_of_name (hs : Sound db) (h : (clientId, name, key) ∈ roster db)
    (h' : (clientId', name, key') ∈ roster db) : clientId = clientId' := by
  obtain ⟨row, hrow, rfl, hname, -⟩ := mem_roster.mp h
  obtain ⟨row', hrow', rfl, hname', -⟩ := mem_roster.mp h'
  have hsame : row = row' := hs.uniqueNames.eq hrow hrow' (hname.trans hname'.symm)
  rw [hsame]

theorem getAesKeyOfClient_eq (hs : Sound db) (h : (clientId, name, key) ∈ roster db) :
    db.getAesKeyOfClient clientId = key := by
  obtain ⟨row, hrow, hid, -, hkey⟩ := mem_roster.mp h
  have hfind : KeyedTable.lookup ClientRow.clientId db.clients clientId = some row :=
    hs.uniqueIds.lookup_eq_some.mpr ⟨hrow, hid⟩
  have hget : db.getAesKeyOfClient clientId =
      (KeyedTable.lookup ClientRow.clientId db.clients clientId).bind ClientRow.aesKey := rfl
  rw [hget, hfind]
  exact hkey

end Rows

section Changes

variable (now : Str) (clientId : Bytes) (filename clientName : Str)

theorem roster_updateLastSeen (db : Database) :
    roster (db.updateLastSeen now clientId) = roster db := by
  simp only [roster, Database.updateLastSeen, List.map_map]
  apply List.map_congr_left
  intro row _
  simp only [Function.comp_apply]
  split_ifs <;> rfl

variable (s : Server KeyedDisk)

theorem roster_confirm :
    roster (confirm now clientId filename s).database = roster s.database :=
  roster_updateLastSeen now clientId _

theorem roster_eraseFile :
    roster (eraseFile now clientId filename s).database = roster s.database :=
  roster_updateLastSeen now clientId _

theorem roster_store (content : Bytes) :
    roster (store now clientId filename content s).database = roster s.database := by
  simp only [store, Database.insertFileDetails]
  split_ifs
  · exact roster_updateLastSeen now clientId _
  · rfl
  · exact roster_updateLastSeen now clientId _

variable {s clientId}

theorem roster_register (hfresh : s.database.clientExistsById clientId = false) :
    roster (register now clientId clientName s).database =
      roster s.database ++ [(clientId, clientName, none)] := by
  simp [roster, register, insertNewClient_clients now clientName hfresh]

theorem mem_roster_setKeys {x : Bytes} {name : Str} {key : Option Bytes}
    (publicKey aesKey : Bytes) (h : (x, name, key) ∈ roster s.database) :
    (x, name, if name = clientName then some aesKey else key) ∈
      roster (setKeys now clientName publicKey aesKey s).database := by
  obtain ⟨row, hrow, rfl, rfl, rfl⟩ := mem_roster.mp h
  refine mem_roster.mpr ⟨_, List.mem_map.mpr ⟨row, hrow, rfl⟩, ?_⟩
  split_ifs <;> exact ⟨rfl, rfl, rfl⟩

end Changes

section Files

variable {E : Externals} (env : Draws) {s : Server KeyedDisk} {clientId data : Bytes}

theorem turned_isUpload (hs : Consistent s)
    (hknown : s.database.clientExistsById clientId = true) (h : IsUpload clientId data) :
    ∃ s' sent left, Turned (System.turnWith E env s data) s' sent left ∧ Consistent s' ∧
      roster s'.database = roster s.database ∧
      (sent = [] ∨ ∃ filename size cksum, size < 4294967296 ∧ cksum < 4294967296 ∧
        sent = reported clientId filename size cksum) := by
  obtain ⟨owner, field, content, hid, howner, hfield, hcontent, rfl⟩ := h
  cases hname : filenameOf E field with
  | none =>
    exact ⟨_, _, _, turned_upload_undecodable rfl rfl howner hfield hcontent hknown hname, hs, rfl,
      .inl rfl⟩
  | some filename =>
    cases hdata : contentOf E s.database clientId content with
    | none =>
      exact ⟨_, _, _, turned_upload_unreadable rfl rfl howner hfield hcontent hknown hname hdata,
        hs, rfl, .inl rfl⟩
    | some stored =>
      by_cases hn : nul ∈ filename
      · exact ⟨_, _, _, turned_upload_nul rfl rfl howner hfield hcontent hknown hs hname hdata hn,
          hs.after_addDirs _, rfl, .inl rfl⟩
      · obtain ⟨cksum, hcksum⟩ := Cksum.cksumCalc_isSome stored
        refine ⟨_, _, _, turned_upload rfl rfl howner hfield hcontent hknown hs hname hdata hn
          hcksum, hs.after_store _ _ hknown hn, roster_store _ _ _ _ _, ?_⟩
        split_ifs with hsize
        · exact .inr ⟨filename, _, _, hsize, cksum.toNat_lt, rfl⟩
        · exact .inl rfl

theorem turned_isNamed {code : ℕ} (hs : Consistent s)
    (hknown : s.database.clientExistsById clientId = true) (h : IsNamed clientId code data) :
    ∃ s' sent left, Turned (System.turnWith E env s data) s' sent left ∧ Consistent s' ∧
      roster s'.database = roster s.database ∧
      (sent = [] ∨ code ≠ clientCodeCksumErr ∧ sent = acknowledged clientId) := by
  obtain ⟨field, hid, hcode, hfield, rfl⟩ := h
  rcases hcode with rfl | rfl | rfl
  · cases hname : filenameOf E field with
    | none =>
      exact ⟨_, _, _, turned_cksumOk_undecodable hknown hfield rfl hname, hs, rfl, .inl rfl⟩
    | some filename =>
      exact ⟨_, _, _, turned_cksumOk hknown hfield rfl hname, hs.after_confirm _ _ _,
        roster_confirm _ _ _ _, .inr ⟨by decide, rfl⟩⟩
  · exact ⟨_, _, _, turned_cksumErr hknown hfield rfl, hs, rfl, .inl rfl⟩
  · cases hname : filenameOf E field with
    | none =>
      exact ⟨_, _, _, turned_cksumErrFinal_undecodable hknown hfield rfl hname, hs, rfl, .inl rfl⟩
    | some filename =>
      exact ⟨_, _, _, turned_cksumErrFinal hknown hfield hs rfl hname, hs.after_eraseFile _ _ _,
        roster_eraseFile _ _ _ _, .inr ⟨by decide, rfl⟩⟩

end Files

end EncryptedTransfer.ClientRoster
