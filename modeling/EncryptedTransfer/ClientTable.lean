import EncryptedTransfer.CardIndex
import EncryptedTransfer.ServerRuns

/-!
# The clients' table and its history

In every run of the server the clients' table is an index of cards: a row for every registration,
with the keys that were last asked for under its name, and the time of the last request that
changed anything for the client.
-/
namespace EncryptedTransfer.ClientTable
open ByteFormats Text ServerStores ServerCalls ServerHandlers ServerConsistency ServerEffects
open ServerRuns Interaction Program CardIndex KeyedTable CryptoLaws

/-- Ids, names, the public key with the AES key, and times. -/
abbrev ClientAct := CardIndex.Act Bytes Str (Bytes × Bytes) Str

abbrev ClientCard := Card Bytes Str (Bytes × Bytes) Str

variable (E : Externals)

/-- What a request does to the clients' table. -/
def clientActOf (env : Draws) (d : Delivery) (db : Database) (request : Request) (payload : Bytes)
    (conn : Conn) : Option ClientAct :=
  match kindOf request.code with
  | .register => (decodeUtf8 payload).bind fun clientName =>
      if db.clientExistsByName (stripNul clientName) then none
      else some (.enrol env.uuid (stripNul clientName) env.now)
  | .sendPublicKey =>
      if db.clientExistsById request.clientId then
        (keyRequest payload).map fun keys =>
          .note keys.1 (keys.2, env.random aesKeySize) env.now
      else none
  | _ => (actOf E d db request conn).map fun _ => .see request.clientId env.now

/-- Runs from an empty server, with the acts on its clients' table. -/
inductive Recorded : Server KeyedDisk → List ClientAct → Prop
  | start : Recorded .empty []
  | request {s : Server KeyedDisk} {acts : List ClientAct} (env : Draws) (d : Delivery)
      (request : Request) (payload : Bytes) (conn : Conn) (h : Recorded s acts)
      (fresh : request.code = clientCodeRegister → s.database.clientExistsById env.uuid = false) :
      Recorded (handled E env d request payload ⟨s, conn⟩).server
        (acts ++ (clientActOf E env d s.database request payload conn).toList)
  | restart {s : Server KeyedDisk} {acts : List ClientAct} (env : Draws) (d : Delivery)
      (conn : Conn) (h : Recorded s acts) : Recorded (restarted E env d s conn).server acts

def rowOf (c : ClientCard) : ClientRow :=
  ⟨c.key, c.name, c.noted.map Prod.fst, some c.seen, c.noted.map Prod.snd⟩

section Rows

variable {cards : List ClientCard} {db : Database}

theorem updateLastSeen_rows (h : db.clients = cards.map rowOf) (now : Str) (clientId : Bytes) :
    (db.updateLastSeen now clientId).clients = (apply cards (.see clientId now)).map rowOf := by
  simp only [Database.updateLastSeen, h, apply, List.map_map]
  apply List.map_congr_left
  intro c _
  by_cases hkey : c.key = clientId <;> simp [rowOf, Card.update, hkey]

theorem insertKeysOfClient_rows (h : db.clients = cards.map rowOf) (now clientName : Str)
    (publicKey aesKey : Bytes) :
    (db.insertKeysOfClient now clientName publicKey aesKey).clients =
      (apply cards (.note clientName (publicKey, aesKey) now)).map rowOf := by
  simp only [Database.insertKeysOfClient, h, apply, List.map_map]
  apply List.map_congr_left
  intro c _
  by_cases hname : c.name = clientName <;> simp [rowOf, Card.update, hname]

theorem insertNewClient_rows (h : db.clients = cards.map rowOf) (now clientName : Str)
    {clientId : Bytes} (hfresh : db.clientExistsById clientId = false) :
    (db.insertNewClient now clientName clientId).clients =
      (apply cards (.enrol clientId clientName now)).map rowOf := by
  simp [Database.insertNewClient, hfresh, h, apply, rowOf]

theorem store_rows {s : Server KeyedDisk} (hs : Consistent s)
    (h : s.database.clients = cards.map rowOf) (now : Str) (clientId : Bytes) (filename : Str)
    (content : Bytes) : (store now clientId filename content s).database.clients =
      (apply cards (.see clientId now)).map rowOf := by
  have hsame (files : List FileRow) :
      (Database.updateLastSeen { s.database with files := files } now clientId).clients =
        (apply cards (.see clientId now)).map rowOf := updateLastSeen_rows h now clientId
  have hexists := hs.sound.fileExists_eq clientId filename
  simp only [store]
  cases hrow : rows s.database (filePath clientId filename) with
  | some row =>
    rw [hrow, Option.isSome_some] at hexists
    rw [if_pos hexists]
    exact hsame _
  | none =>
    rw [hrow, Option.isSome_none] at hexists
    have hno : s.database.files.any
        (fun row => row.pathname = filePath clientId filename) = false := by
      have hmem := lookup_eq_none.mp hrow
      simpa using hmem
    rw [if_neg (by simp [hexists]), Database.insertFileDetails, hno]
    exact hsame _

end Rows

section Requests

variable {E} {env : Draws} {d : Delivery} {request : Request} {payload : Bytes} {conn : Conn}
  {s : Server KeyedDisk} {cards : List ClientCard}

/-- What the acts on the files do to the clients' table. -/
theorem elim_map_rows (act : Option (FileLedger.Act (Bytes × Str) Bytes)) (seen : ClientAct) :
    (act.map fun _ => seen).elim cards (apply cards) =
      if act.isSome then apply cards seen else cards := by
  cases act <;> rfl

theorem processFileContent_rows (hs : Consistent s) (h : s.database.clients = cards.map rowOf)
    (hid : s.database.clientExistsById request.clientId = true) (filename : Str)
    (encrypted : Bytes) :
    (run (machine E env d) (processFileContent E request filename encrypted)
        ⟨s, conn⟩).2.server.database.clients =
      (if nul ∉ filename ∧ (contentOf E s.database request.clientId encrypted).isSome then
        apply cards (.see request.clientId env.now) else cards).map rowOf := by
  cases hc : contentOf E s.database request.clientId encrypted with
  | none =>
    rw [run_processFileContent_unreadable E env d (w := ⟨s, conn⟩) hc]
    simpa using h
  | some content =>
    by_cases hn : nul ∈ filename
    · rw [run_processFileContent_nul E env d (w := ⟨s, conn⟩) hs hc hn, if_neg (by simp [hn])]
      exact h
    · obtain ⟨cksum, hcksum⟩ := Cksum.cksumCalc_isSome content
      rw [run_processFileContent_stored E env d (w := ⟨s, conn⟩) hs hid hc hn hcksum,
        run_sendCksum_server, if_pos ⟨hn, rfl⟩]
      exact store_rows hs h _ _ _ _

theorem upload_rows (hs : Consistent s) (h : s.database.clients = cards.map rowOf)
    (hid : s.database.clientExistsById request.clientId = true) :
    (run (machine E env d) (handleFileRequest E request) ⟨s, conn⟩).2.server.database.clients =
      (if (uploadAct E d s.database request conn).isSome then
        apply cards (.see request.clientId env.now) else cards).map rowOf := by
  cases hu : uploadHeader E (conn.recv d 275).1 with
  | none =>
    rw [run_handleFileRequest_malformed E env d (w := ⟨s, conn⟩) hu, uploadAct, hu]
    exact h
  | some header =>
    rw [run_handleFileRequest E env d (w := ⟨s, conn⟩) hu, uploadAct, hu]
    rw [processFileContent_rows hs h hid, Option.bind_some]
    by_cases hn : nul ∈ header.2 <;> simp [hn]

theorem named_rows {s' : Server KeyedDisk}
    {act : Bytes × Str → FileLedger.Act (Bytes × Str) Bytes}
    (hnone : filenameOf E (conn.recv d 255).1 = none → s' = s)
    (hsome : ∀ filename, filenameOf E (conn.recv d 255).1 = some filename →
      s'.database.clients = (s.database.updateLastSeen env.now request.clientId).clients)
    (h : s.database.clients = cards.map rowOf) :
    s'.database.clients = (if (namedAct E d request conn act).isSome then
      apply cards (.see request.clientId env.now) else cards).map rowOf := by
  cases hf : filenameOf E (conn.recv d 255).1 with
  | none =>
    rw [hnone hf, namedAct, hf]
    exact h
  | some filename =>
    rw [hsome filename hf, namedAct, hf]
    exact updateLastSeen_rows h _ _

theorem registration_rows (h : s.database.clients = cards.map rowOf)
    (hfresh : s.database.clientExistsById env.uuid = false) :
    (run (machine E env d) (handleClientRegistration payload) ⟨s, conn⟩).2.server.database.clients =
      (((decodeUtf8 payload).bind fun clientName =>
        if s.database.clientExistsByName (stripNul clientName) then none
        else some (.enrol env.uuid (stripNul clientName) env.now)).elim cards
          (apply cards)).map rowOf := by
  cases hn : decodeUtf8 payload with
  | none =>
    rw [run_handleClientRegistration_undecodable E env d hn]
    exact h
  | some clientName =>
    cases ht : s.database.clientExistsByName (stripNul clientName) with
    | true =>
      rw [run_handleClientRegistration_taken E env d (w := ⟨s, conn⟩) hn ht]
      simpa [ht] using h
    | false =>
      rw [run_handleClientRegistration E env d (w := ⟨s, conn⟩) hn ht]
      simp only [Option.bind_some, ht, Bool.false_eq_true, ↓reduceIte, Option.elim_some]
      exact insertNewClient_rows h _ _ hfresh

theorem key_rows (h : s.database.clients = cards.map rowOf) :
    (run (machine E env d) (sendAesKeyToClient E request payload)
        ⟨s, conn⟩).2.server.database.clients =
      (((keyRequest payload).map fun keys =>
        CardIndex.Act.note keys.1 (keys.2, env.random aesKeySize) env.now).elim cards
          (apply cards)).map rowOf := by
  cases hk : keyRequest payload with
  | none =>
    rw [run_sendAesKeyToClient_malformed E env d hk]
    exact h
  | some keys =>
    obtain ⟨clientName, publicKey⟩ := keys
    rw [run_sendAesKeyToClient_server E env d hk]
    exact insertKeysOfClient_rows h _ _ _ _

theorem handled_rows (hs : Consistent s) (h : s.database.clients = cards.map rowOf)
    (hfresh : request.code = clientCodeRegister → s.database.clientExistsById env.uuid = false) :
    (handled E env d request payload ⟨s, conn⟩).server.database.clients =
      ((clientActOf E env d s.database request payload conn).elim cards (apply cards)).map
        rowOf := by
  unfold handled clientActOf
  by_cases hk : kindOf request.code = .register
  · have hc := kindOf_eq_register.mp hk
    rw [run_handleRequest E env d (.inl hc), dispatch_eq, hk]
    exact registration_rows h (hfresh hc)
  cases hid : s.database.clientExistsById request.clientId with
  | false =>
    rw [run_handleRequest_unknown E env d (w := ⟨s, conn⟩) (mt kindOf_eq_register.mpr hk) hid]
    cases hkind : kindOf request.code <;> simp_all [actOf]
  | true =>
    rw [run_handleRequest E env d (w := ⟨s, conn⟩) (.inr hid), dispatch_eq]
    cases hkind : kindOf request.code with
    | register => exact absurd hkind hk
    | sendPublicKey => exact key_rows h
    | sendFile =>
      simp only [elim_map_rows, actOf, hid, hkind, ↓reduceIte]
      exact upload_rows hs h hid
    | cksumOk =>
      simp only [elim_map_rows, actOf, hid, hkind, ↓reduceIte]
      apply named_rows _ _ h
      · intro hf
        rw [run_handleCksumOk_undecodable E env d (w := ⟨s, conn⟩) hf]
      · intro filename hf
        rw [run_handleCksumOk E env d (w := ⟨s, conn⟩) hf]
        rfl
    | cksumErr =>
      rw [run_handleCksumErr]
      simpa [actOf, hkind] using h
    | cksumErrFinal =>
      simp only [elim_map_rows, actOf, hid, hkind, ↓reduceIte]
      apply named_rows _ _ h
      · intro hf
        rw [run_handleCksumErrFinal_undecodable E env d (w := ⟨s, conn⟩) hf]
      · intro filename hf
        rw [run_handleCksumErrFinal E env d (w := ⟨s, conn⟩) hs hf]
        rfl
    | unknown => simpa [actOf, hkind] using h

end Requests

section Runs

variable {E} {s : Server KeyedDisk} {acts : List ClientAct}

theorem Recorded.rows (h : Recorded E s acts) :
    Consistent s ∧ s.database.clients = (index acts).map rowOf := by
  induction h with
  | start => exact ⟨consistent_empty, rfl⟩
  | @request s acts env d request payload conn h fresh ih =>
    obtain ⟨hs, hrows⟩ := ih
    have hfollows : Follows s (actOf E d s.database request conn)
        (handled E env d request payload ⟨s, conn⟩).server :=
      handled_follows (w := ⟨s, conn⟩) hs fresh
    refine ⟨hfollows.1, ?_⟩
    rw [handled_rows hs hrows fresh]
    cases clientActOf E env d s.database request payload conn with
    | none => simp
    | some act =>
      rw [Option.toList_some, index_append_singleton]
      rfl
  | restart env d conn h ih =>
    rw [restarted_eq E env d ih.1]
    exact ih

/-- In every run the clients' table has a row for every registration, in their order: the name it
registered, the keys of the last key request under this name, and the time of the last request that
changed anything for it. -/
theorem clients_refine_history (h : Recorded E s acts) :
    s.database.clients.map (fun row => (row.clientId, row.clientName)) =
      acts.filterMap Act.enrolled ∧
    ∀ row : ClientRow, row ∈ s.database.clients ↔
      ∃ before now after, acts = before ++ .enrol row.clientId row.clientName now :: after ∧
        row.publicKey = (last (Act.noteOf row.clientName) after).map Prod.fst ∧
        row.aesKey = (last (Act.noteOf row.clientName) after).map Prod.snd ∧
        row.lastSeen = some ((last (Act.timeOf row.clientId row.clientName) after).getD now) := by
  obtain ⟨-, hrows⟩ := h.rows
  constructor
  · rw [hrows, List.map_map, ← index_enrolled]
    rfl
  intro row
  rw [hrows, List.mem_map]
  constructor
  · rintro ⟨c, hc, rfl⟩
    obtain ⟨before, k, n, t, after, hacts, rfl⟩ := mem_index.mp hc
    exact ⟨before, t, after, hacts, rfl, rfl, rfl⟩
  · rintro ⟨before, now, after, hacts, hpublic, haes, hseen⟩
    refine ⟨.made row.clientId row.clientName now after, mem_index.mpr ⟨before, _, _, now, after,
      hacts, rfl⟩, ?_⟩
    rw [rowOf, Card.made, ← hpublic, ← haes, ← hseen]

end Runs

def registeredA : Server KeyedDisk :=
  (handled plainCiphers (constantDraws 1) .whole ⟨[], 3, clientCodeRegister, 1⟩ (encodeUtf8 ['a'])
    ⟨.empty, ⟨[], 0, [], []⟩⟩).server

def keyedA : Server KeyedDisk :=
  (handled plainCiphers (constantDraws 2) .whole
    ⟨List.replicate 16 1, 3, clientCodeSendPublicKey, 415⟩
    (padField 255 ['a'] ++ derKey) ⟨registeredA, ⟨[], 0, [], []⟩⟩).server

theorem recorded_registeredA : Recorded plainCiphers registeredA
    [.enrol (List.replicate 16 1) ['a'] []] := by
  have hact : clientActOf plainCiphers (constantDraws 1) .whole Server.empty.database
      ⟨[], 3, clientCodeRegister, 1⟩ (encodeUtf8 ['a']) ⟨[], 0, [], []⟩ =
        some (.enrol (List.replicate 16 1) ['a'] []) := by
    decide +kernel
  have hrun := Recorded.start.request (E := plainCiphers) (constantDraws 1) .whole
    ⟨[], 3, clientCodeRegister, 1⟩ (encodeUtf8 ['a']) ⟨[], 0, [], []⟩ (fun _ => rfl)
  rwa [hact] at hrun

theorem recorded_keyedA : Recorded plainCiphers keyedA
    [.enrol (List.replicate 16 1) ['a'] [],
      .note ['a'] (derKey, List.replicate 16 2) []] := by
  have hregistered : registeredA = register [] (List.replicate 16 1) ['a'] .empty :=
    handled_registration plainCiphers (constantDraws 1) .whole rfl (by decide) _ rfl
  have hkey : keyRequest (padField 255 ['a'] ++ derKey) =
      some (['a'], derKey) :=
    keyRequest_padField (by decide) (by decide) length_derKey
  have hkind : kindOf clientCodeSendPublicKey = .sendPublicKey := rfl
  have hknown : registeredA.database.clientExistsById (List.replicate 16 1) = true := by
    rw [hregistered]
    rfl
  have hact : clientActOf plainCiphers (constantDraws 2) .whole registeredA.database
      ⟨List.replicate 16 1, 3, clientCodeSendPublicKey, 415⟩
      (padField 255 ['a'] ++ derKey) ⟨[], 0, [], []⟩ =
        some (.note ['a'] (derKey, List.replicate 16 2) []) := by
    simp only [clientActOf, hkind, hknown, hkey, ↓reduceIte, Option.map_some]
    rfl
  have hrun := recorded_registeredA.request (constantDraws 2) .whole
    ⟨List.replicate 16 1, 3, clientCodeSendPublicKey, 415⟩
    (padField 255 ['a'] ++ derKey) ⟨[], 0, [], []⟩ (fun h => absurd h (by decide))
  rwa [hact] at hrun

theorem clients_refine_history_keyedA :
    (⟨List.replicate 16 1, ['a'], some derKey, some [],
      some (List.replicate 16 2)⟩ : ClientRow) ∈ keyedA.database.clients :=
  ((clients_refine_history recorded_keyedA).2 _).mpr ⟨[], [], [_], rfl, rfl, rfl, rfl⟩

end EncryptedTransfer.ClientTable
