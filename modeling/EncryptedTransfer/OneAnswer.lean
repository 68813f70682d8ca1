import EncryptedTransfer.FaultyDatabase
import EncryptedTransfer.ServerReplies

/-!
# One answer to a request

A client waits for one response after each of its requests but the retry notice. When the server
sends it, and when the exception of a handler leaves the client waiting.
-/
namespace EncryptedTransfer.OneAnswer
open ServerStores hiding Client Client.new
open ByteFormats Text ServerCalls ServerHandlers ServerConsistency ServerEffects ServerFootprints
open ServerRuns FaultyDatabase CryptoLaws ServerReplies Interaction Program

variable {δ : Type} [FileSystem δ] (E : Externals) (env : Draws) (d : Delivery) (s : Server δ)
  (request : Request) (payload : Bytes) (conn : Conn)

/-- A client waits for a response to the request. -/
def Owed : Prop :=
  match kindOf request.code with
  | .cksumErr | .unknown => s.database.clientExistsById request.clientId = false
  | _ => True

/-- Exactly one response is sent where one is owed, and nothing else. -/
def AnsweredOnce : Prop :=
  ∃ pieces, (handled E env d request payload ⟨s, conn⟩).conn.sent = conn.sent ++ pieces ∧
    (Owed s request → ∃ reply : Reply, reply.Sendable ∧ pieces.flatten = reply.encode) ∧
    (¬ Owed s request → pieces = [])

/-- No operation of the handler before its answer raises: the fields and the content are readable,
and the disk takes the file or lets go of it. -/
def Completes : Prop :=
  match kindOf request.code with
  | .register => (decodeUtf8 payload).isSome = true
  | .sendPublicKey => ∃ clientName publicKey, keyRequest payload = some (clientName, publicKey) ∧
      (wrappedKey E env publicKey (env.random aesKeySize)).isSome = true
  | .sendFile => ∃ contentSize filename content,
      uploadHeader E (conn.recv d 275).1 = some (contentSize, filename) ∧
        contentOf E s.database request.clientId
          ((conn.recv d 275).2.recv d contentSize).1 = some content ∧
        (saved s.disk request.clientId filename content).isSome = true ∧
        content.length < 4294967296
  | .cksumOk => (filenameOf E (conn.recv d 255).1).isSome = true
  | .cksumErrFinal => ∃ filename, filenameOf E (conn.recv d 255).1 = some filename ∧
      (removed s.disk (filePath request.clientId filename)).isSome = true
  | .cksumErr | .unknown => True

/-- The gate turns the request away, or its handler comes to the answer. -/
def Answerable : Prop :=
  (request.code ≠ clientCodeRegister ∧ s.database.clientExistsById request.clientId = false) ∨
    Completes E env d s request payload conn

def Loaded (s : Server δ) : Prop :=
  ∀ clientId, s.database.clientExistsById clientId = true → (s.clientMap clientId).isSome = true

section Loading

variable {E d s request payload conn}

omit [FileSystem δ] in
theorem Loaded.retouched (h : Loaded s) {s' : Server δ} (hr : Retouched s.database s'.database)
    (hmap : ∀ clientId, (s.clientMap clientId).isSome = true →
      (s'.clientMap clientId).isSome = true) : Loaded s' :=
  fun clientId hid => hmap clientId (h clientId (hr.exists_eq clientId ▸ hid))

theorem isSome_update {α β : Type} [DecidableEq α] {f : α → Option β} {a : α} (b : β) {x : α}
    (h : (f x).isSome = true) : (Function.update f a (some b) x).isSome = true := by
  rw [Function.update_apply]
  split_ifs
  · rfl
  · exact h

theorem Loaded.hostCall {k : Kind} (hk : k ≠ .register) {c : HostCall} (hc : Footprint k c)
    (h : Loaded s) : Loaded (hostCall E env c s).2 := by
  have hsame {s' : Server δ} (hdb : s'.database = s.database) (hmap : s'.clientMap = s.clientMap) :
      Loaded s' := h.retouched (hdb ▸ retouched_refl _) fun _ => (hmap ▸ id)
  cases c with
  | insertNewClient clientName clientId | clientMapPut clientId client =>
    cases k with
    | register => exact absurd rfl hk
    | _ => cases hc
  | clearMaps => cases k <;> cases hc
  | insertKeysOfClient clientName publicKey aesKey =>
    exact h.retouched (retouched_insertKeysOfClient _ _ _ _ _) fun _ => id
  | insertFileDetails clientId filename pathname verified =>
    exact h.retouched (retouched_insertFileDetails _ _ _ _ _ _) fun _ => id
  | updateCksumVerification clientId filename verified =>
    exact h.retouched (retouched_updateCksumVerification _ _ _ _ _) fun _ => id
  | deleteFileOfClient clientId filename =>
    exact h.retouched (retouched_deleteFileOfClient _ _ _ _) fun _ => id
  | mkdir path | writeFile path content | remove path =>
    simp only [ServerCalls.hostCall, onDisk]
    split <;> exact hsame rfl rfl
  | clientAddFile clientId filePath file =>
    simp only [ServerCalls.hostCall]
    split
    · exact h.retouched (retouched_refl _) fun _ => isSome_update _
    · exact h
  | clientRemoveFile clientId filePath =>
    simp only [ServerCalls.hostCall]
    split
    · split_ifs
      · exact h.retouched (retouched_refl _) fun _ => isSome_update _
      · exact h
    · exact h
  | fileMapPop filePath =>
    simp only [ServerCalls.hostCall]
    split_ifs <;> exact hsame rfl rfl
  | _ => exact hsame rfl rfl

omit [FileSystem δ] in
theorem Loaded.register (h : Loaded s) (now clientName : Str) (uuid : Bytes) :
    Loaded (register now uuid clientName s) := by
  intro clientId hid
  simp only [ServerConsistency.register] at hid ⊢
  by_cases hnew : clientId = uuid
  · rw [hnew, Function.update_self]
    rfl
  · rw [Function.update_of_ne hnew]
    apply h clientId
    unfold Database.insertNewClient at hid
    split_ifs at hid
    · exact hid
    · simpa [Database.clientExistsById, Ne.symm hnew] using hid

theorem Loaded.handleClientRegistration (h : Loaded s) :
    Loaded (run (machine E env d) (handleClientRegistration payload) ⟨s, conn⟩).2.server := by
  cases hd : decodeUtf8 payload with
  | none =>
    rw [run_handleClientRegistration_undecodable E env d hd]
    exact h
  | some clientName =>
    cases hn : s.database.clientExistsByName (stripNul clientName) with
    | true =>
      rw [run_handleClientRegistration_taken E env d hd hn]
      exact h
    | false =>
      rw [run_handleClientRegistration E env d hd hn]
      exact h.register env.now (stripNul clientName) env.uuid

theorem Loaded.handled (h : Loaded s) :
    Loaded (handled E env d request payload ⟨s, conn⟩).server := by
  by_cases hc : request.code = clientCodeRegister
  · have hdispatch : dispatch E request payload =
        ServerHandlers.handleClientRegistration payload := by
      rw [dispatch, if_pos hc]
    rw [ServerRuns.handled, run_handleRequest E env d (.inl hc), hdispatch]
    exact h.handleClientRegistration env
  · refine (footprint_handleRequest E request payload).run_preserves (machine E env d)
      (P := fun w => Loaded w.server) ?_ h
    intro c w hallowed hw
    cases c with
    | host c => exact hw.hostCall env (mt kindOf_eq_register.mp hc) hallowed
    | _ => exact hw

/-- The clients' loop gives every client of the list its object, and takes none away. -/
theorem loaded_loadClients (items : List (Bytes × Str)) (w : World δ) :
    ∃ clientMap, run (machine E env d) (forM items loadClient) w =
        (.ok (), { w with server := { w.server with clientMap := clientMap } }) ∧
      ∀ clientId, (clientId ∈ items.map Prod.fst ∨ (w.server.clientMap clientId).isSome = true) →
        (clientMap clientId).isSome = true := by
  induction items generalizing w with
  | nil =>
    refine ⟨w.server.clientMap, rfl, fun clientId hid => ?_⟩
    exact hid.resolve_left (by simp)
  | cons item items ih =>
    rw [List.forM_cons, run_bind, run_loadClient, andThen_ok]
    obtain ⟨clientMap, hrun, hmap⟩ := ih { w with server := { w.server with
      clientMap := Function.update w.server.clientMap item.1 (some (.new item.1 item.2)) } }
    refine ⟨clientMap, hrun, fun clientId hid => hmap clientId ?_⟩
    rw [List.map_cons, List.mem_cons, or_assoc] at hid
    rcases hid with rfl | hid | hid
    · refine .inr ?_
      simp only [Function.update_self, Option.isSome_some]
    · exact .inl hid
    · exact .inr (isSome_update _ hid)

theorem Loaded.restarted : Loaded (restarted E env d s conn).server := by
  obtain ⟨clientMap, hrun, hmap⟩ := loaded_loadClients (E := E) (d := d) env
    s.database.getClientList ⟨{ s with clientMap := fun _ => none, fileMap := fun _ => none }, conn⟩
  let w : World δ := ⟨{ s with clientMap := clientMap, fileMap := fun _ => none }, conn⟩
  have hclients : Loaded w.server := by
    intro clientId hid
    obtain ⟨row, hrow, rfl⟩ := Database.clientExistsById_iff.mp hid
    exact hmap _ (.inl (List.mem_map.mpr ⟨_, List.mem_map.mpr ⟨row, hrow, rfl⟩, rfl⟩))
  have hfiles : Issues (Within True fun c => c = .getFileList ∨ Footprint .sendFile c) (do
      let files ← host .getFileList
      let files ← ofOption .typeError files
      files.forM loadFile) := by
    refine .bind (within_host (.inl rfl)) fun files => .bind (.ofOption _ _) fun files => ?_
    exact within_forM (fun item => .bind (within_host (.inr trivial)) fun _ =>
      within_host (.inr trivial)) files
  have hkept := hfiles.run_preserves (machine E env d) (P := fun w => Loaded w.server) ?_ (s := w)
    hclients
  · rw [ServerRuns.restarted]
    simp only [loadDataFromDatabase, run_guarded, host_eq, run_bind, run_call, machine_host,
      ServerCalls.hostCall, run_done, andThen_ok, run_ofOption, List.forM_eq_forM] at hrun hkept ⊢
    rw [hrun, andThen_ok]
    exact hkept
  · intro c w hallowed hw
    cases c with
    | host c =>
      rcases hallowed with rfl | hfoot
      · exact hw
      · exact hw.hostCall env (by decide) hfoot
    | _ => exact hw

end Loading

theorem loaded_of_calmRun {E : Externals} {s : Server δ} (h : CalmRun E s) : Loaded s := by
  induction h with
  | start disk => exact fun clientId hid => by cases hid
  | request env d request payload conn h ih => exact ih.handled env
  | restart env d conn h ih => exact .restarted env

variable {s request payload conn}

def Speaks (sent sent' : List Bytes) : Prop := ∃ data rest, sent' = sent ++ data :: rest ∧ data ≠ []

theorem speaks_push (conn : Conn) {data : Bytes} (h : data ≠ []) :
    Speaks conn.sent (conn.push data).sent := ⟨data, [], rfl, h⟩

theorem responseHead_ne_nil (code size : ℕ) (clientId : Bytes) :
    responseHead code size clientId ≠ [] := by
  intro h
  have hlen := congrArg List.length h
  simp [responseHead] at hlen

/-- What a world whose requests are answered, or are not, has sent. -/
def SentIff (conn : Conn) (w : World δ) (answered : Prop) : Prop :=
  (answered → Speaks conn.sent w.conn.sent) ∧ (¬ answered → w.conn.sent = conn.sent)

omit [FileSystem δ] in
theorem SentIff.speaks {w : World δ} {answered : Prop} (h : answered)
    (hs : Speaks conn.sent w.conn.sent) : SentIff conn w answered :=
  ⟨fun _ => hs, fun hn => absurd h hn⟩

omit [FileSystem δ] in
theorem SentIff.silent {w : World δ} {answered : Prop} (h : ¬ answered)
    (hs : w.conn.sent = conn.sent) : SentIff conn w answered :=
  ⟨fun ha => absurd ha h, fun _ => hs⟩

omit [FileSystem δ] in
theorem SentIff.congr {w : World δ} {answered answered' : Prop} (h : SentIff conn w answered)
    (he : answered ↔ answered') : SentIff conn w answered' :=
  ⟨fun ha => h.1 (he.mpr ha), fun ha => h.2 (mt he.mp ha)⟩

section Kinds

theorem sent_handleClientRegistration :
    SentIff conn (run (machine E env d) (handleClientRegistration payload) ⟨s, conn⟩).2
      ((decodeUtf8 payload).isSome = true) := by
  cases hd : decodeUtf8 payload with
  | none =>
    rw [run_handleClientRegistration_undecodable E env d hd]
    exact .silent (by decide) rfl
  | some clientName =>
    apply SentIff.speaks rfl
    cases hn : s.database.clientExistsByName (stripNul clientName) with
    | true =>
      rw [run_handleClientRegistration_taken E env d hd hn]
      exact speaks_push conn (responseHead_ne_nil _ _ _)
    | false =>
      rw [run_handleClientRegistration E env d hd hn]
      exact speaks_push conn (responseHead_ne_nil _ _ _)

theorem sent_sendAesKeyToClient :
    SentIff conn (run (machine E env d) (sendAesKeyToClient E request payload) ⟨s, conn⟩).2
      (∃ clientName publicKey, keyRequest payload = some (clientName, publicKey) ∧
        (wrappedKey E env publicKey (env.random aesKeySize)).isSome = true) := by
  cases hkey : keyRequest payload with
  | none =>
    rw [run_sendAesKeyToClient_malformed E env d hkey]
    refine .silent ?_ rfl
    rintro ⟨_, _, h, _⟩
    cases h
  | some key =>
    rw [run_sendAesKeyToClient_stored E env d hkey, run_answerKey]
    cases hcipher : wrappedKey E env key.2 (env.random aesKeySize) with
    | none =>
      refine .silent ?_ rfl
      rintro ⟨_, _, ⟨⟩, h⟩
      rw [hcipher] at h
      cases h
    | some cipher =>
      refine .speaks ⟨key.1, key.2, rfl, by rw [hcipher]; rfl⟩ (speaks_push conn ?_)
      exact fun h => responseHead_ne_nil _ _ _ (List.append_eq_nil_iff.mp h).1

theorem sent_handleCksumOk :
    SentIff conn (run (machine E env d) (handleCksumOk E request) ⟨s, conn⟩).2
      ((filenameOf E (conn.recv d 255).1).isSome = true) := by
  cases hname : filenameOf E (conn.recv d 255).1 with
  | none =>
    rw [run_handleCksumOk_undecodable E env d (w := ⟨s, conn⟩) hname]
    exact .silent (by decide) rfl
  | some filename =>
    rw [run_handleCksumOk E env d (w := ⟨s, conn⟩) hname]
    exact .speaks rfl (speaks_push (conn.recv d 255).2 (responseHead_ne_nil _ _ _))

theorem sent_handleCksumErrFinal :
    SentIff conn (run (machine E env d) (handleCksumErrFinal E request) ⟨s, conn⟩).2
      (∃ filename, filenameOf E (conn.recv d 255).1 = some filename ∧
        (removed s.disk (filePath request.clientId filename)).isSome = true) := by
  rw [← run_faulty_none E env d _ _ 1]
  by_cases hremoved : ∃ filename, filenameOf E (conn.recv d 255).1 = some filename ∧
      (removed s.disk (filePath request.clientId filename)).isSome = true
  · apply SentIff.speaks hremoved
    obtain ⟨filename, hname, hdisk⟩ := hremoved
    obtain ⟨disk, hdisk⟩ := Option.isSome_iff_exists.mp hdisk
    rw [run_faulty_cksumErrFinal E env d _ ⟨s, conn⟩ hname hdisk]
    exact speaks_push (conn.recv d 255).2 (responseHead_ne_nil _ _ _)
  · apply SentIff.silent hremoved
    rw [run_faulty_cksumErrFinal_stuck E env d _ ⟨s, conn⟩]
    · rfl
    · intro filename hname
      by_contra hdisk
      exact hremoved ⟨filename, hname, Option.isSome_iff_ne_none.mpr hdisk⟩

/-- A content is answered where the disk takes it and its size fits. -/
theorem sent_processFileContent (hid16 : request.clientId.length = 16)
    (hclient : (s.clientMap request.clientId).isSome = true) (filename : Str)
    (encrypted : Bytes) :
    SentIff conn (run (machine E env d) (processFileContent E request filename encrypted)
        ⟨s, conn⟩).2
      (∃ content, contentOf E s.database request.clientId encrypted = some content ∧
        (saved s.disk request.clientId filename content).isSome = true ∧
        content.length < 4294967296) := by
  rw [← run_faulty_none E env d _ _ 1]
  cases hcontent : contentOf E s.database request.clientId encrypted with
  | none =>
    rw [run_faulty_processFileContent_unreadable E env d _ ⟨s, conn⟩ (.inr hcontent)]
    refine .silent ?_ rfl
    rintro ⟨_, h, _⟩
    cases h
  | some content =>
    rw [run_faulty_processFileContent E env d _ ⟨s, conn⟩ rfl hcontent]
    by_cases hkept : (saved s.disk request.clientId filename content).isSome = true ∧
        content.length < 4294967296
    · apply SentIff.speaks ⟨content, rfl, hkept⟩
      obtain ⟨⟨disk, stored⟩, hsaved⟩ := Option.isSome_iff_exists.mp hkept.1
      obtain ⟨cksum, hcksum⟩ := Cksum.cksumCalc_isSome stored
      obtain ⟨clientMap, fileMap, hrun⟩ := run_faulty_keepContent E env d (fun _ _ => false)
        ⟨s, conn⟩ hid16 hsaved hclient hkept.2 hcksum cksum.toNat_lt
      rw [hrun]
      refine ⟨responseHead serverCodeCksumReady 0 request.clientId ++ leBytes 4 content.length,
        [cksumReport filename cksum.toNat], by simp [Conn.push], ?_⟩
      exact fun h => responseHead_ne_nil _ _ _ (List.append_eq_nil_iff.mp h).1
    · have hstops : saved s.disk request.clientId filename content = none ∨
          s.clientMap request.clientId = none ∨ ¬ content.length < 4294967296 := by
        rw [not_and_or, Bool.not_eq_true, Option.isSome_eq_false_iff, Option.isNone_iff_eq_none]
          at hkept
        exact hkept.imp_right .inr
      have hsilent := run_faulty_keepContent_silent E env d (fun _ _ => false) ⟨s, conn⟩ hstops
      refine .silent ?_ (congrArg Conn.sent hsilent)
      rintro ⟨_, ⟨⟩, h⟩
      exact hkept h

theorem sent_handleFileRequest (hid16 : request.clientId.length = 16)
    (hclient : (s.clientMap request.clientId).isSome = true) :
    SentIff conn (run (machine E env d) (handleFileRequest E request) ⟨s, conn⟩).2
      (∃ contentSize filename content,
        uploadHeader E (conn.recv d 275).1 = some (contentSize, filename) ∧
          contentOf E s.database request.clientId
            ((conn.recv d 275).2.recv d contentSize).1 = some content ∧
          (saved s.disk request.clientId filename content).isSome = true ∧
          content.length < 4294967296) := by
  cases hheader : uploadHeader E (conn.recv d 275).1 with
  | none =>
    rw [run_handleFileRequest_malformed E env d (w := ⟨s, conn⟩) hheader]
    refine .silent ?_ rfl
    rintro ⟨_, _, _, h, _⟩
    cases h
  | some header =>
    obtain ⟨contentSize, filename⟩ := header
    rw [run_handleFileRequest E env d (w := ⟨s, conn⟩) hheader]
    have hsent : SentIff ((conn.recv d 275).2.recv d contentSize).2 _ _ :=
      sent_processFileContent E env d hid16 hclient filename
        ((conn.recv d 275).2.recv d contentSize).1
    constructor
    · rintro ⟨_, _, content, ⟨⟩, hkept⟩
      exact hsent.1 ⟨content, hkept⟩
    · intro hnot
      apply hsent.2
      rintro ⟨content, hkept⟩
      exact hnot ⟨contentSize, filename, content, rfl, hkept⟩

end Kinds

theorem sent_handled (hs : CalmRun E s) : SentIff conn (handled E env d request payload ⟨s, conn⟩)
    (Owed s request ∧ Answerable E env d s request payload conn) := by
  by_cases hpass : request.code = clientCodeRegister ∨
      s.database.clientExistsById request.clientId = true
  · have hanswerable : Answerable E env d s request payload conn ↔
        Completes E env d s request payload conn := by
      refine or_iff_right ?_
      rintro ⟨hc, hid⟩
      rcases hpass with h | h
      · exact hc h
      · rw [h] at hid
        cases hid
    have hknown (hk : kindOf request.code ≠ .register) :
        s.database.clientExistsById request.clientId = true :=
      hpass.resolve_left (mt kindOf_eq_register.mpr hk)
    have hclient (hk : kindOf request.code ≠ .register) :=
      loaded_of_calmRun hs _ (hknown hk)
    have howed (hk : kindOf request.code = .cksumErr ∨ kindOf request.code = .unknown) :
        ¬ Owed s request := by
      have hid := hknown (by rcases hk with hk | hk <;> simp [hk])
      rcases hk with hk | hk <;> simp [Owed, hk, hid]
    rw [handled, run_handleRequest E env d hpass, dispatch_eq, hanswerable]
    cases hk : kindOf request.code with
    | register =>
      apply (sent_handleClientRegistration E env d).congr
      simp only [Owed, Completes, hk, true_and]
    | sendPublicKey =>
      apply (sent_sendAesKeyToClient E env d).congr
      simp only [Owed, Completes, hk, true_and]
    | sendFile =>
      have hid : s.database.clientExistsById request.clientId = true := hknown (by simp [hk])
      have hid16 : request.clientId.length = 16 := by
        obtain ⟨row, hrow, he⟩ := Database.clientExistsById_iff.mp hid
        exact he ▸ (FaultyRun.ofCalm hs).keyed.idLength row hrow
      apply (sent_handleFileRequest E env d hid16 (hclient (by simp [hk]))).congr
      simp only [Owed, Completes, hk, true_and]
    | cksumOk =>
      apply (sent_handleCksumOk E env d).congr
      simp only [Owed, Completes, hk, true_and]
    | cksumErrFinal =>
      apply (sent_handleCksumErrFinal E env d).congr
      simp only [Owed, Completes, hk, true_and]
    | cksumErr =>
      simp only [run_handleCksumErr]
      exact .silent (fun h => howed (.inl hk) h.1) rfl
    | unknown => exact .silent (fun h => howed (.inr hk) h.1) rfl
  · push Not at hpass
    have hid := Bool.eq_false_iff.mpr hpass.2
    have howed : Owed s request := by
      unfold Owed
      split <;> first | exact hid | trivial
    rw [handled, run_handleRequest_unknown E env d (w := ⟨s, conn⟩) hpass.1 hid]
    exact .speaks ⟨howed, .inl ⟨hpass.1, hid⟩⟩ (speaks_push conn (responseHead_ne_nil _ _ _))

variable (request payload conn)

/-- In every state of a run without failures, over any disk: a request is answered by exactly one
response, or none where none is owed, exactly where its handler comes to the answer. -/
theorem answered_once_iff (h : CalmRun E s) :
    AnsweredOnce E env d s request payload conn ↔ Answerable E env d s request payload conn := by
  obtain ⟨pieces, hsent, hanswer⟩ := handled_sends E env d request payload ⟨s, conn⟩
  obtain ⟨hspeaks, hsilent⟩ :
      SentIff conn (handled E env d request payload ⟨s, conn⟩) _ :=
    sent_handled E env d h
  constructor
  · rintro ⟨pieces', hsent', hone, _⟩
    by_contra hnot
    by_cases howed : Owed s request
    · obtain ⟨reply, _, hencode⟩ := hone howed
      have hsame := hsilent fun ha => hnot ha.2
      have hnone : pieces' = [] :=
        List.append_cancel_left (hsent'.symm.trans (hsame.trans (List.append_nil _).symm))
      rw [hnone] at hencode
      exact responseHead_ne_nil _ _ _ (List.append_eq_nil_iff.mp hencode.symm).1
    · apply hnot
      right
      cases hk : kindOf request.code with
      | cksumErr | unknown => simp only [Completes, hk]
      | _ => simp [Owed, hk] at howed
  · intro hyes
    refine ⟨pieces, hsent, ?_, ?_⟩
    · intro howed
      obtain ⟨data, rest, hdata, hne⟩ := hspeaks ⟨howed, hyes⟩
      rcases hanswer with hnil | hreply
      · rw [hsent] at hdata
        have heq := List.append_cancel_left hdata
        rw [heq] at hnil
        exact absurd (List.append_eq_nil_iff.mp hnil).1 hne
      · exact hreply
    · intro hnot
      have hsame := hsilent fun ha => hnot ha.1
      exact List.append_cancel_left (hsent.symm.trans (hsame.trans (List.append_nil _).symm))

def namelessHeader : Request := ⟨[], 3, clientCodeRegister, 1⟩

def uploadHeaderOfA : Request := ⟨List.replicate 16 1, 3, clientCodeSendFile, 0⟩

def confirmHeader : Request := ⟨List.replicate 16 1, 3, clientCodeCksumOk, 0⟩

theorem answered_once_iff_confirmed :
    (¬ Answerable plainCiphers (constantDraws 1) .whole .empty namelessHeader [255]
        ⟨[], 0, [], []⟩ ∧
      ¬ AnsweredOnce plainCiphers (constantDraws 1) .whole .empty namelessHeader [255]
        ⟨[], 0, [], []⟩) ∧
      (Answerable plainCiphers (constantDraws 3) .whole keyedServer uploadHeaderOfA []
          (uploadConn (List.replicate 16 1) ['f'] (pkcs7Pad [7])) ∧
        AnsweredOnce plainCiphers (constantDraws 3) .whole keyedServer uploadHeaderOfA []
          (uploadConn (List.replicate 16 1) ['f'] (pkcs7Pad [7]))) ∧
      Answerable plainCiphers (constantDraws 4) .whole keyedServer confirmHeader []
          ⟨padField 255 ['f'], 0, [], []⟩ ∧
        AnsweredOnce plainCiphers (constantDraws 4) .whole keyedServer confirmHeader []
          ⟨padField 255 ['f'], 0, [], []⟩ := by
  have hrun := (run_keyedServer plainCiphers).calm
  refine ⟨?_, ?_, ?_⟩
  · have hno : ¬ Answerable plainCiphers (constantDraws 1) .whole .empty namelessHeader [255]
        ⟨[], 0, [], []⟩ := by
      rintro (⟨hc, _⟩ | hc)
      · exact hc rfl
      · revert hc
        show ¬ (decodeUtf8 [255]).isSome = true
        decide
    exact ⟨hno, mt (answered_once_iff plainCiphers (constantDraws 1) .whole namelessHeader [255]
      ⟨[], 0, [], []⟩ (.start KeyedDisk.empty)).mp hno⟩
  · obtain ⟨hread, hrest⟩ := uploadConn_recv plainCiphers (List.length_replicate (n := 16) (a := 1))
      (show (encodeUtf8 ['f']).length ≤ 255 by decide) (by decide) rfl
      (show (pkcs7Pad [7]).length < 4294967296 by decide)
    have hyes : Answerable plainCiphers (constantDraws 3) .whole keyedServer uploadHeaderOfA []
        (uploadConn (List.replicate 16 1) ['f'] (pkcs7Pad [7])) := by
      refine .inr ⟨_, _, [7], hread, ?_, by decide +kernel, by decide⟩
      rw [hrest]
      exact contentOf_keyedServer plainCiphers.lower [7]
    exact ⟨hyes, (answered_once_iff plainCiphers (constantDraws 3) .whole uploadHeaderOfA []
      (uploadConn (List.replicate 16 1) ['f'] (pkcs7Pad [7])) hrun).mpr hyes⟩
  · have hyes : Answerable plainCiphers (constantDraws 4) .whole keyedServer confirmHeader []
        ⟨padField 255 ['f'], 0, [], []⟩ :=
      .inr (Option.isSome_of_eq_some (filenameOf_recv plainCiphers (by decide) (by decide) rfl))
    exact ⟨hyes, (answered_once_iff plainCiphers (constantDraws 4) .whole confirmHeader []
      ⟨padField 255 ['f'], 0, [], []⟩ hrun).mpr hyes⟩

/-- A registration is left without an answer. -/
theorem nameless_unanswered :
    CalmRun plainCiphers Server.empty ∧ Owed .empty namelessHeader ∧
      (handled plainCiphers (constantDraws 1) .whole namelessHeader [255]
        ⟨.empty, ⟨[], 0, [], []⟩⟩).conn.sent = [] := by
  refine ⟨.start KeyedDisk.empty, trivial, ?_⟩
  have hdecode : decodeUtf8 [255] = none := by decide
  rw [handled, run_handleRequest _ _ _ (.inl rfl)]
  exact congrArg (fun r => r.2.conn.sent) (run_handleClientRegistration_undecodable plainCiphers
    (constantDraws 1) .whole hdecode (World.mk Server.empty ⟨[], 0, [], []⟩))

end EncryptedTransfer.OneAnswer
