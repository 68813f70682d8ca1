import EncryptedTransfer.ClientMessages

/-!
# The server's turn with each request of the client

One lemma for every request and outcome: the stores after it, the bytes it is answered with
and the bytes of it that are left unread.
-/
namespace EncryptedTransfer.ServerTurns
open ServerStores hiding Client Client.new
open ByteFormats Text ServerCalls ServerHandlers ServerConsistency ServerEffects ServerRuns
open ServerSession StreamFraming ClientProcess Network ClientMessages Interaction Program

/-- What a turn has come to. -/
structure Turned (w : World KeyedDisk) (server : Server KeyedDisk) (sent left : Bytes) : Prop where
  server_eq : w.server = server
  sent_eq : w.conn.sent.flatten = sent
  left_eq : w.conn.inbox = left

variable {E : Externals} {env : Draws} {s : Server KeyedDisk} {m : Message}

theorem turnWith_eq (h : m.code = clientCodeRegister ∨
    s.database.clientExistsById m.clientId = true) :
    System.turnWith E env s m.encode =
      (run (machine E env .whole) (dispatch E m.request m.payload) ⟨s, payloadRead m⟩).2 := by
  have hpass : m.request.code = clientCodeRegister ∨
      s.database.clientExistsById m.request.clientId = true := h
  rw [turnWith_encode, handled, run_handleRequest E env .whole hpass]

section Keys

variable {name : Str}

theorem turned_register_undecodable (hcode : m.code = clientCodeRegister) (htail : m.tail = [])
    (h : decodeUtf8 m.payload = none) :
    Turned (System.turnWith E env s m.encode) s [] [] := by
  have hkind : kindOf m.request.code = .register := kindOf_eq_register.mpr hcode
  rw [turnWith_eq (.inl hcode), dispatch_eq, hkind]
  simp only
  rw [run_handleClientRegistration_undecodable E env .whole h]
  exact ⟨rfl, rfl, htail⟩

theorem turned_register_taken (hcode : m.code = clientCodeRegister) (htail : m.tail = [])
    (h : decodeUtf8 m.payload = some name)
    (htaken : s.database.clientExistsByName (stripNul name) = true) :
    Turned (System.turnWith E env s m.encode) s refused [] := by
  have hkind : kindOf m.request.code = .register := kindOf_eq_register.mpr hcode
  rw [turnWith_eq (.inl hcode), dispatch_eq, hkind]
  simp only
  rw [run_handleClientRegistration_taken E env .whole h htaken]
  exact ⟨rfl, List.append_nil _, htail⟩

theorem turned_register (hcode : m.code = clientCodeRegister) (htail : m.tail = [])
    (h : decodeUtf8 m.payload = some name)
    (hfree : s.database.clientExistsByName (stripNul name) = false) :
    Turned (System.turnWith E env s m.encode) (register env.now env.uuid (stripNul name) s)
      (responseHead serverCodeRegistrationOk 0 env.uuid) [] := by
  have hkind : kindOf m.request.code = .register := kindOf_eq_register.mpr hcode
  rw [turnWith_eq (.inl hcode), dispatch_eq, hkind]
  simp only
  rw [run_handleClientRegistration E env .whole h hfree]
  exact ⟨rfl, List.append_nil _, htail⟩

theorem keyRequest_append {clientName publicKey : Bytes} (hname : clientName.length = 255)
    (hkey : publicKey.length = 160) (h : decodeUtf8 clientName = some name) :
    keyRequest (clientName ++ publicKey) = some (stripNul name, publicKey) := by
  refine keyRequest_eq_some.mpr ⟨clientName, name, ?_, h, rfl⟩
  refine (unpack_append (f := .bytes 255) hname [.bytes 160] publicKey).trans ?_
  simp [unpack, Field.size, Field.read, hkey, List.take_of_length_le, List.drop_of_length_le]

theorem turned_key {publicKey cipher : Bytes} (hcode : m.code = clientCodeSendPublicKey)
    (htail : m.tail = []) (hknown : s.database.clientExistsById m.clientId = true)
    (h : keyRequest m.payload = some (name, publicKey)) (himport : E.importKey publicKey = true)
    (hcipher : E.oaepEncrypt env.seed publicKey (env.random aesKeySize) = some cipher)
    (hsize : cipher.length < 4294967296) :
    Turned (System.turnWith E env s m.encode)
      (setKeys env.now name publicKey (env.random aesKeySize) s)
      (responseHead serverCodeSwitchingKeys cipher.length m.clientId ++ cipher) [] := by
  have hkind : kindOf m.request.code = .sendPublicKey := kindOf_eq_sendPublicKey.mpr hcode
  have hid : m.request.clientId.length = 16 := m.clientId_length
  rw [turnWith_eq (.inr hknown), dispatch_eq, hkind]
  simp only
  rw [run_sendAesKeyToClient E env .whole h hid himport hcipher hsize]
  exact ⟨rfl, List.append_nil _, htail⟩

end Keys

section Names

variable {filename : Str} (hknown : s.database.clientExistsById m.clientId = true)
  (hfield : m.tail.length = 255)

include hfield in
theorem recv_nameField : (payloadRead m).recv .whole 255 =
    (m.tail, ⟨[], 3, [m.header, m.payload, m.tail], []⟩) := by
  have htake : m.tail.take 255 = m.tail := List.take_of_length_le hfield.le
  have hdrop : m.tail.drop 255 = [] := List.drop_of_length_le hfield.le
  rw [recv_whole]
  simp only [payloadRead, htake, hdrop]
  rfl

include hknown hfield

theorem turned_cksumErr (hcode : m.code = clientCodeCksumErr) :
    Turned (System.turnWith E env s m.encode) s [] [] := by
  have hkind : kindOf m.request.code = .cksumErr := congrArg kindOf hcode
  rw [turnWith_eq (.inr hknown), dispatch_eq, hkind]
  simp only [run_handleCksumErr, recv_nameField hfield]
  exact ⟨rfl, rfl, rfl⟩

theorem turned_cksumOk_undecodable (hcode : m.code = clientCodeCksumOk)
    (h : filenameOf E m.tail = none) : Turned (System.turnWith E env s m.encode) s [] [] := by
  have hkind : kindOf m.request.code = .cksumOk := congrArg kindOf hcode
  have hname : filenameOf E ((payloadRead m).recv .whole 255).1 = none := by
    rw [recv_nameField hfield, h]
  rw [turnWith_eq (.inr hknown), dispatch_eq, hkind]
  simp only
  rw [run_handleCksumOk_undecodable E env .whole (w := ⟨s, payloadRead m⟩) hname,
    recv_nameField hfield]
  exact ⟨rfl, rfl, rfl⟩

theorem turned_cksumOk (hcode : m.code = clientCodeCksumOk)
    (h : filenameOf E m.tail = some filename) :
    Turned (System.turnWith E env s m.encode) (confirm env.now m.clientId filename s)
      (acknowledged m.clientId) [] := by
  have hkind : kindOf m.request.code = .cksumOk := congrArg kindOf hcode
  have hname : filenameOf E ((payloadRead m).recv .whole 255).1 = some filename := by
    rw [recv_nameField hfield, h]
  rw [turnWith_eq (.inr hknown), dispatch_eq, hkind]
  simp only
  rw [run_handleCksumOk E env .whole (w := ⟨s, payloadRead m⟩) hname,
    recv_nameField hfield]
  exact ⟨rfl, List.append_nil _, rfl⟩

theorem turned_cksumErrFinal_undecodable (hcode : m.code = clientCodeCksumErrFinal)
    (h : filenameOf E m.tail = none) : Turned (System.turnWith E env s m.encode) s [] [] := by
  have hkind : kindOf m.request.code = .cksumErrFinal := congrArg kindOf hcode
  have hname : filenameOf E ((payloadRead m).recv .whole 255).1 = none := by
    rw [recv_nameField hfield, h]
  rw [turnWith_eq (.inr hknown), dispatch_eq, hkind]
  simp only
  rw [run_handleCksumErrFinal_undecodable E env .whole (w := ⟨s, payloadRead m⟩) hname,
    recv_nameField hfield]
  exact ⟨rfl, rfl, rfl⟩

theorem turned_cksumErrFinal (hs : Consistent s) (hcode : m.code = clientCodeCksumErrFinal)
    (h : filenameOf E m.tail = some filename) :
    Turned (System.turnWith E env s m.encode) (eraseFile env.now m.clientId filename s)
      (acknowledged m.clientId) [] := by
  have hkind : kindOf m.request.code = .cksumErrFinal := congrArg kindOf hcode
  have hname : filenameOf E ((payloadRead m).recv .whole 255).1 = some filename := by
    rw [recv_nameField hfield, h]
  rw [turnWith_eq (.inr hknown), dispatch_eq, hkind]
  simp only
  rw [run_handleCksumErrFinal E env .whole (w := ⟨s, payloadRead m⟩) hs hname,
    recv_nameField hfield]
  exact ⟨rfl, List.append_nil _, rfl⟩

end Names

section Uploads

variable {owner field content data : Bytes} {filename : Str}
  (hcode : m.code = clientCodeSendFile)
  (htail : m.tail = owner ++ (leBytes 4 content.length ++ (field ++ content)))
  (howner : owner.length = 16) (hfield : field.length = 255)

include htail howner hfield in
theorem recv_fileHeader : (payloadRead m).recv .whole 275 =
    (owner ++ (leBytes 4 content.length ++ field),
      ⟨content, 3, [m.header, m.payload, owner ++ (leBytes 4 content.length ++ field)], []⟩) := by
  have hparts : m.tail = (owner ++ (leBytes 4 content.length ++ field)) ++ content := by
    simp [htail]
  have hlen : (owner ++ (leBytes 4 content.length ++ field)).length = 275 := by
    simp [howner, hfield]
  rw [recv_whole]
  simp only [payloadRead, hparts, List.take_left' hlen, List.drop_left' hlen]
  rfl

theorem recv_content (received : List Bytes) :
    (⟨content, 3, received, []⟩ : Conn).recv .whole content.length =
      (content, ⟨[], 4, received ++ [content], []⟩) := by
  rw [recv_whole, List.take_length, List.drop_length]

variable (hcontent : content.length < 4294967296)
  (hknown : s.database.clientExistsById m.clientId = true)
include hcode htail howner hfield hcontent hknown

theorem turned_upload_undecodable (h : filenameOf E field = none) :
    Turned (System.turnWith E env s m.encode) s [] content := by
  have hkind : kindOf m.request.code = .sendFile := congrArg kindOf hcode
  have hrecv := recv_fileHeader htail howner hfield
  have hheader : uploadHeader E ((payloadRead m).recv .whole 275).1 = none := by
    rw [hrecv, uploadHeader_append E howner hfield hcontent, h, Option.map_none]
  rw [turnWith_eq (.inr hknown), dispatch_eq, hkind]
  simp only
  rw [run_handleFileRequest_malformed E env .whole hheader, hrecv]
  exact ⟨rfl, rfl, rfl⟩

theorem turnWith_upload (h : filenameOf E field = some filename) :
    ∃ received, System.turnWith E env s m.encode =
      (run (machine E env .whole) (processFileContent E m.request filename content)
        ⟨s, ⟨[], 4, received, []⟩⟩).2 := by
  have hkind : kindOf m.request.code = .sendFile := congrArg kindOf hcode
  have hrecv := recv_fileHeader htail howner hfield
  have hheader : uploadHeader E ((payloadRead m).recv .whole 275).1 =
      some (content.length, filename) := by
    rw [hrecv, uploadHeader_append E howner hfield hcontent, h, Option.map_some]
  refine ⟨[m.header, m.payload, owner ++ (leBytes 4 content.length ++ field)] ++ [content], ?_⟩
  rw [turnWith_eq (.inr hknown), dispatch_eq, hkind]
  simp only
  rw [run_handleFileRequest E env .whole hheader, hrecv]
  simp only [recv_content]

theorem turned_upload_unreadable (h : filenameOf E field = some filename)
    (hdata : contentOf E s.database m.clientId content = none) :
    Turned (System.turnWith E env s m.encode) s [] [] := by
  obtain ⟨received, hturn⟩ := turnWith_upload hcode htail howner hfield hcontent hknown h
  rw [hturn, run_processFileContent_unreadable E env .whole hdata]
  exact ⟨rfl, rfl, rfl⟩

theorem turned_upload_nul (hs : Consistent s) (h : filenameOf E field = some filename)
    (hdata : contentOf E s.database m.clientId content = some data) (hn : nul ∈ filename) :
    Turned (System.turnWith E env s m.encode) (addDirs m.clientId s) [] [] := by
  obtain ⟨received, hturn⟩ := turnWith_upload hcode htail howner hfield hcontent hknown h
  rw [hturn, run_processFileContent_nul E env .whole hs hdata hn]
  exact ⟨rfl, rfl, rfl⟩

theorem turned_upload (hs : Consistent s) (h : filenameOf E field = some filename)
    (hdata : contentOf E s.database m.clientId content = some data) (hn : nul ∉ filename)
    {cksum : UInt32} (hcksum : Cksum.Server.cksumCalc data = some cksum.toNat) :
    Turned (System.turnWith E env s m.encode) (store env.now m.clientId filename data s)
      (if data.length < 4294967296 then reported m.clientId filename data.length cksum.toNat
        else []) [] := by
  have hid : m.request.clientId.length = 16 := m.clientId_length
  obtain ⟨received, hturn⟩ := turnWith_upload hcode htail howner hfield hcontent hknown h
  rw [hturn, run_processFileContent_stored E env .whole hs hknown hdata hn hcksum]
  split_ifs with hsize
  · have hsum : cksum.toNat < 4294967296 := cksum.toNat_lt
    rw [run_sendCksum E env .whole _ hid filename hsize hsum]
    refine ⟨rfl, ?_, rfl⟩
    simp [Conn.push, reported, Message.request]
  · rw [run_sendCksum_oversize E env .whole _ _ filename (not_lt.mp hsize)]
    exact ⟨rfl, rfl, rfl⟩

end Uploads

end EncryptedTransfer.ServerTurns
