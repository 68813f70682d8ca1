import EncryptedTransfer.ClientReactions
import EncryptedTransfer.FileNames
import EncryptedTransfer.ServerTurns

/-!
# The name a report gives back

The server pads the name of a stored file to 255 characters and packs its encoding into 255
bytes; the client answers with the bytes as they came, and the server reads a name from them.
-/
namespace EncryptedTransfer.EchoedNames
open ServerStores hiding Client Client.new
open ByteFormats Text FileLedger ServerCalls ServerHandlers ServerConsistency ServerEffects
open ServerRuns CryptoLaws ServerSession StreamFraming ClientProcess Network ClientMessages
open FileNames ServerTurns

/-- `str.lower`: a text is in lower case when its characters are. -/
def LowersCharacters (E : Externals) : Prop :=
  ∀ s : Str, E.lower s = s ↔ ∀ c ∈ s, E.lower [c] = [c]

/-- The file's name in the response to an upload, after the header, the client id and the size. -/
def nameField (sent : Bytes) : Bytes := (sent.drop 27).take 255

/-- The client reads a response and answers it with one request of this code. -/
structure Answers (E : Externals) (c : Client) (code : ℕ) (request : Bytes) : Prop where
  code_eq : (receiveResponseFromServer E c).requestCodes = c.requestCodes ++ [code]
  request_eq : (receiveResponseFromServer E c).outbox = c.outbox ++ [request]

/-- What the client answers a report with acts on the file that was stored under this name. -/
structure Echoed (E : Externals) (w : World KeyedDisk) (clientId : Bytes) (filename : Str) :
    Prop where
  decoded : filenameOf E (nameField w.conn.sent.flatten) = some filename
  confirmed : ∀ (c : Client) (request : Bytes), c.clientIdBytes = clientId →
    c.inbox = w.conn.sent.flatten → Answers E c clientCodeCksumOk request →
      request.drop 23 = nameField w.conn.sent.flatten ∧ ∀ env,
        entry (System.turnWith E env w.server request).server =
          (entry w.server).apply (.confirm (clientId, filename))
  discarded : ∀ (c : Client) (request : Bytes), c.clientIdBytes = clientId →
    c.inbox = w.conn.sent.flatten → Answers E c clientCodeCksumErrFinal request →
      request.drop 23 = nameField w.conn.sent.flatten ∧ ∀ env,
        entry (System.turnWith E env w.server request).server =
          (entry w.server).apply (.discard (clientId, filename))

/-- The encoding of a text begins with that of another only where the text does. -/
theorem prefix_of_encodeUtf8 {s t : Str} (h : encodeUtf8 t <+: encodeUtf8 s) : t <+: s := by
  induction t generalizing s with
  | nil => exact List.nil_prefix
  | cons c t ih =>
    obtain ⟨rest, hrest⟩ := h
    cases s with
    | nil =>
      have hlen := congrArg List.length hrest
      have hpos := c.utf8Size_pos
      simp only [encodeUtf8_cons, List.length_append, String.length_utf8EncodeChar,
        encodeUtf8_nil, List.length_nil] at hlen
      omega
    | cons d s =>
      rw [encodeUtf8_cons, encodeUtf8_cons, List.append_assoc] at hrest
      have hfirst (x : Char) (bytes : Bytes) :
          (String.utf8EncodeChar x ++ bytes).toByteArray.utf8DecodeChar? 0 = some x := by
        rw [List.toByteArray_append]
        exact ByteArray.utf8DecodeChar?_utf8EncodeChar_append
      have hcd : c = d := by
        have hsame := hfirst c (encodeUtf8 t ++ rest)
        rw [hrest, hfirst d] at hsame
        exact (Option.some.inj hsame).symm
      subst hcd
      exact List.cons_prefix_cons.mpr ⟨rfl, ih ⟨rest, List.append_cancel_left hrest⟩⟩

theorem reportField_long {filename : Str} (h : 255 ≤ (encodeUtf8 filename).length) :
    reportField filename = (encodeUtf8 filename).take 255 := by
  rw [reportField, padNul, encodeUtf8_append, List.take_append_of_le_length h]

theorem filenameOf_reportField_iff {E : Externals} (hlowers : LowersCharacters E) {filename : Str}
    (hlower : E.lower filename = filename) (hnul : nul ∉ filename) :
    filenameOf E (reportField filename) = some filename ↔ (encodeUtf8 filename).length ≤ 255 := by
  constructor
  · intro hread
    by_contra hlong
    obtain ⟨name, hdecoded, hname⟩ := Option.map_eq_some_iff.mp hread
    rw [reportField_long (by omega)] at hdecoded
    have hencode := decodeUtf8_eq_some.mp hdecoded
    have hinitial : name <+: filename := prefix_of_encodeUtf8 (hencode ▸ List.take_prefix _ _)
    have hno : nul ∉ name := fun hmem => hnul (hinitial.subset hmem)
    have hkept : E.lower name = name :=
      (hlowers name).mpr fun c hc => (hlowers filename).mp hlower c (hinitial.subset hc)
    rw [stripNul_of_notMem hno, hkept] at hname
    subst hname
    have hlen := congrArg List.length hencode
    rw [List.length_take] at hlen
    omega
  · intro hfits
    rw [reportField_eq hfits, filenameOf_padField E hnul, hlower]

theorem nameField_reported {clientId : Bytes} (hid : clientId.length = 16) (filename : Str)
    (size cksum : ℕ) : nameField (reported clientId filename size cksum) = reportField filename := by
  have hparts : reported clientId filename size cksum =
      (responseHead serverCodeCksumReady 0 clientId ++ leBytes 4 size) ++
        (reportField filename ++ leBytes 4 cksum) := by
    simp [reported, cksumReport, reportField]
  have hlen : (responseHead serverCodeCksumReady 0 clientId ++ leBytes 4 size).length = 27 := by
    simp [responseHead, hid]
  rw [nameField, hparts, List.drop_left' hlen, List.take_left' (length_reportField filename)]

section Answers

variable {E : Externals} {c : Client} {filename : Str} {size cksum code : ℕ} {request : Bytes}
  (hid : c.clientIdBytes.length = 16)
include hid

theorem answers_reported (hcksum : cksum < 4294967296)
    (hin : c.inbox = reported c.clientIdBytes filename size cksum)
    (hnames : NamesFile code) (h : Answers E c code request) :
    request = (nameMessage c.clientIdBytes code (reportField filename) hid hnames
      (length_reportField filename)).encode := by
  have hcodes := h.code_eq
  have hrequest := h.request_eq
  have hfield := length_reportField filename
  rw [receiveResponseFromServer_reported hid hcksum hin] at hcodes hrequest
  simp only at hcodes hrequest
  split_ifs at hcodes hrequest
  · rw [sendRequestToServer_name hid (.inl rfl) hfield] at hcodes hrequest
    obtain rfl := List.singleton_inj.mp (List.append_cancel_left hcodes)
    exact (List.singleton_inj.mp (List.append_cancel_left hrequest)).symm
  · rw [ClientReactions.reSendFileToServer_codes,
      sendRequestToServer_name hid (.inr (.inl rfl)) hfield] at hcodes
    have hlen := congrArg List.length hcodes
    simp only [post, List.length_append, List.length_singleton] at hlen
    omega
  · rw [sendRequestToServer_name hid (.inr (.inr rfl)) hfield] at hcodes hrequest
    obtain rfl := List.singleton_inj.mp (List.append_cancel_left hcodes)
    exact (List.singleton_inj.mp (List.append_cancel_left hrequest)).symm

end Answers

theorem drop_nameMessage {clientId field : Bytes} {code : ℕ} (hid : clientId.length = 16)
    (hcode : NamesFile code) (hfield : field.length = 255) :
    (nameMessage clientId code field hid hcode hfield).encode.drop 23 = field := by
  rw [Message.encode, List.drop_left' (Message.header_length _)]
  rfl

section Upload

variable {E : Externals} {s : Server KeyedDisk} {acts : List (Act (Bytes × Str) Bytes)}
  {clientId owner field content data : Bytes} {filename : Str}

theorem upload_reported (hs : Consistent s) (env : Draws) (hid : clientId.length = 16)
    (howner : owner.length = 16) (hfield : field.length = 255)
    (hcontent : content.length < 4294967296)
    (hknown : s.database.clientExistsById clientId = true)
    (hname : filenameOf E field = some filename) (hnul : nul ∉ filename)
    (hdata : contentOf E s.database clientId content = some data)
    (hsize : data.length < 4294967296) :
    ∃ cksum, cksum < 4294967296 ∧ Turned (System.turnWith E env s
      (uploadMessage clientId owner field content hid howner hfield hcontent).encode)
        (store env.now clientId filename data s) (reported clientId filename data.length cksum)
          [] := by
  obtain ⟨cksum, hcksum⟩ := Cksum.cksumCalc_isSome data
  refine ⟨cksum.toNat, cksum.toNat_lt, ?_⟩
  have hturned := @turned_upload E env s
    (uploadMessage clientId owner field content hid howner hfield hcontent) owner field content data
    filename rfl rfl howner hfield hcontent hknown hs hname hdata hnul cksum hcksum
  rwa [if_pos hsize] at hturned

/-- The server reads a file's own name from its report, and a request with that name acts on the
file. -/
theorem echoed_of_decoded {w : World KeyedDisk} {size cksum : ℕ} (hw : Consistent w.server)
    (hid : clientId.length = 16) (hknown : w.server.database.clientExistsById clientId = true)
    (hcksum : cksum < 4294967296)
    (hsent : w.conn.sent.flatten = reported clientId filename size cksum)
    (hread : filenameOf E (reportField filename) = some filename) :
    Echoed E w clientId filename := by
  have hfield : nameField w.conn.sent.flatten = reportField filename := by
    rw [hsent, nameField_reported hid]
  refine ⟨by rw [hfield, hread], ?_, ?_⟩
  · rintro c request rfl hin hanswer
    obtain rfl := answers_reported hid hcksum (hin.trans hsent) (.inl rfl) hanswer
    refine ⟨(drop_nameMessage hid _ _).trans hfield.symm, ?_⟩
    intro env
    rw [(turned_cksumOk (m := nameMessage c.clientIdBytes clientCodeCksumOk (reportField filename)
      hid (.inl rfl) (length_reportField filename)) hknown (length_reportField filename) rfl
      hread).server_eq]
    exact hw.sound.entry_confirm _ _ _
  · rintro c request rfl hin hanswer
    obtain rfl := answers_reported hid hcksum (hin.trans hsent) (.inr (.inr rfl)) hanswer
    refine ⟨(drop_nameMessage hid _ _).trans hfield.symm, ?_⟩
    intro env
    rw [(turned_cksumErrFinal (m := nameMessage c.clientIdBytes clientCodeCksumErrFinal
      (reportField filename) hid (.inr (.inr rfl)) (length_reportField filename)) hknown
      (length_reportField filename) hw rfl hread).server_eq]
    exact hw.sound.entry_eraseFile _ _ _

/-- The name in the response to an upload leads back to the file exactly where its encoding fits
in the field. -/
theorem echoed_iff (hlowers : LowersCharacters E) (hagain : ∀ t, E.lower (E.lower t) = E.lower t)
    (hrun : Run E s acts) (env : Draws) (hid : clientId.length = 16) (howner : owner.length = 16)
    (hfield : field.length = 255) (hcontent : content.length < 4294967296)
    (hknown : s.database.clientExistsById clientId = true)
    (hname : filenameOf E field = some filename) (hnul : nul ∉ filename)
    (hdata : contentOf E s.database clientId content = some data)
    (hsize : data.length < 4294967296) :
    let w := System.turnWith E env s
      (uploadMessage clientId owner field content hid howner hfield hcontent).encode
    entry w.server (clientId, filename) = some (data, false) ∧
      (Echoed E w clientId filename ↔ (encodeUtf8 filename).length ≤ 255) := by
  have hs := hrun.invariant.1
  obtain ⟨cksum, hcksum, hturned⟩ := upload_reported hs env hid howner hfield hcontent hknown hname
    hnul hdata hsize
  have hstored : Consistent (store env.now clientId filename data s) :=
    hs.after_store _ _ hknown hnul
  have hlower : E.lower filename = filename := by
    obtain ⟨name, -, rfl⟩ := Option.map_eq_some_iff.mp hname
    exact hagain _
  have hiff := filenameOf_reportField_iff hlowers hlower hnul
  refine ⟨?_, ?_, ?_⟩
  · rw [hturned.server_eq, hs.sound.entry_store, Ledger.apply, Function.update_self]
  · intro hechoed
    have hdecoded := hechoed.decoded
    rw [hturned.sent_eq, nameField_reported hid] at hdecoded
    exact hiff.mp hdecoded
  · intro hfits
    refine echoed_of_decoded ?_ hid ?_ hcksum hturned.sent_eq (hiff.mpr hfits)
    · rw [hturned.server_eq]
      exact hstored
    · rw [hturned.server_eq, (retouched_store _ _ _ _ _).exists_eq, hknown]

end Upload

section Growing

theorem lowersCharacters_map (lower : Char → Char) :
    LowersCharacters { plainCiphers with lower := fun s => s.map lower } := by
  intro s
  have hmap := @List.map_inj_left _ _ s lower id
  simpa using hmap

theorem echoed_iff_short :
    let w := System.turnWith plainCiphers (constantDraws 3) keyedServer
      (uploadMessage (List.replicate 16 1) (List.replicate 16 1) (padField 255 ['f'])
        (pkcs7Pad [7]) List.length_replicate List.length_replicate (length_padField (by decide))
        (by decide)).encode
    entry w.server (List.replicate 16 1, ['f']) = some ([7], false) ∧
      (Echoed plainCiphers w (List.replicate 16 1) ['f'] ↔ (encodeUtf8 ['f']).length ≤ 255) :=
  echoed_iff (lowersCharacters_map Char.toLower) lowerLaws_plainCiphers.idempotent
    (run_keyedServer plainCiphers) (constantDraws 3) List.length_replicate List.length_replicate
    (length_padField (by decide)) (by decide) knows_keyedServer
    (filenameOf_padField plainCiphers (by decide) 255) (by decide)
    (contentOf_keyedServer plainCiphers.lower [7]) (by decide)

def lowerStroke (c : Char) : Char := if c = 'Ⱥ' then 'ⱥ' else c.toLower

def growing : Externals := { plainCiphers with lower := fun s => s.map lowerStroke }

theorem encodeUtf8_replicate_length (n : ℕ) (c : Char) :
    (encodeUtf8 (List.replicate n c)).length = n * c.utf8Size := by
  simp [encodeUtf8, List.length_flatMap]

theorem grown_name : filenameOf growing (padField 255 (List.replicate 127 'Ⱥ')) =
    some (List.replicate 127 'ⱥ') := by
  have hnul : nul ∉ List.replicate 127 'Ⱥ' := by
    rw [List.mem_replicate]
    decide
  rw [filenameOf_padField growing hnul]
  simp [growing, lowerStroke]

theorem echoed_grown : filenameOf growing (reportField (List.replicate 127 'ⱥ')) =
    some (List.replicate 85 'ⱥ') := by
  have hparts : List.replicate 127 'ⱥ' = List.replicate 85 'ⱥ' ++ List.replicate 42 'ⱥ' := by
    rw [List.replicate_append_replicate]
  have hsize : ('ⱥ').utf8Size = 3 := by decide
  have hlong : 255 ≤ (encodeUtf8 (List.replicate 127 'ⱥ')).length := by
    rw [encodeUtf8_replicate_length, hsize]
    omega
  have hcut : (encodeUtf8 (List.replicate 85 'ⱥ')).length = 255 := by
    rw [encodeUtf8_replicate_length, hsize]
  have hnul : nul ∉ List.replicate 85 'ⱥ' := by
    rw [List.mem_replicate]
    decide
  rw [reportField_long hlong, hparts, encodeUtf8_append, List.take_left' hcut, filenameOf,
    decodeUtf8_encodeUtf8, Option.map_some, stripNul_of_notMem hnul]
  simp [growing, lowerStroke]

/-- The file of 127 letters is stored, and what is sent back is the name of no file. -/
theorem echo_lost :
    let w := System.turnWith growing (constantDraws 3) keyedServer
      (uploadMessage (List.replicate 16 1) (List.replicate 16 1)
        (padField 255 (List.replicate 127 'Ⱥ')) (pkcs7Pad [7]) List.length_replicate
        List.length_replicate (length_padField (by rw [encodeUtf8_replicate_length]; decide))
        (by decide)).encode
    entry w.server (List.replicate 16 1, List.replicate 127 'ⱥ') = some ([7], false) ∧
      filenameOf growing (nameField w.conn.sent.flatten) = some (List.replicate 85 'ⱥ') ∧
      ¬ Echoed growing w (List.replicate 16 1) (List.replicate 127 'ⱥ') := by
  have hs := (run_keyedServer growing).invariant.1
  have hid : (List.replicate 16 (1 : UInt8)).length = 16 := List.length_replicate
  have hnul : nul ∉ List.replicate 127 'ⱥ' := by
    rw [List.mem_replicate]
    decide
  intro w
  obtain ⟨cksum, -, hturned⟩ : ∃ cksum, cksum < 4294967296 ∧ Turned w
      (store (constantDraws 3).now (List.replicate 16 1) (List.replicate 127 'ⱥ') [7] keyedServer)
      (reported (List.replicate 16 1) (List.replicate 127 'ⱥ') ([7] : Bytes).length cksum) [] :=
    upload_reported hs (constantDraws 3) hid hid _ _ knows_keyedServer grown_name hnul
      (contentOf_keyedServer growing.lower [7]) (by decide)
  have hread : filenameOf growing (nameField w.conn.sent.flatten) =
      some (List.replicate 85 'ⱥ') := by
    rw [hturned.sent_eq, nameField_reported hid, echoed_grown]
  refine ⟨?_, hread, ?_⟩
  · rw [hturned.server_eq, hs.sound.entry_store, Ledger.apply, Function.update_self]
  · intro hechoed
    have hnames := Option.some.inj (hechoed.decoded.symm.trans hread)
    have hlen := congrArg List.length hnames
    rw [List.length_replicate, List.length_replicate] at hlen
    omega

end Growing

end EncryptedTransfer.EchoedNames
