import EncryptedTransfer.FirstTransfer

/-!
# What an upload comes to

The client's dialogue about one file, from `sendFileToServer` to its return: the stages it
goes through, with what the server keeps in each, while other clients make requests of
their own.
-/
namespace EncryptedTransfer.UploadOutcome
open ServerStores hiding Client Client.new
open ByteFormats Text ServerCalls ServerHandlers ServerConsistency ServerEffects ServerRuns
open ServerSession StreamFraming FileLedger CryptoLaws ClientProcess Network ClientMessages
open ServerTurns ClientRoster KeyAgreement FileNames FirstTransfer

/-- A request changes only files of the id it is made under, and a registration none. -/
theorem entry_turnWith {E : Externals} {env : Draws} {s : Server KeyedDisk} (hs : Consistent s)
    (hfresh : s.database.clientExistsById env.uuid = false) (m : Message) {k : Bytes × Str}
    (hk : m.code = clientCodeRegister ∨ k.1 ≠ m.clientId) :
    entry (System.turnWith E env s m.encode).server k = entry s k := by
  have hfollows : Follows s (actOf E .whole s.database m.request (payloadRead m))
      (handled E env .whole m.request m.payload ⟨s, payloadRead m⟩).server :=
    handled_follows (w := ⟨s, payloadRead m⟩) hs fun _ => hfresh
  rw [turnWith_encode, hfollows.2]
  have hkey : ∀ act, actOf E .whole s.database m.request (payloadRead m) = some act →
      ∃ f, (∃ c, act = .accept (m.clientId, f) c) ∨ act = .confirm (m.clientId, f) ∨
        act = .discard (m.clientId, f) := by
    intro act hact
    unfold actOf at hact
    split_ifs at hact
    cases hkind : kindOf m.request.code <;> simp only [hkind, reduceCtorEq] at hact
    · obtain ⟨header, -, hact⟩ := Option.bind_eq_some_iff.mp hact
      split_ifs at hact
      obtain ⟨content, -, rfl⟩ := Option.map_eq_some_iff.mp hact
      exact ⟨header.2, .inl ⟨content, rfl⟩⟩
    · obtain ⟨f, -, rfl⟩ := Option.map_eq_some_iff.mp hact
      exact ⟨f, .inr (.inl rfl)⟩
    · obtain ⟨f, -, rfl⟩ := Option.map_eq_some_iff.mp hact
      exact ⟨f, .inr (.inr rfl)⟩
  cases hact : actOf E .whole s.database m.request (payloadRead m) with
  | none => rfl
  | some act =>
    have hne : ∀ f, k ≠ (m.clientId, f) := by
      rintro f rfl
      rcases hk with hregister | hne
      · have hkind : kindOf m.request.code = .register := kindOf_eq_register.mpr hregister
        simp [actOf, hkind] at hact
      · exact hne rfl
    obtain ⟨f, ⟨content, rfl⟩ | rfl | rfl⟩ := hkey act hact
    · exact Function.update_of_ne (hne f) _ _
    · exact Function.update_of_ne (hne f) _ _
    · exact Function.update_of_ne (hne f) _ _

theorem request_of_agrees {E : Externals} {db : Database} {c : Client} (h : Agrees E db c)
    {request : Bytes} {rest : List Bytes} (hout : c.outbox = request :: rest) :
    ∃ m : Message, request = m.encode ∧
      (m.code = clientCodeRegister ∨ c.clientIdHex ≠ [] ∧ m.clientId = c.clientIdBytes) := by
  have hnil (hnil : c.outbox = []) : False := by
    rw [hout] at hnil
    cases hnil
  have hhead {m : Message} (hm : c.outbox = [m.encode]) : request = m.encode := by
    rw [hm] at hout
    exact (List.cons.inj hout).1.symm
  cases h.phase with
  | idle _ hno => exact (hnil hno).elim
  | registering _ _ hlen hm => exact ⟨_, hhead hm, .inl rfl⟩
  | registered _ _ _ hno => exact (hnil hno).elim
  | keyAsked _ hattached hpair _ hid hlen hm => exact ⟨_, hhead hm, .inr ⟨hattached, rfl⟩⟩
  | keyAnswered _ _ hno => exact (hnil hno).elim
  | exchanging _ _ hattached hex _ =>
    rw [hout] at hex
    have hupload (hdata : IsUpload c.clientIdBytes request) : ∃ m : Message,
        request = m.encode ∧ m.clientId = c.clientIdBytes := by
      obtain ⟨owner, field, content, hid, howner, hfield, hcontent, rfl⟩ := hdata
      exact ⟨_, rfl, rfl⟩
    have hnamed {code : ℕ} (hdata : IsNamed c.clientIdBytes code request) : ∃ m : Message,
        request = m.encode ∧ m.clientId = c.clientIdBytes := by
      obtain ⟨field, hid, hcode, hfield, rfl⟩ := hdata
      exact ⟨_, rfl, rfl⟩
    cases hex with
    | upload hdata =>
      obtain ⟨m, hm, hid⟩ := hupload hdata
      exact ⟨m, hm, .inr ⟨hattached, hid⟩⟩
    | named hdata =>
      obtain ⟨m, hm, hid⟩ := hnamed hdata
      exact ⟨m, hm, .inr ⟨hattached, hid⟩⟩
    | again hdata =>
      obtain ⟨m, hm, hid⟩ := hnamed hdata
      exact ⟨m, hm, .inr ⟨hattached, hid⟩⟩
  | reported _ _ _ hno => exact (hnil hno).elim
  | told _ _ hno => exact (hnil hno).elim

/-- A file's transfer: whose it is, under which key, from which path and under which name. -/
structure Transfer where
  clientId : Bytes
  aesKey : Bytes
  path : Bytes
  filename : Str

section Stages

variable (E : Externals) (t : Transfer)

def IsUploadOf (data : Bytes) : Prop :=
  ∃ owner field content hid howner hfield hcontent, filenameOf E field = some t.filename ∧
    data = (uploadMessage t.clientId owner field content hid howner hfield hcontent).encode

def IsNamedOf (code : ℕ) (data : Bytes) : Prop :=
  ∃ field hid hcode hfield, filenameOf E field = some t.filename ∧
    data = (nameMessage t.clientId code field hid hcode hfield).encode

/-- The last upload is what the server keeps. -/
def Keeps (kept : Option (Bytes × Bool)) (last : Option Bytes) (verified : Bool) : Prop :=
  ∃ encrypted content, last = some encrypted ∧
    (E.aesDecrypt t.aesKey encrypted).bind E.unpad = some content ∧ kept = some (content, verified)

/-- The acknowledgement is on its way, or the call has returned. -/
def Ending (c : Client) : Prop :=
  (c.awaiting = true ∧ c.outbox = [] ∧ c.inbox = acknowledged t.clientId) ∨ c.awaiting = false

/-- The client's stages, with what the server keeps of the file and its last upload. -/
inductive Stage (c : Client) (kept : Option (Bytes × Bool)) (last : Option Bytes) : Prop
  | uploading (hawait : c.awaiting = true)
      (hcode : c.requestCodes.getLast? = some clientCodeSendFile) {data : Bytes}
      (hdata : IsUploadOf E t data) (hin : c.inbox = [])
      (hout : c.outbox = [data] ∨
        ∃ complaint, IsNamedOf E t clientCodeCksumErr complaint ∧ c.outbox = [complaint, data])
  | reported (hawait : c.awaiting = true)
      (hcode : c.requestCodes.getLast? = some clientCodeSendFile) (hout : c.outbox = [])
      {size cksum : ℕ} (hcksum : cksum < 4294967296)
      (hin : c.inbox = reported t.clientId t.filename size cksum)
      (hkeeps : Keeps E t kept last false)
  | confirming (hawait : c.awaiting = true)
      (hcode : c.requestCodes.getLast? = some clientCodeCksumOk) {data : Bytes}
      (hdata : IsNamedOf E t clientCodeCksumOk data) (hout : c.outbox = [data]) (hin : c.inbox = [])
      (hkeeps : Keeps E t kept last false)
  | givingUp (hawait : c.awaiting = true)
      (hcode : c.requestCodes.getLast? = some clientCodeCksumErrFinal) {data : Bytes}
      (hdata : IsNamedOf E t clientCodeCksumErrFinal data) (hout : c.outbox = [data])
      (hin : c.inbox = [])
  | confirmed (hcode : c.requestCodes.getLast? = some clientCodeCksumOk) (hend : Ending t c)
      (hkeeps : Keeps E t kept last true)
  | givenUp (hcode : c.requestCodes.getLast? = some clientCodeCksumErrFinal) (hend : Ending t c)
      (hgone : kept = none)
  | stuck (hawait : c.awaiting = true)
      (hcode : c.requestCodes.getLast? = some clientCodeSendFile) (hout : c.outbox = [])
      (hin : c.inbox = [])

structure Engaged (c : Client) : Prop where
  clientId : c.clientIdBytes = t.clientId
  aesKey : c.aesKey = t.aesKey
  path : c.filePath = t.path
  readable : (c.files c.filePath).isSome = true
  attached : c.clientIdHex ≠ []
  keyed : serverCodeSwitchingKeys ∈ c.responseCodes

end Stages

variable {E : Externals} {t : Transfer} {c : Client} {kept : Option (Bytes × Bool)}
  {last : Option Bytes}

theorem Ending.outbox (h : Ending t c) (hidle : c.awaiting = false → c.outbox = []) :
    c.outbox = [] := by
  rcases h with ⟨-, hout, -⟩ | hfalse
  · exact hout
  · exact hidle hfalse

theorem Stage.not_keyOutstanding (h : Stage E t c kept last) : ¬ KeyOutstanding c := by
  cases h with
  | uploading _ hcode => exact not_keyOutstanding_of_last hcode (by decide)
  | reported _ hcode => exact not_keyOutstanding_of_last hcode (by decide)
  | confirming _ hcode => exact not_keyOutstanding_of_last hcode (by decide)
  | givingUp _ hcode => exact not_keyOutstanding_of_last hcode (by decide)
  | confirmed hcode => exact not_keyOutstanding_of_last hcode (by decide)
  | givenUp hcode => exact not_keyOutstanding_of_last hcode (by decide)
  | stuck _ hcode => exact not_keyOutstanding_of_last hcode (by decide)

section Serve

variable {s : Server KeyedDisk} {env : Draws} {log : List Served} {i : ℕ} {rest : List Bytes}
  {request : Bytes}

structure Continues (E : Externals) (env : Draws) (t : Transfer) (i : ℕ) (s : Server KeyedDisk)
    (c : Client) (log : List Served) (request : Bytes) (rest : List Bytes) (s' : Server KeyedDisk)
    (sent : Bytes) : Prop where
  turned : Turned (System.turnWith E env s request) s' sent []
  others : ∀ k, k ≠ (t.clientId, t.filename) → entry s' k = entry s k
  stage : Stage E t (answered c rest sent) (entry s' (t.clientId, t.filename))
    (lastUpload i (⟨i, request, []⟩ :: log))

variable (hs : Consistent s) (hknown : s.database.clientExistsById t.clientId = true)
include hs hknown

theorem upload_continues (hkey : s.database.getAesKeyOfClient t.clientId = some t.aesKey)
    (hno : nul ∉ t.filename) (hawait : c.awaiting = true)
    (hcode : c.requestCodes.getLast? = some clientCodeSendFile) (hin : c.inbox = [])
    (hdata : IsUploadOf E t request) :
    ∃ s' sent, Continues E env t i s c log request [] s' sent := by
  obtain ⟨owner, field, content, hid, howner, hfield, hcontent, hname, rfl⟩ := hdata
  cases hstored : contentOf E s.database t.clientId content with
  | none =>
    exact ⟨_, _, turned_upload_unreadable rfl rfl howner hfield hcontent hknown hname hstored,
      fun _ _ => rfl, .stuck hawait hcode rfl (by simp [answered, hin])⟩
  | some stored =>
    obtain ⟨cksum, hcksum⟩ := Cksum.cksumCalc_isSome stored
    have hentry := hs.sound.entry_store env.now t.clientId t.filename stored
    have hothers (k : Bytes × Str) (hk : k ≠ (t.clientId, t.filename)) :
        entry (store env.now t.clientId t.filename stored s) k = entry s k :=
      (congrFun hentry k).trans (Function.update_of_ne hk _ _)
    refine ⟨_, _, turned_upload rfl rfl howner hfield hcontent hknown hs hname hstored hno
      hcksum, hothers, ?_⟩
    split_ifs with hsize
    · have hinbox : (answered c [] (reported t.clientId t.filename stored.length
          cksum.toNat)).inbox = reported t.clientId t.filename stored.length cksum.toNat := by
        simp [answered, hin]
      refine .reported hawait hcode rfl cksum.toNat_lt hinbox ⟨content, stored, ?_, ?_, ?_⟩
      · exact lastUpload_cons_upload hid howner hfield hcontent i _ log
      · rw [contentOf, hkey, Option.bind_some] at hstored
        exact hstored
      · exact (congrFun hentry _).trans (Function.update_self _ _ _)
    · exact .stuck hawait hcode rfl (by simp [answered, hin])

omit hs in
theorem complaint_continues (hawait : c.awaiting = true)
    (hcode : c.requestCodes.getLast? = some clientCodeSendFile) (hin : c.inbox = [])
    (hdata : IsNamedOf E t clientCodeCksumErr request) {data : Bytes} (hnext : IsUploadOf E t data) :
    ∃ s' sent, Continues E env t i s c log request [data] s' sent := by
  obtain ⟨field, hid, hnames, hfield, hname, rfl⟩ := hdata
  exact ⟨_, _, turned_cksumErr hknown hfield rfl, fun _ _ => rfl,
    .uploading hawait hcode hnext (by simp [answered, hin]) (.inl rfl)⟩

theorem confirm_continues (hawait : c.awaiting = true)
    (hcode : c.requestCodes.getLast? = some clientCodeCksumOk) (hin : c.inbox = [])
    (hdata : IsNamedOf E t clientCodeCksumOk request)
    (hkeeps : Keeps E t (entry s (t.clientId, t.filename)) (lastUpload i log) false) :
    ∃ s' sent, Continues E env t i s c log request [] s' sent := by
  obtain ⟨field, hid, hnames, hfield, hname, rfl⟩ := hdata
  obtain ⟨encrypted, content, hlast, hread, hkept⟩ := hkeeps
  have hentry := hs.sound.entry_confirm env.now t.clientId t.filename
  refine ⟨_, _, turned_cksumOk hknown hfield rfl hname, ?_, ?_⟩
  · exact fun k hk => (congrFun hentry k).trans (Function.update_of_ne hk _ _)
  · refine .confirmed hcode (.inl ⟨hawait, rfl, by simp [answered, hin]; rfl⟩)
      ⟨encrypted, content, ?_, hread, ?_⟩
    · rw [lastUpload_cons_other (.inr (by rw [isUpload_encode]; rfl))]
      exact hlast
    · refine (congrFun hentry _).trans ?_
      rw [Ledger.apply, Function.update_self, hkept]
      rfl

theorem giveUp_continues (hawait : c.awaiting = true)
    (hcode : c.requestCodes.getLast? = some clientCodeCksumErrFinal) (hin : c.inbox = [])
    (hdata : IsNamedOf E t clientCodeCksumErrFinal request) :
    ∃ s' sent, Continues E env t i s c log request [] s' sent := by
  obtain ⟨field, hid, hnames, hfield, hname, rfl⟩ := hdata
  have hentry := hs.sound.entry_eraseFile env.now t.clientId t.filename
  refine ⟨_, _, turned_cksumErrFinal hknown hfield hs rfl hname, ?_, ?_⟩
  · exact fun k hk => (congrFun hentry k).trans (Function.update_of_ne hk _ _)
  · refine .givenUp hcode (.inl ⟨hawait, rfl, by simp [answered, hin]; rfl⟩) ?_
    exact (congrFun hentry _).trans (Function.update_self _ _ _)

/-- Every request of the transfer continues it. -/
theorem Stage.continues (env : Draws)
    (h : Stage E t c (entry s (t.clientId, t.filename)) (lastUpload i log))
    (hidle : c.awaiting = false → c.outbox = [])
    (hkey : s.database.getAesKeyOfClient t.clientId = some t.aesKey) (hno : nul ∉ t.filename)
    (hout : c.outbox = request :: rest) :
    ∃ s' sent, Continues E env t i s c log request rest s' sent := by
  have hsome : c.outbox ≠ [] := by
    rw [hout]
    exact List.cons_ne_nil request rest
  cases h with
  | uploading hawait hcode hdata hin hreq =>
    rcases hreq with hreq | ⟨complaint, hcomplaint, hreq⟩
    · rw [hreq] at hout
      obtain ⟨rfl, rfl⟩ := List.cons.inj hout
      exact upload_continues hs hknown hkey hno hawait hcode hin hdata
    · rw [hreq] at hout
      obtain ⟨rfl, rfl⟩ := List.cons.inj hout
      exact complaint_continues hknown hawait hcode hin hcomplaint hdata
  | reported _ _ hno => exact absurd hno hsome
  | confirming hawait hcode hdata hreq hin hkeeps =>
    rw [hreq] at hout
    obtain ⟨rfl, rfl⟩ := List.cons.inj hout
    exact confirm_continues hs hknown hawait hcode hin hdata hkeeps
  | givingUp hawait hcode hdata hreq hin =>
    rw [hreq] at hout
    obtain ⟨rfl, rfl⟩ := List.cons.inj hout
    exact giveUp_continues hs hknown hawait hcode hin hdata
  | confirmed _ hdone => exact absurd (hdone.outbox hidle) hsome
  | givenUp _ hdone => exact absurd (hdone.outbox hidle) hsome
  | stuck _ _ hno => exact absurd hno hsome

end Serve

section Receive

theorem isUploadOf_encode {clientId field content : Bytes} (hid : clientId.length = 16)
    (hfield : field.length = 255) (hcontent : content.length < 4294967296)
    (hsame : clientId = t.clientId) (hname : filenameOf E field = some t.filename) :
    IsUploadOf E t
      (uploadMessage clientId clientId field content hid hid hfield hcontent).encode := by
  subst hsame
  exact ⟨t.clientId, field, content, hid, hid, hfield, hcontent, hname, rfl⟩

theorem isNamedOf_encode {clientId field : Bytes} {code : ℕ} (hid : clientId.length = 16)
    (hcode : NamesFile code) (hfield : field.length = 255) (hsame : clientId = t.clientId)
    (hname : filenameOf E field = some t.filename) :
    IsNamedOf E t code (nameMessage clientId code field hid hcode hfield).encode := by
  subst hsame
  exact ⟨field, hid, hcode, hfield, hname, rfl⟩

variable (hc : Engaged t c) (hname : KeptAs E t.path t.filename) (hid : c.clientIdBytes.length = 16)
  (haes : c.aesKey.length = 16)
include hc hname hid haes

theorem reSendFileToServer_engaged : ∃ cksum data, IsUploadOf E t data ∧
    reSendFileToServer E c =
      await (post clientCodeSendFile data { c with cksumOfLastFile := cksum }) := by
  obtain ⟨file, hfile⟩ := Option.isSome_iff_exists.mp hc.readable
  have hload : loadFileContent E c = some (itemOf E c file, noted c file) :=
    loadFileContent_eq_some.mpr ⟨file, hfile, haes, rfl, rfl⟩
  have huploaded : filenameOf E (resize 255 (fileNameOf c.filePath)) = some t.filename := by
    rw [hc.path, hname.uploaded]
  refine ⟨(noted c file).cksumOfLastFile, _, isUploadOf_encode hid (length_resize 255 _)
    (length_sentOf E c file) hc.clientId huploaded, ?_⟩
  rw [reSendFileToServer, hload]
  exact congrArg await (sendFileItem_itemOf hid file (noted c file))

theorem Stage.received (h : Stage E t c kept last) (hawait : c.awaiting = true)
    (hin : c.inbox ≠ []) : Engaged t (receiveResponseFromServer E c) ∧
      Stage E t (receiveResponseFromServer E c) kept last := by
  have hkeyed (code : ℕ) : serverCodeSwitchingKeys ∈ c.responseCodes ++ [code] :=
    List.mem_append_left _ hc.keyed
  have hacknowledged (hend : Ending t c) : receiveResponseFromServer E c = { c with
      awaiting := false
      inbox := []
      responseCodes := c.responseCodes ++ [serverCodeMessageReceived] } := by
    rcases hend with ⟨-, -, hack⟩ | hfalse
    · exact receiveResponseFromServer_told (uuidField_length _) (.inr rfl) hack
    · rw [hawait] at hfalse
      cases hfalse
  cases h with
  | uploading _ _ _ hnil => exact absurd hnil hin
  | reported _ hcode hout hcksum hreport hkeeps =>
    have hidt : t.clientId.length = 16 := by rw [← hc.clientId, hid]
    have hfield := length_reportField t.filename
    rw [receiveResponseFromServer_reported hidt hcksum hreport]
    simp only
    split_ifs
    · rw [sendRequestToServer_name hid (.inl rfl) hfield]
      refine ⟨⟨hc.clientId, hc.aesKey, hc.path, hc.readable, hc.attached, hkeyed _⟩, ?_⟩
      refine .confirming rfl ?_ (isNamedOf_encode hid (.inl rfl) hfield hc.clientId hname.echoed)
        ?_ rfl hkeeps
      · simp [await, post]
      · simp [await, post, hout]
    · rw [sendRequestToServer_name hid (.inr (.inl rfl)) hfield]
      have hc' : Engaged t (post clientCodeCksumErr (nameMessage c.clientIdBytes clientCodeCksumErr
          (reportField t.filename) hid (.inr (.inl rfl)) hfield).encode { c with
            awaiting := false
            inbox := []
            responseCodes := c.responseCodes ++ [serverCodeCksumReady]
            numberOfTrialsTOSendFile := c.numberOfTrialsTOSendFile + 1 }) :=
        ⟨hc.clientId, hc.aesKey, hc.path, hc.readable, hc.attached, hkeyed _⟩
      obtain ⟨cksum, data, hdata, hresend⟩ := reSendFileToServer_engaged hc' hname hid haes
      rw [hresend]
      refine ⟨⟨hc.clientId, hc.aesKey, hc.path, hc.readable, hc.attached, hkeyed _⟩, ?_⟩
      refine .uploading rfl ?_ hdata rfl (.inr ⟨_, isNamedOf_encode hid (.inr (.inl rfl)) hfield
        hc.clientId hname.echoed, ?_⟩)
      · simp [await, post]
      · simp [await, post, hout]
    · rw [sendRequestToServer_name hid (.inr (.inr rfl)) hfield]
      refine ⟨⟨hc.clientId, hc.aesKey, hc.path, hc.readable, hc.attached, hkeyed _⟩, ?_⟩
      refine .givingUp rfl ?_ (isNamedOf_encode hid (.inr (.inr rfl)) hfield hc.clientId
        hname.echoed) ?_ rfl
      · simp [await, post]
      · simp [await, post, hout]
  | confirming _ _ _ _ hnil => exact absurd hnil hin
  | givingUp _ _ _ _ hnil => exact absurd hnil hin
  | confirmed hcode hend hkeeps =>
    rw [hacknowledged hend]
    exact ⟨⟨hc.clientId, hc.aesKey, hc.path, hc.readable, hc.attached, hkeyed _⟩,
      .confirmed hcode (.inr rfl) hkeeps⟩
  | givenUp hcode hend hgone =>
    rw [hacknowledged hend]
    exact ⟨⟨hc.clientId, hc.aesKey, hc.path, hc.readable, hc.attached, hkeyed _⟩,
      .givenUp hcode (.inr rfl) hgone⟩
  | stuck _ _ _ hnil => exact absurd hnil hin

end Receive

theorem Stage.edited (h : Stage E t c kept last) (hc : Engaged t c) (path content : Bytes) :
    let c' := { c with files := Function.update c.files path (some content) }
    Engaged t c' ∧ Stage E t c' kept last := by
  intro c'
  have hreadable : (c'.files c'.filePath).isSome = true := by
    by_cases hp : c.filePath = path
    · simp [c', hp]
    · simpa [c', hp] using hc.readable
  refine ⟨⟨hc.clientId, hc.aesKey, hc.path, hreadable, hc.attached, hc.keyed⟩, ?_⟩
  cases h with
  | uploading hawait hcode hdata hin hout => exact .uploading hawait hcode hdata hin hout
  | reported hawait hcode hout hcksum hin hkeeps =>
    exact .reported hawait hcode hout hcksum hin hkeeps
  | confirming hawait hcode hdata hout hin hkeeps =>
    exact .confirming hawait hcode hdata hout hin hkeeps
  | givingUp hawait hcode hdata hout hin => exact .givingUp hawait hcode hdata hout hin
  | confirmed hcode hend hkeeps => exact .confirmed hcode hend hkeeps
  | givenUp hcode hend hgone => exact .givenUp hcode hend hgone
  | stuck hawait hcode hout hin => exact .stuck hawait hcode hout hin

theorem IsUploadOf.corrupted {data : Bytes} (h : IsUploadOf E t data) (encrypted : Bytes) :
    IsUploadOf E t (corrupted data encrypted) := by
  obtain ⟨owner, field, content, hid, howner, hfield, hcontent, hname, rfl⟩ := h
  obtain ⟨content', hcontent', hdata, -⟩ := corrupted_upload hid howner hfield hcontent encrypted
  exact ⟨owner, field, content', hid, howner, hfield, hcontent', hname, hdata⟩

theorem IsNamedOf.corrupted {code : ℕ} {data : Bytes} (h : IsNamedOf E t code data)
    (encrypted : Bytes) : Network.corrupted data encrypted = data := by
  obtain ⟨field, hid, hcode, hfield, -, rfl⟩ := h
  exact corrupted_isNamed ⟨field, hid, hcode, hfield, rfl⟩ encrypted

theorem Stage.corrupted (h : Stage E t c kept last) (hidle : c.awaiting = false → c.outbox = [])
    {request : Bytes} {rest : List Bytes} (hout : c.outbox = request :: rest) (encrypted : Bytes) :
    Stage E t { c with outbox := Network.corrupted request encrypted :: rest } kept last := by
  have hsome : c.outbox ≠ [] := by
    rw [hout]
    exact List.cons_ne_nil request rest
  cases h with
  | uploading hawait hcode hdata hin hreq =>
    rcases hreq with hreq | ⟨complaint, hcomplaint, hreq⟩
    · rw [hreq] at hout
      obtain ⟨rfl, rfl⟩ := List.cons.inj hout
      exact .uploading hawait hcode (hdata.corrupted encrypted) hin (.inl rfl)
    · rw [hreq] at hout
      obtain ⟨rfl, rfl⟩ := List.cons.inj hout
      exact .uploading hawait hcode hdata hin
        (.inr ⟨complaint, hcomplaint, by rw [hcomplaint.corrupted]⟩)
  | reported _ _ hno => exact absurd hno hsome
  | confirming hawait hcode hdata hreq hin hkeeps =>
    rw [hreq] at hout
    obtain ⟨rfl, rfl⟩ := List.cons.inj hout
    exact .confirming hawait hcode hdata (by rw [hdata.corrupted]) hin hkeeps
  | givingUp hawait hcode hdata hreq hin =>
    rw [hreq] at hout
    obtain ⟨rfl, rfl⟩ := List.cons.inj hout
    exact .givingUp hawait hcode hdata (by rw [hdata.corrupted]) hin
  | confirmed _ hdone => exact absurd (hdone.outbox hidle) hsome
  | givenUp _ hdone => exact absurd (hdone.outbox hidle) hsome
  | stuck _ _ hno => exact absurd hno hsome

theorem stage_begin (kept : Option (Bytes × Bool)) (last : Option Bytes)
    (hid : c.clientIdBytes.length = 16) (haes : c.aesKey.length = 16) (hout : c.outbox = [])
    (hin : c.inbox = []) (hconnected : c.connectedToServer = true)
    (hattached : c.clientIdHex ≠ []) (hkeyed : serverCodeSwitchingKeys ∈ c.responseCodes)
    {path : Bytes} {filename : Str} (hload : loadFilePath c = (true, { c with filePath := path }))
    (hfile : (c.files path).isSome = true) (hname : KeptAs E path filename) :
    let t : Transfer := ⟨c.clientIdBytes, c.aesKey, path, filename⟩
    Engaged t (sendFileToServer E c) ∧ Stage E t (sendFileToServer E c) kept last := by
  intro t
  obtain ⟨file, hfile⟩ := Option.isSome_iff_exists.mp hfile
  have hdata : IsUploadOf E t (uploadMessage c.clientIdBytes c.clientIdBytes
      (resize 255 (fileNameOf path)) (sentOf E { c with filePath := path } file) hid hid
      (length_resize 255 _) (length_sentOf E { c with filePath := path } file)).encode :=
    isUploadOf_encode hid (length_resize 255 _) (length_sentOf E _ file) rfl hname.uploaded
  have hreadable : (c.files path).isSome = true := by rw [hfile, Option.isSome_some]
  rw [sendFileToServer_eq hid haes hconnected hattached hload hfile]
  refine ⟨⟨rfl, rfl, rfl, hreadable, hattached, hkeyed⟩,
    .uploading rfl ?_ hdata hin (.inl ?_)⟩
  · simp [await, post]
  · simp [await, post, noted, hout]

section Runs

variable {i : ℕ} {sys₀ sys sys' : System}

/-- The client of the transfer in one of its stages, and the files of others untouched except
by their own requests. -/
structure Dialogue (E : Externals) (t : Transfer) (i : ℕ) (sys₀ sys : System) : Prop where
  agreement : Agreement E sys
  engaged : Engaged t (sys.client i)
  stage : Stage E t (sys.client i) (entry sys.server (t.clientId, t.filename))
    (lastUpload i sys.served)
  others : ∃ log, sys.served = log ++ sys₀.served ∧ (∀ r ∈ log, r.client = i → r.left = []) ∧
    ∀ k, k ≠ (t.clientId, t.filename) →
      (k.1 = t.clientId ∨ ∀ r ∈ log, r.client ≠ i → r.clientId ≠ some k.1) →
      entry sys.server k = entry sys₀.server k

theorem Dialogue.of_client (h : Dialogue E t i sys₀ sys) {j : ℕ} {c : Client}
    (hagreement : Agreement E (sys.setClient j c))
    (hc : j = i → Engaged t c ∧ Stage E t c (entry sys.server (t.clientId, t.filename))
      (lastUpload i sys.served)) : Dialogue E t i sys₀ (sys.setClient j c) := by
  by_cases hj : j = i
  · subst hj
    obtain ⟨hengaged, hstage⟩ := hc rfl
    refine ⟨hagreement, ?_, ?_, h.others⟩
    · rwa [System.setClient_self]
    · rwa [System.setClient_self]
  · refine ⟨hagreement, ?_, ?_, h.others⟩
    · rw [System.setClient_other _ (Ne.symm hj)]
      exact h.engaged
    · rw [System.setClient_other _ (Ne.symm hj)]
      exact h.stage

theorem request_other (h : Agreement E sys) {j : ℕ} (hj : j ≠ i)
    (hattached : (sys.client i).clientIdHex ≠ []) {request : Bytes} {rest : List Bytes}
    (hout : (sys.client j).outbox = request :: rest) : ∃ m : Message, request = m.encode ∧
      (m.code = clientCodeRegister ∨ (sys.client i).clientIdBytes ≠ m.clientId) := by
  obtain ⟨m, hm, hregister | ⟨hattached', hid⟩⟩ := request_of_agrees (h.agrees j) hout
  · exact ⟨m, hm, .inl hregister⟩
  · refine ⟨m, hm, .inr fun hsame => hj ?_⟩
    exact h.distinct j i m.clientId (.inl ⟨hattached', hid.symm⟩) (.inl ⟨hattached, hsame⟩)

theorem Dialogue.serve_other (h : Dialogue E t i sys₀ sys) {j : ℕ} (hj : j ≠ i) {env : Draws}
    (hfresh : sys.server.database.clientExistsById env.uuid = false) :
    Dialogue E t i sys₀ (sys.serve E j env) := by
  have hagreement := h.agreement.serve j hfresh
  cases hout : (sys.client j).outbox with
  | nil =>
    rw [System.serve_nil E hout]
    exact h
  | cons request rest =>
    rw [System.serve_cons E hout] at hagreement ⊢
    obtain ⟨m, rfl, hown⟩ := request_other h.agreement hj h.engaged.attached hout
    rw [h.engaged.clientId] at hown
    have hclient (c : Client) : Function.update sys.client j c i = sys.client i :=
      Function.update_of_ne (Ne.symm hj) _ _
    have hkept (k : Bytes × Str) (hk : m.code = clientCodeRegister ∨ k.1 ≠ m.clientId) :
        entry (System.turnWith E env sys.server m.encode).server k = entry sys.server k :=
      entry_turnWith h.agreement.consistent hfresh m hk
    refine ⟨hagreement, ?_, ?_, ?_⟩
    · simp only [hclient]
      exact h.engaged
    · simp only [hclient]
      rw [hkept _ hown, lastUpload_cons_other (.inl hj)]
      exact h.stage
    · obtain ⟨log, hlog, hread, hothers⟩ := h.others
      refine ⟨⟨j, m.encode, (System.turnWith E env sys.server m.encode).conn.inbox⟩ :: log,
        congrArg _ hlog, ?_, ?_⟩
      · intro r hr hi
        rcases List.mem_cons.mp hr with rfl | hr
        · exact absurd hi hj
        · exact hread r hr hi
      intro k hk hclear
      have hbefore : k.1 = t.clientId ∨ ∀ r ∈ log, r.client ≠ i → r.clientId ≠ some k.1 := by
        rcases hclear with hsame | hclear
        · exact .inl hsame
        · exact .inr fun r hr => hclear r (List.mem_cons_of_mem _ hr)
      refine (hkept k ?_).trans (hothers k hk hbefore)
      rcases hclear with hsame | hclear
      · rwa [hsame]
      · refine .inr fun hsame => hclear _ (List.mem_cons_self ..) hj ?_
        rw [Served.clientId, headerOf_encode, hsame]
        rfl

theorem Dialogue.serve_own (h : Dialogue E t i sys₀ sys) (hno : nul ∉ t.filename) {env : Draws}
    (hfresh : sys.server.database.clientExistsById env.uuid = false) :
    Dialogue E t i sys₀ (sys.serve E i env) := by
  have hagreement := h.agreement.serve i hfresh
  have hagrees := h.agreement.agrees i
  obtain ⟨-, name, -, hmem⟩ := hagrees.agreed h.stage.not_keyOutstanding h.engaged.keyed
  rw [h.engaged.clientId, h.engaged.aesKey] at hmem
  cases hout : (sys.client i).outbox with
  | nil =>
    rw [System.serve_nil E hout]
    exact h
  | cons request rest =>
    obtain ⟨s', sent, hturned, hkept, hstage⟩ := Stage.continues
      h.agreement.consistent (exists_of_mem_roster hmem) env h.stage
      (fun hidle => (hagrees.idle hidle).1)
      (getAesKeyOfClient_eq h.agreement.consistent.sound hmem) hno hout
    rw [System.serve_cons E hout, hturned.server_eq, hturned.sent_eq, hturned.left_eq]
      at hagreement ⊢
    refine ⟨hagreement, ?_, ?_, ?_⟩
    · simp only [Function.update_self]
      exact ⟨h.engaged.clientId, h.engaged.aesKey, h.engaged.path, h.engaged.readable,
        h.engaged.attached, h.engaged.keyed⟩
    · simp only [Function.update_self]
      exact hstage
    · obtain ⟨log, hlog, hread, hothers⟩ := h.others
      refine ⟨⟨i, request, []⟩ :: log, congrArg _ hlog, ?_, ?_⟩
      · intro r hr hi
        rcases List.mem_cons.mp hr with rfl | hr
        · rfl
        · exact hread r hr hi
      intro k hk hclear
      refine (hkept k hk).trans (hothers k hk ?_)
      rcases hclear with hown | hclear
      · exact .inl hown
      · exact .inr fun r hr => hclear r (List.mem_cons_of_mem _ hr)

/-- Every move but a new call of the client goes on with the dialogue. -/
theorem Dialogue.step (h : Dialogue E t i sys₀ sys) (hname : KeptAs E t.path t.filename)
    (move : Move) (hp : Permitted E sys move) (hmove : ∀ method, move ≠ .call i method) :
    Dialogue E t i sys₀ (sys.step E move) := by
  have hagreement := h.agreement.step move hp
  have hagrees := h.agreement.agrees i
  obtain ⟨haes, -⟩ := hagrees.agreed h.stage.not_keyOutstanding h.engaged.keyed
  cases move with
  | call j method =>
    simp only [System.step] at hagreement ⊢
    split_ifs at hagreement ⊢ with hawait
    · exact h
    · exact h.of_client hagreement fun hj => absurd (hj ▸ rfl) (hmove method)
  | serve j env =>
    by_cases hj : j = i
    · subst hj
      exact h.serve_own hname.nul_notMem hp
    · exact h.serve_other hj hp
  | resume j =>
    simp only [System.step, System.resume] at hagreement ⊢
    split_ifs at hagreement ⊢ with hready hstarved
    · exact h
    · refine h.of_client hagreement ?_
      rintro rfl
      exact h.stage.received h.engaged hname hagrees.idLength haes hready.1 hready.2
    · exact h
  | corrupt j encrypted =>
    simp only [System.step] at hagreement ⊢
    cases hout : (sys.client j).outbox with
    | nil => exact h
    | cons request rest =>
      simp only [hout] at hagreement
      refine h.of_client hagreement ?_
      rintro rfl
      exact ⟨⟨h.engaged.clientId, h.engaged.aesKey, h.engaged.path, h.engaged.readable,
        h.engaged.attached, h.engaged.keyed⟩,
        h.stage.corrupted (fun hidle => (hagrees.idle hidle).1) hout encrypted⟩
  | edit j path content =>
    refine h.of_client hagreement ?_
    rintro rfl
    exact h.stage.edited h.engaged path content

theorem Dialogue.moves (hname : KeptAs E t.path t.filename) {moves : List Move}
    (hrun : Moves E sys moves sys') (hmoves : ∀ move ∈ moves, ∀ method, move ≠ .call i method)
    (h : Dialogue E t i sys₀ sys) : Dialogue E t i sys₀ sys' := by
  induction hrun with
  | nil sys => exact h
  | cons move hp _ ih =>
    refine ih (fun m hm => hmoves m (List.mem_cons_of_mem _ hm)) ?_
    exact h.step hname move hp (hmoves move (List.mem_cons_self ..))

def keyedSystem : System := systemOfA.steps plainCiphers registerAndKey

def sendF : List Move := movesOf 0 .sendFileToServer [constantDraws 3, constantDraws 4]

def sentSystem : System := keyedSystem.steps plainCiphers sendF

theorem keyedSystem_eq : keyedSystem = systemOfA.steps plainCiphers registerAndKey := rfl

theorem sentSystem_eq : sentSystem = keyedSystem.steps plainCiphers sendF := rfl

attribute [irreducible] keyedSystem sentSystem

theorem performed_keyedSystem : ∃ c,
    let s' := setKeys [] ['a'] derKey (List.replicate 16 2)
      (register [] (List.replicate 16 1) ['a'] Server.empty)
    Performed systemOfA keyedSystem 0 s' c ∧ Keyed filesOfA ['a'] (List.replicate 16 1) c s' := by
  have hinfo : filesOfA serverFilePath = some infoOfA := by decide
  have hlines : splitLines infoOfA =
      addressLine :: encodeUtf8 ['a'] :: [102] :: [] := by decide
  have hpair : KeyPairLaws plainCiphers keyPairOfA.publicKey
    keyPairOfA.privateKey := keyPairLaws_plainCiphers _
  have hempty : ServerRuns.Run plainCiphers systemOfA.server [] := .start
  have hnew : systemOfA.client 0 = Client.new filesOfA true := rfl
  have hfree : systemOfA.server.database.clientExistsByName ['a'] = false := rfl
  have hfresh : systemOfA.server.database.clientExistsById (constantDraws 1).uuid = false := rfl
  have hmoves : movesOf 0 .registerToServer [constantDraws 1] ++
      movesOf 0 (.generateRSAKeyPair keyPairOfA) [constantDraws 2] =
        registerAndKey := rfl
  have hbegun := performed_begin hempty hnew (by decide) hinfo hlines (by decide) (by decide) hfree
    hpair (constantDraws 2) hfresh [] []
  rw [perform_eq_steps, perform_eq_steps, System.steps, System.steps, ← List.foldl_append, hmoves]
    at hbegun
  rwa [keyedSystem_eq]

theorem moves_sentSystem : Moves plainCiphers keyedSystem sendF sentSystem ∧
    (sentSystem.client 0).awaiting = false := by
  obtain ⟨c, hbegun, hkeyed⟩ := performed_keyedSystem
  have hserver := hbegun.server
  have hpath : readLine (filesOfA serverFilePath) 3 c.filePath = (true, [102]) := rfl
  have hcontent : filesOfA ([102].map tolower) = some [7] := by decide
  have hother : ([102] : Bytes).map tolower ≠ clientDetailsPath := by decide
  have hsize : ([7] : Bytes).length < 2 ^ 32 - 16 := by decide
  have hname : fileNameOf [102] = encodeUtf8 ['f'] := by decide
  have hkept : KeptAs plainCiphers ([102].map tolower) ['f'] :=
    keptAs_ascii lowerLaws_plainCiphers hname (List.forall_mem_singleton.mpr (by decide)) (by decide)
  obtain ⟨hs, hknown, hagreed⟩ : Consistent keyedSystem.server ∧
      keyedSystem.server.database.clientExistsById c.clientIdBytes = true ∧
      keyedSystem.server.database.getAesKeyOfClient c.clientIdBytes = some c.aesKey := by
    rw [hserver]
    exact ⟨hkeyed.consistent, hkeyed.known, hkeyed.agreed⟩
  obtain ⟨c', hdone, hawait, -, -, hfirst⟩ := performed_send (constantDraws 3) aesLaws_plainCiphers
    hkeyed.resting hkeyed.attached hkeyed.idLength hkeyed.aesKey (by decide) hpath hcontent
    hother hsize hkept hbegun.client hs hknown hagreed (constantDraws 4) []
  rw [sentSystem_eq]
  constructor
  · refine .of_permitted ⟨trivial, ?_, trivial, ?_, trivial, trivial⟩
    · rw [Permitted, step_call_server, hserver]
      rfl
    · rw [← perform_singleton, Permitted, hfirst, (retouched_store _ _ _ _ _).exists_eq, hserver]
      rfl
  · rw [sendF, ← perform_eq_steps, hdone.client, hawait]

end Runs

end EncryptedTransfer.UploadOutcome
