import EncryptedTransfer.ClientReactions
import EncryptedTransfer.Histories

/-!
# What the client confirms

A client against any stream of bytes: it reads what there is, and zeros where the stream has
ended. The events are the bytes of the responses it has read and the requests it has sent.
-/
namespace EncryptedTransfer.Confirmations
open ServerStores hiding Client Client.new
open ByteFormats ServerCalls ServerHandlers CryptoLaws ClientProcess Network ClientMessages KeyAgreement
open ClientReactions Histories

/-- A client that awaits nothing calls a method, one that awaits a response reads it; files
change at any time. -/
inductive Step where
  | call (method : Method)
  | receive
  | edit (files : Bytes → Option Bytes)

/-- A request is kept with the content it was made of. -/
inductive Event where
  | received (response : Bytes)
  | sent (code : ℕ) (request : Bytes) (plain : Option Bytes)

section Steps

variable (E : Externals)

def Step.run (c : Client) : Step → Client
  | .call method => if c.awaiting then c else method.run E c
  | .receive => if c.awaiting then receiveResponseFromServer E c else c
  | .edit files => { c with files := files }

/-- The content the client encrypts when it sends its file. -/
def plainOf (c : Client) : Option Bytes :=
  if c.aesKey.length = 16 then
    (c.files c.filePath).map (fun file => file.take (file.length % 2 ^ 32))
  else none

def consumed (c c' : Client) : Bytes := c.inbox.take (c.inbox.length - c'.inbox.length)

def written (c c' : Client) : List (ℕ × Bytes) :=
  (c'.requestCodes.drop c.requestCodes.length).zip (c'.outbox.drop c.outbox.length)

def sentEvents (c c' : Client) : List Event :=
  (written c c').map (fun request => .sent request.1 request.2 (plainOf c'))

def Step.events (c : Client) (step : Step) : List Event :=
  match step with
  | .receive =>
    if c.awaiting then
      .received (consumed c (step.run E c)) :: sentEvents c (step.run E c)
    else []
  | _ => sentEvents c (step.run E c)

structure Course where
  client : Client
  events : List Event

def Course.step (course : Course) (step : Step) : Course :=
  ⟨step.run E course.client, course.events ++ step.events E course.client⟩

def Course.after (course : Course) (steps : List Step) : Course :=
  steps.foldl (Course.step E) course

/-- A new process that is given this stream. -/
def Course.start (files : Bytes → Option Bytes) (connects : Bool) (stream : Bytes) : Course :=
  ⟨{ Client.new files connects with inbox := stream }, []⟩

end Steps

def IsUpload (event : Event) : Prop := ∃ request plain, event = .sent clientCodeSendFile request plain

def IsGivenUp (event : Event) : Prop :=
  ∃ request plain, event = .sent clientCodeCksumErrFinal request plain

/-- The file's name in an upload, after the request's header, the client id and the size. -/
def uploadedName (request : Bytes) : Bytes := (request.drop 43).take 255

/-- The file's name in a confirmation, after the request's header. -/
def confirmedName (request : Bytes) : Bytes := request.drop 23

/-- The name and the checksum in the bytes of a whole report. -/
def wholeReport (response : Bytes) : Option (Bytes × ℕ) :=
  let size := ofLe ((response.take 7).drop 3)
  if ofLe ((response.drop 1).take 2) = serverCodeCksumReady ∧ response.length = 286 + size then
    some ((response.drop (27 + size)).take 255, ofLe (response.drop (282 + size)))
  else none

def Reports (cksum : UInt32) (event : Event) : Prop :=
  ∃ response report, event = .received response ∧ wholeReport response = some report ∧
    UInt32.ofNat report.2 = cksum

/-- The upload before a confirmation is of the file it names, and a whole report of the file's
checksum has come since. -/
def Supported (past : List Event) (request : Bytes) : Prop :=
  ∃ upload plain since, LastOf IsUpload past (.sent clientCodeSendFile upload (some plain)) since ∧
    confirmedName request = uploadedName upload ∧ ∃ event ∈ since, Reports (cksumOf plain) event

def Sound (past : List Event) (event : Event) : Prop :=
  ∀ request plain, event = .sent clientCodeCksumOk request plain → Supported past request

/-- The name and the checksum the client reads where it reads a report. -/
def reportRead (c : Client) : Option (Bytes × ℕ) :=
  if (readResponse c).1.code = serverCodeCksumReady then
    some ((readReport (readResponse c).2).1.2.1, (readReport (readResponse c).2).1.2.2)
  else none

/-- The stream has not ended within the report the client reads. -/
def ReadsWhole (c : Client) : Prop := 286 + (readResponse c).1.payload.length ≤ c.inbox.length

/-- Where the client reads a report of the checksum it has noted: the upload before is of a file
it could load, with the name in the report; and either the report is whole and the client has
not given up since the upload (or the checksum is the zero it notes then), or a whole report of
the file's checksum had come already. -/
def Fits (course : Course) (step : Step) : Prop :=
  step = .receive → course.client.awaiting = true →
    ∀ report, reportRead course.client = some report →
      course.client.cksumOfLastFile = UInt32.ofNat report.2 →
        ∃ upload plain since,
          LastOf IsUpload course.events (.sent clientCodeSendFile upload (some plain)) since ∧
          report.1 = uploadedName upload ∧
          (ReadsWhole course.client ∧ ((∀ event ∈ since, ¬ IsGivenUp event) ∨ cksumOf plain = 0) ∨
            ∃ event ∈ since, Reports (cksumOf plain) event)

section Reading

variable {c c' : Client}

theorem readResponse_code (c : Client) :
    (readResponse c).1.code = ofLe (((resize 7 (c.inbox.take 7)).drop 1).take 2) := rfl

theorem readReport_inbox (c : Client) : (readReport c).2.inbox = c.inbox.drop 263 := by
  simp [readReport, receive, List.drop_drop]

theorem slice_take (l : Bytes) {i j n : ℕ} (h : i + j ≤ n) :
    ((l.take n).drop i).take j = (l.drop i).take j := by
  rw [List.drop_take, List.take_take, min_eq_left (by omega)]

theorem readReport_name (c : Client) :
    (readReport c).1.2.1 = resize 255 ((c.inbox.drop 4).take 255) := rfl

theorem readReport_cksum (c : Client) :
    (readReport c).1.2.2 = ofLe (resize 4 (((c.inbox.drop 4).drop 255).take 4)) := rfl

theorem resize_take {n : ℕ} {s : Bytes} (h : n ≤ s.length) : resize n (s.take n) = s.take n :=
  resize_of_length (by rw [List.length_take, min_eq_left h])

/-- What is taken from the stream is the report the client reads, where the stream holds all of
it. -/
theorem wholeReport_consumed {report : Bytes × ℕ} (hread : reportRead c = some report)
    (hin : c'.inbox = (readReport (readResponse c).2).2.inbox) (hwhole : ReadsWhole c) :
    wholeReport (consumed c c') = some report := by
  obtain ⟨-, -, hlen, -⟩ := readResponse_spec c
  have hcode := readResponse_code c
  rw [ReadsWhole] at hwhole
  rw [resize_take (by omega)] at hlen hcode
  set n := (readResponse c).1.payload.length with hn
  have htaken : consumed c c' = c.inbox.take (286 + n) := by
    have hsum : 23 + n + 263 = 286 + n := by omega
    rw [consumed, hin, readReport_inbox, readResponse_inbox, List.drop_drop, List.length_drop,
      hsum, Nat.sub_sub_self hwhole]
  have hhead : (c.inbox.take (286 + n)).take 7 = c.inbox.take 7 := by
    rw [List.take_take, min_eq_left (by omega)]
  have hcode' : ((c.inbox.take (286 + n)).drop 1).take 2 = ((c.inbox.take 7).drop 1).take 2 := by
    rw [slice_take _ (by omega), slice_take _ (by omega)]
  have hrest : (readResponse c).2.inbox = c.inbox.drop (23 + n) := readResponse_inbox c
  have hname : (readReport (readResponse c).2).1.2.1 =
      ((c.inbox.take (286 + n)).drop (27 + n)).take 255 := by
    have hsum : 23 + n + 4 = 27 + n := by omega
    rw [readReport_name, hrest, List.drop_drop, hsum,
      resize_take (by rw [List.length_drop]; omega), slice_take _ (by omega)]
  have hcksum : (readReport (readResponse c).2).1.2.2 =
      ofLe ((c.inbox.take (286 + n)).drop (282 + n)) := by
    have hsum : 23 + n + 4 + 255 = 282 + n := by omega
    have hleft : 286 + n - (282 + n) = 4 := by omega
    rw [readReport_cksum, hrest, List.drop_drop, List.drop_drop, hsum,
      resize_take (by rw [List.length_drop]; omega), List.drop_take, hleft]
  rw [reportRead, hname, hcksum] at hread
  split_ifs at hread with hready
  have hlength : (c.inbox.take (286 + n)).length = 286 + n := by
    rw [List.length_take]
    omega
  rw [htaken, wholeReport]
  simp only [hhead, ← hlen, hcode', ← hcode, hready, hlength, and_self, ↓reduceIte]
  exact hread

theorem wholeReport_cut (hin : c'.inbox = (readReport (readResponse c).2).2.inbox)
    (hcut : ¬ ReadsWhole c) : wholeReport (consumed c c') = none := by
  obtain ⟨-, -, hlen, -⟩ := readResponse_spec c
  rw [ReadsWhole] at hcut
  set n := (readResponse c).1.payload.length with hn
  have htaken : consumed c c' = c.inbox := by
    rw [consumed, hin, readReport_inbox, readResponse_inbox, List.drop_drop,
      List.drop_of_length_le (by omega), List.length_nil, Nat.sub_zero, List.take_length]
  rw [htaken, wholeReport, if_neg]
  rintro ⟨-, hlength⟩
  rw [resize_take (by omega)] at hlen
  omega

end Reading

def note (noted : UInt32) : Event → UInt32
  | .received _ => noted
  | .sent code _ plain =>
    if code = clientCodeSendFile then plain.elim noted cksumOf
    else if code = clientCodeCksumErrFinal then 0
    else noted

structure Took (c c' : Client) (requests : List (ℕ × Bytes)) : Prop where
  written : written c c' = requests
  noted : c'.cksumOfLastFile = (sentEvents c c').foldl note c.cksumOfLastFile
  clientId : c'.clientIdBytes.length = 16

section Requests

variable {E : Externals} {c c' : Client}

theorem written_eq {requests : List (ℕ × Bytes)}
    (hcodes : c'.requestCodes = c.requestCodes ++ requests.map Prod.fst)
    (hbytes : c'.outbox = c.outbox ++ requests.map Prod.snd) : written c c' = requests := by
  rw [written, hcodes, hbytes, List.drop_left, List.drop_left]
  exact (List.zip_of_prod rfl rfl).symm

theorem sentEvents_eq {requests : List (ℕ × Bytes)} (h : written c c' = requests) :
    sentEvents c c' = requests.map (fun request => .sent request.1 request.2 (plainOf c')) := by
  rw [sentEvents, h]

theorem took_quiet (hcodes : c'.requestCodes = c.requestCodes) (hbytes : c'.outbox = c.outbox)
    (hcksum : c'.cksumOfLastFile = c.cksumOfLastFile) (hid : c'.clientIdBytes.length = 16) :
    Took c c' [] := by
  have hwritten : written c c' = [] := written_eq (by simpa using hcodes) (by simpa using hbytes)
  refine ⟨hwritten, ?_, hid⟩
  rw [sentEvents_eq hwritten]
  exact hcksum

theorem took_other {code : ℕ} {data : Bytes} (hcodes : c'.requestCodes = c.requestCodes ++ [code])
    (hbytes : c'.outbox = c.outbox ++ [data]) (hcksum : c'.cksumOfLastFile = c.cksumOfLastFile)
    (hid : c'.clientIdBytes.length = 16) (hsend : code ≠ clientCodeSendFile)
    (hfinal : code ≠ clientCodeCksumErrFinal) : Took c c' [(code, data)] := by
  have hwritten : written c c' = [(code, data)] := written_eq hcodes hbytes
  refine ⟨hwritten, ?_, hid⟩
  rw [sentEvents_eq hwritten]
  simpa [note, hsend, hfinal] using hcksum

theorem plainOf_eq_some {plain : Bytes} : plainOf c = some plain ↔ c.aesKey.length = 16 ∧
    ∃ file, c.files c.filePath = some file ∧ file.take (file.length % 2 ^ 32) = plain := by
  unfold plainOf
  split_ifs with hkey
  · simp [hkey, Option.map_eq_some_iff]
  · simp [hkey]

theorem cksumOf_take (file : Bytes) : cksumOf (file.take (file.length % 2 ^ 32)) = cksumOf file := by
  have hlen : (file.take (file.length % 2 ^ 32)).length = file.length % 2 ^ 32 := by
    rw [List.length_take, min_eq_left (Nat.mod_le _ _)]
  rw [cksumOf, hlen, Nat.mod_mod, List.take_of_length_le hlen.le, cksumOf]

theorem reSendFileToServer_spec (E : Externals) (c : Client) : ∃ data,
    reSendFileToServer E c = { c with
      awaiting := true
      requestCodes := c.requestCodes ++ [clientCodeSendFile]
      outbox := c.outbox ++ [data]
      cksumOfLastFile := (plainOf c).elim c.cksumOfLastFile cksumOf } := by
  cases hload : loadFileContent E c with
  | none =>
    have hplain : plainOf c = none := by
      rw [Option.eq_none_iff_forall_not_mem]
      intro plain hmem
      obtain ⟨hkey, file, hfile, -⟩ := plainOf_eq_some.mp hmem
      rw [loadFileContent_eq_some.mpr ⟨file, hfile, hkey, rfl, rfl⟩] at hload
      cases hload
    rw [reSendFileToServer, hload, hplain]
    exact ⟨_, rfl⟩
  | some loaded =>
    obtain ⟨item, c'⟩ := loaded
    obtain ⟨file, hfile, hkey, rfl, rfl⟩ := loadFileContent_eq_some.mp hload
    have hplain := plainOf_eq_some.mpr ⟨hkey, file, hfile, rfl⟩
    rw [reSendFileToServer, hload, hplain, Option.elim_some, cksumOf_take]
    exact ⟨_, rfl⟩

theorem took_introduction {code : ℕ} {data : Bytes}
    (hcode : code = clientCodeRegister ∨ code = clientCodeSendPublicKey)
    (hcodes : c'.requestCodes = c.requestCodes ++ [code])
    (hbytes : c'.outbox = c.outbox ++ [data]) (hcksum : c'.cksumOfLastFile = c.cksumOfLastFile)
    (hid : c'.clientIdBytes.length = 16) : ∃ requests, Took c c' requests ∧
      ∀ request ∈ requests, request.1 ≠ clientCodeCksumOk := by
  have hsend : code ≠ clientCodeSendFile := by rcases hcode with rfl | rfl <;> decide
  have hfinal : code ≠ clientCodeCksumErrFinal := by rcases hcode with rfl | rfl <;> decide
  have hok : code ≠ clientCodeCksumOk := by rcases hcode with rfl | rfl <;> decide
  refine ⟨[(code, data)], took_other hcodes hbytes hcksum hid hsend hfinal, ?_⟩
  rwa [List.forall_mem_singleton]

theorem took_call (hid : c.clientIdBytes.length = 16) (method : Method) :
    ∃ requests, Took c (method.run E c) requests ∧
      ∀ request ∈ requests, request.1 ≠ clientCodeCksumOk := by
  cases method with
  | registerToServer =>
    simp only [Method.run, registerToServer]
    split_ifs
    · exact took_introduction (.inl rfl) rfl rfl rfl hid
    · exact ⟨[], took_quiet rfl rfl rfl hid, List.forall_mem_nil _⟩
  | generateRSAKeyPair pair =>
    simp only [Method.run, generateRSAKeyPair, savePrivateKey]
    split_ifs
    · exact took_introduction (.inr rfl) rfl rfl rfl hid
    · exact took_introduction (.inr rfl) rfl rfl rfl hid
    · exact ⟨[], took_quiet rfl rfl rfl hid, List.forall_mem_nil _⟩
  | sendFileToServer =>
    rw [Method.run]
    cases hfile : fileToSend c with
    | none =>
      obtain ⟨path, hsend⟩ := sendFileToServer_none (E := E) hfile
      rw [hsend]
      exact ⟨[], took_quiet rfl rfl rfl hid, List.forall_mem_nil _⟩
    | some file =>
      obtain ⟨path, hpath⟩ := loadFilePath_eq c
      obtain ⟨⟨-, -, -, hkey⟩, hcontent⟩ := fileToSend_eq_some.mp hfile
      rw [hpath] at hcontent
      have hplain : plainOf (first E c file) = some (file.take (file.length % 2 ^ 32)) := by
        rw [first, hpath]
        exact plainOf_eq_some.mpr ⟨hkey, file, hcontent, rfl⟩
      have hwritten : written c (first E c file) =
          [(clientCodeSendFile, uploadOf E (loadFilePath c).2 file)] := by
        apply written_eq
        · rw [first, hpath]
          rfl
        · rw [first, hpath]
          rfl
      rw [sendFileToServer_some hfile]
      refine ⟨_, ⟨hwritten, ?_, ?_⟩, ?_⟩
      · rw [sentEvents_eq hwritten, hplain]
        exact (cksumOf_take file).symm
      · rw [first, hpath]
        exact hid
      · have hsend : clientCodeSendFile ≠ clientCodeCksumOk := by decide
        rwa [List.forall_mem_singleton]

theorem took_compareCksums (hid : c.clientIdBytes.length = 16) (filename : Bytes) (cksum : ℕ) :
    ∃ requests, Took c (compareCksums E filename cksum c) requests ∧
      (compareCksums E filename cksum c).inbox = c.inbox ∧
      if c.cksumOfLastFile = UInt32.ofNat cksum then
        requests = [(clientCodeCksumOk, namedOf c clientCodeCksumOk filename)]
      else ∀ request ∈ requests, request.1 ≠ clientCodeCksumOk := by
  have hok : NamesFile clientCodeCksumOk := .inl rfl
  have herr : NamesFile clientCodeCksumErr := .inr (.inl rfl)
  have hfinal : NamesFile clientCodeCksumErrFinal := .inr (.inr rfl)
  rw [compareCksums]
  split_ifs with hsame hleft
  · have hsend : clientCodeCksumOk ≠ clientCodeSendFile := by decide
    have hlast : clientCodeCksumOk ≠ clientCodeCksumErrFinal := by decide
    rw [sendRequestToServer_named hok]
    exact ⟨_, took_other rfl rfl rfl hid hsend hlast, rfl, rfl⟩
  · rw [sendRequestToServer_named herr]
    obtain ⟨data, hresend⟩ := reSendFileToServer_spec E (posted
      [(clientCodeCksumErr, namedOf c clientCodeCksumErr filename)]
        { c with numberOfTrialsTOSendFile := c.numberOfTrialsTOSendFile + 1 })
    rw [hresend]
    have hwritten (c' : Client) (hcodes : c'.requestCodes = c.requestCodes ++ [clientCodeCksumErr] ++
        [clientCodeSendFile]) (hbytes : c'.outbox = c.outbox ++
          [namedOf c clientCodeCksumErr filename] ++ [data]) : written c c' =
        [(clientCodeCksumErr, namedOf c clientCodeCksumErr filename), (clientCodeSendFile, data)] :=
      written_eq (by simp [hcodes]) (by simp [hbytes])
    refine ⟨_, ⟨hwritten _ rfl rfl, ?_, hid⟩, rfl, ?_⟩
    · rw [sentEvents_eq (hwritten _ rfl rfl)]
      rfl
    · simp [clientCodeCksumErr, clientCodeSendFile, clientCodeCksumOk]
  · rw [sendRequestToServer_named hfinal]
    have hwritten : written c (await (posted [(clientCodeCksumErrFinal,
        namedOf c clientCodeCksumErrFinal filename)]
          { c with numberOfTrialsTOSendFile := 1, cksumOfLastFile := 0 })) =
        [(clientCodeCksumErrFinal, namedOf c clientCodeCksumErrFinal filename)] :=
      written_eq rfl rfl
    refine ⟨_, ⟨hwritten, ?_, hid⟩, rfl, ?_⟩
    · rw [sentEvents_eq hwritten]
      rfl
    · have hlast : clientCodeCksumErrFinal ≠ clientCodeCksumOk := by decide
      rwa [List.forall_mem_singleton]

end Requests

section Responses

variable {E : Externals} {c c₂ c' : Client} {requests : List (ℕ × Bytes)}

theorem took_of_same (h : Took c₂ c' requests) (hcodes : c₂.requestCodes = c.requestCodes)
    (hbytes : c₂.outbox = c.outbox) (hcksum : c₂.cksumOfLastFile = c.cksumOfLastFile) :
    Took c c' requests := by
  have hwritten : written c c' = written c₂ c' := by rw [written, written, hcodes, hbytes]
  refine ⟨hwritten.trans h.written, ?_, h.clientId⟩
  rw [h.noted, sentEvents, sentEvents, hwritten, hcksum]

theorem took_report (hid : c.clientIdBytes.length = 16) {report : Bytes × ℕ}
    (hread : reportRead c = some report) :
    ∃ requests, Took c (receiveResponseFromServer E c) requests ∧
      (receiveResponseFromServer E c).inbox = (readReport (readResponse c).2).2.inbox ∧
      if c.cksumOfLastFile = UInt32.ofNat report.2 then
        requests = [(clientCodeCksumOk, namedOf c clientCodeCksumOk report.1)]
      else ∀ request ∈ requests, request.1 ≠ clientCodeCksumOk := by
  obtain ⟨starved, hrest, -, -⟩ := readResponse_spec c
  rw [reportRead] at hread
  split_ifs at hread with hcode
  obtain rfl := Option.some.inj hread
  obtain ⟨c₂, hc₂⟩ : ∃ c₂, c₂ = { (readReport (readResponse c).2).2 with
      responseCodes := (readResponse c).2.responseCodes ++ [serverCodeCksumReady] } := ⟨_, rfl⟩
  have hreceive : receiveResponseFromServer E c = compareCksums E
      (readReport (readResponse c).2).1.2.1 (readReport (readResponse c).2).1.2.2 c₂ := by
    have hother : serverCodeCksumReady ≠ serverCodeRegistrationOk := by decide
    have hother' : serverCodeCksumReady ≠ serverCodeSwitchingKeys := by decide
    rw [receiveResponseFromServer_read, handleResponse, hcode, if_neg hother, if_neg hother',
      if_pos rfl, hc₂]
    rfl
  have hin : c₂.inbox = (readReport (readResponse c).2).2.inbox := by rw [hc₂]
  obtain ⟨hids, hcodes, hbytes, hcksum⟩ : c₂.clientIdBytes = c.clientIdBytes ∧
      c₂.requestCodes = c.requestCodes ∧ c₂.outbox = c.outbox ∧
        c₂.cksumOfLastFile = c.cksumOfLastFile := by
    rw [hc₂, hrest]
    exact ⟨rfl, rfl, rfl, rfl⟩
  have hnamed (code : ℕ) (field : Bytes) : namedOf c₂ code field = namedOf c code field := by
    rw [namedOf, namedOf, hids]
  rw [hreceive]
  obtain ⟨requests, htook, hinbox, hrequests⟩ := took_compareCksums (E := E) (hids ▸ hid)
    (readReport (readResponse c).2).1.2.1 (readReport (readResponse c).2).1.2.2
  rw [hcksum, hnamed] at hrequests
  exact ⟨requests, took_of_same htook hcodes hbytes hcksum, hinbox.trans hin, hrequests⟩

theorem took_otherResponse (hid : c.clientIdBytes.length = 16) (hread : reportRead c = none) :
    Took c (receiveResponseFromServer E c) [] := by
  obtain ⟨starved, hrest, -, hclient⟩ := readResponse_spec c
  have hother : (readResponse c).1.code ≠ serverCodeCksumReady := by
    intro hcode
    simp [reportRead, hcode] at hread
  rw [receiveResponseFromServer_read, handleResponse, saveRegistrationDetails,
    handleAESKeyFromServer, hrest]
  split_ifs
  · exact took_quiet rfl rfl rfl hid
  · exact took_quiet rfl rfl rfl hclient
  · split
    · exact took_quiet rfl rfl rfl hid
    · exact took_quiet rfl rfl rfl hid
  · exact took_quiet rfl rfl rfl hid

end Responses

section Noted

variable {events since : List Event} {event : Event} {upload plain : Bytes} {noted : UInt32}

theorem note_other (h : ¬ IsUpload event) (hkept : ¬ IsGivenUp event) : note noted event = noted := by
  cases event with
  | received response => rfl
  | sent code request plain =>
    have hsend : code ≠ clientCodeSendFile := by
      rintro rfl
      exact h ⟨request, plain, rfl⟩
    have hfinal : code ≠ clientCodeCksumErrFinal := by
      rintro rfl
      exact hkept ⟨request, plain, rfl⟩
    rw [note, if_neg hsend, if_neg hfinal]

theorem note_givenUp (h : IsGivenUp event) : note noted event = 0 := by
  obtain ⟨request, plain, rfl⟩ := h
  rfl

open Classical in
theorem foldl_note (h : ∀ event ∈ since, ¬ IsUpload event) : since.foldl note noted =
    if ∃ event ∈ since, IsGivenUp event then 0 else noted := by
  induction since using List.reverseRecOn with
  | nil => simp
  | append_singleton since event ih =>
    have hupload := h event (by simp)
    rw [List.foldl_append, ih fun other hother => h other (List.mem_append_left _ hother),
      List.foldl_cons, List.foldl_nil]
    by_cases hgiven : IsGivenUp event
    · rw [note_givenUp hgiven, if_pos ⟨event, by simp, hgiven⟩]
    · rw [note_other hupload hgiven]
      simp [or_and_right, exists_or, hgiven]

open Classical in
theorem noted_since (h : LastOf IsUpload events (.sent clientCodeSendFile upload (some plain)) since) :
    events.foldl note noted = if ∃ event ∈ since, IsGivenUp event then 0 else cksumOf plain := by
  rw [h.foldl_eq note (fun _ _ => rfl) noted noted]
  exact foldl_note h.none_since

end Noted

theorem confirmedName_namedOf {c : Client} (hid : c.clientIdBytes.length = 16) {field : Bytes}
    (hfield : field.length = 255) (code : ℕ) : confirmedName (namedOf c code field) = field := by
  have hheader : (ClientRequest.header ⟨c.clientIdBytes, code, field, []⟩).length = 23 := by
    simp [ClientRequest.header, hid]
  rw [confirmedName, namedOf, List.drop_left' hheader, List.take_of_length_le hfield.le]

structure Kept (course : Course) : Prop where
  clientId : course.client.clientIdBytes.length = 16
  noted : course.client.cksumOfLastFile = course.events.foldl note 0

section Run

variable {E : Externals} {course : Course} {step : Step}

theorem supported_iff (h : Kept course) {report : Bytes × ℕ}
    (hread : reportRead course.client = some report)
    (hsame : course.client.cksumOfLastFile = UInt32.ofNat report.2) {c' : Client}
    (hin : c'.inbox = (readReport (readResponse course.client).2).2.inbox) :
    Supported (course.events ++ [.received (consumed course.client c')])
        (namedOf course.client clientCodeCksumOk report.1) ↔
      ∃ upload plain since,
        LastOf IsUpload course.events (.sent clientCodeSendFile upload (some plain)) since ∧
        report.1 = uploadedName upload ∧
        (ReadsWhole course.client ∧ ((∀ event ∈ since, ¬ IsGivenUp event) ∨ cksumOf plain = 0) ∨
          ∃ event ∈ since, Reports (cksumOf plain) event) := by
  have hreceived : ¬ IsUpload (.received (consumed course.client c')) := by
    rintro ⟨request, plain, heq⟩
    cases heq
  have hfield : report.1.length = 255 := by
    rw [reportRead] at hread
    split_ifs at hread
    rw [← Option.some.inj hread]
    exact length_resize _ _
  have hname := confirmedName_namedOf h.clientId hfield clientCodeCksumOk
  constructor
  · rintro ⟨upload, plain, since', hlast, hnames, event, hevent, hreports⟩
    obtain ⟨since, rfl, hlast'⟩ := (lastOf_concat hreceived).mp hlast
    refine ⟨upload, plain, since, hlast', hname.symm.trans hnames, ?_⟩
    rcases List.mem_append.mp hevent with hbefore | hnow
    · exact .inr ⟨event, hbefore, hreports⟩
    · left
      obtain rfl := List.mem_singleton.mp hnow
      obtain ⟨response, report', heq, hwhole, hcksum⟩ := hreports
      obtain rfl := Event.received.inj heq
      have hall : ReadsWhole course.client := by
        by_contra hcut
        rw [wholeReport_cut hin hcut] at hwhole
        cases hwhole
      rw [wholeReport_consumed hread hin hall] at hwhole
      obtain rfl := Option.some.inj hwhole
      refine ⟨hall, ?_⟩
      have hnoted := h.noted
      rw [noted_since hlast', hsame, hcksum] at hnoted
      by_cases hgiven : ∃ event ∈ since, IsGivenUp event
      · exact .inr (by rw [hnoted, if_pos hgiven])
      · exact .inl fun event hevent hup => hgiven ⟨event, hevent, hup⟩
  · rintro ⟨upload, plain, since, hlast, hnames, hsupport⟩
    refine ⟨upload, plain, _, (lastOf_concat hreceived).mpr ⟨since, rfl, hlast⟩,
      hname.trans hnames, ?_⟩
    rcases hsupport with ⟨hall, hcurrent⟩ | ⟨event, hevent, hreports⟩
    · refine ⟨_, List.mem_append_right _ (List.mem_singleton_self _), _, report, rfl,
        wholeReport_consumed hread hin hall, ?_⟩
      rw [← hsame, h.noted, noted_since hlast]
      rcases hcurrent with hnone | hzero
      · rw [if_neg]
        rintro ⟨event, hevent, hup⟩
        exact hnone event hevent hup
      · rw [hzero, ite_self]
    · exact ⟨event, List.mem_append_left _ hevent, hreports⟩

theorem sound_of_other {event : Event} (h : ∀ request plain,
    event ≠ .sent clientCodeCksumOk request plain) (past : List Event) : Sound past event :=
  fun request plain heq => absurd heq (h request plain)

theorem sound_sentEvents {c c' : Client} {requests : List (ℕ × Bytes)} (htook : Took c c' requests)
    (hno : ∀ request ∈ requests, request.1 ≠ clientCodeCksumOk) :
    ∀ event ∈ sentEvents c c', ∀ past, Sound past event := by
  intro event hevent
  rw [sentEvents_eq htook.written] at hevent
  obtain ⟨request, hmem, rfl⟩ := List.mem_map.mp hevent
  refine sound_of_other fun bytes plain heq => ?_
  exact hno request hmem (Event.sent.inj heq).1

theorem fits_of_not_report (h : step = .receive → course.client.awaiting = true →
    ∀ report, reportRead course.client = some report →
      course.client.cksumOfLastFile ≠ UInt32.ofNat report.2) : Fits course step :=
  fun hreceive hawait report hread hsame => absurd hsame (h hreceive hawait report hread)

theorem sentEvents_self (c : Client) : sentEvents c c = [] := by
  simp [sentEvents, written]

theorem Kept.of_took (h : Kept course) {c' : Client} {events : List Event}
    {requests : List (ℕ × Bytes)} (htook : Took course.client c' requests)
    (hevents : events.foldl note course.client.cksumOfLastFile =
      (sentEvents course.client c').foldl note course.client.cksumOfLastFile) :
    Kept ⟨c', course.events ++ events⟩ := by
  refine ⟨htook.clientId, ?_⟩
  rw [List.foldl_append, ← h.noted, hevents]
  exact htook.noted

theorem step_unanswered (h : Kept course) {c' : Client} {requests : List (ℕ × Bytes)}
    (htook : Took course.client c' requests)
    (hno : ∀ request ∈ requests, request.1 ≠ clientCodeCksumOk) (hrun : step.run E course.client = c')
    (hevents : step.events E course.client = sentEvents course.client c')
    (hfits : Fits course step) : Kept (course.step E step) ∧
      (Justified Sound (course.step E step).events ↔
        Justified Sound course.events ∧ Fits course step) := by
  rw [Course.step, hrun, hevents]
  exact ⟨h.of_took htook rfl, (justified_append (sound_sentEvents htook hno)).trans
    (and_iff_left hfits).symm⟩

theorem sound_received (response : Bytes) (past : List Event) : Sound past (.received response) :=
  sound_of_other (fun request plain heq => by cases heq) past

theorem received_unconfirmed {c' : Client} {requests : List (ℕ × Bytes)} (response : Bytes)
    (htook : Took course.client c' requests)
    (hno : ∀ request ∈ requests, request.1 ≠ clientCodeCksumOk) (hfits : Fits course step) :
    Justified Sound (course.events ++ .received response :: sentEvents course.client c') ↔
      Justified Sound course.events ∧ Fits course step := by
  rw [and_iff_left hfits]
  refine justified_append (List.forall_mem_cons.mpr ⟨sound_received response, ?_⟩)
  exact sound_sentEvents htook hno

theorem step_received (h : Kept course) (hawait : course.client.awaiting = true) :
    Kept (course.step E .receive) ∧ (Justified Sound (course.step E .receive).events ↔
      Justified Sound course.events ∧ Fits course .receive) := by
  have hrun : Step.run E course.client .receive = receiveResponseFromServer E course.client := by
    rw [Step.run, if_pos hawait]
  have hevents : Step.events E course.client .receive =
      .received (consumed course.client (receiveResponseFromServer E course.client)) ::
        sentEvents course.client (receiveResponseFromServer E course.client) := by
    rw [Step.events, if_pos hawait, hrun]
  rw [Course.step, hrun, hevents]
  cases hread : reportRead course.client with
  | none =>
    have htook := took_otherResponse (E := E) h.clientId hread
    refine ⟨h.of_took htook rfl, received_unconfirmed _ htook (List.forall_mem_nil _) ?_⟩
    refine fits_of_not_report fun _ _ report hreport => ?_
    rw [hread] at hreport
    cases hreport
  | some report =>
    obtain ⟨requests, htook, hin, hrequests⟩ := took_report (E := E) h.clientId hread
    refine ⟨h.of_took htook rfl, ?_⟩
    split_ifs at hrequests with hsame
    · subst hrequests
      have hfits : Fits course .receive ↔ Supported (course.events ++
          [.received (consumed course.client (receiveResponseFromServer E course.client))])
            (namedOf course.client clientCodeCksumOk report.1) := by
        rw [supported_iff h hread hsame hin]
        constructor
        · exact fun hfits => hfits rfl hawait report hread hsame
        · intro hsupport _ _ report' hread' _
          obtain rfl := Option.some.inj (hread.symm.trans hread')
          exact hsupport
      rw [sentEvents_eq htook.written, List.map_singleton, List.append_cons, justified_concat,
        justified_concat, and_iff_left (sound_received _ _), hfits]
      refine and_congr_right fun _ => ?_
      constructor
      · exact fun hsound => hsound _ _ rfl
      · intro hsupport request plain heq
        obtain ⟨-, rfl, -⟩ := Event.sent.inj heq
        exact hsupport
    · refine received_unconfirmed _ htook hrequests (fits_of_not_report fun _ _ report' hread' => ?_)
      obtain rfl := Option.some.inj (hread.symm.trans hread')
      exact hsame

/-- What one step adds to a run: the confirmations stay supported where the step fits. -/
theorem kept_step (h : Kept course) (step : Step) : Kept (course.step E step) ∧
    (Justified Sound (course.step E step).events ↔
      Justified Sound course.events ∧ Fits course step) := by
  cases step with
  | call method =>
    have hfits : Fits course (.call method) := fits_of_not_report fun heq => by cases heq
    cases hawait : course.client.awaiting with
    | true =>
      have hrun : Step.run E course.client (.call method) = course.client := by
        rw [Step.run, if_pos hawait]
      have htook : Took course.client course.client [] := took_quiet rfl rfl rfl h.clientId
      exact step_unanswered h htook (List.forall_mem_nil _) hrun
        (congrArg (sentEvents course.client) hrun) hfits
    | false =>
      have hrun : Step.run E course.client (.call method) = method.run E course.client := by
        rw [Step.run, hawait]
        rfl
      obtain ⟨requests, htook, hno⟩ := took_call (E := E) h.clientId method
      exact step_unanswered h htook hno hrun (congrArg (sentEvents course.client) hrun) hfits
  | edit files =>
    have hfits : Fits course (.edit files) := fits_of_not_report fun heq => by cases heq
    have htook : Took course.client { course.client with files := files } [] :=
      took_quiet rfl rfl rfl h.clientId
    exact step_unanswered h htook (List.forall_mem_nil _) rfl rfl hfits
  | receive =>
    cases hawait : course.client.awaiting with
    | false =>
      have hfits : Fits course .receive := fits_of_not_report fun _ htrue => by
        rw [hawait] at htrue
        cases htrue
      have hrun : Step.run E course.client .receive = course.client := by
        rw [Step.run, hawait]
        rfl
      have htook : Took course.client course.client [] := took_quiet rfl rfl rfl h.clientId
      refine step_unanswered h htook (List.forall_mem_nil _) hrun ?_ hfits
      rw [Step.events, hawait, sentEvents_self]
      rfl
    | true => exact step_received h hawait

end Run

theorem new_cksumOfLastFile (files : Bytes → Option Bytes) (connects : Bool) :
    (Client.new files connects).cksumOfLastFile = 0 := by
  obtain ⟨name, hex, bytes, key, connected, -, -, hnew⟩ := new_eq files connects
  rw [hnew]

theorem kept_start (files : Bytes → Option Bytes) (connects : Bool) (stream : Bytes) :
    Kept (Course.start files connects stream) := by
  obtain ⟨-, -, -, -, hid, -⟩ := new_idle files connects
  exact ⟨hid, new_cksumOfLastFile files connects⟩

/-- Against any stream, the confirmations of a run are supported exactly where all reports of the
noted checksum fit. -/
theorem confirmations_supported_iff (E : Externals) (files : Bytes → Option Bytes) (connects : Bool)
    (stream : Bytes) (steps : List Step) :
    Justified Sound ((Course.start files connects stream).after E steps).events ↔
      Justified (fun past step => Fits ((Course.start files connects stream).after E past) step)
        steps := by
  have hstep (course : Course) (step : Step) (hkept : Kept course) := kept_step (E := E) hkept step
  have hstart : Justified Sound (Course.start files connects stream).events := justified_nil
  exact (justified_run hstep (kept_start files connects stream) hstart steps).2

/-- Of the answer to its registration a client gets three bytes, and confirms a file it never
sent. -/
theorem cut_report_confirmed : ¬ Justified Sound ((Course.start filesOfA true [3, 55, 8]).after
    plainCiphers [.call .registerToServer, .receive]).events := by
  obtain ⟨registration, confirmation, plain, plain', hevents⟩ :
      ∃ registration confirmation plain plain', ((Course.start filesOfA true [3, 55, 8]).after
        plainCiphers [.call .registerToServer, .receive]).events =
          [.sent clientCodeRegister registration plain, .received [3, 55, 8],
            .sent clientCodeCksumOk confirmation plain'] := ⟨_, _, _, _, rfl⟩
  intro h
  rw [hevents] at h
  obtain ⟨upload, content, since, hlast, -⟩ := h [_, _] _ [] rfl confirmation plain' rfl
  obtain ⟨earlier, hsplit⟩ := hlast.split
  have hmem : Event.sent clientCodeSendFile upload (some content) ∈
      [.sent clientCodeRegister registration plain, .received [3, 55, 8]] := by
    rw [hsplit]
    exact List.mem_append_right _ List.mem_cons_self
  simp [clientCodeSendFile, clientCodeRegister] at hmem

end EncryptedTransfer.Confirmations
