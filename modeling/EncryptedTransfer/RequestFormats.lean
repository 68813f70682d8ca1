import EncryptedTransfer.ClientMessages

/-!
# Requests on the wire

What the two `sendRequestToServer` write, and how a session cuts it up again.
-/
namespace EncryptedTransfer.RequestFormats
open ServerStores hiding Client Client.new
open ByteFormats Text ServerCalls ServerHandlers ServerEffects ServerSession StreamFraming
open CryptoLaws ClientProcess ClientMessages Interaction Program

/-- What the client's methods hand to `sendRequestToServer`. -/
inductive Emission where
  | register (clientName : Bytes) (hname : clientName.length < 4294967296)
  | sendPublicKey (clientId payload : Bytes) (hid : clientId.length = 16)
    (hpayload : payload.length < 4294967296)
  | sendFile (clientId : Bytes) (item : FileItem) (hid : clientId.length = 16)
    (howner : item.clientId.length = 16) (hfield : item.filename.length = 255)
    (hsize : item.contentSize = item.messageContent.length) (hlt : item.contentSize < 4294967296)
  | name (clientId : Bytes) (code : ℕ) (field : Bytes) (hid : clientId.length = 16)
    (hcode : NamesFile code) (hfield : field.length = 255)

namespace Emission

def clientId : Emission → Bytes
  | register _ _ => List.replicate 16 0
  | sendPublicKey clientId _ _ _ | sendFile clientId _ _ _ _ _ _ | name clientId _ _ _ _ _ => clientId

def code : Emission → ℕ
  | register _ _ => clientCodeRegister
  | sendPublicKey _ _ _ _ => clientCodeSendPublicKey
  | sendFile _ _ _ _ _ _ _ => clientCodeSendFile
  | name _ code _ _ _ _ => code

def payload : Emission → Bytes
  | register clientName _ => clientName
  | sendPublicKey _ payload _ _ => payload
  | sendFile _ _ _ _ _ _ _ | name _ _ _ _ _ _ => []

def field : Emission → Option Bytes
  | register _ _ | sendPublicKey _ _ _ _ => none
  | sendFile _ item _ _ _ _ _ => some item.filename
  | name _ _ field _ _ _ => some field

def content : Emission → Bytes
  | sendFile _ item _ _ _ _ _ => item.messageContent
  | register _ _ | sendPublicKey _ _ _ _ | name _ _ _ _ _ _ => []

/-- What the handler reads after the payload, one list for each read. -/
def fields : Emission → List Bytes
  | register _ _ | sendPublicKey _ _ _ _ => []
  | sendFile _ item _ _ _ _ _ =>
    [item.clientId ++ (leBytes 4 item.contentSize ++ item.filename), item.messageContent]
  | name _ _ field _ _ _ => [field]

def send : Emission → Client → Client
  | register clientName _ =>
    sendRequestToServer ⟨List.replicate 16 0, clientCodeRegister, [], clientName⟩
  | sendPublicKey clientId payload _ _ =>
    sendRequestToServer ⟨clientId, clientCodeSendPublicKey, [], payload⟩
  | sendFile clientId item _ _ _ _ _ => sendFileItem ⟨clientId, clientCodeSendFile, [], []⟩ item
  | name clientId code field _ _ _ => sendRequestToServer ⟨clientId, code, field, []⟩

end Emission

def plainMessage (clientId payload : Bytes) (code : ℕ) (hid : clientId.length = 16)
    (hcode : code = clientCodeRegister ∨ code = clientCodeSendPublicKey)
    (hpayload : payload.length < 4294967296) : Message where
  clientId := clientId
  version := clientVersion
  code := code
  payload := payload
  tail := []
  clientId_length := hid
  version_lt := clientVersion_lt
  code_lt := by rcases hcode with rfl | rfl <;> decide
  payload_lt := hpayload
  tail_of := by rcases hcode with rfl | rfl <;> rfl

theorem sendRequestToServer_plain {clientId payload : Bytes} {code : ℕ} (hid : clientId.length = 16)
    (hcode : code = clientCodeRegister ∨ code = clientCodeSendPublicKey)
    (hpayload : payload.length < 4294967296) (c : Client) :
    sendRequestToServer ⟨clientId, code, [], payload⟩ c =
      post code (plainMessage clientId payload code hid hcode hpayload).encode c := by
  have hsize : (⟨clientId, code, [], payload⟩ : ClientRequest).payloadSize = payload.length := by
    simp only [ClientRequest.payloadSize]
    omega
  have hname : ¬ (code = clientCodeCksumOk ∨ code = clientCodeCksumErr ∨
      code = clientCodeCksumErrFinal) := by
    rcases hcode with rfl | rfl <;> decide
  simp only [sendRequestToServer, ClientRequest.header, hsize, List.take_length]
  rw [if_neg hname]
  simp [Message.encode, Message.header, plainMessage]

namespace Emission

def message : Emission → Message
  | register clientName hname =>
    plainMessage (List.replicate 16 0) clientName clientCodeRegister noId_length (.inl rfl) hname
  | sendPublicKey clientId payload hid hpayload =>
    plainMessage clientId payload clientCodeSendPublicKey hid (.inr rfl) hpayload
  | sendFile clientId item hid howner hfield hsize hlt =>
    uploadMessage clientId item.clientId item.filename item.messageContent hid howner hfield
      (hsize ▸ hlt)
  | name clientId code field hid hcode hfield => nameMessage clientId code field hid hcode hfield

theorem send_eq (emission : Emission) (c : Client) :
    emission.send c = post emission.code emission.message.encode c := by
  cases emission with
  | register clientName hname =>
    exact sendRequestToServer_plain List.length_replicate (.inl rfl) hname c
  | sendPublicKey clientId payload hid hpayload =>
    exact sendRequestToServer_plain hid (.inr rfl) hpayload c
  | sendFile clientId item hid howner hfield hsize hlt =>
    have htake : item.messageContent.take item.contentSize = item.messageContent := by
      rw [hsize, List.take_length]
    have hcontent : (item.messageContent.take item.contentSize).length < 4294967296 := by
      rw [htake, ← hsize]
      exact hlt
    refine (sendFileItem_eq hid howner hcontent hsize.le c).trans ?_
    simp only [htake, resize_of_length hfield]
    rfl
  | name clientId code field hid hcode hfield => exact sendRequestToServer_name hid hcode hfield c

theorem request_message (emission : Emission) : emission.message.request =
    ⟨emission.clientId, clientVersion, emission.code, emission.payload.length⟩ := by
  cases emission <;> rfl

theorem payload_message (emission : Emission) : emission.message.payload = emission.payload := by
  cases emission <;> rfl

def sendAll (emissions : List Emission) (c : Client) : Client :=
  emissions.foldl (fun c emission => emission.send c) c

theorem outbox_sendAll (emissions : List Emission) (c : Client) :
    (sendAll emissions c).outbox = c.outbox ++ emissions.map (fun e => e.message.encode) := by
  induction emissions generalizing c with
  | nil => exact (List.append_nil _).symm
  | cons e emissions ih =>
    have hstep : sendAll (e :: emissions) c = sendAll emissions (e.send c) := rfl
    rw [hstep, ih, e.send_eq]
    simp [post]

end Emission

section Session

variable {δ : Type} [FileSystem δ] (E : Externals)

def afterTurns : (ℕ → Draws) → ℕ → World δ → World δ
  | _, 0, w => w
  | envs, n + 1, w => afterTurns (fun i => envs (i + 1)) n (turn E .whole (envs 0) w).2

/-- Every request is a registration, or its id is registered when the session comes to it. -/
def Known : (ℕ → Draws) → List Emission → World δ → Prop
  | _, [], _ => True
  | envs, e :: emissions, w =>
    (e.code = clientCodeRegister ∨ w.server.database.clientExistsById e.clientId = true) ∧
      Known (fun i => envs (i + 1)) emissions (turn E .whole (envs 0) w).2

/-- A request as the session should take it. -/
def Emission.handled (e : Emission) : Handled :=
  ⟨⟨e.clientId, clientVersion, e.code, e.payload.length⟩, e.payload, e.fields⟩

/-- The connection once so many bytes have been read, read by read. -/
def readAll (sizes : List ℕ) (conn : Conn) : Conn :=
  sizes.foldl (fun conn n => (conn.recv .whole n).2) conn

/-- What the turn of a request with a name field does is done under the name its text stands for:
without outer NUL characters, and in lower case but for the notice of a mismatch, which is only
printed. -/
def HandledAs (env : Draws) (e : Emission) (text : Str) (w : World δ) : Prop :=
  let request : Request := ⟨e.clientId, clientVersion, e.code, e.payload.length⟩
  let before : World δ := ⟨w.server, readAll [23, e.payload.length] w.conn⟩
  let after : World δ :=
    ⟨w.server, readAll (23 :: e.payload.length :: e.fields.map List.length) w.conn⟩
  let filename := E.lower (stripNul text)
  match kindOf e.code with
  | .sendFile => (turn E .whole env w).2 =
      (run (machine E env .whole) (processFileContent E request filename e.content) after).2
  | .cksumOk => (turn E .whole env w).2 =
      (run (machine E env .whole) (do
        host (.updateCksumVerification e.clientId filename true)
        respond serverCodeMessageReceived e.clientId) after).2
  | .cksumErrFinal => (turn E .whole env w).2 =
      (run (machine E env .whole) (do
        deleteFile e.clientId filename
        respond serverCodeMessageReceived e.clientId) after).2
  | .cksumErr =>
    run (machine E env .whole) (cksumErrNotice request) before =
        (.ok (w.server.database.getClientName e.clientId, stripNul text), after) ∧
      (turn E .whole env w).2 = after
  | .register | .sendPublicKey | .unknown => True

variable {E}

/-- The turn of a message handles it on the connection from which its header and payload are
read. -/
theorem turn_message (env : Draws) {w : World δ} {m : Message} {rest : Bytes}
    (h : w.conn.inbox = m.encode ++ rest) :
    (turn E .whole env w).2 = (run (machine E env .whole) (handleRequest E m.request m.payload)
        ⟨w.server, readAll [23, m.payload.length] w.conn⟩).2 ∧
      (readAll [23, m.payload.length] w.conn).inbox = m.tail ++ rest := by
  have hsplit : w.conn.inbox = m.header ++ (m.payload ++ (m.tail ++ rest)) := by
    rw [h, Message.encode, List.append_assoc, List.append_assoc]
  have hheader : headerOf (w.conn.recv .whole 23).1 = some m.request := by
    rw [recv_whole, hsplit, List.take_left' m.header_length, m.headerOf_header]
  have hsize : m.request.payloadSize = m.payload.length := rfl
  have hpayload : ((w.conn.recv .whole 23).2.recv .whole m.payload.length).1 = m.payload := by
    simp only [recv_whole, hsplit, List.drop_left' m.header_length, List.take_left]
  rw [turn_of_header E .whole env hheader, hsize]
  simp only [hpayload]
  refine ⟨rfl, ?_⟩
  simp only [readAll, List.foldl_cons, List.foldl_nil, recv_whole, hsplit,
    List.drop_left' m.header_length, List.drop_left]

theorem conserved_run (env : Draws) {α : Type} (p : Proc α) (w : World δ) :
    (run (machine E env .whole) p w).2.conn.received.flatten ++
        (run (machine E env .whole) p w).2.conn.inbox =
      w.conn.received.flatten ++ w.conn.inbox := by
  refine run_keeps (machine E env .whole)
    (P := fun w' => w'.conn.received.flatten ++ w'.conn.inbox =
      w.conn.received.flatten ++ w.conn.inbox) ?_ p rfl
  intro c w' hw'
  cases c with
  | recv n =>
    rw [← hw', machine_recv, recv_whole]
    simp
  | send data => exact hw'
  | host c => exact hw'

theorem conserved_turn (env : Draws) (w : World δ) :
    (turn E .whole env w).2.conn.received.flatten ++ (turn E .whole env w).2.conn.inbox =
      w.conn.received.flatten ++ w.conn.inbox := by
  have hreceive := conserved_run (E := E) env receiveRequest w
  rw [turn]
  generalize run (machine E env .whole) receiveRequest w = received at hreceive ⊢
  rcases received with ⟨_ | _ | ⟨request, payload⟩, w'⟩
  · exact hreceive
  · exact hreceive
  · rw [← hreceive]
    exact conserved_run env _ w'

theorem conserved_afterTurns (envs : ℕ → Draws) (n : ℕ) (w : World δ) :
    (afterTurns E envs n w).conn.received.flatten ++ (afterTurns E envs n w).conn.inbox =
      w.conn.received.flatten ++ w.conn.inbox := by
  induction n generalizing envs w with
  | zero => rfl
  | succ n ih => rw [afterTurns, ih, conserved_turn]

theorem handlerReads_message (e : Emission) (db : Database) (rest : Bytes)
    (hpass : e.code = clientCodeRegister ∨ db.clientExistsById e.clientId = true)
    (htext : ∀ field, e.field = some field → (decodeUtf8 field).isSome = true) :
    handlerReads E e.message.request db (e.message.tail ++ rest) = e.fields := by
  rw [handlerReads, e.request_message, if_pos hpass]
  cases e with
  | register clientName hname => rfl
  | sendPublicKey clientId payload hid hpayload => rfl
  | sendFile clientId item hid howner hfield hsize hlt =>
    obtain ⟨text, hdecode⟩ := Option.isSome_iff_exists.mp (htext _ rfl)
    have hlt' : item.messageContent.length < 4294967296 := hsize ▸ hlt
    have hparts : (Emission.sendFile clientId item hid howner hfield hsize hlt).message.tail ++ rest =
        (item.clientId ++ (leBytes 4 item.messageContent.length ++ item.filename)) ++
          (item.messageContent ++ rest) := by
      simp [Emission.message, uploadMessage]
    have hlen : (item.clientId ++ (leBytes 4 item.messageContent.length ++ item.filename)).length =
        275 := by
      simp [howner, hfield]
    have hheader := uploadHeader_append E howner hfield hlt'
    rw [hparts, List.take_left' hlen, List.drop_left' hlen, hheader]
    simp [filenameOf, hdecode, Emission.fields, hsize, Emission.code, kindOf, clientCodeSendFile,
      clientCodeRegister, clientCodeSendPublicKey]
  | name clientId code field hid hcode hfield =>
    have htake : (field ++ rest).take 255 = field := List.take_left' hfield
    rcases hcode with rfl | rfl | rfl
    · exact congrArg (fun bytes => [bytes]) htake
    · exact congrArg (fun bytes => [bytes]) htake
    · exact congrArg (fun bytes => [bytes]) htake

theorem tailRead_message (e : Emission) {db : Database}
    (hpass : e.code = clientCodeRegister ∨ db.clientExistsById e.clientId = true)
    (htext : ∀ field, e.field = some field → (decodeUtf8 field).isSome = true) :
    e.message.TailRead db := by
  refine (e.message.handlerReads_tail plainCiphers db []).mp ?_
  rw [handlerReads_message e db [] hpass htext]
  cases e with
  | register clientName hname => rfl
  | sendPublicKey clientId payload hid hpayload => rfl
  | sendFile clientId item hid howner hfield hsize hlt =>
    simp [Emission.fields, Emission.message, uploadMessage, hsize]
  | name clientId code field hid hcode hfield => exact List.append_nil field

/-- Every handler that has a name field works with the name. -/
theorem handledAs_message (env : Draws) (e : Emission) {w : World δ} {rest : Bytes}
    (hinbox : w.conn.inbox = e.message.encode ++ rest)
    (hpass : e.code = clientCodeRegister ∨ w.server.database.clientExistsById e.clientId = true)
    {field : Bytes} (hfield : e.field = some field) {text : Str}
    (htext : decodeUtf8 field = some text) : HandledAs E env e text w := by
  obtain ⟨hturn, hbefore⟩ := turn_message (E := E) env hinbox
  rw [e.request_message, e.payload_message, run_handleRequest E env .whole hpass, dispatch_eq]
    at hturn
  rw [e.payload_message] at hbefore
  have hname : filenameOf E field = some (E.lower (stripNul text)) := by
    rw [filenameOf, htext, Option.map_some]
  have hafter : readAll (23 :: e.payload.length :: e.fields.map List.length) w.conn =
      readAll (e.fields.map List.length) (readAll [23, e.payload.length] w.conn) := rfl
  simp only [HandledAs, hafter]
  generalize readAll [23, e.payload.length] w.conn = conn at hturn hbefore ⊢
  cases e with
  | register clientName hname => cases hfield
  | sendPublicKey clientId payload hid hpayload => cases hfield
  | sendFile clientId item hid howner hlength hsize hlt =>
    obtain rfl := Option.some.inj hfield
    let head := item.clientId ++ (leBytes 4 item.messageContent.length ++ item.filename)
    have hhead : head.length = 275 := by simp [head, howner, hlength]
    have hinbox' : conn.inbox = head ++ (item.messageContent ++ rest) := by
      simp [hbefore, head, Emission.message, uploadMessage]
    have hrecv : (conn.recv .whole 275).1 = head := by
      rw [recv_whole, hinbox', List.take_left' hhead]
    have hcontent : ((conn.recv .whole 275).2.recv .whole item.messageContent.length).1 =
        item.messageContent := by
      simp only [recv_whole, hinbox', List.drop_left' hhead, List.take_left]
    have hheader : uploadHeader E (conn.recv .whole 275).1 =
        some (item.messageContent.length, E.lower (stripNul text)) := by
      rw [hrecv, uploadHeader_append E howner hlength (hsize ▸ hlt), hname, Option.map_some]
    have hread : readAll ([head, item.messageContent].map List.length) conn =
        ((conn.recv .whole 275).2.recv .whole item.messageContent.length).2 := by
      simp only [readAll, List.map_cons, List.map_nil, hhead, List.foldl_cons, List.foldl_nil]
    have hfields : (Emission.sendFile clientId item hid howner hlength hsize hlt).fields =
        [head, item.messageContent] := by
      simp only [Emission.fields, hsize, head]
    rw [hfields, hread]
    refine hturn.trans ?_
    have hkind : kindOf clientCodeSendFile = .sendFile := rfl
    simp only [Emission.code, hkind]
    rw [run_handleFileRequest E env .whole hheader, hcontent]
    rfl
  | name clientId code field' hid hcode hlength =>
    obtain rfl := Option.some.inj hfield
    have hrecv : (conn.recv .whole 255).1 = field' := by
      have htail : (Emission.name clientId code field' hid hcode hlength).message.tail = field' := rfl
      rw [recv_whole, hbefore, htail, List.take_left' hlength]
    have hread : readAll ((Emission.name clientId code field' hid hcode hlength).fields.map
        List.length) conn = (conn.recv .whole 255).2 := by
      simp only [Emission.fields, List.map_cons, List.map_nil, hlength]
      rfl
    have hname' : filenameOf E (conn.recv .whole 255).1 = some (E.lower (stripNul text)) := by
      rw [hrecv, hname]
    simp only [hread]
    rcases hcode with rfl | rfl | rfl
    · exact hturn.trans (run_handleCksumOk_named E env .whole hname')
    · have htext' : decodeUtf8 (conn.recv .whole 255).1 = some text := by rw [hrecv, htext]
      exact ⟨run_cksumErrNotice E env .whole htext',
        hturn.trans (congrArg Prod.snd (run_handleCksumErr E env .whole _ _))⟩
    · exact hturn.trans (run_handleCksumErrFinal_named E env .whole hname')

theorem turns_decode (envs : ℕ → Draws) (emissions : List Emission) {n : ℕ} {w : World δ}
    (hinbox : w.conn.inbox = emissions.flatMap (fun e => e.message.encode))
    (hn : w.conn.inbox.length ≤ n) (hknown : Known E envs emissions w)
    (htexts : ∀ e ∈ emissions, ∀ field, e.field = some field → (decodeUtf8 field).isSome = true) :
    turns E .whole envs n w = emissions.map Emission.handled ∧
      (afterTurns E envs emissions.length w).conn.inbox = [] ∧
      ∀ i e, emissions[i]? = some e → ∀ field, e.field = some field →
        ∃ text, decodeUtf8 field = some text ∧
          HandledAs E (envs i) e text (afterTurns E envs i w) := by
  induction emissions generalizing envs n w with
  | nil =>
    have hempty : w.conn.inbox = [] := hinbox
    have hnext : nextRequest E w.server.database w.conn.inbox = none := by
      rw [hempty]
      rfl
    refine ⟨?_, hempty, by simp⟩
    cases n with
    | zero => rfl
    | succ n =>
      rw [turns_succ, turn_whole, hnext]
      rfl
  | cons e emissions ih =>
    rw [List.flatMap_cons] at hinbox
    obtain ⟨hpass, hknown⟩ := hknown
    have htext := htexts e (List.mem_cons_self ..)
    obtain ⟨hturn, hrest⟩ := turn_encode E (envs 0) hinbox
    have htail : e.message.TailRead w.server.database := tailRead_message e hpass htext
    have hlt := turn_shortens E .whole hturn
    rw [handlerReads_message e _ _ hpass htext, e.request_message, e.payload_message] at hturn
    cases n with
    | zero => omega
    | succ n =>
      obtain ⟨hturns, hend, hlater⟩ := ih (fun i => envs (i + 1)) (hrest htail) (n := n)
        (by omega) hknown
        (fun e' he' => htexts e' (List.mem_cons_of_mem _ he'))
      refine ⟨?_, hend, fun i e' hi field hfield => ?_⟩
      · rw [turns_succ, hturn]
        exact congrArg (e.handled :: ·) hturns
      · cases i with
        | zero =>
          obtain rfl : e = e' := Option.some.inj hi
          obtain ⟨text, hdecode⟩ := Option.isSome_iff_exists.mp (htext field hfield)
          exact ⟨text, hdecode, handledAs_message (envs 0) e hinbox hpass hfield hdecode⟩
        | succ i => exact hlater i e' hi field hfield

/-- A session takes the requests that the client has written, each with the id, version, code,
payload and parts that were put into it, reads every byte once, and handles each with a name field
under the name its text stands for. -/
theorem session_decodes (E : Externals) (s : Server δ) (envs : ℕ → Draws)
    (emissions : List Emission) {c : Client} (hc : c.outbox = [])
    (hknown : Known E envs emissions ⟨s, opened (Emission.sendAll emissions c).outbox.flatten⟩)
    (htexts : ∀ e ∈ emissions, ∀ field, e.field = some field → (decodeUtf8 field).isSome = true) :
    let stream := (Emission.sendAll emissions c).outbox.flatten
    session E .whole envs ⟨s, opened stream⟩ = emissions.map Emission.handled ∧
      (afterTurns E envs emissions.length ⟨s, opened stream⟩).conn.inbox = [] ∧
      (afterTurns E envs emissions.length ⟨s, opened stream⟩).conn.received.flatten = stream ∧
      ∀ i e, emissions[i]? = some e → ∀ field, e.field = some field →
        ∃ text, decodeUtf8 field = some text ∧
          HandledAs E (envs i) e text (afterTurns E envs i ⟨s, opened stream⟩) := by
  intro stream
  have hstream : stream = emissions.flatMap (fun e => e.message.encode) := by
    simp only [stream, Emission.outbox_sendAll, hc, List.nil_append, List.flatMap_def]
  obtain ⟨hsession, hend, hnames⟩ := turns_decode (E := E) envs emissions (w := ⟨s, opened stream⟩)
    hstream le_rfl hknown htexts
  refine ⟨hsession, hend, ?_, hnames⟩
  have hall := conserved_afterTurns (E := E) envs emissions.length ⟨s, opened stream⟩
  rw [hend, List.append_nil] at hall
  exact hall

/-- No turn takes a registration back. -/
theorem exists_turn (env : Draws) (w : World δ) {clientId : Bytes}
    (h : w.server.database.clientExistsById clientId = true) :
    (turn E .whole env w).2.server.database.clientExistsById clientId = true := by
  have hkeeps {α : Type} (p : Proc α) {w : World δ}
      (hw : w.server.database.clientExistsById clientId = true) :
      (run (machine E env .whole) p w).2.server.database.clientExistsById clientId = true := by
    refine run_keeps (machine E env .whole)
      (P := fun w => w.server.database.clientExistsById clientId = true) ?_ p hw
    intro c w hw
    cases c with
    | host c => exact exists_hostCall E env c w.server clientId hw
    | _ => exact hw
  have hreceive := hkeeps receiveRequest h
  rw [turn]
  generalize run (machine E env .whole) receiveRequest w = received at hreceive ⊢
  rcases received with ⟨_ | _ | ⟨request, payload⟩, w'⟩
  · exact hreceive
  · exact hreceive
  · exact hkeeps _ hreceive

theorem known_of_registered (envs : ℕ → Draws) {emissions : List Emission} {w : World δ}
    (h : ∀ e ∈ emissions, e.code = clientCodeRegister ∨
      w.server.database.clientExistsById e.clientId = true) : Known E envs emissions w := by
  induction emissions generalizing envs w with
  | nil => trivial
  | cons e emissions ih =>
    refine ⟨h e List.mem_cons_self, ih _ fun e' he' => ?_⟩
    exact (h e' (List.mem_cons_of_mem e he')).imp_right (exists_turn (envs 0) w)

end Session

def serverOfA : Server KeyedDisk := ServerConsistency.register [] (List.replicate 16 1) ['a'] .empty

def fieldA : Bytes := padField 255 ['A']

theorem fieldA_length : fieldA.length = 255 := length_padField (by decide)

def confirmA : Emission :=
  .name (List.replicate 16 1) clientCodeCksumOk fieldA List.length_replicate (.inl rfl)
    fieldA_length

def streamOfA : Bytes :=
  (Emission.sendAll [confirmA] (Client.new (fun _ => none) false)).outbox.flatten

theorem known_confirmA :
    Known plainCiphers (fun _ => constantDraws 2) [confirmA] ⟨serverOfA, opened streamOfA⟩ :=
  ⟨.inr rfl, trivial⟩

theorem decodeUtf8_fieldA : decodeUtf8 fieldA = some ('A' :: List.replicate 254 nul) :=
  decodeUtf8_padField 255 ['A']

theorem nameOfB_lt : (padField 255 ['b']).length < 4294967296 := by
  rw [length_padField (by decide)]
  decide

def keyPayload : Bytes := padField 255 ['a'] ++ derKey

theorem keyPayload_lt : keyPayload.length < 4294967296 := by
  rw [keyPayload, List.length_append, length_padField (by decide), length_derKey]
  decide

/-- It sends the file `A`, is sent another checksum, sends it again, and confirms it; then a client
`b` is registered, the first one renews its key, and gives the file up. -/
def dialogueOfA : List Emission :=
  let upload : Emission := .sendFile (List.replicate 16 1)
    ⟨List.replicate 16 1, 16, fieldA, pkcs7Pad [7]⟩ List.length_replicate List.length_replicate
    fieldA_length rfl (by decide)
  let naming (code : ℕ) (hcode : NamesFile code) : Emission :=
    .name (List.replicate 16 1) code fieldA List.length_replicate hcode fieldA_length
  [upload, naming clientCodeCksumErr (.inr (.inl rfl)), upload, confirmA,
    .register (padField 255 ['b']) nameOfB_lt,
    .sendPublicKey (List.replicate 16 1) keyPayload List.length_replicate keyPayload_lt,
    naming clientCodeCksumErrFinal (.inr (.inr rfl))]

theorem session_decodes_dialogueOfA :
    let stream := (Emission.sendAll dialogueOfA (Client.new (fun _ => none) false)).outbox.flatten
    session plainCiphers .whole (fun _ => constantDraws 2) ⟨serverOfA, opened stream⟩ =
        dialogueOfA.map Emission.handled ∧
      (afterTurns plainCiphers (fun _ => constantDraws 2) dialogueOfA.length
        ⟨serverOfA, opened stream⟩).conn.inbox = [] ∧
      (afterTurns plainCiphers (fun _ => constantDraws 2) dialogueOfA.length
        ⟨serverOfA, opened stream⟩).conn.received.flatten = stream ∧
      ∀ i e, dialogueOfA[i]? = some e → ∀ field, e.field = some field →
        ∃ text, decodeUtf8 field = some text ∧
          HandledAs plainCiphers (constantDraws 2) e text
            (afterTurns plainCiphers (fun _ => constantDraws 2) i ⟨serverOfA, opened stream⟩) := by
  have htexts : ∀ e ∈ dialogueOfA, ∀ field, e.field = some field →
      (decodeUtf8 field).isSome = true := by
    have hfields : ∀ e ∈ dialogueOfA, e.field = none ∨ e.field = some fieldA := by
      simp [dialogueOfA, Emission.field, confirmA]
    intro e he field hfield
    rcases hfields e he with hnone | hsome
    · rw [hnone] at hfield
      cases hfield
    · rw [← Option.some.inj (hsome.symm.trans hfield), decodeUtf8_fieldA, Option.isSome_some]
  have hids : ∀ e ∈ dialogueOfA, e.code = clientCodeRegister ∨
      e.clientId = List.replicate 16 1 := by
    simp [dialogueOfA, Emission.code, Emission.clientId, confirmA]
  have hregistered : serverOfA.database.clientExistsById (List.replicate 16 1) = true := rfl
  have hnew : (Client.new (fun _ => none) false).outbox = [] := rfl
  exact session_decodes plainCiphers serverOfA (fun _ => constantDraws 2) dialogueOfA hnew
    (known_of_registered _ fun e he => (hids e he).imp_right fun h => by rw [h]; exact hregistered)
    htexts

/-- The text of its name field is `A`, and the name the handler works with is `a`. -/
theorem name_lowered :
    Known plainCiphers (fun _ => constantDraws 2) [confirmA] ⟨serverOfA, opened streamOfA⟩ ∧
      (decodeUtf8 fieldA).map stripNul = some ['A'] ∧
      ∀ (env : Draws) (w : World KeyedDisk),
        run (machine plainCiphers env .whole) (readFilename plainCiphers fieldA) w =
          (.ok ['a'], w) := by
  have hstrip : stripNul ('A' :: List.replicate 254 nul) = ['A'] :=
    stripNul_append_replicate (s := ['A']) (by decide) 254
  refine ⟨known_confirmA, ?_, fun env w => ?_⟩
  · rw [decodeUtf8_fieldA, Option.map_some, hstrip]
  · rw [run_readFilename, filenameOf, decodeUtf8_fieldA, Option.map_some, hstrip]
    rfl

end EncryptedTransfer.RequestFormats
