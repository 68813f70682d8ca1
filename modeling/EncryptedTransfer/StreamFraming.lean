import EncryptedTransfer.CryptoLaws
import EncryptedTransfer.ServerSession

/-!
# Requests in a stream of bytes

When a session cuts its stream into requests as the sender has joined them: against a
connection that delivers pieces, and against requests that are turned away or fail.
-/
namespace EncryptedTransfer.StreamFraming
open ByteFormats Text ServerStores ServerCalls ServerHandlers ServerEffects ServerSession
open CryptoLaws

/-- What follows the payload of a well-formed request of each kind. -/
def TailOf : Kind → Bytes → Prop
  | .sendFile, tail => ∃ owner field content : Bytes, owner.length = 16 ∧ field.length = 255 ∧
      content.length < 4294967296 ∧ tail = owner ++ (leBytes 4 content.length ++ (field ++ content))
  | .cksumOk, tail | .cksumErr, tail | .cksumErrFinal, tail => tail.length = 255
  | .register, tail | .sendPublicKey, tail | .unknown, tail => tail = []

/-- A well-formed request: the header, the payload it announces, and what the handler of its
kind reads by itself. -/
structure Message where
  clientId : Bytes
  version : ℕ
  code : ℕ
  payload : Bytes
  tail : Bytes
  clientId_length : clientId.length = 16
  version_lt : version < 256
  code_lt : code < 65536
  payload_lt : payload.length < 4294967296
  tail_of : TailOf (kindOf code) tail

namespace Message

def request (m : Message) : Request := ⟨m.clientId, m.version, m.code, m.payload.length⟩

def header (m : Message) : Bytes :=
  m.clientId ++ (leBytes 1 m.version ++ (leBytes 2 m.code ++ leBytes 4 m.payload.length))

def encode (m : Message) : Bytes := m.header ++ (m.payload ++ m.tail)

theorem header_length (m : Message) : m.header.length = 23 := by
  simp [header, m.clientId_length]

theorem headerOf_header (m : Message) : headerOf m.header = some m.request := by
  have hpack : pack requestFormat (m.clientId, m.version, m.code, m.payload.length, ()) =
      some m.header := by
    have hid := m.clientId_length
    simp [pack, Field.pack, m.version_lt, m.code_lt, m.payload_lt, hid, header,
      List.take_of_length_le]
  have hfits : Fits requestFormat (m.clientId, m.version, m.code, m.payload.length, ()) :=
    ⟨m.clientId_length, m.version_lt, m.code_lt, m.payload_lt, trivial⟩
  rw [headerOf, unpack_pack hfits hpack]
  rfl

variable (E : Externals) (db : Database) (m : Message) (rest : Bytes)

theorem nextRequest_encode :
    nextRequest E db (m.encode ++ rest) =
      some ⟨m.request, m.payload, handlerReads E m.request db (m.tail ++ rest)⟩ := by
  have hsplit : m.encode ++ rest = m.header ++ (m.payload ++ (m.tail ++ rest)) := by
    simp [encode]
  have hpayload : m.request.payloadSize = m.payload.length := rfl
  rw [nextRequest, hsplit, List.take_left' m.header_length, m.headerOf_header,
    List.drop_left' m.header_length, Option.map_some, hpayload, List.take_left, List.drop_left]

/-- Whether the whole tail is read: there is none, or the client is registered and the name
of an upload with content is valid UTF-8. -/
def TailRead : Prop :=
  m.tail = [] ∨ (m.code = clientCodeRegister ∨ db.clientExistsById m.clientId = true) ∧
    (kindOf m.code = .sendFile → 275 < m.tail.length →
      (decodeUtf8 ((m.tail.drop 20).take 255)).isSome = true)

theorem handlerReads_tail :
    (handlerReads E m.request db (m.tail ++ rest)).flatten = m.tail ↔ m.TailRead db := by
  have htail := m.tail_of
  have hcode : m.request.code = m.code := rfl
  have hid : m.request.clientId = m.clientId := rfl
  rw [handlerReads, TailRead, hcode, hid]
  by_cases hpass : m.code = clientCodeRegister ∨ db.clientExistsById m.clientId = true
  swap
  · rw [if_neg hpass]
    simp only [List.flatten_nil, hpass, false_and, or_false]
    exact eq_comm
  rw [if_pos hpass]
  simp only [hpass, true_and]
  cases hk : kindOf m.code with
  | register | sendPublicKey | unknown =>
    rw [hk] at htail
    simp [show m.tail = [] from htail]
  | cksumOk | cksumErr | cksumErrFinal =>
    rw [hk] at htail
    have htake : (m.tail ++ rest).take 255 = m.tail := List.take_left' htail
    simp [htake]
  | sendFile =>
    rw [hk] at htail
    obtain ⟨owner, field, content, howner, hfield, hcontent, htail⟩ := htail
    have hhead : (owner ++ (leBytes 4 content.length ++ field)).length = 275 := by
      simp [howner, hfield]
    have hsplit : m.tail = (owner ++ (leBytes 4 content.length ++ field)) ++ content := by
      simp [htail]
    have hfirst : (m.tail ++ rest).take 275 = owner ++ (leBytes 4 content.length ++ field) := by
      rw [hsplit, List.append_assoc, List.take_left' hhead]
    have hrest : (m.tail ++ rest).drop 275 = content ++ rest := by
      rw [hsplit, List.append_assoc, List.drop_left' hhead]
    have hname : (m.tail.drop 20).take 255 = field := by
      have hsize : (owner ++ leBytes 4 content.length).length = 20 := by simp [howner]
      rw [htail, ← List.append_assoc, List.drop_left' hsize, List.take_left' hfield]
    have hlen : m.tail.length = 275 + content.length := by
      rw [hsplit, List.length_append, hhead]
    have hne : m.tail ≠ [] := by
      rw [← List.length_pos_iff]
      omega
    have hheader := uploadHeader_append E howner hfield hcontent
    rw [hfirst, hrest, hname, hheader, hlen]
    simp only [hne, false_or, true_implies, filenameOf]
    cases hd : decodeUtf8 field with
    | some name => simp [hsplit]
    | none => simp [hsplit]

end Message

section Step

variable {δ : Type} [FileSystem δ] (E : Externals)

def Handled.parts (handled : Handled) : Request × Bytes × Bytes :=
  (handled.request, handled.payload, handled.fields.flatten)

def Message.parts (m : Message) : Request × Bytes × Bytes := (m.request, m.payload, m.tail)

/-- The tail of each request is read, in the state in which the session comes to it. -/
def TailsRead : (ℕ → Draws) → List Message → World δ → Prop
  | _, [], _ => True
  | envs, m :: ms, w =>
    m.TailRead w.server.database ∧
      TailsRead (fun i => envs (i + 1)) ms (turn E .whole (envs 0) w).2

def opened (inbox : Bytes) : Conn := ⟨inbox, 0, [], []⟩

theorem turn_encode (env : Draws) {w : World δ} {m : Message} {rest : Bytes}
    (h : w.conn.inbox = m.encode ++ rest) :
    (turn E .whole env w).1 =
        some ⟨m.request, m.payload, handlerReads E m.request w.server.database (m.tail ++ rest)⟩ ∧
      (m.TailRead w.server.database → (turn E .whole env w).2.conn.inbox = rest) := by
  have hnext := m.nextRequest_encode E w.server.database rest
  rw [← h] at hnext
  refine ⟨by rw [turn_whole, hnext], fun htail => ?_⟩
  have hinbox := turn_whole_inbox E env hnext
  rw [(m.handlerReads_tail E w.server.database rest).mpr htail] at hinbox
  have htake : w.conn.inbox.take 23 = m.header := by
    rw [h, Message.encode, List.append_assoc, List.take_left' m.header_length]
  rw [htake, h, Message.encode] at hinbox
  simpa using hinbox.symm

/-- The tail of a request that is turned away is the front of the stream at the next turn. -/
theorem turn_turned_away (env : Draws) {w : World δ} {m : Message} {rest : Bytes}
    (h : w.conn.inbox = m.encode ++ rest)
    (hout : ¬ (m.code = clientCodeRegister ∨
      w.server.database.clientExistsById m.clientId = true)) :
    (turn E .whole env w).1 = some ⟨m.request, m.payload, []⟩ ∧
      (turn E .whole env w).2.conn.inbox = m.tail ++ rest := by
  have hnext := m.nextRequest_encode E w.server.database rest
  have hreads : handlerReads E m.request w.server.database (m.tail ++ rest) = [] := by
    rw [handlerReads]
    exact if_neg hout
  rw [← h, hreads] at hnext
  have hinbox := turn_whole_inbox E env hnext
  have htake : w.conn.inbox.take 23 = m.header := by
    rw [h, Message.encode, List.append_assoc, List.take_left' m.header_length]
  rw [htake, h, Message.encode] at hinbox
  exact ⟨by rw [turn_whole, hnext], by simpa using hinbox.symm⟩

/-- The handled parts of so many turns are the joined requests if and only if the tail of each
is read. -/
theorem turns_in_step_iff (envs : ℕ → Draws) (ms : List Message) {n : ℕ} {w : World δ}
    (hinbox : w.conn.inbox = ms.flatMap Message.encode) (hn : w.conn.inbox.length ≤ n) :
    (turns E .whole envs n w).map Handled.parts = ms.map Message.parts ↔
      TailsRead E envs ms w := by
  induction ms generalizing envs n w with
  | nil =>
    have hempty : w.conn.inbox = [] := hinbox
    have hnext : nextRequest E w.server.database w.conn.inbox = none := by
      rw [hempty]
      rfl
    have hend : turns E .whole envs n w = [] := by
      cases n with
      | zero => rfl
      | succ n => rw [turns_succ, turn_whole, hnext]
    simp [hend, TailsRead]
  | cons m ms ih =>
    rw [List.flatMap_cons] at hinbox
    obtain ⟨hturn, hrest⟩ := turn_encode E (envs 0) hinbox
    have hlt := turn_shortens E .whole hturn
    cases n with
    | zero => omega
    | succ n =>
      rw [turns_succ, hturn, TailsRead]
      simp only [List.map_cons, List.cons.injEq, Handled.parts, Message.parts, Prod.mk.injEq,
        true_and, m.handlerReads_tail]
      refine and_congr_right fun htail => ?_
      exact ih (fun i => envs (i + 1)) (hrest htail) (by omega)

/-- A session handles the requests its peer has joined, each with its own bytes, if and only
if the tail of each request is read in the state in which the session comes to it. -/
theorem session_in_step_iff (s : Server δ) (envs : ℕ → Draws) (ms : List Message) :
    (session E .whole envs ⟨s, opened (ms.flatMap Message.encode)⟩).map Handled.parts =
        ms.map Message.parts ↔
      TailsRead E envs ms ⟨s, opened (ms.flatMap Message.encode)⟩ :=
  turns_in_step_iff E envs ms rfl le_rfl

end Step

def confirmation : Message where
  clientId := List.replicate 16 5
  version := 3
  code := clientCodeCksumOk
  payload := []
  tail := padField 255 ['f']
  clientId_length := List.length_replicate
  version_lt := by decide
  code_lt := by decide
  payload_lt := by decide
  tail_of := by
    have hkind : kindOf clientCodeCksumOk = .cksumOk := rfl
    rw [hkind]
    exact length_padField (by decide)

/-- A client the server does not know confirms a file: the request is turned away before its
name field is read, and the field is taken as a header. -/
theorem name_field_taken_as_header :
    (∃ rest, session plainCiphers .whole (fun _ => constantDraws 1)
      ⟨Server.empty, opened confirmation.encode⟩ =
        ⟨confirmation.request, [], []⟩ ::
          ⟨⟨102 :: List.replicate 15 0, 0, 0, 0⟩, [], []⟩ :: rest) ∧
      (session plainCiphers .whole (fun _ => constantDraws 1)
        ⟨Server.empty, opened confirmation.encode⟩).map Handled.parts ≠ [confirmation.parts] := by
  have hshape : ∃ rest, session plainCiphers .whole (fun _ => constantDraws 1)
      ⟨Server.empty, opened confirmation.encode⟩ =
        ⟨confirmation.request, [], []⟩ ::
          ⟨⟨102 :: List.replicate 15 0, 0, 0, 0⟩, [], []⟩ :: rest := by
    have hopened : (opened confirmation.encode).inbox = confirmation.encode ++ [] :=
      (List.append_nil confirmation.encode).symm
    obtain ⟨hturn, hleft⟩ := turn_turned_away plainCiphers (constantDraws 1)
      (w := ⟨Server.empty, opened confirmation.encode⟩) hopened (by decide)
    rw [List.append_nil] at hleft
    have htaken (db : Database) : nextRequest plainCiphers db confirmation.tail =
        some ⟨⟨102 :: List.replicate 15 0, 0, 0, 0⟩, [], []⟩ := by
      have hheader : headerOf (confirmation.tail.take 23) =
          some ⟨102 :: List.replicate 15 0, 0, 0, 0⟩ := by decide
      rw [nextRequest, hheader, Option.map_some, handlerReads]
      split_ifs <;> rfl
    rw [session_eq, hturn, session_eq, turn_whole, hleft, htaken]
    exact ⟨_, rfl⟩
  refine ⟨hshape, fun h => ?_⟩
  obtain ⟨rest, hrest⟩ := hshape
  rw [hrest] at h
  simp at h

section Delivery

variable {δ : Type} [FileSystem δ] (E : Externals) (d : Delivery)

/-- The delivery gives every read of the requests of so many turns at once. -/
def Delivered : (ℕ → Draws) → ℕ → World δ → Prop
  | _, 0, _ => True
  | envs, n + 1, w =>
    match nextRequest E w.server.database w.conn.inbox with
    | some handled =>
      AllWhole d w.conn.reads (w.conn.inbox.take 23 :: handled.payload :: handled.fields) ∧
        Delivered (fun i => envs (i + 1)) n (turn E .whole (envs 0) w).2
    | none => True

theorem turns_eq_whole_iff (envs : ℕ → Draws) (n : ℕ) (w : World δ) :
    turns E d envs n w = turns E .whole envs n w ↔ Delivered E d envs n w := by
  induction n generalizing envs w with
  | zero => simp [turns, Delivered]
  | succ n ih =>
    rw [turns_succ, turns_succ, turn_whole, Delivered]
    cases hnext : nextRequest E w.server.database w.conn.inbox with
    | none => simp [turn_of_no_next E d hnext]
    | some handled =>
      obtain ⟨hiff, hsame⟩ := turn_eq_whole E d (envs 0) hnext
      by_cases hturn : (turn E d (envs 0) w).1 = some handled
      · have hall := hiff.mp hturn
        have hwhole : (turn E .whole (envs 0) w).1 = some handled := by rw [turn_whole, hnext]
        rw [hsame hturn, hwhole]
        simp only [List.cons.injEq, true_and, hall, ih]
      · have hne : ¬ AllWhole d w.conn.reads
            (w.conn.inbox.take 23 :: handled.payload :: handled.fields) := by
          rwa [← hiff]
        simp only [hne, false_and, iff_false]
        cases ht : (turn E d (envs 0) w).1 with
        | none => simp
        | some other =>
          have hother : other ≠ handled := by
            rintro rfl
            exact hturn ht
          simp [hother]

/-- A session handles the requests of complete delivery if and only if each of their reads
is delivered at once. -/
theorem session_eq_whole_iff (envs : ℕ → Draws) (w : World δ) :
    session E d envs w = session E .whole envs w ↔
      Delivered E d envs w.conn.inbox.length w :=
  turns_eq_whole_iff E d envs w.conn.inbox.length w

end Delivery

def registration : Message where
  clientId := List.replicate 16 0
  version := 3
  code := clientCodeRegister
  payload := padField 255 ['a']
  tail := []
  clientId_length := List.length_replicate
  version_lt := by decide
  code_lt := by decide
  payload_lt := by
    rw [length_padField (by decide)]
    decide
  tail_of := rfl

/-- Ten bytes at a time, the header is never read and the session ends. -/
theorem registration_in_pieces :
    session plainCiphers (fun _ => some 10) (fun _ => constantDraws 1)
        ⟨Server.empty, opened registration.encode⟩ = [] ∧
      (session plainCiphers .whole (fun _ => constantDraws 1)
        ⟨Server.empty, opened registration.encode⟩).map Handled.parts = [registration.parts] := by
  have hshort : (turn plainCiphers (fun _ => some 10) (constantDraws 1)
      (⟨Server.empty, opened registration.encode⟩ : World KeyedDisk)).1 = none := by
    have hnone : headerOf ((opened registration.encode).recv (fun _ => some 10) 23).1 = none := by
      rw [← Option.not_isSome_iff_eq_none, headerOf_isSome]
      simp only [Conn.recv, Delivery.amount, List.length_take]
      omega
    rw [turn_of_no_header plainCiphers (fun _ => some 10)
      (w := ⟨Server.empty, opened registration.encode⟩) hnone]
  constructor
  · rw [session_eq, hshort]
  · have hopened : (opened registration.encode).inbox = [registration].flatMap Message.encode :=
      (List.append_nil registration.encode).symm
    exact (turns_in_step_iff plainCiphers (fun _ => constantDraws 1) [registration]
      (w := ⟨Server.empty, opened registration.encode⟩) hopened le_rfl).mpr ⟨.inl rfl, trivial⟩

end EncryptedTransfer.StreamFraming
