import EncryptedTransfer.ClientProcess
import EncryptedTransfer.ServerRuns
import EncryptedTransfer.ServerThreads
import EncryptedTransfer.StreamFraming

/-!
# Clients and the server

Any number of client processes and one server. Requests are handled one at a time, each as
one step that is given the request's bytes; what the server sends arrives in order. Between
two steps of a client any other client may move.
-/
namespace EncryptedTransfer.Network
open ServerStores hiding Client Client.new
open ByteFormats Text ServerCalls ServerHandlers ServerConsistency ServerEffects ServerRuns
open ServerSession StreamFraming ServerThreads CryptoLaws ClientProcess Interaction Program

/-- A request the server has handled: whose, its bytes, and those it has left unread. -/
structure Served where
  client : ℕ
  request : Bytes
  left : Bytes

def Served.clientId (r : Served) : Option Bytes :=
  (headerOf (r.request.take 23)).map Request.clientId

def Served.isUpload (r : Served) : Bool :=
  (headerOf (r.request.take 23)).map Request.code = some clientCodeSendFile

/-- The encrypted content of a client's last upload, newest first. -/
def lastUpload (i : ℕ) (log : List Served) : Option Bytes :=
  (log.find? (fun r => r.client = i ∧ r.isUpload)).map (fun r => r.request.drop 298)

/-- The server, the clients, and the requests handled, newest first. -/
structure System where
  server : Server KeyedDisk
  client : ℕ → Client
  served : List Served

/-- The methods of `Client` that `main` calls. -/
inductive Method where
  | registerToServer
  | generateRSAKeyPair (pair : KeyPair)
  | sendFileToServer

inductive Move where
  /-- A client that awaits nothing calls a method. -/
  | call (i : ℕ) (method : Method)
  /-- The server handles the next request of a client. -/
  | serve (i : ℕ) (env : Draws)
  /-- A client reads and handles the response it awaits, once all of it has arrived. -/
  | resume (i : ℕ)
  /-- The content of an upload on its way is replaced by other bytes of the same length. -/
  | corrupt (i : ℕ) (encrypted : Bytes)
  /-- Another program writes a file on a client's machine. -/
  | edit (i : ℕ) (path content : Bytes)

variable (E : Externals)

def Method.run : Method → Client → Client
  | registerToServer => ClientProcess.registerToServer
  | generateRSAKeyPair pair => ClientProcess.generateRSAKeyPair E pair
  | sendFileToServer => ClientProcess.sendFileToServer E

/-- An upload's header and file header take 298 bytes. -/
def corrupted (request encrypted : Bytes) : Bytes :=
  if ((headerOf (request.take 23)).map Request.code = some clientCodeSendFile) ∧
      request.length = 298 + encrypted.length then
    request.take 298 ++ encrypted
  else request

/-- The client once its first request has been answered. -/
def answered (c : Client) (rest : List Bytes) (sent : Bytes) : Client :=
  { c with outbox := rest, inbox := c.inbox ++ sent }

namespace System

def setClient (sys : System) (i : ℕ) (c : Client) : System :=
  { sys with client := Function.update sys.client i c }

@[simp] theorem setClient_server (sys : System) (i : ℕ) (c : Client) :
    (sys.setClient i c).server = sys.server := rfl

@[simp] theorem setClient_served (sys : System) (i : ℕ) (c : Client) :
    (sys.setClient i c).served = sys.served := rfl

@[simp] theorem setClient_self (sys : System) (i : ℕ) (c : Client) :
    (sys.setClient i c).client i = c := Function.update_self ..

theorem setClient_other (sys : System) {i j : ℕ} (h : j ≠ i) (c : Client) :
    (sys.setClient i c).client j = sys.client j := Function.update_of_ne h ..

/-- The server's turn with one request: the world after it. -/
def turnWith (env : Draws) (s : Server KeyedDisk) (request : Bytes) : World KeyedDisk :=
  (run (machine E env .whole) (sessionTurn E) ⟨s, opened request⟩).2

def serve (sys : System) (i : ℕ) (env : Draws) : System :=
  match (sys.client i).outbox with
  | [] => sys
  | request :: rest =>
    let w := turnWith E env sys.server request
    { server := w.server
      client := Function.update sys.client i (answered (sys.client i) rest w.conn.sent.flatten)
      served := ⟨i, request, w.conn.inbox⟩ :: sys.served }

theorem serve_nil {sys : System} {i : ℕ} (h : (sys.client i).outbox = []) (env : Draws) :
    sys.serve E i env = sys := by
  rw [serve, h]

theorem serve_cons {sys : System} {i : ℕ} {request : Bytes} {rest : List Bytes}
    (h : (sys.client i).outbox = request :: rest) (env : Draws) :
    sys.serve E i env =
      ⟨(turnWith E env sys.server request).server, Function.update sys.client i
        (answered (sys.client i) rest (turnWith E env sys.server request).conn.sent.flatten),
        ⟨i, request, (turnWith E env sys.server request).conn.inbox⟩ :: sys.served⟩ := by
  rw [serve, h]

def resume (sys : System) (i : ℕ) : System :=
  if (sys.client i).awaiting ∧ (sys.client i).inbox ≠ [] then
    let c := receiveResponseFromServer E (sys.client i)
    if c.starved then sys else sys.setClient i c
  else sys

def step (sys : System) : Move → System
  | .call i method =>
    if (sys.client i).awaiting then sys else sys.setClient i (method.run E (sys.client i))
  | .serve i env => sys.serve E i env
  | .resume i => sys.resume E i
  | .corrupt i encrypted =>
    match (sys.client i).outbox with
    | [] => sys
    | request :: rest =>
      sys.setClient i { sys.client i with outbox := corrupted request encrypted :: rest }
  | .edit i path content =>
    sys.setClient i { sys.client i with
      files := Function.update (sys.client i).files path (some content) }

def steps (sys : System) (moves : List Move) : System := moves.foldl (step E) sys

end System

/-- What is assumed of a move: generated pairs are key pairs, uuids are fresh, and a corrupted
content still decrypts and unpads. -/
def Permitted (sys : System) : Move → Prop
  | .call _ (.generateRSAKeyPair pair) => KeyPairLaws E pair.publicKey pair.privateKey
  | .serve _ env => sys.server.database.clientExistsById env.uuid = false
  | .corrupt i encrypted =>
    ((E.aesDecrypt (sys.client i).aesKey encrypted).bind E.unpad).isSome = true
  | _ => True

/-- A run: the moves, oldest first. -/
inductive Moves : System → List Move → System → Prop
  | nil (sys : System) : Moves sys [] sys
  | cons {sys sys' : System} {moves : List Move} (move : Move) (h : Permitted E sys move)
      (rest : Moves (sys.step E move) moves sys') : Moves sys (move :: moves) sys'

def PermittedAll : System → List Move → Prop
  | _, [] => True
  | sys, move :: moves => Permitted E sys move ∧ PermittedAll (sys.step E move) moves

variable {E}

theorem Moves.of_permitted {sys : System} {moves : List Move} (h : PermittedAll E sys moves) :
    Moves E sys moves (sys.steps E moves) := by
  induction moves generalizing sys with
  | nil => exact .nil sys
  | cons move moves ih => exact .cons move h.1 (ih h.2)

/-- The invariant rule for runs. -/
theorem Moves.invariant {Inv : System → Prop}
    (hstep : ∀ sys move, Permitted E sys move → Inv sys → Inv (sys.step E move)) {sys sys' : System}
    {moves : List Move} (h : Moves E sys moves sys') (hinv : Inv sys) : Inv sys' := by
  induction h with
  | nil sys => exact hinv
  | cons move hp _ ih => exact ih (hstep _ move hp hinv)

theorem headerOf_encode (m : Message) : headerOf (m.encode.take 23) = some m.request := by
  rw [Message.encode, List.take_left' m.header_length, m.headerOf_header]

theorem isUpload_encode {m : Message} (i : ℕ) (left : Bytes) :
    (Served.mk i m.encode left).isUpload = decide (m.code = clientCodeSendFile) := by
  simp only [Served.isUpload, headerOf_encode, Option.map_some]
  congr 1
  exact propext Option.some_inj

theorem lastUpload_cons_other {i : ℕ} {r : Served} (h : r.client ≠ i ∨ r.isUpload = false)
    (log : List Served) : lastUpload i (r :: log) = lastUpload i log := by
  have hno : ¬ (r.client = i ∧ r.isUpload = true) := by
    rintro ⟨hi, hupload⟩
    rcases h with h | h
    · exact h hi
    · simp [h] at hupload
  simp [lastUpload, hno]

def payloadRead (m : Message) : Conn := ⟨m.tail, 2, [m.header, m.payload], []⟩

theorem turnWith_encode (E : Externals) (env : Draws) (s : Server KeyedDisk) (m : Message) :
    System.turnWith E env s m.encode =
      handled E env .whole m.request m.payload ⟨s, payloadRead m⟩ := by
  have hheader : (m.encode).take 23 = m.header := by
    rw [Message.encode, List.take_left' m.header_length]
  have hrest : (m.encode).drop 23 = m.payload ++ m.tail := by
    rw [Message.encode, List.drop_left' m.header_length]
  have hsize : m.request.payloadSize = m.payload.length := rfl
  have hreceive := run_receiveRequest E .whole env (⟨s, opened m.encode⟩ : World KeyedDisk)
  simp only [recv_whole, opened, hheader, hrest, m.headerOf_header, hsize, List.take_left,
    List.drop_left, List.nil_append] at hreceive
  rw [System.turnWith, sessionTurn, run_bind, opened, hreceive, andThen_ok]
  exact run_bind_pure _ _ _ _

end EncryptedTransfer.Network
