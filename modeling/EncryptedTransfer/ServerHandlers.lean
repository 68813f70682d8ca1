import EncryptedTransfer.Cksum
import EncryptedTransfer.ServerCalls

/-!
# The handlers of `server.py`

Each handler is a program over the calls of `ServerCalls`, in the order of the source.
Printing is left out. `try … except Exception as e: print(…)` is `guarded`.
-/
namespace EncryptedTransfer.ServerHandlers
open ByteFormats Text ServerStores ServerCalls Interaction Program

def serverVersion : ℕ := 3
def aesKeySize : ℕ := 16
def clientNameLength : ℕ := 255
def filenameLength : ℕ := 255

def clientCodeRegister : ℕ := 1100
def clientCodeSendPublicKey : ℕ := 1101
def clientCodeSendFile : ℕ := 1103
def clientCodeCksumOk : ℕ := 1104
def clientCodeCksumErr : ℕ := 1105
def clientCodeCksumErrFinal : ℕ := 1106

def serverCodeRegistrationOk : ℕ := 2100
def serverCodeRegistrationErr : ℕ := 2101
def serverCodeSwitchingKeys : ℕ := 2102
def serverCodeCksumReady : ℕ := 2103
def serverCodeMessageReceived : ℕ := 2104

/-- `'<16sBHI'`, the request header. -/
abbrev requestFormat : List Field := [.bytes 16, .uint 1, .uint 2, .uint 4]

/-- `'=16sI255s'`, the file header of a send-file request. -/
abbrev fileFormat : List Field := [.bytes 16, .uint 4, .bytes 255]

/-- `'<255s160s'`, the payload of a public-key request. -/
abbrev publicKeyFormat : List Field := [.bytes 255, .bytes 160]

/-- `'=BHI16s'`, the response header with the client id. -/
abbrev responseFormat : List Field := [.uint 1, .uint 2, .uint 4, .bytes 16]

structure Request where
  clientId : Bytes
  version : ℕ
  code : ℕ
  payloadSize : ℕ
  deriving DecidableEq, Repr

structure Response where
  version : ℕ
  code : ℕ
  clientId : Bytes
  payload : Bytes
  payloadSize : ℕ
  deriving DecidableEq

/-- The constructor packs every number, so one that does not fit is a `struct.error`. -/
def Response.new (version code : ℕ) (clientId payload : Bytes) : Option Response :=
  if version < 256 ^ 1 ∧ code < 256 ^ 2 ∧ payload.length < 256 ^ 4 then
    some ⟨version, code, uuidField clientId, payload, payload.length⟩
  else none

def recv (n : ℕ) : Proc Bytes := issue (I := calls) (.recv n)

def send (data : Bytes) : Proc Unit := issue (I := calls) (.send data)

def host (c : HostCall) : Proc c.Answer := issue (I := calls) (.host c)

/-- `try: p  except Exception as e: print(...)`. -/
def guarded (p : Proc Unit) : Proc Unit := p.attempt (fun _ => pure ())

def decode (data : Bytes) : Proc Str := ofOption .unicodeDecodeError (decodeUtf8 data)

def newResponse (code : ℕ) (clientId payload : Bytes) : Proc Response :=
  ofOption .structError (Response.new serverVersion code clientId payload)

/-- Packing and sending a response that ends with the client id. -/
def sendResponse (response : Response) : Proc Unit := do
  let data ← ofOption .structError (pack responseFormat
    (response.version, response.code, response.payloadSize, response.clientId, ()))
  send data

def respond (code : ℕ) (clientId : Bytes) : Proc Unit := do
  let response ← newResponse code clientId []
  sendResponse response

variable (E : Externals)

/-- A name field of a file: decoded, stripped of NUL characters and lower-cased. -/
def readFilename (field : Bytes) : Proc Str := do
  let filename ← decode field
  pure (E.lower (stripNul filename))

def handleClientDoesntExit : Proc Unit := guarded do
  respond serverCodeRegistrationErr []

/-- `if os.path.exists(file_path): os.remove(file_path)`. -/
def removeStored (path : Str) : Proc Unit := do
  if (← host (.pathExists path)) then
    host (.remove path)

/-- The file's entry of the client object is removed where there is one. -/
def forgetOwned (clientId : Bytes) (path : Str) : Proc Unit := do
  let client ← host (.clientMapGet clientId)
  if ((client.map (fun client => client.files path)).join).isSome then
    host (.clientRemoveFile clientId path)

/-- The file's entry of `__file_map` is removed where there is one. -/
def forgetFile (path : Str) : Proc Unit := do
  if (← host (.fileMapGet path)).isSome then
    host (.fileMapPop path)

/-- The file's removal from the disk, the table and the maps. -/
def deleteFile (clientId : Bytes) (filename : Str) : Proc Unit := do
  let path := filePath clientId filename
  removeStored path
  host (.deleteFileOfClient clientId filename)
  forgetOwned clientId path
  forgetFile path

def handleCksumErrFinal (request : Request) : Proc Unit := guarded do
  let field ← recv filenameLength
  let filename ← readFilename E field
  let _ ← host (.getClientName request.clientId)
  deleteFile request.clientId filename
  respond serverCodeMessageReceived request.clientId

/-- What is printed of a mismatch: the client's name, where it is found, and the name of the file,
which is not lower-cased here. -/
def cksumErrNotice (request : Request) : Proc (Option Str × Str) := do
  let field ← recv filenameLength
  let filename ← decode field
  let filename := stripNul filename
  let clientName ← host (.getClientName request.clientId)
  pure (clientName, filename)

/-- Nothing is answered. -/
def handleCksumErr (request : Request) : Proc Unit := guarded do
  let _ ← cksumErrNotice request
  pure ()

def handleCksumOk (request : Request) : Proc Unit := guarded do
  let _ ← host (.getClientName request.clientId)
  let field ← recv filenameLength
  let filename ← readFilename E field
  host (.updateCksumVerification request.clientId filename true)
  respond serverCodeMessageReceived request.clientId

/-- A `None` from `client_exists_by_name` counts as "not found". -/
def handleClientRegistration (payload : Bytes) : Proc Unit := guarded do
  let clientName ← decode payload
  let clientName := stripNul clientName
  let found ← host (.clientExistsByName clientName)
  if found = some true then
    respond serverCodeRegistrationErr []
  else
    let clientId ← host .uuid4
    let response ← newResponse serverCodeRegistrationOk clientId []
    host (.clientMapPut clientId (.new clientId clientName))
    host (.insertNewClient clientName response.clientId)
    sendResponse response

/-- The keys are stored under the name in the payload, before the public key is tried. -/
def sendAesKeyToClient (request : Request) (payload : Bytes) : Proc Unit := guarded do
  let _ ← host (.getClientName request.clientId)
  let (clientName, publicKey, _) ← ofOption .structError (unpack publicKeyFormat payload)
  let clientName ← decode clientName
  let clientName := stripNul clientName
  let aesKey ← host (.getRandomBytes aesKeySize)
  host (.insertKeysOfClient clientName publicKey aesKey)
  ofOption .valueError (if E.importKey publicKey then some () else none)
  let cipherAesKey ← host (.oaepEncrypt publicKey aesKey)
  let response ← newResponse serverCodeSwitchingKeys request.clientId cipherAesKey
  let data ← ofOption .structError
    (pack [.uint 1, .uint 2, .uint 4, .bytes 16, .bytes cipherAesKey.length]
      (response.version, response.code, response.payloadSize, response.clientId,
        response.payload, ()))
  send data

/-- `os.mkdir(dir_name)` where the directory is missing. -/
def makeDir (dirName : Str) : Proc Unit := do
  if !(← host (.pathExists dirName)) then
    host (.mkdir dirName)

/-- A known file's flag is reset, an unknown file is inserted. -/
def recordFile (clientId : Bytes) (filename path : Str) : Proc Unit := do
  let found ← host (.fileExists clientId filename)
  if found = some true then
    host (.updateCksumVerification clientId filename false)
  else
    host (.insertFileDetails clientId filename path false)

/-- The size and, in a message of its own, the padded name and the checksum. -/
def sendCksum (clientId : Bytes) (filename : Str) (contentSize cksum : ℕ) : Proc Unit := do
  let response ← newResponse serverCodeCksumReady clientId []
  let filenameData := encodeUtf8 (padNul clientNameLength filename)
  let data ← ofOption .structError
    (pack [.uint 1, .uint 2, .uint 4, .bytes 16, .uint 4]
      (response.version, response.code, response.payloadSize, response.clientId,
        contentSize, ()))
  send data
  let data ← ofOption .structError (pack [.bytes 255, .uint 4] (filenameData, cksum, ()))
  send data

/-- The content is stored and the maps are updated before the checksum is taken and the
row's flag is reset. -/
def processFileContent (request : Request) (filename : Str) (encrypted : Bytes) : Proc Unit :=
  guarded do
    let _ ← host (.getClientName request.clientId)
    let aesKey ← host (.getAesKeyOfClient request.clientId)
    let aesKey ← ofOption .typeError aesKey
    let padded ← ofOption .valueError (E.aesDecrypt aesKey encrypted)
    let content ← ofOption .valueError (E.unpad padded)
    makeDir filesDir
    makeDir (clientDir request.clientId)
    let path := filePath request.clientId filename
    host (.writeFile path content)
    let file := File.new request.clientId filename path
    host (.fileMapPut path file)
    host (.clientAddFile request.clientId path file)
    let stored ← host (.readFile path)
    let cksum ← ofOption .indexError (Cksum.Server.cksumCalc stored)
    recordFile request.clientId filename path
    sendCksum request.clientId filename content.length cksum

def handleFileRequest (request : Request) : Proc Unit := guarded do
  let fileData ← recv (calcsize fileFormat)
  if fileData ≠ [] then
    let (_, contentSize, field, _) ← ofOption .structError (unpack fileFormat fileData)
    let filename ← readFilename E field
    let encrypted ← recv contentSize
    processFileContent E request filename encrypted

/-- The dispatch on the code; an unknown code has no effect. -/
def dispatch (request : Request) (payload : Bytes) : Proc Unit :=
  if request.code = clientCodeRegister then handleClientRegistration payload
  else if request.code = clientCodeSendPublicKey then sendAesKeyToClient E request payload
  else if request.code = clientCodeSendFile then handleFileRequest E request
  else if request.code = clientCodeCksumOk then handleCksumOk E request
  else if request.code = clientCodeCksumErr then handleCksumErr request
  else if request.code = clientCodeCksumErrFinal then handleCksumErrFinal E request
  else pure ()

/-- The kinds of requests, by their code. -/
inductive Kind where
  | register
  | sendPublicKey
  | sendFile
  | cksumOk
  | cksumErr
  | cksumErrFinal
  | unknown
  deriving DecidableEq, Repr

def kindOf (code : ℕ) : Kind :=
  if code = clientCodeRegister then .register
  else if code = clientCodeSendPublicKey then .sendPublicKey
  else if code = clientCodeSendFile then .sendFile
  else if code = clientCodeCksumOk then .cksumOk
  else if code = clientCodeCksumErr then .cksumErr
  else if code = clientCodeCksumErrFinal then .cksumErrFinal
  else .unknown

theorem kindOf_eq_register {code : ℕ} : kindOf code = .register ↔ code = clientCodeRegister := by
  unfold kindOf
  split_ifs <;> simp_all

theorem kindOf_eq_sendPublicKey {code : ℕ} :
    kindOf code = .sendPublicKey ↔ code = clientCodeSendPublicKey := by
  unfold kindOf
  split_ifs with h1 h2 <;> simp_all [clientCodeRegister, clientCodeSendPublicKey]

theorem dispatch_eq (request : Request) (payload : Bytes) :
    dispatch E request payload =
      match kindOf request.code with
      | .register => handleClientRegistration payload
      | .sendPublicKey => sendAesKeyToClient E request payload
      | .sendFile => handleFileRequest E request
      | .cksumOk => handleCksumOk E request
      | .cksumErr => handleCksumErr request
      | .cksumErrFinal => handleCksumErrFinal E request
      | .unknown => pure () := by
  unfold dispatch kindOf
  split_ifs <;> rfl

/-- Whether the gate of `handle_request` turns the request away. An exception of the query
is caught before the dispatch, so it lets the request pass. -/
def turnedAway (request : Request) : Proc Bool :=
  (do
    if request.code = clientCodeRegister then pure false
    else
      let found ← host (.clientExistsById request.clientId)
      pure (decide (found ≠ some true))).attempt (fun _ => pure false)

def handleRequest (request : Request) (payload : Bytes) : Proc Unit := do
  if (← turnedAway request) then handleClientDoesntExit
  else dispatch E request payload

/-- One turn of the session's loop up to the handling: the request with its payload, or
`none` where the connection is closed. -/
def receiveRequest : Proc (Option (Request × Bytes)) :=
  (do
    let requestData ← recv (calcsize requestFormat)
    if requestData ≠ [] then
      let (clientId, version, code, payloadSize, _) ←
        ofOption .structError (unpack requestFormat requestData)
      let payload ← recv payloadSize
      pure (some (Request.mk clientId version code payloadSize, payload))
    else pure none).attempt (fun _ => pure none)

def loadClient (item : Bytes × Str) : Proc Unit :=
  host (.clientMapPut item.1 (.new item.1 item.2))

def loadFile (item : Bytes × Str × Str) : Proc Unit := do
  let file := File.new item.1 item.2.1 item.2.2
  host (.fileMapPut item.2.2 file)
  host (.clientAddFile item.1 item.2.2 file)

def loadDataFromDatabase : Proc Unit := guarded do
  host .clearMaps
  let clients ← host .getClientList
  let clients ← ofOption .typeError clients
  clients.forM loadClient
  let files ← host .getFileList
  let files ← ofOption .typeError files
  files.forM loadFile

end EncryptedTransfer.ServerHandlers
