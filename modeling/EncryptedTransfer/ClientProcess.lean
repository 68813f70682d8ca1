import EncryptedTransfer.Cksum
import EncryptedTransfer.ServerHandlers

/-!
# The client, `client.cpp`

Strings are byte strings, as in C++. A method is a function on the client's fields and its
surroundings: the files of its machine, the bytes that have arrived, and the requests it has
written. `receiveResponseFromServer` is the last statement wherever it is called, so a call
of it only notes that it comes next.
-/
namespace EncryptedTransfer.ClientProcess
open ByteFormats Text ServerStores ServerCalls ServerHandlers

def clientVersion : ℕ := 3
def numberOfFileSending : ℕ := 4

def serverFilePath : Bytes :=
  encodeUtf8 ['t', 'r', 'a', 'n', 's', 'f', 'e', 'r', '.', 'i', 'n', 'f', 'o']

def clientDetailsPath : Bytes := encodeUtf8 ['m', 'e', '.', 'i', 'n', 'f', 'o']

def backslash : UInt8 := 92

def newline : UInt8 := 10

/-- `s.resize(n, '\0')`. -/
def resize (n : ℕ) (s : Bytes) : Bytes := s.take n ++ List.replicate (n - s.length) 0

/-- The fields of `Client`, its files, the bytes to be read (`starved` once a read has found
none), the requests written and not yet handled, whether a response is read next, and the
codes of all requests and responses. -/
structure Client where
  clientName : Bytes
  clientIdHex : Bytes
  clientIdBytes : Bytes
  privateKey : Bytes
  aesKey : Bytes
  cksumOfLastFile : UInt32
  numberOfTrialsTOSendFile : ℕ
  filePath : Bytes
  connectedToServer : Bool
  files : Bytes → Option Bytes
  inbox : Bytes
  starved : Bool
  outbox : List Bytes
  awaiting : Bool
  requestCodes : List ℕ
  responseCodes : List ℕ

def splitLines : Bytes → List Bytes
  | [] => [[]]
  | b :: bs =>
    if b = newline then [] :: splitLines bs
    else match splitLines bs with
      | [] => [[b]]
      | line :: lines => (b :: line) :: lines

/-- The loop of `readLine` over the lines: the count it ends with and the line it keeps. -/
def readLineLoop (lineNumber : ℕ) : ℕ → Bytes → List Bytes → ℕ × Bytes
  | lineCount, destination, [] => (lineCount, destination)
  | lineCount, _, line :: lines =>
    if lineCount = lineNumber then (lineCount, line)
    else readLineLoop lineNumber (lineCount + 1) line lines

/-- The last line also stands for the one after it. A stream that is not open never ends and
keeps the destination. -/
def readLine (file : Option Bytes) (lineNumber : ℕ) (destination : Bytes) : Bool × Bytes :=
  match file with
  | some content =>
    let (lineCount, line) := readLineLoop lineNumber 1 destination (splitLines content)
    (decide (lineNumber ≤ lineCount), line)
  | none => (true, destination)

/-- `writeLines(filePath, source)`. -/
def appendLine (path source : Bytes) (files : Bytes → Option Bytes) : Bytes → Option Bytes :=
  Function.update files path (some ((files path).getD [] ++ (source ++ [newline])))

/-- The lines `std::getline` yields: none after a final newline. -/
def fileLines (content : Bytes) : List Bytes :=
  let lines := splitLines content
  if lines.getLast? = some [] then lines.dropLast else lines

/-- `writeLines(filePath, lineNumber, source)`. -/
def replaceLine (path : Bytes) (lineNumber : ℕ) (source : Bytes)
    (files : Bytes → Option Bytes) : Bytes → Option Bytes :=
  let lines := fileLines ((files path).getD [])
  let lines :=
    if lines.length < lineNumber then lines ++ [source] else lines.set (lineNumber - 1) source
  Function.update files path (some (lines.flatMap (fun line => line ++ [newline])))

/-- A read into a zeroed buffer; the result of the call is ignored by all callers. -/
def receive (n : ℕ) (c : Client) : Bytes × Client :=
  (resize n (c.inbox.take n), { c with
    inbox := c.inbox.drop n
    starved := c.starved || c.inbox.isEmpty })

def post (code : ℕ) (data : Bytes) (c : Client) : Client :=
  { c with outbox := c.outbox ++ [data], requestCodes := c.requestCodes ++ [code] }

def await (c : Client) : Client := { c with awaiting := true }

/-- The constructors of `Request` leave what they are not given empty. -/
structure ClientRequest where
  clientId : Bytes
  code : ℕ
  filename : Bytes
  payload : Bytes

structure FileItem where
  clientId : Bytes
  contentSize : ℕ
  filename : Bytes
  messageContent : Bytes

def FileItem.empty : FileItem := ⟨List.replicate 16 0, 0, [], []⟩

def FileItem.new (clientId filename messageContent : Bytes) : FileItem :=
  ⟨clientId, messageContent.length % 2 ^ 32, resize 255 filename, messageContent⟩

def ClientRequest.payloadSize (request : ClientRequest) : ℕ := request.payload.length % 2 ^ 32

/-- `RequestData`, packed. -/
def ClientRequest.header (request : ClientRequest) : Bytes :=
  request.clientId ++ (leBytes 1 clientVersion ++ (leBytes 2 request.code ++
    leBytes 4 request.payloadSize))

def sendRequestToServer (request : ClientRequest) : Client → Client :=
  let payload := request.payload.take request.payloadSize
  let filename :=
    if request.code = clientCodeCksumOk ∨ request.code = clientCodeCksumErr ∨
        request.code = clientCodeCksumErrFinal then
      request.filename.take 255
    else []
  post request.code (request.header ++ (payload ++ filename))

/-- `sendRequestToServer(request, fileItem)`. Past the end of an unset name the source reads
what it should not; here these bytes are zero. -/
def sendFileItem (request : ClientRequest) (item : FileItem) : Client → Client :=
  let fileHeader := item.clientId ++ leBytes 4 item.contentSize
  post request.code (request.header ++ (fileHeader ++ (resize 255 item.filename ++
    item.messageContent.take item.contentSize)))

variable (E : Externals)

def registerToServer (c : Client) : Client :=
  if c.connectedToServer ∧ (c.files serverFilePath).isSome then
    await (sendRequestToServer ⟨List.replicate 16 0, clientCodeRegister, [], c.clientName⟩ c)
  else c

/-- `savePrivateKey`: only where there is a details file. -/
def savePrivateKey (privateKey : Bytes) (c : Client) : Client :=
  if (c.files clientDetailsPath).isSome then
    { c with files := replaceLine clientDetailsPath 3 privateKey c.files }
  else c

/-- A generated key pair, the two keys as they are saved. -/
structure KeyPair where
  publicKey : Bytes
  privateKey : Bytes

/-- `generateRSAKeyPair`, with the pair that is generated. -/
def generateRSAKeyPair (pair : KeyPair) (c : Client) : Client :=
  if c.connectedToServer ∧ c.clientIdHex ≠ [] then
    let base64PrivateKey := E.base64Encode pair.privateKey
    let c := { savePrivateKey base64PrivateKey c with privateKey := base64PrivateKey }
    let payload := c.clientName ++ pair.publicKey
    await (sendRequestToServer ⟨c.clientIdBytes, clientCodeSendPublicKey, [], payload⟩ c)
  else c

def loadFilePath (c : Client) : Bool × Client :=
  if (c.files serverFilePath).isSome then
    let (found, line) := readLine (c.files serverFilePath) 3 c.filePath
    if found then (true, { c with filePath := line.map tolower })
    else (false, { c with filePath := line })
  else (false, c)

/-- `substr(find_last_of('\\') + 1)`. -/
def fileNameOf (path : Bytes) : Bytes := (path.reverse.takeWhile (· ≠ backslash)).reverse

/-- `encryptContent`: a key of another length is refused. -/
def encryptContent (content : Bytes) (c : Client) : Option Bytes :=
  if c.aesKey.length = 16 then some (E.aesEncrypt c.aesKey content) else none

/-- `loadFileContent`: the size is kept in 32 bits. -/
def loadFileContent (c : Client) : Option (FileItem × Client) :=
  (c.files c.filePath).bind fun file =>
    let fileSize := file.length % 2 ^ 32
    let buffer := file.take fileSize
    (encryptContent E buffer c).map fun encrypted =>
      (.new c.clientIdBytes (fileNameOf c.filePath) encrypted,
        { c with cksumOfLastFile := Cksum.Client.calculateCksum buffer (UInt32.ofNat fileSize) })

def sendFileToServer (c : Client) : Client :=
  if c.connectedToServer ∧ c.clientIdHex ≠ [] then
    let (loaded, c) := loadFilePath c
    if loaded then
      match loadFileContent E c with
      | some (item, c) => await (sendFileItem ⟨c.clientIdBytes, clientCodeSendFile, [], []⟩ item c)
      | none => c
    else c
  else c

/-- `reSendFileToServer`: a failure of `loadFileContent` is ignored. -/
def reSendFileToServer (c : Client) : Client :=
  let (item, c) := (loadFileContent E c).getD (.empty, c)
  await (sendFileItem ⟨c.clientIdBytes, clientCodeSendFile, [], []⟩ item c)

/-- `saveRegistrationDetails`: nothing where there is a details file. -/
def saveRegistrationDetails (clientId : Bytes) (c : Client) : Client :=
  if (c.files clientDetailsPath).isSome then c
  else
    let clientIdHex := encodeUtf8 (hex clientId)
    { c with
      clientIdBytes := clientId
      clientIdHex := clientIdHex
      files := appendLine clientDetailsPath clientIdHex
        (appendLine clientDetailsPath c.clientName c.files) }

/-- `handleAESKeyFromServer`: what cannot be decrypted is an exception, and is dropped. -/
def handleAESKeyFromServer (payload : Bytes) (c : Client) : Client :=
  match E.oaepDecrypt (E.base64Decode c.privateKey) payload with
  | some aesKey => { c with aesKey := aesKey }
  | none => c

/-- `handleFileResponse`. The content size is read and not used. -/
def handleFileResponse (c : Client) : Client :=
  let (_, c) := receive 4 c
  let (filename, c) := receive 255 c
  let (cksum, c) := receive 4 c
  if c.cksumOfLastFile = UInt32.ofNat (ofLe cksum) then
    await (sendRequestToServer ⟨c.clientIdBytes, clientCodeCksumOk, filename, []⟩ c)
  else if c.numberOfTrialsTOSendFile < numberOfFileSending then
    let c := { c with numberOfTrialsTOSendFile := c.numberOfTrialsTOSendFile + 1 }
    reSendFileToServer E
      (sendRequestToServer ⟨c.clientIdBytes, clientCodeCksumErr, filename, []⟩ c)
  else
    let c := { c with numberOfTrialsTOSendFile := 1, cksumOfLastFile := 0 }
    await (sendRequestToServer ⟨c.clientIdBytes, clientCodeCksumErrFinal, filename, []⟩ c)

def handleResponse (response : Response) (c : Client) : Client :=
  if response.code = serverCodeRegistrationOk then saveRegistrationDetails response.clientId c
  else if response.code = serverCodeSwitchingKeys then
    handleAESKeyFromServer E response.payload c
  else if response.code = serverCodeCksumReady then handleFileResponse E c
  else c

def receiveResponseFromServer (c : Client) : Client :=
  let (head, c) := receive 7 { c with awaiting := false }
  let code := ofLe ((head.drop 1).take 2)
  let payloadSize := ofLe (head.drop 3)
  let (clientId, c) := receive 16 c
  let (payload, c) := if 0 < payloadSize then receive payloadSize c else ([], c)
  handleResponse E ⟨ofLe (head.take 1), code, clientId, payload, payload.length⟩
    { c with responseCodes := c.responseCodes ++ [code] }

def loadClientName (c : Client) : Client :=
  let (_, clientName) := readLine (c.files serverFilePath) 2 c.clientName
  { c with clientName := clientName.take 255 }

def isHexDigit (b : UInt8) : Bool := 48 ≤ b && b ≤ 57 || 97 ≤ b && b ≤ 102

def verifyClientIdHex (hex : Bytes) : Bool :=
  hex.length = 32 && hex.all (fun b => isHexDigit (tolower b))

/-- The value of a hexadecimal digit, as `strtol` reads it. -/
def hexValue (b : UInt8) : UInt8 :=
  if b ≤ 57 then b - 48 else if 97 ≤ b then b - 87 else b - 55

def hexToBytesArray : Bytes → Bytes
  | a :: b :: rest => (16 * hexValue a + hexValue b) :: hexToBytesArray rest
  | _ => []

def loadRegistrationDetails (c : Client) : Client :=
  if (c.files clientDetailsPath).isSome then
    let (found, clientIdHex) := readLine (c.files clientDetailsPath) 2 []
    if found && verifyClientIdHex clientIdHex then
      { c with
        clientIdHex := clientIdHex
        clientIdBytes := hexToBytesArray clientIdHex
        privateKey := (readLine (c.files clientDetailsPath) 3 c.privateKey).2 }
    else c
  else c

/-- `Client()` on a machine with these files; `connects` is whether the connection is made. -/
def Client.new (files : Bytes → Option Bytes) (connects : Bool) : Client :=
  let c : Client := ⟨[], [], List.replicate 16 0, [], [], 0, 1, [], false, files, [], false, [],
    false, [], []⟩
  if (files serverFilePath).isSome then
    let c := loadRegistrationDetails (loadClientName { c with connectedToServer := connects })
    { c with clientName := resize 255 c.clientName }
  else c

end EncryptedTransfer.ClientProcess
