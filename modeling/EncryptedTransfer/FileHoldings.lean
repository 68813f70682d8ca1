import EncryptedTransfer.MainRuns

/-!
# What the machines have on the server

Every machine has an account of its transfers: the one on its way, and what each of its files is
known to be on the server. A file whose transfer has ended stays there, confirmed, until the
machine sends one of its name again, whatever the other machines and processes do. Of a file
whose transfer was interrupted nothing is known.
-/
namespace EncryptedTransfer.FileHoldings
open ServerStores hiding Client Client.new
open ByteFormats Text ServerCalls ServerHandlers ServerConsistency ServerEffects ServerRuns
open StreamFraming FileLedger CryptoLaws ClientProcess Network ClientMessages ServerTurns
open ClientRoster FileNames KeyAgreement FirstTransfer DetailsFile ClientLives MainRuns
open PersistedIdentity (keepDetails)

inductive Holding where
  | nothing
  | file (content : Bytes)
  | unsure
  deriving DecidableEq

def Holding.Fits (e : Option (Bytes × Bool)) : Holding → Prop
  | nothing => e = none
  | file content => e = some (content, true)
  | unsure => True

structure Account where
  sending : Option (Str × Bytes)
  holding : Str → Holding

namespace Account

def empty : Account := ⟨none, fun _ => .nothing⟩

def begin (transfer : Option (Str × Bytes)) (a : Account) : Account :=
  match transfer with
  | none => a
  | some (filename, _) => ⟨transfer, Function.update a.holding filename .unsure⟩

def finish (a : Account) : Account :=
  match a.sending with
  | none => a
  | some (filename, content) => ⟨none, Function.update a.holding filename (.file content)⟩

def interrupt (a : Account) : Account := { a with sending := none }

end Account

variable (E : Externals)

/-- What a call of `sendFileToServer` sends: the name the server reads, and the content. -/
def offered (c : Client) : Option (Str × Bytes) :=
  if c.connectedToServer ∧ c.clientIdHex ≠ [] ∧ c.aesKey.length = 16 ∧ (loadFilePath c).1 then
    let path := (loadFilePath c).2.filePath
    (c.files path).bind fun content =>
      (filenameOf E (resize 255 (fileNameOf path))).map fun filename => (filename, content)
  else none

/-- A machine's account after an event. -/
def Account.next (sys : System) (i : ℕ) (a : Account) : Event → Account
  | .move (.call j .sendFileToServer) =>
    if j = i ∧ (sys.client i).awaiting = false then a.begin (offered E (sys.client i)) else a
  | .move (.resume j) =>
    if j = i ∧ ((sys.resume E i).client i).awaiting = false then a.finish else a
  | .start j _ _ => if j = i then a.interrupt else a
  | _ => a

/-- A file that is sent is not too large and has a name the server keeps. -/
def Sendable (c : Client) : Prop :=
  (loadFilePath c).1 = true → ∀ content, c.files (loadFilePath c).2.filePath = some content →
    content.length < 2 ^ 32 - 16 ∧ ∃ filename, KeptAs E (loadFilePath c).2.filePath filename

/-- What is assumed of an event besides: files can be sent, and arrive as they were sent. -/
def Clean (sys : System) : Event → Prop
  | .move (.call i .sendFileToServer) => Sendable E (sys.client i)
  | .move (.corrupt _ _) => False
  | _ => True

/-- The states of a run, and the machines' accounts in them. -/
inductive Kept (field : ℕ → Bytes) : System → (ℕ → Account) → Prop
  | installed {sys : System} (h : Installed E field sys) : Kept field sys fun _ => .empty
  | event {sys : System} {accounts : ℕ → Account} (h : Kept field sys accounts) (event : Event)
      (hallowed : Allowed E field sys event) (hclean : Clean E sys event) :
      Kept field (event.run E sys) fun i => (accounts i).next E sys i event

def Plain (answer : Bytes) : Prop :=
  answer = [] ∨ ∃ code clientId payload, code < 65536 ∧ code ≠ serverCodeCksumReady ∧
    code ≠ serverCodeRegistrationOk ∧ clientId.length = 16 ∧ payload.length < 4294967296 ∧
      answer = responseHead code payload.length clientId ++ payload

/-- A client that sends a file of this name, and whose last request has this code. -/
structure Sends (c : Client) (filename : Str) (code : ℕ) : Prop where
  awaiting : c.awaiting = true
  asked : c.requestCodes.getLast? = some code
  attached : c.clientIdHex ≠ []
  echoed : filenameOf E (reportField filename) = some filename
  nul_notMem : nul ∉ filename

/-- The requests and answers on their way, and the file that is sent. -/
inductive Stage (s : Server KeyedDisk) (c : Client) : Option (Str × Bytes) → Prop
  | idle (hawait : c.awaiting = false) (hout : c.outbox = []) (hin : c.inbox = []) :
      Stage s c none
  | registering (hawait : c.awaiting = true) (hlen : c.clientName.length = 255)
      (hout : c.outbox = [(registerMessage c.clientName hlen).encode]) (hin : c.inbox = []) :
      Stage s c none
  | registered (hawait : c.awaiting = true) (hnew : c.clientIdHex = []) (hout : c.outbox = [])
      {clientId : Bytes} (hid : clientId.length = 16)
      (hentry : ∀ filename, entry s (clientId, filename) = none)
      (hin : c.inbox = responseHead serverCodeRegistrationOk 0 clientId) : Stage s c none
  | keyAsked (hawait : c.awaiting = true) (hattached : c.clientIdHex ≠ []) {pair : KeyPair}
      (hpair : KeyPairLaws E pair.publicKey pair.privateKey) (hid : c.clientIdBytes.length = 16)
      (hlen : c.clientName.length = 255)
      (hout : c.outbox = [(keyMessage c.clientIdBytes c.clientName pair.publicKey hid hlen
        hpair.length_public).encode]) (hin : c.inbox = []) : Stage s c none
  | told (hawait : c.awaiting = true) (hout : c.outbox = []) (hin : Plain c.inbox) :
      Stage s c none
  | uploading {path content data : Bytes} {filename : Str}
      (h : Sends E c filename clientCodeSendFile) (hkey : c.aesKey.length = 16)
      (hsize : content.length < 2 ^ 32 - 16)
      (hplain : (E.aesDecrypt c.aesKey data).bind E.unpad = some content)
      (hname : filenameOf E (resize 255 (fileNameOf path)) = some filename)
      (hcksum : c.cksumOfLastFile =
        Cksum.Client.calculateCksum content (UInt32.ofNat content.length))
      (hid : c.clientIdBytes.length = 16) (hdata : data.length < 4294967296)
      (hout : c.outbox = [(uploadMessage c.clientIdBytes c.clientIdBytes
        (resize 255 (fileNameOf path)) data hid hid (length_resize 255 _) hdata).encode])
      (hin : c.inbox = []) : Stage s c (some (filename, content))
  | uploaded {content : Bytes} {filename : Str} (h : Sends E c filename clientCodeSendFile)
      (hout : c.outbox = [])
      (hin : c.inbox = reported c.clientIdBytes filename content.length c.cksumOfLastFile.toNat)
      (hentry : entry s (c.clientIdBytes, filename) = some (content, false)) :
      Stage s c (some (filename, content))
  | confirming {content : Bytes} {filename : Str} (h : Sends E c filename clientCodeCksumOk)
      (hid : c.clientIdBytes.length = 16)
      (hout : c.outbox = [(nameMessage c.clientIdBytes clientCodeCksumOk (reportField filename) hid
        (.inl rfl) (length_reportField filename)).encode]) (hin : c.inbox = [])
      (hentry : entry s (c.clientIdBytes, filename) = some (content, false)) :
      Stage s c (some (filename, content))
  | confirmed {content : Bytes} {filename : Str} (h : Sends E c filename clientCodeCksumOk)
      (hout : c.outbox = [])
      (hin : c.inbox = acknowledged c.clientIdBytes)
      (hentry : entry s (c.clientIdBytes, filename) = some (content, true)) :
      Stage s c (some (filename, content))

/-- The account of a machine is right. -/
structure Accounted (s : Server KeyedDisk) (c : Client) (a : Account) : Prop where
  stage : Stage E s c a.sending
  fed : c.starved = false
  keyed : c.aesKey.length = 16 → serverCodeSwitchingKeys ∈ c.responseCodes
  unsure : ∀ filename content, a.sending = some (filename, content) → a.holding filename = .unsure
  blank : (∀ clientId, ¬ HasId clientId c.files) → ∀ filename, a.holding filename = .nothing
  stored : ∀ clientId, HasId clientId c.files → ∀ filename,
    (a.holding filename).Fits (entry s (clientId, filename))

section Entries

variable {E} {s s' : Server KeyedDisk} {c : Client} {a : Account}

theorem Stage.of_entries {sending : Option (Str × Bytes)} (h : Stage E s c sending)
    (hsame : ∀ clientId, Holds c clientId → ∀ filename,
      entry s' (clientId, filename) = entry s (clientId, filename)) : Stage E s' c sending := by
  have hown {filename : Str} {code : ℕ} (hsends : Sends E c filename code) :
      entry s' (c.clientIdBytes, filename) = entry s (c.clientIdBytes, filename) :=
    hsame _ (.inl (.inl ⟨hsends.attached, rfl⟩)) filename
  cases h with
  | idle hawait hout hin => exact .idle hawait hout hin
  | registering hawait hlen hout hin => exact .registering hawait hlen hout hin
  | registered hawait hnew hout hid hentry hin =>
    refine .registered hawait hnew hout hid ?_ hin
    intro filename
    rw [hsame _ (.inl (.inr hin)), hentry]
  | keyAsked hawait hattached hpair hid hlen hout hin =>
    exact .keyAsked hawait hattached hpair hid hlen hout hin
  | told hawait hout hin => exact .told hawait hout hin
  | uploading h hkey hsize hplain hname hcksum hid hdata hout hin =>
    exact .uploading h hkey hsize hplain hname hcksum hid hdata hout hin
  | uploaded h hout hin hentry => exact .uploaded h hout hin ((hown h).trans hentry)
  | confirming h hid hout hin hentry => exact .confirming h hid hout hin ((hown h).trans hentry)
  | confirmed h hout hin hentry => exact .confirmed h hout hin ((hown h).trans hentry)

/-- A change of the stores that leaves the ids a machine holds leaves its account right. -/
theorem Accounted.of_entries (h : Accounted E s c a)
    (hsame : ∀ clientId, Holds c clientId → ∀ filename,
      entry s' (clientId, filename) = entry s (clientId, filename)) : Accounted E s' c a := by
  refine ⟨h.stage.of_entries hsame, h.fed, h.keyed, h.unsure, h.blank, ?_⟩
  intro clientId hid filename
  rw [hsame clientId (.inr hid)]
  exact h.stored clientId hid filename

theorem entry_of_unknown (hs : Consistent s) {clientId : Bytes}
    (h : s.database.clientExistsById clientId = false) (filename : Str) :
    entry s (clientId, filename) = none := by
  by_contra hentry
  obtain ⟨⟨content, v⟩, he⟩ := Option.ne_none_iff_exists'.mp hentry
  obtain ⟨c, -, hm⟩ := Option.bind_eq_some_iff.mp he
  obtain ⟨row, hrow, -⟩ := Option.map_eq_some_iff.mp hm
  have howned := hs.sound.owned row (KeyedTable.lookup_some hrow).1
  rw [(hs.sound.row_of_path hrow).1, h] at howned
  cases howned

theorem Stage.of_files {sending : Option (Str × Bytes)} (h : Stage E s c sending)
    (files : Bytes → Option Bytes) : Stage E s { c with files := files } sending := by
  cases h with
  | idle hawait hout hin => exact .idle hawait hout hin
  | registering hawait hlen hout hin => exact .registering hawait hlen hout hin
  | registered hawait hnew hout hid hentry hin =>
    exact .registered hawait hnew hout hid hentry hin
  | keyAsked hawait hattached hpair hid hlen hout hin =>
    exact .keyAsked hawait hattached hpair hid hlen hout hin
  | told hawait hout hin => exact .told hawait hout hin
  | uploading h hkey hsize hplain hname hcksum hid hdata hout hin =>
    exact .uploading ⟨h.1, h.2, h.3, h.4, h.5⟩ hkey hsize hplain hname hcksum hid hdata hout hin
  | uploaded h hout hin hentry => exact .uploaded ⟨h.1, h.2, h.3, h.4, h.5⟩ hout hin hentry
  | confirming h hid hout hin hentry =>
    exact .confirming ⟨h.1, h.2, h.3, h.4, h.5⟩ hid hout hin hentry
  | confirmed h hout hin hentry => exact .confirmed ⟨h.1, h.2, h.3, h.4, h.5⟩ hout hin hentry

theorem Accounted.of_files (h : Accounted E s c a) {files : Bytes → Option Bytes}
    (hsame : ∀ clientId, HasId clientId files ↔ HasId clientId c.files) :
    Accounted E s { c with files := files } a := by
  refine ⟨h.stage.of_files files, h.fed, h.keyed, h.unsure, ?_, ?_⟩
  · intro hno
    exact h.blank fun clientId hid => hno clientId ((hsame clientId).mpr hid)
  · intro clientId hid
    exact h.stored clientId ((hsame clientId).mp hid)

end Entries

section Steps

variable {E} {s : Server KeyedDisk} {db : Database} {c c' : Client} {a : Account}

theorem Accounted.to_client (h : Accounted E s c a) (hstage : Stage E s c' a.sending)
    (hfed : c'.starved = false)
    (hkeyed : c'.aesKey.length = 16 → serverCodeSwitchingKeys ∈ c'.responseCodes)
    (hsame : ∀ clientId, HasId clientId c'.files ↔ HasId clientId c.files) :
    Accounted E s c' a := by
  refine ⟨hstage, hfed, hkeyed, h.unsure, ?_, ?_⟩
  · intro hno
    exact h.blank fun clientId hid => hno clientId ((hsame clientId).mpr hid)
  · intro clientId hid
    exact h.stored clientId ((hsame clientId).mp hid)

theorem Stage.of_idle {sending : Option (Str × Bytes)} (h : Stage E s c sending)
    (hawait : c.awaiting = false) : sending = none ∧ c.outbox = [] ∧ c.inbox = [] := by
  have hno (ht : c.awaiting = true) : False := by simp [ht] at hawait
  cases h with
  | idle _ hout hin => exact ⟨rfl, hout, hin⟩
  | registering ht => exact (hno ht).elim
  | registered ht => exact (hno ht).elim
  | keyAsked ht => exact (hno ht).elim
  | told ht => exact (hno ht).elim
  | uploading h => exact (hno h.awaiting).elim
  | uploaded h => exact (hno h.awaiting).elim
  | confirming h => exact (hno h.awaiting).elim
  | confirmed h => exact (hno h.awaiting).elim

theorem registerToServer_accounted (h : Accounted E s c a) (hagrees : Agrees E db c)
    (hawait : c.awaiting = false) : Accounted E s (registerToServer c) a := by
  obtain ⟨hsending, hout, hin⟩ := h.stage.of_idle hawait
  unfold registerToServer
  split_ifs with hready
  · have hlen := hagrees.nameLength hready.1
    rw [sendRequestToServer_register hlen]
    refine h.to_client ?_ h.fed h.keyed fun _ => Iff.rfl
    rw [hsending]
    exact .registering rfl hlen (by simp [await, post, hout]) hin
  · exact h

theorem generateRSAKeyPair_accounted (h : Accounted E s c a) (hagrees : Agrees E db c)
    (hawait : c.awaiting = false) {pair : KeyPair}
    (hpair : KeyPairLaws E pair.publicKey pair.privateKey)
    (hsame : ∀ clientId, HasId clientId (generateRSAKeyPair E pair c).files ↔
      HasId clientId c.files) : Accounted E s (generateRSAKeyPair E pair c) a := by
  obtain ⟨hsending, hout, hin⟩ := h.stage.of_idle hawait
  by_cases hready : c.connectedToServer = true ∧ c.clientIdHex ≠ []
  · have hlen := hagrees.nameLength hready.1
    obtain ⟨files, hsaved⟩ : ∃ files, savePrivateKey (E.base64Encode pair.privateKey) c =
        { c with files := files } := by
      unfold savePrivateKey
      split_ifs
      · exact ⟨_, rfl⟩
      · exact ⟨c.files, rfl⟩
    have hcall : generateRSAKeyPair E pair c = await (post clientCodeSendPublicKey
        (keyMessage c.clientIdBytes c.clientName pair.publicKey hagrees.idLength hlen
          hpair.length_public).encode
          { c with files := files, privateKey := E.base64Encode pair.privateKey }) := by
      rw [generateRSAKeyPair, if_pos hready]
      simp only [hsaved]
      rw [sendRequestToServer_key hagrees.idLength hlen hpair.length_public]
    refine h.to_client ?_ ?_ ?_ hsame
    · rw [hsending, hcall]
      exact .keyAsked rfl hready.2 hpair hagrees.idLength hlen (by simp [await, post, hout]) hin
    · rw [hcall]
      exact h.fed
    · rw [hcall]
      exact h.keyed
  · rw [generateRSAKeyPair, if_neg hready]
    exact h

theorem sendFileToServer_none (hsend : Sendable E c) (h : offered E c = none) :
    ∃ path, sendFileToServer E c = { c with filePath := path } := by
  by_cases hready : c.connectedToServer = true ∧ c.clientIdHex ≠ []
  · obtain ⟨path, hpath⟩ := loadFilePath_eq c
    rw [sendFileToServer, if_pos hready]
    cases hloaded : (loadFilePath c).1 with
    | false =>
      refine ⟨path, ?_⟩
      simp only [hloaded, Bool.false_eq_true, ↓reduceIte, hpath]
    | true =>
      simp only [hloaded, ↓reduceIte, hpath]
      cases hload : loadFileContent E { c with filePath := path } with
      | none => exact ⟨path, rfl⟩
      | some loaded =>
        obtain ⟨file, hfile, hkey, -⟩ := loadFileContent_eq_some.mp hload
        obtain ⟨-, filename, hname⟩ := hsend hloaded file (by rw [hpath]; exact hfile)
        have hoffer : offered E c = some (filename, file) := by
          rw [offered, if_pos ⟨hready.1, hready.2, hkey, hloaded⟩]
          simp only [hname.uploaded, Option.map_some]
          rw [hpath]
          exact congrArg (Option.bind · fun content => some (filename, content)) hfile
        rw [hoffer] at h
        cases h
  · refine ⟨c.filePath, ?_⟩
    rw [sendFileToServer, if_neg hready]

theorem sendFileToServer_some (haes : AesLaws E) (hid : c.clientIdBytes.length = 16)
    (hsend : Sendable E c) {filename : Str} {content : Bytes}
    (h : offered E c = some (filename, content)) :
    c.clientIdHex ≠ [] ∧ c.aesKey.length = 16 ∧ content.length < 2 ^ 32 - 16 ∧
      ∃ path data, ∃ hdata : data.length < 4294967296, KeptAs E path filename ∧
        (E.aesDecrypt c.aesKey data).bind E.unpad = some content ∧
        sendFileToServer E c = await (post clientCodeSendFile (uploadMessage c.clientIdBytes
          c.clientIdBytes (resize 255 (fileNameOf path)) data hid hid (length_resize 255 _)
          hdata).encode { c with
            filePath := path
            cksumOfLastFile :=
              Cksum.Client.calculateCksum content (UInt32.ofNat content.length) }) := by
  obtain ⟨path, hpath⟩ := loadFilePath_eq c
  unfold offered at h
  split_ifs at h with hready
  obtain ⟨hconnected, hattached, hkey, hloaded⟩ := hready
  obtain ⟨content', hfile, hnamed⟩ := Option.bind_eq_some_iff.mp h
  obtain ⟨filename', hname, he⟩ := Option.map_eq_some_iff.mp hnamed
  obtain ⟨rfl, rfl⟩ := Prod.mk.inj he
  obtain ⟨hsize, filename, hkept⟩ := hsend hloaded content' hfile
  have hload : loadFilePath c = (true, { c with filePath := path }) := Prod.ext hloaded hpath
  rw [hpath] at hfile hname hkept
  have hsame : filename = filename' := Option.some.inj (hkept.uploaded.symm.trans hname)
  subst hsame
  obtain ⟨hsent, hnoted⟩ := FirstTransfer.sentOf_eq (c := { c with filePath := path }) haes hkey
    hsize
  have hcall := sendFileToServer_eq (E := E) hid hkey hconnected hattached hload hfile
  rw [hnoted] at hcall
  refine ⟨hattached, hkey, hsize, path, sentOf E { c with filePath := path } content',
    length_sentOf _ _ _, hkept, ?_, hcall⟩
  rw [hsent]
  exact haes.decrypt_encrypt _ _ hkey

theorem sendFileToServer_accounted (haes : AesLaws E) (h : Accounted E s c a)
    (hagrees : Agrees E db c) (hbelongs : c.clientIdHex ≠ [] → HasId c.clientIdBytes c.files)
    (hawait : c.awaiting = false) (hsend : Sendable E c) :
    Accounted E s (sendFileToServer E c) (a.begin (offered E c)) := by
  obtain ⟨hsending, hout, hin⟩ := h.stage.of_idle hawait
  cases hoffer : offered E c with
  | none =>
    obtain ⟨path, hcall⟩ := sendFileToServer_none hsend hoffer
    rw [hcall, Account.begin]
    refine h.to_client ?_ h.fed h.keyed fun _ => Iff.rfl
    rw [hsending]
    exact .idle hawait hout hin
  | some transfer =>
    obtain ⟨filename, content⟩ := transfer
    obtain ⟨hattached, hkey, hsize, path, data, hdata, hkept, hplain, hcall⟩ :=
      sendFileToServer_some haes hagrees.idLength hsend hoffer
    have hid := hbelongs hattached
    rw [hcall, Account.begin]
    refine ⟨?_, h.fed, h.keyed, ?_, fun hno => absurd hid (hno _), ?_⟩
    · exact .uploading ⟨rfl, by simp [await, post], hattached, hkept.echoed, hkept.nul_notMem⟩
        hkey hsize hplain hkept.uploaded rfl hagrees.idLength hdata (by simp [await, post, hout]) hin
    · intro filename' content' he
      obtain ⟨rfl, rfl⟩ := Prod.mk.inj (Option.some.inj he)
      exact Function.update_self ..
    · intro clientId hid' filename'
      by_cases hf : filename' = filename
      · subst hf
        simp only [Function.update_self]
        trivial
      · simp only [Function.update_of_ne hf]
        exact h.stored clientId hid' filename'

end Steps

section Answers

variable {E} {s : Server KeyedDisk} {db : Database} {field : Bytes} {c : Client} {a : Account}
  {sending : Option (Str × Bytes)} {holding : Str → Holding}

theorem receiveResponseFromServer_plain (h : Plain c.inbox) (hin : c.inbox ≠ []) :
    ∃ code aesKey, receiveResponseFromServer E c = { c with
        awaiting := false
        inbox := []
        aesKey := aesKey
        responseCodes := c.responseCodes ++ [code] } ∧
      (aesKey = c.aesKey ∨ code = serverCodeSwitchingKeys) := by
  rcases h with hnil | ⟨code, clientId, payload, hlt, hreport, hregistered, hid, hsize, hinbox⟩
  · exact absurd hnil hin
  have hwhole : c.inbox = responseHead code payload.length clientId ++ (payload ++ []) := by
    rw [hinbox, List.append_nil]
  rw [receiveResponseFromServer_eq E hlt hid hsize hwhole, handleResponse, if_neg hregistered]
  simp only
  by_cases hkey : code = serverCodeSwitchingKeys
  · rw [if_pos hkey, handleAESKeyFromServer]
    split
    · exact ⟨code, _, rfl, .inr hkey⟩
    · exact ⟨code, c.aesKey, rfl, .inl rfl⟩
  · rw [if_neg hkey, if_neg hreport]
    exact ⟨code, c.aesKey, rfl, .inl rfl⟩

theorem told_accounted (h : Accounted E s c ⟨none, holding⟩) (hout : c.outbox = [])
    (hplain : Plain c.inbox) (hin : c.inbox ≠ []) :
    (receiveResponseFromServer E c).awaiting = false ∧
      Accounted E s (receiveResponseFromServer E c) ⟨none, holding⟩ := by
  obtain ⟨code, aesKey, hreceive, hkey⟩ := receiveResponseFromServer_plain (E := E) hplain hin
  rw [hreceive]
  refine ⟨rfl, h.to_client (.idle rfl hout rfl) h.fed ?_ fun _ => Iff.rfl⟩
  intro hlen
  rcases hkey with rfl | rfl
  · exact List.mem_append_left _ (h.keyed hlen)
  · exact List.mem_append_right _ (List.mem_singleton_self _)

theorem registered_accounted (h : Accounted E s c ⟨none, holding⟩) (hbelongs : Belongs field db c)
    (hawait : c.awaiting = true) (hnew : c.clientIdHex = []) (hout : c.outbox = []) {clientId : Bytes}
    (hid : clientId.length = 16) (hentry : ∀ filename, entry s (clientId, filename) = none)
    (hin : c.inbox = responseHead serverCodeRegistrationOk 0 clientId) :
    (receiveResponseFromServer E c).awaiting = false ∧
      Accounted E s (receiveResponseFromServer E c) ⟨none, holding⟩ := by
  have hno (x : Bytes) : ¬ HasId x c.files := fun hx =>
    hbelongs.loaded x (hbelongs.connected hawait) hx hnew
  have hnone : c.files clientDetailsPath = none := by
    rcases hbelongs.details with hnone | ⟨x, hx⟩
    · exact hnone
    · exact absurd hx (hno x)
  have hreceive := receiveResponseFromServer_registered (E := E) hid hin
  rw [saveRegistrationDetails, if_neg (by simp [hnone])] at hreceive
  have hsaved : HasId clientId (receiveResponseFromServer E c).files := by
    rw [hreceive]
    exact hasId_append hid hbelongs.clean hnone
  have hblank := h.blank hno
  refine ⟨by rw [hreceive], ?_, ?_, ?_, h.unsure, fun hall => absurd hsaved (hall _), ?_⟩
  · rw [hreceive]
    exact .idle rfl hout rfl
  · rw [hreceive]
    exact h.fed
  · rw [hreceive]
    exact fun hlen => List.mem_append_left _ (h.keyed hlen)
  · intro x hx filename
    rw [hasId_unique hx hsaved, hblank filename]
    exact hentry filename

theorem uploaded_accounted {filename : Str} {content : Bytes}
    (h : Accounted E s c ⟨some (filename, content), holding⟩) 
    (hsends : Sends E c filename clientCodeSendFile) (hid : c.clientIdBytes.length = 16)
    (hout : c.outbox = [])
    (hin : c.inbox = reported c.clientIdBytes filename content.length c.cksumOfLastFile.toNat)
    (hentry : entry s (c.clientIdBytes, filename) = some (content, false)) :
    (receiveResponseFromServer E c).awaiting = true ∧
      Accounted E s (receiveResponseFromServer E c) ⟨some (filename, content), holding⟩ := by
  have hreceive := receiveResponseFromServer_reported (E := E) hid c.cksumOfLastFile.toNat_lt hin
  simp only [UInt32.ofNat_toNat, ↓reduceIte] at hreceive
  rw [sendRequestToServer_name hid (.inl rfl) (length_reportField filename)] at hreceive
  rw [hreceive]
  refine ⟨rfl, h.to_client ?_ h.fed ?_ fun _ => Iff.rfl⟩
  · exact .confirming ⟨rfl, by simp [await, post], hsends.attached, hsends.echoed,
      hsends.nul_notMem⟩ hid (by simp [await, post, hout]) rfl hentry
  · exact fun hlen => List.mem_append_left _ (h.keyed hlen)

theorem confirmed_accounted {filename : Str} {content : Bytes}
    (h : Accounted E s c ⟨some (filename, content), holding⟩) (hbelongs : Belongs field db c)
    (hsends : Sends E c filename clientCodeCksumOk) (hout : c.outbox = [])
    (hin : c.inbox = acknowledged c.clientIdBytes)
    (hentry : entry s (c.clientIdBytes, filename) = some (content, true)) :
    (receiveResponseFromServer E c).awaiting = false ∧
      Accounted E s (receiveResponseFromServer E c)
        ⟨none, Function.update holding filename (.file content)⟩ := by
  have hown := hbelongs.attached hsends.attached
  rw [receiveResponseFromServer_told (uuidField_length _) (.inr rfl) hin]
  refine ⟨rfl, .idle rfl hout rfl, h.fed, fun hlen => List.mem_append_left _ (h.keyed hlen), nofun,
    fun hno => absurd hown (hno _), ?_⟩
  intro x hx filename'
  obtain rfl := hasId_unique hx hown
  by_cases hf : filename' = filename
  · subst hf
    simp only [Function.update_self]
    exact hentry
  · simp only [Function.update_of_ne hf]
    exact h.stored _ hx filename'

theorem receive_accounted (h : Accounted E s c a) (hbelongs : Belongs field db c)
    (hid : c.clientIdBytes.length = 16) (hawait : c.awaiting = true) (hin : c.inbox ≠ []) :
    Accounted E s (receiveResponseFromServer E c)
      (if (receiveResponseFromServer E c).awaiting = false then a.finish else a) := by
  obtain ⟨sending, holding⟩ := a
  have hstage : Stage E s c sending := h.stage
  cases hstage with
  | idle hno => simp [hno] at hawait
  | registering _ _ _ hno => exact absurd hno hin
  | registered _ hnew hout hid hentry hinbox =>
    obtain ⟨hdone, hnext⟩ := registered_accounted (E := E) h hbelongs hawait hnew hout hid hentry
      hinbox
    rw [if_pos hdone]
    exact hnext
  | keyAsked _ _ _ _ _ _ hno => exact absurd hno hin
  | told _ hout hplain =>
    obtain ⟨hdone, hnext⟩ := told_accounted h hout hplain hin
    rw [if_pos hdone]
    exact hnext
  | uploading _ _ _ _ _ _ _ _ _ hno => exact absurd hno hin
  | uploaded hsends hout hinbox hentry =>
    obtain ⟨hwaits, hnext⟩ := uploaded_accounted h hsends hid hout hinbox hentry
    rw [if_neg (by simp [hwaits])]
    exact hnext
  | confirming _ _ _ hno => exact absurd hno hin
  | confirmed hsends hout hinbox hentry =>
    obtain ⟨hdone, hnext⟩ := confirmed_accounted h hbelongs hsends hout hinbox hentry
    rw [if_pos hdone]
    exact hnext

end Answers

structure Advances (s s' : Server KeyedDisk) (c c' : Client) (a : Account) : Prop where
  accounted : Accounted E s' c' a
  frame : ∀ k : Bytes × Str, ¬ Owns c k.1 → entry s' k = entry s k

section Serve

variable {E} {s s' : Server KeyedDisk} {field : Bytes} {c : Client} {holding : Str → Holding}
  {env : Draws}

theorem advances_of_entry {a : Account} (h : Accounted E s c a) (hentry : entry s' = entry s)
    {sent : Bytes} (hstage : Stage E s' (answered c [] sent) a.sending) :
    Advances E s s' c (answered c [] sent) a := by
  have hsame : Accounted E s' c a := h.of_entries fun _ _ _ => by rw [hentry]
  exact ⟨hsame.to_client hstage hsame.fed hsame.keyed fun _ => Iff.rfl, fun _ _ => by rw [hentry]⟩

theorem stored_of_entries {sending : Option (Str × Bytes)} (h : Accounted E s c ⟨sending, holding⟩)
    {filename : Str} (hunsure : holding filename = .unsure)
    (hid : HasId c.clientIdBytes c.files)
    (hentry : ∀ k, k ≠ (c.clientIdBytes, filename) → entry s' k = entry s k) :
    ∀ clientId, HasId clientId c.files → ∀ filename',
      (holding filename').Fits (entry s' (clientId, filename')) := by
  intro clientId hid' filename'
  obtain rfl := hasId_unique hid' hid
  by_cases hf : filename' = filename
  · subst hf
    rw [hunsure]
    trivial
  · rw [hentry _ (by simp [hf])]
    exact h.stored _ hid' filename'

variable (hagrees : Agrees E s.database c)
include hagrees

theorem keyAsked_advances (h : Accounted E s c ⟨none, holding⟩) (hawait : c.awaiting = true)
    (hattached : c.clientIdHex ≠ []) {pair : KeyPair}
    (hpair : KeyPairLaws E pair.publicKey pair.privateKey) (hid : c.clientIdBytes.length = 16)
    (hlen : c.clientName.length = 255) (hin : c.inbox = []) :
    ∃ s' sent left, Turned (System.turnWith E env s (keyMessage c.clientIdBytes c.clientName
      pair.publicKey hid hlen hpair.length_public).encode) s' sent left ∧
      Advances E s s' c (answered c [] sent) ⟨none, holding⟩ := by
  obtain ⟨key, name, hname, hmem⟩ := hagrees.attached hattached
  obtain ⟨decoded, hdecoded, hstrip⟩ := Option.map_eq_some_iff.mp hname
  obtain ⟨cipher, hcipher, hsize⟩ := hpair.encrypts env.seed (env.random aesKeySize)
    (env.random_length aesKeySize)
  have hrequest := keyRequest_append hlen hpair.length_public hdecoded
  have hentry : entry (setKeys env.now (stripNul decoded) pair.publicKey (env.random aesKeySize) s) =
      entry s := rfl
  refine ⟨_, _, _, turned_key rfl rfl (exists_of_mem_roster hmem) hrequest hpair.imported hcipher
    hsize, advances_of_entry h hentry (.told hawait rfl (.inr ?_))⟩
  refine ⟨serverCodeSwitchingKeys, c.clientIdBytes, cipher, by decide, by decide, by decide, hid,
    hsize, ?_⟩
  simp only [answered, hin, List.nil_append]
  rfl

variable (hs : Consistent s)
include hs

theorem registering_advances (h : Accounted E s c ⟨none, holding⟩)
    (hfresh : s.database.clientExistsById env.uuid = false) (hawait : c.awaiting = true)
    (hlen : c.clientName.length = 255) (hin : c.inbox = []) :
    ∃ s' sent left, Turned (System.turnWith E env s (registerMessage c.clientName hlen).encode) s'
      sent left ∧ Advances E s s' c (answered c [] sent) ⟨none, holding⟩ := by
  have hinbox (sent : Bytes) : (answered c [] sent).inbox = sent := by
    simp [answered, hin]
  cases hname : decodeUtf8 c.clientName with
  | none =>
    refine ⟨_, _, _, turned_register_undecodable rfl rfl hname, advances_of_entry h rfl ?_⟩
    exact .told hawait rfl (.inl (hinbox []))
  | some name =>
    cases hexists : s.database.clientExistsByName (stripNul name) with
    | true =>
      refine ⟨_, _, _, turned_register_taken rfl rfl hname hexists, advances_of_entry h rfl
        (.told hawait rfl (.inr ?_))⟩
      refine ⟨serverCodeRegistrationErr, uuidField [], [], by decide, by decide, by decide,
        uuidField_length _, by decide, ?_⟩
      rw [hinbox, List.append_nil]
      rfl
    | false =>
      -- an attached client has its name in the tables
      have hnew : c.clientIdHex = [] := by
        by_contra hattached
        obtain ⟨key, name', hname', hmem⟩ := hagrees.attached hattached
        rw [nameOf, hname, Option.map_some] at hname'
        obtain rfl := Option.some.inj hname'
        rw [existsByName_of_mem_roster hmem] at hexists
        cases hexists
      refine ⟨_, _, _, turned_register rfl rfl hname hexists, advances_of_entry h
        (entry_register _ _ _ _) (.registered hawait hnew rfl env.uuid_length ?_ (hinbox _))⟩
      intro filename
      rw [entry_register]
      exact entry_of_unknown hs hfresh filename

theorem uploading_advances {filename : Str} {content path data : Bytes}
    (h : Accounted E s c ⟨some (filename, content), holding⟩) (hbelongs : Belongs field s.database c)
    (hsends : Sends E c filename clientCodeSendFile) (hkey : c.aesKey.length = 16)
    (hsize : content.length < 2 ^ 32 - 16)
    (hplain : (E.aesDecrypt c.aesKey data).bind E.unpad = some content)
    (hname : filenameOf E (resize 255 (fileNameOf path)) = some filename)
    (hcksum : c.cksumOfLastFile = Cksum.Client.calculateCksum content (UInt32.ofNat content.length))
    (hid : c.clientIdBytes.length = 16) (hdata : data.length < 4294967296) (hin : c.inbox = []) :
    ∃ s' sent left, Turned (System.turnWith E env s (uploadMessage c.clientIdBytes c.clientIdBytes
        (resize 255 (fileNameOf path)) data hid hid (length_resize 255 _) hdata).encode) s' sent left ∧
      Advances E s s' c (answered c [] sent) ⟨some (filename, content), holding⟩ := by
  have howned := hbelongs.attached hsends.attached
  have hasked : ¬ KeyOutstanding c := by
    rintro ⟨-, hlast⟩
    rw [hsends.asked] at hlast
    exact absurd hlast (by decide)
  obtain ⟨-, name, -, hmem⟩ := hagrees.agreed hasked (h.keyed hkey)
  have hcontent : contentOf E s.database c.clientIdBytes data = some content := by
    rw [contentOf, getAesKeyOfClient_eq hs.sound hmem, Option.bind_some, hplain]
  have hsum : Cksum.Server.cksumCalc content = some c.cksumOfLastFile.toNat := by
    rw [hcksum]
    exact Cksum.cksumCalc_eq (show content.length < 2 ^ 32 by omega)
  have hturn : Turned (System.turnWith E env s (uploadMessage c.clientIdBytes c.clientIdBytes
      (resize 255 (fileNameOf path)) data hid hid (length_resize 255 _) hdata).encode) _ _ _ :=
    turned_upload rfl rfl hid (length_resize 255 _) hdata (exists_of_mem_roster hmem) hs hname
      hcontent hsends.nul_notMem hsum
  rw [if_pos (show content.length < 4294967296 by omega)] at hturn
  have hentry := hs.sound.entry_store env.now c.clientIdBytes filename content
  have hother (k : Bytes × Str) (hk : k ≠ (c.clientIdBytes, filename)) :
      entry (store env.now c.clientIdBytes filename content s) k = entry s k := by
    rw [hentry]
    exact Function.update_of_ne hk _ _
  have hstored := stored_of_entries h (h.unsure _ _ rfl) howned hother
  refine ⟨_, _, _, hturn, ⟨?_, h.fed, h.keyed, h.unsure, h.blank, ?_⟩, ?_⟩
  · refine .uploaded ⟨hsends.awaiting, hsends.asked, hsends.attached, hsends.echoed,
      hsends.nul_notMem⟩ rfl ?_ ?_
    · simp only [answered, hin, List.nil_append]
      rfl
    · exact (congrFun hentry _).trans (Function.update_self ..)
  · exact hstored
  · intro k hk
    apply hother
    rintro rfl
    exact hk (.inl ⟨hsends.attached, rfl⟩)

theorem confirming_advances {filename : Str} {content : Bytes}
    (h : Accounted E s c ⟨some (filename, content), holding⟩) (hbelongs : Belongs field s.database c)
    (hsends : Sends E c filename clientCodeCksumOk) (hid : c.clientIdBytes.length = 16)
    (hin : c.inbox = [])
    (hold : entry s (c.clientIdBytes, filename) = some (content, false)) :
    ∃ s' sent left, Turned (System.turnWith E env s (nameMessage c.clientIdBytes clientCodeCksumOk
        (reportField filename) hid (.inl rfl) (length_reportField filename)).encode) s' sent left ∧
      Advances E s s' c (answered c [] sent) ⟨some (filename, content), holding⟩ := by
  have howned := hbelongs.attached hsends.attached
  obtain ⟨key, name, -, hmem⟩ := hagrees.attached hsends.attached
  have hturn : Turned (System.turnWith E env s (nameMessage c.clientIdBytes clientCodeCksumOk
      (reportField filename) hid (.inl rfl) (length_reportField filename)).encode) _ _ _ :=
    turned_cksumOk (exists_of_mem_roster hmem) (length_reportField filename) rfl hsends.echoed
  have hentry := hs.sound.entry_confirm env.now c.clientIdBytes filename
  have hother (k : Bytes × Str) (hk : k ≠ (c.clientIdBytes, filename)) :
      entry (confirm env.now c.clientIdBytes filename s) k = entry s k := by
    rw [hentry]
    exact Function.update_of_ne hk _ _
  have hstored := stored_of_entries h (h.unsure _ _ rfl) howned hother
  refine ⟨_, _, _, hturn, ⟨?_, h.fed, h.keyed, h.unsure, h.blank, ?_⟩, ?_⟩
  · refine .confirmed ⟨hsends.awaiting, hsends.asked, hsends.attached, hsends.echoed,
      hsends.nul_notMem⟩ rfl ?_ ?_
    · simp only [answered, hin, List.nil_append]
      rfl
    · refine (congrFun hentry _).trans ((Function.update_self ..).trans ?_)
      rw [hold]
  · exact hstored
  · intro k hk
    apply hother
    rintro rfl
    exact hk (.inl ⟨hsends.attached, rfl⟩)

theorem request_advances {a : Account} (h : Accounted E s c a)
    (hbelongs : Belongs field s.database c)
    (hfresh : s.database.clientExistsById env.uuid = false) {request : Bytes} {rest : List Bytes}
    (hout : c.outbox = request :: rest) :
    ∃ s' sent left, Turned (System.turnWith E env s request) s' sent left ∧
      Advances E s s' c (answered c rest sent) a := by
  obtain ⟨sending, holding⟩ := a
  have hnil (hnil : c.outbox = []) : False := by
    rw [hout] at hnil
    cases hnil
  have hstage : Stage E s c sending := h.stage
  cases hstage with
  | idle _ hno => exact (hnil hno).elim
  | registering hawait hlen hm hin =>
    rw [hm] at hout
    obtain ⟨rfl, rfl⟩ := List.cons.inj hout
    exact registering_advances hagrees hs h hfresh hawait hlen hin
  | registered _ _ hno => exact (hnil hno).elim
  | keyAsked hawait hattached hpair hid hlen hm hin =>
    rw [hm] at hout
    obtain ⟨rfl, rfl⟩ := List.cons.inj hout
    exact keyAsked_advances hagrees h hawait hattached hpair hid hlen hin
  | told _ hno => exact (hnil hno).elim
  | uploading hsends hkey hsize hplain hname hcksum hid hdata hm hin =>
    rw [hm] at hout
    obtain ⟨rfl, rfl⟩ := List.cons.inj hout
    exact uploading_advances hagrees hs h hbelongs hsends hkey hsize hplain hname hcksum hid hdata
      hin
  | uploaded _ hno => exact (hnil hno).elim
  | confirming hsends hid hm hin hentry =>
    rw [hm] at hout
    obtain ⟨rfl, rfl⟩ := List.cons.inj hout
    exact confirming_advances hagrees hs h hbelongs hsends hid hin hentry
  | confirmed _ hno => exact (hnil hno).elim

end Serve

section Runs

variable {E} {field : ℕ → Bytes} {sys : System} {accounts : ℕ → Account}

theorem Accounted.start {s : Server KeyedDisk} {c : Client} {a : Account} (h : Accounted E s c a)
    (files : Bytes → Option Bytes) (connects : Bool) :
    Accounted E s (.new (keepDetails c files) connects) a.interrupt := by
  obtain ⟨name, hex, bytes, key, connected, -, -, hnew⟩ :=
    KeyAgreement.new_eq (keepDetails c files) connects
  have hsame (clientId : Bytes) : HasId clientId (keepDetails c files) ↔ HasId clientId c.files :=
    hasId_congr (Function.update_self ..)
  rw [hnew]
  refine ⟨.idle rfl rfl rfl, rfl, nofun, nofun, ?_, ?_⟩
  · intro hno
    exact h.blank fun clientId hid => hno clientId ((hsame clientId).mpr hid)
  · intro clientId hid
    exact h.stored clientId ((hsame clientId).mp hid)

theorem accounted_setClient (h : ∀ i, Accounted E sys.server (sys.client i) (accounts i)) {j : ℕ}
    {c : Client} (next : ℕ → Account) (hown : Accounted E sys.server c (next j))
    (hother : ∀ i, i ≠ j → next i = accounts i) (i : ℕ) :
    Accounted E (sys.setClient j c).server ((sys.setClient j c).client i) (next i) := by
  by_cases he : i = j
  · subst he
    rw [System.setClient_self]
    exact hown
  · rw [System.setClient_other _ he, hother i he]
    exact h i

variable (hsettled : Settled E field sys)
  (h : ∀ i, Accounted E sys.server (sys.client i) (accounts i))
include hsettled h

theorem call_accounts (haes : AesLaws E) (j : ℕ) (method : Method)
    (hpermitted : Permitted E sys (.call j method)) (hclean : Clean E sys (.move (.call j method)))
    (hawait : (sys.client j).awaiting = false) (i : ℕ) :
    Accounted E (sys.setClient j (method.run E (sys.client j))).server
      ((sys.setClient j (method.run E (sys.client j))).client i)
      ((accounts i).next E sys i (.move (.call j method))) := by
  have hagrees := hsettled.agreement.agrees j
  have hbelongs := hsettled.belongs j
  cases method with
  | registerToServer =>
    exact accounted_setClient h accounts (registerToServer_accounted (h j) hagrees hawait)
      (fun _ _ => rfl) i
  | generateRSAKeyPair pair =>
    have hsame := (method_belongs (E := E) hbelongs (.generateRSAKeyPair pair)).2
    exact accounted_setClient h accounts
      (generateRSAKeyPair_accounted (h j) hagrees hawait hpermitted hsame) (fun _ _ => rfl) i
  | sendFileToServer =>
    refine accounted_setClient h (fun i => (accounts i).next E sys i
      (.move (.call j .sendFileToServer))) ?_ (fun i hi => ?_) i
    · simp only [Account.next, hawait, and_self, ↓reduceIte]
      exact sendFileToServer_accounted haes (h j) hagrees hbelongs.attached hawait hclean
    · simp only [Account.next]
      rw [if_neg fun hj => hi hj.1.symm]

theorem serve_accounts (j : ℕ) {env : Draws}
    (hfresh : sys.server.database.clientExistsById env.uuid = false) (i : ℕ) :
    Accounted E (sys.serve E j env).server ((sys.serve E j env).client i) (accounts i) := by
  cases hout : (sys.client j).outbox with
  | nil =>
    rw [System.serve_nil E hout]
    exact h i
  | cons request rest =>
    obtain ⟨s', sent, left, hturn, hadvances⟩ := request_advances (hsettled.agreement.agrees j)
      hsettled.agreement.consistent (h j) (hsettled.belongs j) hfresh hout
    rw [System.serve_cons E hout, hturn.server_eq, hturn.sent_eq]
    by_cases he : i = j
    · subst he
      simp only [Function.update_self]
      exact hadvances.accounted
    · simp only [Function.update_of_ne he]
      apply (h i).of_entries
      intro clientId hholds filename
      exact hadvances.frame _ fun hown => he (hsettled.apart i j clientId hholds (.inl hown))

theorem resume_accounts (j : ℕ) (i : ℕ) :
    Accounted E (sys.resume E j).server ((sys.resume E j).client i)
      ((accounts i).next E sys i (.move (.resume j))) := by
  have hidle (hsame : sys.resume E j = sys) : Accounted E (sys.resume E j).server
      ((sys.resume E j).client i) ((accounts i).next E sys i (.move (.resume j))) := by
    rw [hsame]
    simp only [Account.next]
    split_ifs with hdone
    · obtain ⟨rfl, hawait⟩ := hdone
      rw [hsame] at hawait
      have hnone := ((h j).stage.of_idle hawait).1
      have hfinish : (accounts j).finish = accounts j := by rw [Account.finish, hnone]
      rw [hfinish]
      exact h j
    · exact h i
  by_cases hready : (sys.client j).awaiting = true ∧ (sys.client j).inbox ≠ []
  · cases hstarved : (receiveResponseFromServer E (sys.client j)).starved with
    | true => exact hidle (by simp only [System.resume]; rw [if_pos hready, hstarved]; rfl)
    | false =>
      have hresume : sys.resume E j =
          sys.setClient j (receiveResponseFromServer E (sys.client j)) := by
        simp only [System.resume]
        rw [if_pos hready, hstarved]
        rfl
      rw [hresume]
      refine accounted_setClient h (fun i => (accounts i).next E sys i (.move (.resume j))) ?_
        (fun i hi => ?_) i
      · have hnext := receive_accounted (h j) (hsettled.belongs j)
          (hsettled.agreement.agrees j).idLength hready.1 hready.2
        simpa only [Account.next, hresume, System.setClient_self, true_and] using hnext
      · simp only [Account.next]
        rw [if_neg fun hj => hi hj.1.symm]
  · exact hidle (by simp only [System.resume]; rw [if_neg hready])

/-- Every event keeps the accounts right. -/
theorem event_accounts (haes : AesLaws E) (event : Event) (hallowed : Allowed E field sys event)
    (hclean : Clean E sys event) (i : ℕ) :
    Accounted E (event.run E sys).server ((event.run E sys).client i)
      ((accounts i).next E sys i event) := by
  cases event with
  | move move =>
    obtain ⟨hpermitted, hedit⟩ := hallowed
    cases move with
    | call j method =>
      cases hawait : (sys.client j).awaiting with
      | true =>
        have hsame : (Event.move (.call j method)).run E sys = sys := by
          simp [Event.run, System.step, hawait]
        have hnext : (accounts i).next E sys i (.move (.call j method)) = accounts i := by
          cases method with
          | registerToServer => rfl
          | generateRSAKeyPair pair => rfl
          | sendFileToServer =>
            simp only [Account.next]
            rw [if_neg]
            rintro ⟨rfl, hno⟩
            rw [hawait] at hno
            cases hno
        rw [hsame, hnext]
        exact h i
      | false =>
        simp only [Event.run, System.step, hawait, Bool.false_eq_true, ↓reduceIte]
        exact call_accounts hsettled h haes j method hpermitted hclean hawait i
    | serve j env => exact serve_accounts hsettled h j hpermitted i
    | resume j => exact resume_accounts hsettled h j i
    | corrupt j encrypted => exact hclean.elim
    | edit j path content =>
      have hpath : path ≠ clientDetailsPath := by
        rintro rfl
        exact hedit j content rfl
      exact accounted_setClient h accounts
        ((h j).of_files (edited_belongs (hsettled.belongs j) hpath content).2) (fun _ _ => rfl) i
  | start j files connects =>
    refine accounted_setClient h (fun i => (accounts i).next E sys i (.start j files connects)) ?_
      (fun i hi => ?_) i
    · simp only [Account.next, ↓reduceIte]
      exact (h j).start files connects
    · simp only [Account.next]
      rw [if_neg fun hj => hi hj.symm]
  | restart env conn =>
    simp only [Event.run, restarted_eq E env .whole hsettled.agreement.consistent, Account.next]
    exact h i

end Runs

section Kept

variable {E} {field : ℕ → Bytes} {sys : System} {accounts : ℕ → Account}

theorem Kept.accounted (haes : AesLaws E) (h : Kept E field sys accounts) :
    Settled E field sys ∧ ∀ i, Accounted E sys.server (sys.client i) (accounts i) := by
  induction h with
  | installed h =>
    refine ⟨h.settled, fun i => ?_⟩
    obtain ⟨files, connects, hc, hnone, -⟩ := h.client i
    obtain ⟨name, hex, bytes, key, connected, -, -, hnew⟩ := KeyAgreement.new_eq files connects
    rw [hc, hnew]
    exact ⟨.idle rfl rfl rfl, rfl, nofun, nofun, fun _ _ => rfl,
      fun clientId hid => absurd hid (not_hasId_of_none hnone)⟩
  | event h event hallowed hclean ih =>
    exact ⟨(ih.1.run event hallowed).1, event_accounts ih.1 ih.2 haes event hallowed hclean⟩

theorem Kept.round (h : Kept E field sys accounts) (i : ℕ) {env : Draws}
    (hfresh : sys.server.database.clientExistsById env.uuid = false) :
    Kept E field ((sys.serve E i env).resume E i) (Function.update accounts i
      (if (((sys.serve E i env).resume E i).client i).awaiting = false then (accounts i).finish
        else accounts i)) := by
  have hserved : Kept E field (sys.serve E i env) accounts :=
    h.event (.move (.serve i env)) ⟨hfresh, nofun⟩ trivial
  have hresumed := hserved.event (.move (.resume i)) ⟨trivial, nofun⟩ trivial
  have hsame : (fun j => (accounts j).next E (sys.serve E i env) j (.move (.resume i))) =
      Function.update accounts i
        (if (((sys.serve E i env).resume E i).client i).awaiting = false then (accounts i).finish
          else accounts i) := by
    funext j
    by_cases he : j = i
    · subst he
      simp [Account.next]
    · simp [Account.next, he, Ne.symm he]
  rw [hsame] at hresumed
  exact hresumed

theorem Kept.quiet (h : Kept E field sys accounts) {i : ℕ} {method : Method}
    (hmethod : method ≠ .sendFileToServer) (hsending : (accounts i).sending = none) {env : Draws}
    (hpermitted : Permitted E sys (.call i method))
    (hfresh : sys.server.database.clientExistsById env.uuid = false) :
    Kept E field (perform E i method [env] sys) accounts := by
  have hcalled : Kept E field (sys.step E (.call i method)) accounts := by
    cases method with
    | registerToServer =>
      exact h.event (.move (.call i .registerToServer)) ⟨hpermitted, nofun⟩ trivial
    | generateRSAKeyPair pair =>
      exact h.event (.move (.call i (.generateRSAKeyPair pair))) ⟨hpermitted, nofun⟩ trivial
    | sendFileToServer => exact absurd rfl hmethod
  rw [← step_call_server (E := E) (i := i) method] at hfresh
  have hround := hcalled.round i hfresh
  have hfinish : (accounts i).finish = accounts i := by rw [Account.finish, hsending]
  rwa [hfinish, ite_self, Function.update_eq_self] at hround

theorem Kept.called (h : Kept E field sys accounts) {i : ℕ} (hsend : Sendable E (sys.client i))
    (hidle : (sys.client i).awaiting = false) {filename : Str} {content : Bytes}
    (hoffer : offered E (sys.client i) = some (filename, content)) :
    Kept E field (sys.step E (.call i .sendFileToServer)) (Function.update accounts i
      ⟨some (filename, content), Function.update (accounts i).holding filename .unsure⟩) := by
  have hcalled := h.event (.move (.call i .sendFileToServer)) ⟨trivial, nofun⟩ hsend
  have hbegun : (fun j => (accounts j).next E sys j (.move (.call i .sendFileToServer))) =
      Function.update accounts i
        ⟨some (filename, content), Function.update (accounts i).holding filename .unsure⟩ := by
    funext j
    by_cases he : j = i
    · subst he
      simp [Account.next, Account.begin, hidle, hoffer]
    · simp [Account.next, he, Ne.symm he]
  rwa [hbegun] at hcalled

theorem Kept.sent (h : Kept E field sys accounts) {i : ℕ} {env₃ env₄ : Draws}
    (hsend : Sendable E (sys.client i)) (hidle : (sys.client i).awaiting = false)
    {filename : Str} {content : Bytes}
    (hoffer : offered E (sys.client i) = some (filename, content))
    (hfresh₃ : sys.server.database.clientExistsById env₃.uuid = false)
    (hfresh₄ : (perform E i .sendFileToServer [env₃] sys).server.database.clientExistsById
      env₄.uuid = false)
    (hawait : ((perform E i .sendFileToServer [env₃, env₄] sys).client i).awaiting = false) :
    Kept E field (perform E i .sendFileToServer [env₃, env₄] sys) (Function.update accounts i
      ⟨none, Function.update (accounts i).holding filename (.file content)⟩) := by
  have hcalled := h.called hsend hidle hoffer
  rw [← step_call_server (E := E) (i := i) .sendFileToServer] at hfresh₃
  have hdone := (hcalled.round i hfresh₃).round i hfresh₄
  have hlast : ((((((sys.step E (.call i .sendFileToServer)).serve E i env₃).resume E i).serve E i
      env₄).resume E i).client i).awaiting = false := hawait
  -- the account is closed by the last answer at the latest
  have hfinish (a : Account) (b : Bool) : (if b = false then a.finish else a).finish =
      a.finish := by
    cases b with
    | true => rfl
    | false => cases ha : a.sending <;> simp [Account.finish, ha]
  simp only [hlast, ↓reduceIte, Function.update_self, Function.update_idem, hfinish] at hdone
  simp only [Account.finish, Function.update_idem] at hdone
  exact hdone

theorem offered_of_ready {files : Bytes → Option Bytes} {name filename : Str}
    {content clientId : Bytes} {s : Server KeyedDisk} {c : Client}
    (hprepared : Prepared E name filename content files)
    (hready : Ready E files name clientId s c) :
    offered E c = some (filename, content) ∧ Sendable E c := by
  obtain ⟨hinfo, -, path, hline, hfile, hother, hkept⟩ := hprepared.lines
  have hrest := hready.resting
  have hload : loadFilePath c = (true, { c with filePath := path.map tolower }) := by
    rw [loadFilePath, hrest.files _ (by decide), if_pos hinfo, hline]
    rfl
  have hread : c.files (path.map tolower) = some content := by rw [hrest.files _ hother, hfile]
  constructor
  · simp [offered, hrest.connected, hready.attached, hready.aesKey, hload, hread, hkept.uploaded]
  · intro _ content' hcontent
    rw [hload] at hcontent ⊢
    obtain rfl := Option.some.inj (hread.symm.trans hcontent)
    exact ⟨hprepared.size, filename, hkept⟩

section Main

variable {i : ℕ} {files : Bytes → Option Bytes} {name filename : Str} {content : Bytes}
  {pair : KeyPair} {env₁ env₂ env₃ env₄ : Draws}

theorem main_begun_kept (haes : AesLaws E) (h : Kept E field sys accounts)
    (hfield : field i = padField 255 name)
    (hprepared : Prepared E name filename content files)
    (hpair : KeyPairLaws E pair.publicKey pair.privateKey)
    (hfresh : Fresh env₁ env₂ env₃ env₄ sys.server.database)
    (hopen : (∃ clientId, HasId clientId (sys.client i).files) ∨
      sys.server.database.clientExistsByName name = false) :
    Kept E field (perform E i (.generateRSAKeyPair pair) [env₂]
      (perform E i .registerToServer [env₁] ((Event.start i files true).run E sys)))
      (Function.update accounts i (accounts i).interrupt) := by
  obtain ⟨hsettled, -⟩ := h.accounted haes
  obtain ⟨-, -, -, -, hfresh₂, -⟩ := main_begun hsettled hfield hprepared hpair hfresh hopen
  have hnamed : Named (field i) files := fun _ => hprepared.lines.2.1.trans hfield.symm
  have hstarted := h.event (.start i files true) hnamed trivial
  have hinterrupt : (fun j => (accounts j).next E sys j (.start i files true)) =
      Function.update accounts i (accounts i).interrupt := by
    funext j
    by_cases he : j = i
    · subst he
      simp [Account.next]
    · simp [Account.next, he, Ne.symm he]
  rw [hinterrupt] at hstarted
  have hsending : (Function.update accounts i (accounts i).interrupt i).sending = none := by
    rw [Function.update_self]
    rfl
  have hregistered := hstarted.quiet (by simp) hsending
    (show Permitted E _ (.call i .registerToServer) from trivial) (hfresh.unknown env₁ (by simp))
  exact hregistered.quiet (by simp) hsending
    (show Permitted E _ (.call i (.generateRSAKeyPair pair)) from hpair) hfresh₂

/-- With `main` the machine has its file on the server, and all else is as it was. -/
theorem main_kept (haes : AesLaws E) (h : Kept E field sys accounts)
    (hfield : field i = padField 255 name)
    (hprepared : Prepared E name filename content files)
    (hpair : KeyPairLaws E pair.publicKey pair.privateKey)
    (hfresh : Fresh env₁ env₂ env₃ env₄ sys.server.database)
    (hopen : (∃ clientId, HasId clientId (sys.client i).files) ∨
      sys.server.database.clientExistsByName name = false) :
    Kept E field (main E i files pair env₁ env₂ env₃ env₄ sys) (Function.update accounts i
      ⟨none, Function.update (accounts i).holding filename (.file content)⟩) := by
  obtain ⟨hsettled, -⟩ := h.accounted haes
  obtain ⟨clientId, -, hready, -, -, hfresh'⟩ :=
    main_begun hsettled hfield hprepared hpair hfresh hopen
  have hkept := hprepared.keepDetails (sys.client i)
  have hbegun := main_begun_kept haes h hfield hprepared hpair hfresh hopen
  obtain ⟨hoffer, hsend⟩ := offered_of_ready hkept hready
  obtain ⟨c', hdone, hawait, -⟩ := main_sent env₃ env₄ haes hkept hready
  have hsent := hbegun.sent hsend hready.resting.awaiting hoffer (hfresh' env₃ (by simp))
    (main_fresh env₃ env₄ haes hkept hready hfresh') (by rw [hdone.client, hawait])
  rwa [Function.update_self, Function.update_idem] at hsent

end Main

theorem Accounted.stored_eq {s : Server KeyedDisk} {c : Client} {a : Account}
    (h : Accounted E s c a) (hs : Consistent s) {clientId : Bytes} (hid : HasId clientId c.files)
    {filename : Str} {content : Bytes} (hfile : a.holding filename = .file content) :
    ServerConsistency.stored s (clientId, filename) =
      (some content, [⟨clientId, filename, filePath clientId filename, true⟩],
        some (.new clientId filename (filePath clientId filename)),
        some (.new clientId filename (filePath clientId filename))) := by
  have hfits := h.stored clientId hid filename
  rw [hfile] at hfits
  rw [hs.stored_eq, show entry s (clientId, filename) = some (content, true) from hfits]
  rfl

/-- However the processes of all machines interleave and are killed: the files whose transfers
have ended are on the server with their contents, confirmed, in all four stores, and under a name
that was never sent there is nothing. -/
theorem files_kept (haes : AesLaws E) (h : Kept E field sys accounts) (i : ℕ) :
    ((sys.client i).awaiting = false → (accounts i).sending = none) ∧
    ∀ clientId, HasId clientId (sys.client i).files → ∀ filename,
      ((accounts i).holding filename = .nothing →
        stored sys.server (clientId, filename) = (none, [], none, none)) ∧
      ∀ content, (accounts i).holding filename = .file content →
        stored sys.server (clientId, filename) =
          (some content, [⟨clientId, filename, filePath clientId filename, true⟩],
            some (.new clientId filename (filePath clientId filename)),
            some (.new clientId filename (filePath clientId filename))) := by
  obtain ⟨hsettled, haccounted⟩ := h.accounted haes
  refine ⟨fun hawait => ((haccounted i).stage.of_idle hawait).1, ?_⟩
  intro clientId hid filename
  have hs := hsettled.agreement.consistent
  refine ⟨fun hnothing => ?_, fun content hfile => (haccounted i).stored_eq hs hid hfile⟩
  have hfits := (haccounted i).stored clientId hid filename
  rw [hnothing] at hfits
  rw [hs.stored_eq, show entry sys.server (clientId, filename) = none from hfits]
  rfl

end Kept

theorem files_kept_ofA : ∃ clientId,
    stored ((Event.start 0 filesOfA true).run plainCiphers (main plainCiphers 0 filesOfA
      keyPairOfA (constantDraws 1) (constantDraws 2) (constantDraws 3)
        (constantDraws 4) systemOfA)).server (clientId, ['f']) =
      (some [7], [⟨clientId, ['f'], filePath clientId ['f'], true⟩],
        some (.new clientId ['f'] (filePath clientId ['f'])),
        some (.new clientId ['f'] (filePath clientId ['f']))) := by
  have hinstalled := installed_systemOfA
  have hfield : nameField filesOfA = padField 255 ['a'] := prepared_filesOfA.lines.2.1
  have hpair : KeyPairLaws plainCiphers keyPairOfA.publicKey
      keyPairOfA.privateKey := keyPairLaws_plainCiphers _
  have hmain := main_kept (i := 0) aesLaws_plainCiphers (.installed hinstalled) hfield
    prepared_filesOfA hpair fresh_systemOfA (.inr rfl)
  obtain ⟨⟨hsettled, -⟩, -, clientId, hid, -⟩ := main_opened (i := 0) aesLaws_plainCiphers
    hinstalled.settled hfield prepared_filesOfA hpair fresh_systemOfA (.inr rfl)
  have hnamed : Named (nameField filesOfA) filesOfA := fun _ => rfl
  have hstart := hmain.event (.start 0 filesOfA true) hnamed trivial
  obtain ⟨-, hfiles⟩ := files_kept aesLaws_plainCiphers hstart 0
  refine ⟨clientId, (hfiles clientId ?_ ['f']).2 [7] ?_⟩
  · exact (hsettled.run (.start 0 filesOfA true) hnamed).2 0 clientId hid
  · simp [Account.next, Account.interrupt]

end EncryptedTransfer.FileHoldings
