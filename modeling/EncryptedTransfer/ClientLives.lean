import EncryptedTransfer.PersistedIdentity

/-!
# Clients over many processes

On every machine one process follows another, and each may be killed at any moment. Between two
processes the files change, but for `me.info`. The clients of all machines and the server
interleave, and the server is restarted now and then.
-/
namespace EncryptedTransfer.ClientLives
open ServerStores hiding Client Client.new
open ByteFormats Text ServerCalls ServerHandlers ServerConsistency ServerEffects ServerRuns
open StreamFraming CryptoLaws ClientProcess Network ClientMessages ClientRoster KeyAgreement
open DetailsFile
open PersistedIdentity (keepDetails)

inductive Event where
  | move (move : Move)
  /-- A new process on a machine, in the place of the last one. -/
  | start (i : ℕ) (files : Bytes → Option Bytes) (connects : Bool)
  /-- A new process of the server. -/
  | restart (env : Draws) (conn : Conn)

variable (E : Externals)

def Event.run (sys : System) : Event → System
  | move m => sys.step E m
  | start i files connects => sys.setClient i (.new (keepDetails (sys.client i) files) connects)
  | restart env conn => { sys with server := (restarted E env .whole sys.server conn).server }

/-- A machine has one name, where it has a `transfer.info`. -/
def Named (field : Bytes) (files : Bytes → Option Bytes) : Prop :=
  (files serverFilePath).isSome = true → nameField files = field

/-- What is assumed of an event: that of the moves, that nobody else writes `me.info`, and that a
machine keeps its name. -/
def Allowed (field : ℕ → Bytes) (sys : System) : Event → Prop
  | .move m => Permitted E sys m ∧ ∀ i content, m ≠ .edit i clientDetailsPath content
  | .start i files _ => Named (field i) files
  | .restart _ _ => True

inductive Events (field : ℕ → Bytes) : System → List Event → System → Prop
  | nil (sys : System) : Events field sys [] sys
  | cons {sys sys' : System} {events : List Event} (event : Event)
      (h : Allowed E field sys event) (rest : Events field (event.run E sys) events sys') :
      Events field sys (event :: events) sys'

/-- A server in any state it can reach, and machines on which nobody has registered. -/
structure Installed (field : ℕ → Bytes) (sys : System) : Prop where
  server : ∃ acts, ServerRuns.Run E sys.server acts
  client : ∀ i, ∃ files connects, sys.client i = Client.new files connects ∧
    files clientDetailsPath = none ∧ Named (field i) files

def runs (sys : System) (events : List Event) : System :=
  events.foldl (fun sys event => event.run E sys) sys

def AllowedAll (field : ℕ → Bytes) : System → List Event → Prop
  | _, [] => True
  | sys, event :: events => Allowed E field sys event ∧ AllowedAll field (event.run E sys) events

variable {E}

theorem Events.of_allowed {field : ℕ → Bytes} {sys : System} {events : List Event}
    (h : AllowedAll E field sys events) : Events E field sys events (runs E sys events) := by
  induction events generalizing sys with
  | nil => exact .nil sys
  | cons event events ih => exact .cons event h.1 (ih h.2)

theorem Events.invariant {field : ℕ → Bytes} {sys sys' : System} {events : List Event}
    (h : Events E field sys events sys') (Inv : System → Prop)
    (hstep : ∀ sys event, Allowed E field sys event → Inv sys → Inv (event.run E sys))
    (hinv : Inv sys) : Inv sys' := by
  induction h with
  | nil sys => exact hinv
  | cons event hallowed _ ih => exact ih (hstep _ event hallowed hinv)

section New

variable {files files' : Bytes → Option Bytes} {clientId clientId' : Bytes}

theorem hasId_unique (h : HasId clientId files) (h' : HasId clientId' files) :
    clientId = clientId' := by
  obtain ⟨content, first, second, rest, hfile, hlines, -, rfl⟩ := h
  obtain ⟨content', first', second', rest', hfile', hlines', -, rfl⟩ := h'
  rw [hfile] at hfile'
  cases hfile'
  rw [hlines] at hlines'
  cases hlines'
  rfl

theorem not_hasId_of_none (h : files clientDetailsPath = none) : ¬ HasId clientId files := by
  rintro ⟨content, -, -, -, hfile, -⟩
  rw [h] at hfile
  cases hfile

theorem hasId_congr (h : files clientDetailsPath = files' clientDetailsPath) :
    HasId clientId files ↔ HasId clientId files' := by
  simp only [HasId, h]

theorem newline_notMem_nameField : newline ∉ nameField files := by
  apply PersistedIdentity.newline_notMem_resize
  intro hmem
  exact notMem_readLine List.not_mem_nil 2 (List.mem_of_mem_take hmem)

theorem isSome_of_loaded {connects : Bool}
    (h : (Client.new files connects).connectedToServer = true ∨
      (Client.new files connects).clientIdHex ≠ []) : (files serverFilePath).isSome = true := by
  by_contra hmissing
  simp [Client.new, hmissing] at h

theorem newline_notMem_new (connects : Bool) : newline ∉ (Client.new files connects).clientName := by
  by_cases hinfo : (files serverFilePath).isSome = true
  · rw [new_clientName hinfo]
    exact newline_notMem_nameField
  · simp [Client.new, hinfo]

theorem new_of_none (h : files clientDetailsPath = none) (connects : Bool) :
    (Client.new files connects).clientIdHex = [] := by
  have hnone (c : Client) (hc : c.files = files) : loadRegistrationDetails c = c := by
    rw [loadRegistrationDetails, if_neg (by simp [hc, h])]
  rw [Client.new]
  split_ifs
  · rw [hnone _ rfl]
    rfl
  · rfl

theorem new_files (files : Bytes → Option Bytes) (connects : Bool) :
    (Client.new files connects).files = files := by
  obtain ⟨name, hex, bytes, key, connected, -, -, hnew⟩ := KeyAgreement.new_eq files connects
  rw [hnew]

end New

/-- What holds between a machine, its process and the tables. -/
structure Belongs (field : Bytes) (db : Database) (c : Client) : Prop where
  connected : c.awaiting = true → c.connectedToServer = true
  clientName : c.connectedToServer = true ∨ c.clientIdHex ≠ [] → c.clientName = field
  clean : newline ∉ c.clientName
  details : c.files clientDetailsPath = none ∨ ∃ clientId, HasId clientId c.files
  attached : c.clientIdHex ≠ [] → HasId c.clientIdBytes c.files
  loaded : ∀ clientId, c.connectedToServer = true → HasId clientId c.files →
    c.clientIdHex ≠ []
  listed : ∀ clientId, HasId clientId c.files → ∃ name key,
    (decodeUtf8 field).map stripNul = some name ∧ (clientId, name, key) ∈ roster db

section Belongs

variable {field : Bytes} {db : Database} {c c' : Client}

theorem Belongs.of_eq (h : Belongs field db c) (hawait : c'.awaiting = true →
      c.connectedToServer = true) (hname : c'.clientName = c.clientName)
    (hhex : c'.clientIdHex = c.clientIdHex) (hbytes : c'.clientIdBytes = c.clientIdBytes)
    (hconnected : c'.connectedToServer = c.connectedToServer)
    (hnone : c.files clientDetailsPath = none → c'.files clientDetailsPath = none)
    (hkept : ∀ clientId, HasId clientId c.files → HasId clientId c'.files) :
    Belongs field db c' ∧ ∀ clientId, HasId clientId c'.files ↔ HasId clientId c.files := by
  have hback (clientId : Bytes) (hid : HasId clientId c'.files) : HasId clientId c.files := by
    rcases h.details with hno | ⟨clientId', hid'⟩
    · exact absurd hid (not_hasId_of_none (hnone hno))
    · rwa [hasId_unique hid (hkept _ hid')]
  refine ⟨⟨?_, ?_, ?_, ?_, ?_, ?_, ?_⟩, fun clientId => ⟨hback clientId, hkept clientId⟩⟩
  · rw [hconnected]
    exact hawait
  · rw [hconnected, hhex, hname]
    exact h.clientName
  · rw [hname]
    exact h.clean
  · rcases h.details with hno | ⟨clientId, hid⟩
    · exact .inl (hnone hno)
    · exact .inr ⟨clientId, hkept _ hid⟩
  · intro hattached
    rw [hhex] at hattached
    rw [hbytes]
    exact hkept _ (h.attached hattached)
  · intro clientId hc hid
    rw [hconnected] at hc
    rw [hhex]
    exact h.loaded clientId hc (hback _ hid)
  · exact fun clientId hid => h.listed clientId (hback _ hid)

theorem Belongs.of_files (h : Belongs field db c) (hawait : c'.awaiting = true →
      c.connectedToServer = true) (hname : c'.clientName = c.clientName)
    (hhex : c'.clientIdHex = c.clientIdHex) (hbytes : c'.clientIdBytes = c.clientIdBytes)
    (hconnected : c'.connectedToServer = c.connectedToServer) (hfiles : c'.files = c.files) :
    Belongs field db c' ∧ ∀ clientId, HasId clientId c'.files ↔ HasId clientId c.files := by
  apply h.of_eq hawait hname hhex hbytes hconnected <;> rw [hfiles]
  · exact id
  · exact fun _ => id

theorem Belongs.new (h : Belongs field db c) {files : Bytes → Option Bytes}
    (hnamed : Named field files) (connects : Bool) :
    Belongs field db (Client.new (keepDetails c files) connects) := by
  have hfiles := new_files (keepDetails c files) connects
  have hinfo : keepDetails c files serverFilePath = files serverFilePath :=
    Function.update_of_ne (by decide) _ _
  have hdetails : (keepDetails c files) clientDetailsPath = c.files clientDetailsPath :=
    Function.update_self ..
  have hfield : nameField (keepDetails c files) = nameField files := by
    rw [nameField, hinfo, nameField]
  have hsame (clientId : Bytes) : HasId clientId (keepDetails c files) ↔ HasId clientId c.files :=
    hasId_congr hdetails
  constructor
  · intro ht
    rw [(KeyAgreement.new_idle (keepDetails c files) connects).1] at ht
    cases ht
  · intro hloaded
    have hsome := isSome_of_loaded hloaded
    rw [new_clientName hsome, hfield, hnamed (by rwa [← hinfo])]
  · exact newline_notMem_new connects
  · rw [hfiles, hdetails]
    exact h.details.imp_right fun ⟨clientId, hid⟩ => ⟨clientId, (hsame _).mpr hid⟩
  · intro hattached
    rcases h.details with hno | ⟨clientId, hid⟩
    · exact absurd (new_of_none (hdetails.trans hno) connects) hattached
    · have hloaded := ((hsame _).mpr hid).loaded (isSome_of_loaded (.inr hattached)) connects
      rw [hfiles, hloaded.2]
      exact (hsame _).mpr hid
  · intro clientId hconnected hid
    rw [hfiles] at hid
    exact (hid.loaded (isSome_of_loaded (.inl hconnected)) connects).1
  · intro clientId hid
    rw [hfiles] at hid
    exact h.listed clientId ((hsame _).mp hid)

end Belongs

def Holds (c : Client) (clientId : Bytes) : Prop := Owns c clientId ∨ HasId clientId c.files

/-- A step of the client: it keeps its id, and gets one that it is on the way to having. -/
structure Continues (field : Bytes) (db : Database) (c c' : Client) : Prop where
  belongs : Belongs field db c'
  holds : ∀ clientId, HasId clientId c'.files → Holds c clientId
  kept : ∀ clientId, HasId clientId c.files → HasId clientId c'.files

theorem Continues.of_same {field : Bytes} {db : Database} {c c' : Client}
    (h : Belongs field db c' ∧ ∀ clientId, HasId clientId c'.files ↔ HasId clientId c.files) :
    Continues field db c c' :=
  ⟨h.1, fun clientId hid => .inr ((h.2 clientId).mp hid), fun clientId => (h.2 clientId).mpr⟩

section Steps

variable {field : Bytes} {db : Database} {c : Client}

theorem method_belongs (h : Belongs field db c) (method : Method) :
    Belongs field db (method.run E c) ∧
      ∀ clientId, HasId clientId (method.run E c).files ↔ HasId clientId c.files := by
  cases method with
  | registerToServer =>
    simp only [Method.run, registerToServer]
    split_ifs with hready
    · exact h.of_files (fun _ => hready.1) rfl rfl rfl rfl rfl
    · exact ⟨h, fun _ => Iff.rfl⟩
  | generateRSAKeyPair pair =>
    simp only [Method.run, generateRSAKeyPair]
    split_ifs with hready
    · simp only [savePrivateKey]
      split_ifs with hfile
      · refine h.of_eq (fun _ => hready.1) rfl rfl rfl rfl ?_ (fun _ hid => hid.replaceLine)
        intro hnone
        rw [hnone] at hfile
        cases hfile
      · exact h.of_files (fun _ => hready.1) rfl rfl rfl rfl rfl
    · exact ⟨h, fun _ => Iff.rfl⟩
  | sendFileToServer =>
    obtain ⟨path, cksum, outbox, awaiting, codes, hsend⟩ := sendFileToServer_frame E c
    by_cases hconnected : c.connectedToServer = true
    · rw [Method.run, hsend]
      exact h.of_files (fun _ => hconnected) rfl rfl rfl rfl rfl
    · rw [Method.run, sendFileToServer, if_neg (fun hready => hconnected hready.1)]
      exact ⟨h, fun _ => Iff.rfl⟩

def badge (c : Client) : (Bytes → Option Bytes) × Bytes × Bytes × Bytes × Bool :=
  (c.files, c.clientName, c.clientIdHex, c.clientIdBytes, c.connectedToServer)

theorem badge_readResponse : badge (readResponse c).2 = badge c := by
  obtain ⟨starved, hrest, -⟩ := readResponse_spec c
  rw [hrest]
  rfl

theorem badge_handleResponse {response : Response}
    (h : (c.files clientDetailsPath).isSome = true) :
    badge (handleResponse E response c) = badge c := by
  unfold handleResponse
  split_ifs
  · rw [saveRegistrationDetails, if_pos h]
  · unfold handleAESKeyFromServer
    split <;> rfl
  · obtain ⟨trials, noted, outbox, codes, hsend⟩ := compareCksums_frame E (readReport c).1.2.1
      (readReport c).1.2.2 (readReport c).2
    rw [handleFileResponse_read, hsend]
    rfl
  · rfl

/-- Where there is a details file no response changes who the client is. -/
theorem badge_receiveResponseFromServer (h : (c.files clientDetailsPath).isSome = true) :
    badge (receiveResponseFromServer E c) = badge c := by
  rw [receiveResponseFromServer_read, badge_handleResponse]
  · exact badge_readResponse
  · have hfiles : (readResponse c).2.files = c.files := congrArg Prod.fst badge_readResponse
    rw [← hfiles] at h
    exact h

theorem registered_belongs (h : Belongs field db c) (hawait : c.awaiting = true)
    (hnone : c.files clientDetailsPath = none) {clientId : Bytes} (hid : clientId.length = 16)
    {key : Option Bytes} (hlisted : ListedAs db c clientId key)
    (hin : c.inbox = responseHead serverCodeRegistrationOk 0 clientId) :
    Belongs field db (receiveResponseFromServer E c) ∧
      HasId clientId (receiveResponseFromServer E c).files := by
  have hreceive := receiveResponseFromServer_registered (E := E) hid hin
  rw [saveRegistrationDetails, if_neg (by simp [hnone])] at hreceive
  have hname := h.clientName (.inl (h.connected hawait))
  have hsaved : HasId clientId (receiveResponseFromServer E c).files := by
    rw [hreceive]
    exact hasId_append hid h.clean hnone
  refine ⟨⟨?_, ?_, ?_, .inr ⟨_, hsaved⟩, ?_, ?_, ?_⟩, hsaved⟩
  · rw [hreceive]
    exact fun ht => absurd ht Bool.false_ne_true
  · rw [hreceive]
    exact fun _ => hname
  · rw [hreceive]
    exact h.clean
  · intro _
    have hbytes : (receiveResponseFromServer E c).clientIdBytes = clientId := by rw [hreceive]
    rwa [hbytes]
  · intro _ _ _
    rw [hreceive]
    exact PersistedIdentity.hex_ne_nil hid
  · intro clientId' hid'
    obtain ⟨name, hnamed, hmem⟩ := hlisted
    rw [nameOf, hname] at hnamed
    rw [hasId_unique hid' hsaved]
    exact ⟨name, key, hnamed, hmem⟩

theorem receive_belongs (h : Belongs field db c) (hagrees : Agrees E db c)
    (hawait : c.awaiting = true) (hin : c.inbox ≠ []) :
    Continues field db c (receiveResponseFromServer E c) := by
  rcases h.details with hnone | ⟨clientId, hid⟩
  · -- a client without a details file is not attached
    have hnew : c.clientIdHex = [] := by
      by_contra hattached
      exact not_hasId_of_none hnone (h.attached hattached)
    have htold {code : ℕ} (hcode : code = serverCodeRegistrationErr ∨
        code = serverCodeMessageReceived) {x : Bytes} (hx : x.length = 16)
        (hinbox : c.inbox = responseHead code 0 x) :
        Continues field db c (receiveResponseFromServer E c) := by
      rw [receiveResponseFromServer_told hx hcode hinbox]
      exact .of_same (h.of_files (fun _ => h.connected hawait) rfl rfl rfl rfl rfl)
    cases hagrees.phase with
    | idle _ _ hno => exact absurd hno hin
    | registering _ _ _ _ hno => exact absurd hno hin
    | registered _ _ _ _ hid hlisted hinbox =>
      obtain ⟨hbelongs, hsaved⟩ := registered_belongs (E := E) h hawait hnone hid hlisted hinbox
      refine ⟨hbelongs, ?_, fun clientId' hid' => absurd hid' (not_hasId_of_none hnone)⟩
      intro clientId' hid'
      rw [hasId_unique hid' hsaved]
      exact .inl (.inr hinbox)
    | keyAsked _ _ _ _ _ _ _ hno => exact absurd hno hin
    | keyAnswered _ hattached => exact absurd hnew hattached
    | exchanging _ _ _ _ hno => exact absurd hno hin
    | reported _ _ hattached => exact absurd hnew hattached
    | told _ _ _ hinbox =>
      rcases hinbox with hno | hrefused | hacknowledged
      · exact absurd hno hin
      · exact htold (.inl rfl) (uuidField_length _) hrefused
      · exact htold (.inr rfl) (uuidField_length _) hacknowledged
  · have hsome : (c.files clientDetailsPath).isSome = true := by
      obtain ⟨content, -, -, -, hfile, -⟩ := hid
      rw [hfile, Option.isSome_some]
    have hsame := badge_receiveResponseFromServer (E := E) hsome
    simp only [badge, Prod.mk.injEq] at hsame
    obtain ⟨hfiles, hname, hhex, hbytes, hconnected⟩ := hsame
    exact .of_same (h.of_files (fun _ => h.connected hawait) hname hhex hbytes hconnected hfiles)

theorem edited_belongs (h : Belongs field db c) {path : Bytes} (hpath : path ≠ clientDetailsPath)
    (content : Bytes) :
    Belongs field db { c with files := Function.update c.files path (some content) } ∧
      ∀ clientId, HasId clientId (Function.update c.files path (some content)) ↔
        HasId clientId c.files := by
  refine h.of_eq h.connected rfl rfl rfl rfl ?_ ?_
  · intro hnone
    exact (Function.update_of_ne hpath.symm _ _).trans hnone
  · exact fun clientId hid => hid.update hpath

end Steps

/-- The invariant of the machines and the server. -/
structure Settled (E : Externals) (field : ℕ → Bytes) (sys : System) : Prop where
  agreement : Agreement E sys
  belongs : ∀ i, Belongs (field i) sys.server.database (sys.client i)
  apart : ∀ i j clientId, Holds (sys.client i) clientId → Holds (sys.client j) clientId → i = j

def KeepsIds (sys sys' : System) : Prop :=
  ∀ i clientId, HasId clientId (sys.client i).files → HasId clientId (sys'.client i).files

theorem keepsIds_setClient {sys : System} {i : ℕ} {c : Client}
    (h : ∀ clientId, HasId clientId (sys.client i).files → HasId clientId c.files) :
    KeepsIds sys (sys.setClient i c) := by
  intro j clientId hid
  by_cases he : j = i
  · subst he
    rw [System.setClient_self]
    exact h clientId hid
  · rwa [System.setClient_other _ he]

section Runs

variable {field : ℕ → Bytes} {sys : System} (h : Settled E field sys)
include h

theorem Settled.known {i : ℕ} {clientId : Bytes} (hholds : Holds (sys.client i) clientId) :
    sys.server.database.clientExistsById clientId = true := by
  rcases hholds with howns | hid
  · obtain ⟨key, name, -, hmem⟩ := (h.agreement.agrees i).listed howns
    exact exists_of_mem_roster hmem
  · obtain ⟨name, key, -, hmem⟩ := (h.belongs i).listed clientId hid
    exact exists_of_mem_roster hmem

theorem Settled.of_client {i : ℕ} {c : Client} (hagreement : Agreement E (sys.setClient i c))
    (hbelongs : Belongs (field i) sys.server.database c)
    (hholds : ∀ clientId, Holds c clientId → Holds (sys.client i) clientId) :
    Settled E field (sys.setClient i c) := by
  have hback (j : ℕ) (clientId : Bytes) (hj : Holds ((sys.setClient i c).client j) clientId) :
      Holds (sys.client j) clientId := by
    by_cases he : j = i
    · subst he
      rw [System.setClient_self] at hj
      exact hholds clientId hj
    · rwa [System.setClient_other _ he] at hj
  refine ⟨hagreement, ?_, ?_⟩
  · intro j
    by_cases he : j = i
    · subst he
      rw [System.setClient_self]
      exact hbelongs
    · rw [System.setClient_other _ he]
      exact h.belongs j
  · intro j k clientId hj hk
    exact h.apart j k clientId (hback j _ hj) (hback k _ hk)

theorem Settled.of_continues {i : ℕ} {c : Client}
    (hkept : Kept E sys.server.database (sys.client i) c)
    (hcontinues : Continues (field i) sys.server.database (sys.client i) c) :
    Settled E field (sys.setClient i c) ∧ KeepsIds sys (sys.setClient i c) := by
  refine ⟨h.of_client (h.agreement.of_kept hkept) hcontinues.belongs ?_,
    keepsIds_setClient hcontinues.kept⟩
  rintro clientId (howns | hid)
  · exact .inl (hkept.owns clientId howns)
  · exact hcontinues.holds clientId hid

theorem Settled.new_owns (i : ℕ) {files : Bytes → Option Bytes} (hnamed : Named (field i) files)
    {connects : Bool} {clientId : Bytes}
    (howns : Owns (.new (keepDetails (sys.client i) files) connects) clientId) :
    HasId clientId (sys.client i).files := by
  have hdetails : keepDetails (sys.client i) files clientDetailsPath =
      (sys.client i).files clientDetailsPath := Function.update_self ..
  rcases howns with ⟨hattached, rfl⟩ | hpending
  · have hid := ((h.belongs i).new hnamed connects).attached hattached
    rw [new_files] at hid
    exact (hasId_congr hdetails).mp hid
  · rw [(KeyAgreement.new_idle (keepDetails (sys.client i) files) connects).2.2.1] at hpending
    exact absurd hpending (nil_ne_responseHead clientId)

theorem Settled.new_agrees (i : ℕ) {files : Bytes → Option Bytes} (hnamed : Named (field i) files)
    (connects : Bool) :
    Agrees E sys.server.database (.new (keepDetails (sys.client i) files) connects) := by
  have hbelongs := (h.belongs i).new hnamed connects
  obtain ⟨hawait, hout, hin, hcodes, hlen, hname⟩ :=
    KeyAgreement.new_idle (keepDetails (sys.client i) files) connects
  have hnokey : serverCodeSwitchingKeys ∉
      (Client.new (keepDetails (sys.client i) files) connects).responseCodes := by
    rw [hcodes]
    exact List.not_mem_nil
  refine ⟨hname, hlen, ?_, fun hkeyed => absurd hkeyed hnokey, fun _ hkeyed => absurd hkeyed hnokey,
    .idle hawait hout hin⟩
  intro hattached
  obtain ⟨name, key, hlisted, hmem⟩ := hbelongs.listed _ (hbelongs.attached hattached)
  refine ⟨key, name, ?_, hmem⟩
  rw [nameOf, hbelongs.clientName (.inr hattached), hlisted]

theorem Settled.start (i : ℕ) {files : Bytes → Option Bytes} (hnamed : Named (field i) files)
    (connects : Bool) :
    Settled E field (sys.setClient i (.new (keepDetails (sys.client i) files) connects)) ∧
      KeepsIds sys (sys.setClient i (.new (keepDetails (sys.client i) files) connects)) := by
  have hdetails : keepDetails (sys.client i) files clientDetailsPath =
      (sys.client i).files clientDetailsPath := Function.update_self ..
  have hback (j : ℕ) (clientId : Bytes) (hj : Owns ((sys.setClient i
      (.new (keepDetails (sys.client i) files) connects)).client j) clientId) :
      Holds (sys.client j) clientId := by
    by_cases he : j = i
    · subst he
      rw [System.setClient_self] at hj
      exact .inr (h.new_owns j hnamed hj)
    · rw [System.setClient_other _ he] at hj
      exact .inl hj
  refine ⟨h.of_client ⟨h.agreement.consistent, ?_, ?_⟩ ((h.belongs i).new hnamed connects) ?_,
    keepsIds_setClient ?_⟩
  · intro j
    by_cases he : j = i
    · subst he
      rw [System.setClient_self]
      exact h.new_agrees j hnamed connects
    · rw [System.setClient_other _ he]
      exact h.agreement.agrees j
  · exact fun j k clientId hj hk => h.apart j k clientId (hback j _ hj) (hback k _ hk)
  · rintro clientId (hown | hid)
    · exact .inr (h.new_owns i hnamed hown)
    · rw [new_files] at hid
      exact .inr ((hasId_congr hdetails).mp hid)
  · intro clientId hid
    rw [new_files]
    exact (hasId_congr hdetails).mpr hid

theorem Settled.listed_handled {i : ℕ} {s' : Server KeyedDisk} {c' : Client}
    (hhandled : Handled E sys.server s' (sys.client i) c')
    (hconnected : (sys.client i).connectedToServer = true)
    (hname : c'.clientName = (sys.client i).clientName)
    (hhex : c'.clientIdHex = (sys.client i).clientIdHex)
    (hbytes : c'.clientIdBytes = (sys.client i).clientIdBytes) (j : ℕ) (clientId : Bytes)
    (hid : HasId clientId (sys.client j).files) : ∃ name key,
      (decodeUtf8 (field j)).map stripNul = some name ∧ (clientId, name, key) ∈ roster s'.database := by
  by_cases he : j = i
  · subst he
    have hbelongs := h.belongs j
    have hattached := hbelongs.loaded clientId hconnected hid
    obtain ⟨key, name, hknown, hmem⟩ := hhandled.agrees.attached (by rwa [hhex])
    rw [nameOf, hname, hbelongs.clientName (.inr hattached)] at hknown
    rw [hbytes, hasId_unique (hbelongs.attached hattached) hid] at hmem
    exact ⟨name, key, hknown, hmem⟩
  · obtain ⟨name, key, hname, hmem⟩ := (h.belongs j).listed clientId hid
    exact ⟨name, key, hname, hhandled.kept _ _ _
      (fun hown => he (h.apart j i clientId (.inr hid) (.inl hown))) hmem⟩

theorem Settled.serve (i : ℕ) {env : Draws}
    (hfresh : sys.server.database.clientExistsById env.uuid = false) :
    Settled E field (sys.serve E i env) ∧ KeepsIds sys (sys.serve E i env) := by
  have hagreement := h.agreement.serve i hfresh
  cases hout : (sys.client i).outbox with
  | nil =>
    rw [System.serve_nil E hout]
    exact ⟨h, fun _ _ => id⟩
  | cons request rest =>
    obtain ⟨s', sent, left, hturn, hhandled⟩ :=
      request_handled h.agreement.consistent (h.agreement.agrees i) hfresh hout
    rw [System.serve_cons E hout, hturn.server_eq, hturn.sent_eq] at hagreement ⊢
    have hawait : (sys.client i).awaiting = true := by
      by_contra hidle
      rw [((h.agreement.agrees i).idle (Bool.eq_false_iff.mpr hidle)).1] at hout
      cases hout
    have hconnected := (h.belongs i).connected hawait
    have hlisted := h.listed_handled hhandled hconnected rfl rfl rfl
    -- but for the answer the clients are as they were
    have hsame (j : ℕ) : ∃ outbox inbox, Function.update sys.client i
        (answered (sys.client i) rest sent) j =
          { sys.client j with outbox := outbox, inbox := inbox } := by
      by_cases he : j = i
      · subst he
        exact ⟨_, _, Function.update_self ..⟩
      · exact ⟨_, _, Function.update_of_ne he _ _⟩
    have hback (j : ℕ) (clientId : Bytes) (hj : Holds (Function.update sys.client i
        (answered (sys.client i) rest sent) j) clientId) :
        Holds (sys.client j) clientId ∨
          j = i ∧ sys.server.database.clientExistsById clientId = false := by
      by_cases he : j = i
      · subst he
        rw [Function.update_self] at hj
        rcases hj with hown | hid
        · exact (hhandled.owns clientId hown).imp .inl fun hnew => ⟨rfl, hnew⟩
        · exact .inl (.inr hid)
      · rw [Function.update_of_ne he] at hj
        exact .inl hj
    refine ⟨⟨hagreement, ?_, ?_⟩, ?_⟩
    · intro j
      obtain ⟨outbox, inbox, hj⟩ := hsame j
      have hbelongs := h.belongs j
      simp only [hj]
      exact ⟨hbelongs.connected, hbelongs.clientName, hbelongs.clean, hbelongs.details,
        hbelongs.attached, hbelongs.loaded, hlisted j⟩
    · intro j k clientId hj hk
      rcases hback j clientId hj with hj' | ⟨rfl, hnew⟩
      · rcases hback k clientId hk with hk' | ⟨-, hnew⟩
        · exact h.apart j k clientId hj' hk'
        · rw [h.known hj'] at hnew
          cases hnew
      · rcases hback k clientId hk with hk' | ⟨rfl, -⟩
        · rw [h.known hk'] at hnew
          cases hnew
        · rfl
    · intro j clientId hid
      obtain ⟨outbox, inbox, hj⟩ := hsame j
      simpa only [hj] using hid

/-- Every event keeps the invariant. -/
theorem Settled.run (event : Event) (hallowed : Allowed E field sys event) :
    Settled E field (event.run E sys) ∧ KeepsIds sys (event.run E sys) := by
  have hrefl : Settled E field sys ∧ KeepsIds sys sys := ⟨h, fun _ _ => id⟩
  cases event with
  | move move =>
    obtain ⟨hpermitted, hedit⟩ := hallowed
    cases move with
    | call i method =>
      simp only [Event.run, System.step]
      split_ifs with hawait
      · exact hrefl
      · refine h.of_continues (method_kept (h.agreement.agrees i) (Bool.eq_false_iff.mpr hawait)
          method ?_) (.of_same (method_belongs (h.belongs i) method))
        rintro pair rfl
        exact hpermitted
    | serve i env => exact h.serve i hpermitted
    | resume i =>
      simp only [Event.run, System.step, System.resume]
      split_ifs with hready
      · exact hrefl
      · exact h.of_continues (receive_kept (h.agreement.agrees i) hready.2)
          (receive_belongs (h.belongs i) (h.agreement.agrees i) hready.1 hready.2)
      · exact hrefl
    | corrupt i encrypted =>
      simp only [Event.run, System.step]
      cases hout : (sys.client i).outbox with
      | nil => exact hrefl
      | cons request rest =>
        exact h.of_continues (corrupted_kept (h.agreement.agrees i) hout encrypted)
          (.of_same ((h.belongs i).of_files (h.belongs i).connected rfl rfl rfl rfl rfl))
    | edit i path content =>
      have hpath : path ≠ clientDetailsPath := by
        rintro rfl
        exact hedit i content rfl
      exact h.of_continues (edited_kept (h.agreement.agrees i) _)
        (.of_same (edited_belongs (h.belongs i) hpath content))
  | start i files connects => exact h.start i hallowed connects
  | restart env conn =>
    simp only [Event.run, restarted_eq E env .whole h.agreement.consistent]
    exact hrefl

end Runs

section Lives

variable {field : ℕ → Bytes} {sys₀ sys sys' : System} {before after : List Event}

theorem belongs_installed (db : Database) {files : Bytes → Option Bytes} {name : Bytes}
    (hnone : files clientDetailsPath = none) (hnamed : Named name files) (connects : Bool) :
    Belongs name db (Client.new files connects) := by
  have hblank : Belongs name db (Client.new (fun _ => none) false) := by
    have hfiles : (Client.new (fun _ => none) false).files clientDetailsPath = none := rfl
    refine ⟨nofun, ?_, List.not_mem_nil, .inl hfiles, ?_, nofun, ?_⟩
    · rintro (hconnected | hattached)
      · cases hconnected
      · exact absurd rfl hattached
    · exact fun hattached => absurd rfl hattached
    · exact fun clientId hid => absurd hid (not_hasId_of_none hfiles)
  have hsame : keepDetails (Client.new (fun _ => none) false) files = files := by
    funext path
    by_cases hpath : path = clientDetailsPath
    · subst hpath
      exact hnone.symm
    · exact Function.update_of_ne hpath _ _
  have hnew := hblank.new hnamed connects
  rwa [hsame] at hnew

theorem Installed.settled (h : Installed E field sys) : Settled E field sys := by
  have hclient (i : ℕ) : (sys.client i).clientIdHex = [] ∧ (sys.client i).inbox = [] ∧
      (sys.client i).files clientDetailsPath = none := by
    obtain ⟨files, connects, hc, hnone, -⟩ := h.client i
    rw [hc, new_files]
    exact ⟨new_of_none hnone connects, (KeyAgreement.new_idle files connects).2.2.1, hnone⟩
  have hno (i : ℕ) (clientId : Bytes) : ¬ Holds (sys.client i) clientId := by
    obtain ⟨hnew, hin, hnone⟩ := hclient i
    rintro ((⟨hattached, -⟩ | hpending) | hid)
    · exact hattached hnew
    · rw [hin] at hpending
      exact nil_ne_responseHead clientId hpending
    · exact not_hasId_of_none hnone hid
  refine ⟨Begun.agreement ⟨h.server, ?_, ?_, ?_⟩, ?_, ?_⟩
  · intro i
    obtain ⟨files, connects, hc, -⟩ := h.client i
    exact ⟨files, connects, hc⟩
  · exact fun i hattached => absurd (hclient i).1 hattached
  · exact fun i j hattached => absurd (hclient i).1 hattached
  · intro i
    obtain ⟨files, connects, hc, hnone, hnamed⟩ := h.client i
    rw [hc]
    exact belongs_installed _ hnone hnamed connects
  · exact fun i j clientId hi => absurd hi (hno i clientId)

theorem Settled.events (h : Settled E field sys) (hrun : Events E field sys after sys') :
    Settled E field sys' ∧ KeepsIds sys sys' :=
  hrun.invariant (fun s => Settled E field s ∧ KeepsIds sys s)
    (fun _ event hallowed hs => (hs.1.run event hallowed).imp_right
      fun hkept i clientId hid => hkept i clientId (hs.2 i clientId hid))
    ⟨h, fun _ _ => id⟩

theorem getClientName_eq {db : Database} (hs : Sound db) {clientId : Bytes} {name : Str}
    {key : Option Bytes} (h : (clientId, name, key) ∈ roster db) :
    db.getClientName clientId = some name := by
  obtain ⟨row, hrow, hid, rfl, -⟩ := mem_roster.mp h
  have hfind : KeyedTable.lookup ClientRow.clientId db.clients clientId = some row :=
    hs.uniqueIds.lookup_eq_some.mpr ⟨hrow, hid⟩
  exact congrArg (Option.map ClientRow.clientName) hfind

/-- However the processes of all machines start, are killed and interleave: the keys agree, no two
machines have one id, and an id once saved stays the machine's, under its name, in all later
processes. -/
theorem identities_kept (h₀ : Installed E field sys₀) (hrun : Events E field sys₀ before sys)
    (hrun' : Events E field sys after sys') :
    (∀ i, ¬ KeyOutstanding (sys.client i) →
      serverCodeSwitchingKeys ∈ (sys.client i).responseCodes →
        sys.server.database.getAesKeyOfClient (sys.client i).clientIdBytes =
          some (sys.client i).aesKey) ∧
    (∀ i j clientId, HasId clientId (sys.client i).files → HasId clientId (sys.client j).files →
      i = j) ∧
    ∀ i clientId, HasId clientId (sys.client i).files →
      HasId clientId (sys'.client i).files ∧
        (∃ name, (decodeUtf8 (field i)).map stripNul = some name ∧
          sys'.server.database.getClientName clientId = some name) ∧
        ((sys'.client i).connectedToServer = true → (sys'.client i).clientIdBytes = clientId) := by
  obtain ⟨h, -⟩ := h₀.settled.events hrun
  obtain ⟨h', hkept⟩ := h.events hrun'
  refine ⟨?_, ?_, ?_⟩
  · intro i hdone hkeyed
    obtain ⟨-, name, -, hmem⟩ := (h.agreement.agrees i).agreed hdone hkeyed
    exact getAesKeyOfClient_eq h.agreement.consistent.sound hmem
  · exact fun i j clientId hi hj => h.apart i j clientId (.inr hi) (.inr hj)
  · intro i clientId hid
    have hid' := hkept i clientId hid
    have hbelongs := h'.belongs i
    refine ⟨hid', ?_, ?_⟩
    · obtain ⟨name, key, hname, hmem⟩ := hbelongs.listed clientId hid'
      exact ⟨name, hname, getClientName_eq h'.agreement.consistent.sound hmem⟩
    · intro hconnected
      exact hasId_unique (hbelongs.attached (hbelongs.loaded clientId hconnected hid')) hid'

end Lives

def firstProcess : List Event :=
  [.move (.call 0 .registerToServer), .move (.serve 0 (constantDraws 1)), .move (.resume 0)]

def secondProcess : List Event := [.start 0 filesOfA true]

theorem installed_systemOfA : Installed plainCiphers (fun _ => nameField filesOfA) systemOfA :=
  ⟨⟨[], .start⟩, fun _ => ⟨filesOfA, true, rfl, by decide, fun _ => rfl⟩⟩

theorem events_firstProcess : Events plainCiphers (fun _ => nameField filesOfA) systemOfA
    firstProcess (runs plainCiphers systemOfA firstProcess) :=
  .of_allowed ⟨⟨trivial, nofun⟩, ⟨rfl, nofun⟩, ⟨trivial, nofun⟩, trivial⟩

theorem events_secondProcess : Events plainCiphers (fun _ => nameField filesOfA)
    (runs plainCiphers systemOfA firstProcess) secondProcess
    (runs plainCiphers (runs plainCiphers systemOfA firstProcess) secondProcess) :=
  .of_allowed ⟨fun _ => rfl, trivial⟩

/-- The details file the first process leaves. -/
def detailsOfA : Bytes :=
  padField 255 ['a'] ++ newline :: (encodeUtf8 (hex (List.replicate 16 1)) ++ [newline])

theorem hasId_detailsOfA {files : Bytes → Option Bytes}
    (hfile : files clientDetailsPath = some detailsOfA) : HasId (List.replicate 16 1) files := by
  have hlines : splitLines detailsOfA =
      [padField 255 ['a'], encodeUtf8 (hex (List.replicate 16 1)), []] := by
    decide +kernel
  exact ⟨detailsOfA, _, _, _, hfile, hlines, verifyClientIdHex_hex List.length_replicate,
    hexToBytesArray_hex _⟩

theorem hasId_firstProcess :
    HasId (List.replicate 16 1) ((runs plainCiphers systemOfA firstProcess).client 0).files := by
  apply hasId_detailsOfA
  decide +kernel

theorem identities_kept_secondProcess :
    HasId (List.replicate 16 1) ((runs plainCiphers (runs plainCiphers systemOfA firstProcess)
        secondProcess).client 0).files ∧
      ((runs plainCiphers (runs plainCiphers systemOfA firstProcess)
        secondProcess).client 0).clientIdBytes = List.replicate 16 1 := by
  obtain ⟨-, -, hkept⟩ := identities_kept installed_systemOfA events_firstProcess
    events_secondProcess
  obtain ⟨hid, -, hloaded⟩ := hkept 0 _ hasId_firstProcess
  refine ⟨hid, hloaded ?_⟩
  decide +kernel

end EncryptedTransfer.ClientLives
