import EncryptedTransfer.ClientLives
import EncryptedTransfer.FirstTransfer

/-!
# Whole runs of `main`

A process that is left alone until `main` returns, on a machine that has been used before or has
not, against the server in any state that the processes of all machines lead to.
-/
namespace EncryptedTransfer.MainRuns
open ServerStores hiding Client Client.new
open ByteFormats Text ServerCalls ServerHandlers ServerConsistency ServerEffects ServerRuns
open StreamFraming FileLedger CryptoLaws ClientProcess Network ClientMessages ServerTurns
open ClientRoster FileNames KeyAgreement FirstTransfer DetailsFile ClientLives
open PersistedIdentity (keepDetails)

variable (E : Externals)

/-- `main`: a new process, and its three calls. -/
def main (i : ℕ) (files : Bytes → Option Bytes) (pair : KeyPair) (env₁ env₂ env₃ env₄ : Draws)
    (sys : System) : System :=
  perform E i .sendFileToServer [env₃, env₄]
    (perform E i (.generateRSAKeyPair pair) [env₂]
      (perform E i .registerToServer [env₁] ((Event.start i files true).run E sys)))

/-- The files of a machine whose `transfer.info` has its name and a file that can be sent. -/
structure Prepared (name filename : Str) (content : Bytes) (files : Bytes → Option Bytes) :
    Prop where
  info : ∃ info address path rest, files serverFilePath = some info ∧
    splitLines info = address :: encodeUtf8 name :: path :: rest ∧
      files (path.map tolower) = some content ∧ path.map tolower ≠ clientDetailsPath ∧
        KeptAs E (path.map tolower) filename
  fits : (encodeUtf8 name).length ≤ 255
  nul_notMem : nul ∉ name
  size : content.length < 2 ^ 32 - 16

/-- The uuids drawn while `main` runs are new. -/
structure Fresh (env₁ env₂ env₃ env₄ : Draws) (db : Database) : Prop where
  unknown : ∀ env ∈ [env₁, env₂, env₃, env₄], db.clientExistsById env.uuid = false
  apart : ∀ env ∈ [env₂, env₃, env₄], env.uuid ≠ env₁.uuid

variable {E}

section Calls

variable {field : ℕ → Bytes} {sys : System}

theorem Settled.moves (h : Settled E field sys) {moves : List Move}
    (hallowed : AllowedAll E field sys (moves.map .move)) :
    Settled E field (sys.steps E moves) ∧ KeepsIds sys (sys.steps E moves) := by
  have hruns : ClientLives.runs E sys (moves.map .move) = sys.steps E moves := by
    rw [ClientLives.runs, List.foldl_map]
    rfl
  have hevents := h.events (.of_allowed hallowed)
  rwa [hruns] at hevents

theorem Settled.perform (h : Settled E field sys) (i : ℕ) (method : Method) {env : Draws}
    (hpermitted : Permitted E sys (.call i method))
    (hfresh : sys.server.database.clientExistsById env.uuid = false) :
    Settled E field (perform E i method [env] sys) ∧ KeepsIds sys (perform E i method [env] sys) := by
  rw [perform_eq_steps]
  refine Settled.moves h ⟨⟨hpermitted, nofun⟩, ⟨?_, nofun⟩, ⟨trivial, nofun⟩, trivial⟩
  rw [← step_call_server (E := E) (i := i) method] at hfresh
  exact hfresh

end Calls

section Start

variable {files : Bytes → Option Bytes} {name filename : Str} {content : Bytes}

theorem Prepared.lines (h : Prepared E name filename content files) :
    (files serverFilePath).isSome = true ∧ nameField files = padField 255 name ∧
      ∃ path, (∀ destination, readLine (files serverFilePath) 3 destination = (true, path)) ∧
        files (path.map tolower) = some content ∧ path.map tolower ≠ clientDetailsPath ∧
          KeptAs E (path.map tolower) filename := by
  obtain ⟨info, address, path, rest, hinfo, hlines, hfile, hother, hkept⟩ := h.info
  have htake : (encodeUtf8 name).take 255 = encodeUtf8 name := List.take_of_length_le h.fits
  refine ⟨by rw [hinfo]; rfl, ?_, path, ?_, hfile, hother, hkept⟩
  · have hsecond : (readLine (files serverFilePath) 2 []).2 = encodeUtf8 name := by
      simp [hinfo, readLine, hlines, readLineLoop]
    rw [nameField, hsecond, htake, resize, htake, padField]
  · intro destination
    simp [hinfo, readLine, hlines, readLineLoop]

theorem Prepared.keepDetails (h : Prepared E name filename content files) (c : Client) :
    Prepared E name filename content (keepDetails c files) := by
  obtain ⟨info, address, path, rest, hinfo, hlines, hfile, hother, hkept⟩ := h.info
  refine ⟨⟨info, address, path, rest, ?_, hlines, ?_, hother, hkept⟩, h.fits, h.nul_notMem, h.size⟩
  · exact (Function.update_of_ne (by decide) _ _).trans hinfo
  · exact (Function.update_of_ne hother _ _).trans hfile

theorem Prepared.resting (h : Prepared E name filename content files) :
    Resting files (padField 255 name) (Client.new files true) := by
  obtain ⟨hinfo, hname, -⟩ := h.lines
  have hnew := new_clientName hinfo true
  rw [hname] at hnew
  obtain ⟨clientName, hex, bytes, key, connected, -, -, hfields⟩ := KeyAgreement.new_eq files true
  have hconnected : (Client.new files true).connectedToServer = true := by
    simp only [Client.new, if_pos hinfo]
    obtain ⟨hex, bytes, key, -, hload⟩ := KeyAgreement.loadRegistrationDetails_eq (loadClientName
      ⟨[], [], List.replicate 16 0, [], [], 0, 1, [], true, files, [], false, [], false, [], []⟩)
      List.length_replicate
    rw [hload]
    rfl
  rw [hfields] at hnew hconnected ⊢
  exact ⟨rfl, rfl, rfl, rfl, hconnected, hnew, fun _ _ => rfl⟩

end Start

section Begin

variable {sys : System} {i : ℕ} {files : Bytes → Option Bytes} {name : Str} {c : Client}

theorem performed_refused (env : Draws) (draws : List Draws) (hc : sys.client i = c)
    (hrest : Resting files (padField 255 name) c) (hfits : (encodeUtf8 name).length ≤ 255)
    (hnul : nul ∉ name) (hinfo : (c.files serverFilePath).isSome = true)
    (htaken : sys.server.database.clientExistsByName name = true) :
    Performed sys (perform E i .registerToServer (env :: draws) sys) i sys.server { c with
      requestCodes := c.requestCodes ++ [clientCodeRegister]
      responseCodes := c.responseCodes ++ [serverCodeRegistrationErr] } := by
  have hlen : c.clientName.length = 255 := by rw [hrest.clientName, length_padField hfits]
  have hcall : Method.run E .registerToServer c =
      await (post clientCodeRegister (registerMessage c.clientName hlen).encode c) := by
    rw [Method.run, registerToServer, if_pos ⟨hrest.connected, hinfo⟩,
      sendRequestToServer_register hlen]
  have hdecode : decodeUtf8 c.clientName =
      some (name ++ List.replicate (255 - (encodeUtf8 name).length) nul) := by
    rw [hrest.clientName, decodeUtf8_padField]
  have hstrip := stripNul_append_replicate hnul (255 - (encodeUtf8 name).length)
  have hturn : Turned (System.turnWith E env sys.server (registerMessage c.clientName hlen).encode)
      sys.server refused [] := turned_register_taken rfl rfl hdecode (by rw [hstrip, htaken])
  have hreceive := receiveResponseFromServer_told (E := E) (uuidField_length []) (.inl rfl)
    (show (answered (await (post clientCodeRegister (registerMessage c.clientName hlen).encode c)) []
      refused).inbox = refused by simp [answered, await, post, hrest.inbox])
  have hdone := performed_of_exchange hc hrest.awaiting hcall rfl
    (by simp [await, post, hrest.outbox]) hrest.inbox hturn
    (nil_ne_responseHead (uuidField [])).symm hreceive hrest.starved rfl rfl draws
  have hsame : { c with
      requestCodes := c.requestCodes ++ [clientCodeRegister]
      responseCodes := c.responseCodes ++ [serverCodeRegistrationErr] } = { answered (await (post
        clientCodeRegister (registerMessage c.clientName hlen).encode c)) [] refused with
        awaiting := false
        inbox := []
        responseCodes := c.responseCodes ++ [serverCodeRegistrationErr] } := by
    simp [answered, await, post, hrest.outbox, hrest.inbox, hrest.awaiting]
  rw [hsame]
  exact hdone

/-- A client that has its id and a key the server has too. -/
structure Ready (E : Externals) (files : Bytes → Option Bytes) (name : Str) (clientId : Bytes)
    (s : Server KeyedDisk) (c : Client) : Prop where
  resting : Resting files (padField 255 name) c
  attached : c.clientIdHex ≠ []
  clientId_eq : c.clientIdBytes = clientId
  idLength : clientId.length = 16
  aesKey : c.aesKey.length = 16
  consistent : Consistent s
  known : s.database.clientExistsById clientId = true
  agreed : s.database.getAesKeyOfClient clientId = some c.aesKey

theorem ready_of_key (env : Draws) (hc : sys.client i = c)
    (hrest : Resting files (padField 255 name) c) (hfits : (encodeUtf8 name).length ≤ 255)
    (hnul : nul ∉ name) (hattached : c.clientIdHex ≠ []) (hid : c.clientIdBytes.length = 16)
    (hs : Consistent sys.server) {key : Option Bytes}
    (hlisted : (c.clientIdBytes, name, key) ∈ roster sys.server.database) {pair : KeyPair}
    (hpair : KeyPairLaws E pair.publicKey pair.privateKey) :
    ∃ c', Performed sys (perform E i (.generateRSAKeyPair pair) [env] sys) i
        (setKeys env.now name pair.publicKey (env.random aesKeySize) sys.server) c' ∧
      Ready E files name c.clientIdBytes
        (setKeys env.now name pair.publicKey (env.random aesKeySize) sys.server) c' := by
  obtain ⟨c', hdone, hrest', hhex, hbytes, haes, -, -⟩ := performed_key (E := E) env [] hc hrest hfits
    hnul hattached hid (exists_of_mem_roster hlisted) hpair
  have hs' := hs.after_setKeys env.now name pair.publicKey (env.random aesKeySize)
  have hlisted' := mem_roster_setKeys env.now name pair.publicKey (env.random aesKeySize) hlisted
  rw [if_pos rfl] at hlisted'
  refine ⟨c', hdone, hrest', by rwa [hhex], hbytes, hid, ?_, hs', exists_of_mem_roster hlisted', ?_⟩
  · rw [haes, env.random_length]
    rfl
  · rw [haes]
    exact getAesKeyOfClient_eq hs'.sound hlisted'

/-- After its registration a machine with an id, or with a free name, is listed under its name. -/
structure Listed (files : Bytes → Option Bytes) (name : Str) (clientId : Bytes)
    (s s' : Server KeyedDisk) (c : Client) : Prop where
  resting : Resting files (padField 255 name) c
  attached : c.clientIdHex ≠ []
  idLength : c.clientIdBytes.length = 16
  consistent : Consistent s'
  listed : ∃ key, (c.clientIdBytes, name, key) ∈ roster s'.database
  entry_eq : entry s' = entry s
  known : ∀ x, s'.database.clientExistsById x = true →
    s.database.clientExistsById x = true ∨ x = clientId

theorem registration_opened {field : ℕ → Bytes} (h : Settled E field sys) (env : Draws)
    (hfield : field i = padField 255 name) (hc : sys.client i = c)
    (hrest : Resting files (padField 255 name) c) (hfits : (encodeUtf8 name).length ≤ 255)
    (hnul : nul ∉ name) (hinfo : (c.files serverFilePath).isSome = true)
    (hfresh : sys.server.database.clientExistsById env.uuid = false)
    (hopen : (∃ clientId, HasId clientId c.files) ∨
      sys.server.database.clientExistsByName name = false) :
    ∃ s' c', Performed sys (perform E i .registerToServer [env] sys) i s' c' ∧
      Listed files name env.uuid sys.server s' c' := by
  subst hc
  have hbelongs := h.belongs i
  have hs := h.agreement.consistent
  have hname : (decodeUtf8 (field i)).map stripNul = some name := by
    rw [hfield, decodeUtf8_padField, Option.map_some, stripNul_append_replicate hnul]
  rcases hbelongs.details with hnone | ⟨clientId, hid⟩
  · have hfree : sys.server.database.clientExistsByName name = false := by
      rcases hopen with ⟨x, hx⟩ | hfree
      · exact absurd hx (not_hasId_of_none hnone)
      · exact hfree
    obtain ⟨c', hdone, hrest', hattached, hbytes, -, -⟩ := performed_register (E := E) env [] rfl
      hrest hfits hnul hinfo hnone hfree
    have hroster := roster_register env.now name hfresh
    refine ⟨_, c', hdone, hrest', hattached, by rw [hbytes, env.uuid_length],
      hs.after_register env.now env.uuid_length hfresh hfree, ⟨none, ?_⟩, entry_register _ _ _ _, ?_⟩
    · rw [hroster, hbytes]
      exact List.mem_append_right _ (List.mem_singleton_self _)
    · intro x hx
      obtain ⟨row, hrow, hrowid⟩ := Database.clientExistsById_iff.mp hx
      have hmem : (x, row.clientName, row.aesKey) ∈
          roster (register env.now env.uuid name sys.server).database :=
        mem_roster.mpr ⟨row, hrow, hrowid, rfl, rfl⟩
      rw [hroster] at hmem
      rcases List.mem_append.mp hmem with hold | hnew
      · exact .inl (exists_of_mem_roster hold)
      · exact .inr (Prod.mk.inj (List.mem_singleton.mp hnew)).1
  · obtain ⟨name', key, hname', hlisted⟩ := hbelongs.listed clientId hid
    obtain rfl : name = name' := Option.some.inj (hname.symm.trans hname')
    have hattached := hbelongs.loaded clientId hrest.connected hid
    have hbytes := hasId_unique hid (hbelongs.attached hattached)
    have hdone := performed_refused (E := E) env [] rfl hrest hfits hnul hinfo
      (existsByName_of_mem_roster hlisted)
    refine ⟨_, _, hdone, ⟨hrest.awaiting, hrest.outbox, hrest.inbox, hrest.starved, hrest.connected,
      hrest.clientName, hrest.files⟩, hattached, (h.agreement.agrees i).idLength, hs, ⟨key, ?_⟩, rfl,
      fun x hx => .inl hx⟩
    rwa [← hbytes]

variable {field : ℕ → Bytes} {filename : Str} {content : Bytes} {pair : KeyPair}
  {env₁ env₂ env₃ env₄ : Draws}

theorem main_begun (h : Settled E field sys) (hfield : field i = padField 255 name)
    (hprepared : Prepared E name filename content files)
    (hpair : KeyPairLaws E pair.publicKey pair.privateKey)
    (hfresh : Fresh env₁ env₂ env₃ env₄ sys.server.database)
    (hopen : (∃ clientId, HasId clientId (sys.client i).files) ∨
      sys.server.database.clientExistsByName name = false) :
    let sys₂ := perform E i (.generateRSAKeyPair pair) [env₂]
      (perform E i .registerToServer [env₁] ((Event.start i files true).run E sys))
    ∃ clientId, (Settled E field sys₂ ∧ KeepsIds sys sys₂) ∧
      Ready E (keepDetails (sys.client i) files) name clientId sys₂.server (sys₂.client i) ∧
      entry sys₂.server = entry sys.server ∧
      (perform E i .registerToServer [env₁] ((Event.start i files true).run E
        sys)).server.database.clientExistsById env₂.uuid = false ∧
      ∀ env ∈ [env₃, env₄], sys₂.server.database.clientExistsById env.uuid = false := by
  intro sys₂
  have hnamed : Named (field i) files := fun _ => hprepared.lines.2.1.trans hfield.symm
  have hkept := hprepared.keepDetails (sys.client i)
  obtain ⟨hsettled, hids⟩ := h.run (.start i files true) hnamed
  have hclient : ((Event.start i files true).run E sys).client i =
      .new (keepDetails (sys.client i) files) true := System.setClient_self ..
  have hrest := hkept.resting
  have hinfo : ((Client.new (keepDetails (sys.client i) files) true).files
      serverFilePath).isSome = true := by
    rw [new_files]
    exact hkept.lines.1
  have hfresh₁ := hfresh.unknown env₁ (by simp)
  have hsame (clientId : Bytes) : HasId clientId (Client.new (keepDetails (sys.client i) files)
      true).files ↔ HasId clientId (sys.client i).files := by
    rw [new_files]
    exact hasId_congr (Function.update_self ..)
  simp only [← hsame] at hopen
  obtain ⟨s₁, c₁, hdone₁, hlisted⟩ := registration_opened hsettled env₁ hfield hclient hrest
    hprepared.fits hprepared.nul_notMem hinfo hfresh₁ hopen
  obtain ⟨hsettled₁, hids₁⟩ := Settled.perform hsettled i .registerToServer trivial hfresh₁
  obtain ⟨key, hmem⟩ := hlisted.listed
  have hnew (env : Draws) (henv : env ∈ [env₂, env₃, env₄]) :
      s₁.database.clientExistsById env.uuid = false := by
    by_contra hknown
    rcases hlisted.known env.uuid (Bool.eq_true_of_not_eq_false hknown) with hold | hsame
    · exact Bool.false_ne_true
        ((hfresh.unknown env (List.mem_cons_of_mem _ henv)).symm.trans hold)
    · exact hfresh.apart env henv hsame
  rw [← hdone₁.server] at hmem hnew
  obtain ⟨c₂, hdone₂, hready⟩ := ready_of_key env₂ hdone₁.client hlisted.resting hprepared.fits
    hprepared.nul_notMem hlisted.attached hlisted.idLength hsettled₁.agreement.consistent hmem hpair
  obtain ⟨hsettled₂, hids₂⟩ := Settled.perform hsettled₁ i (.generateRSAKeyPair pair) hpair
    (hnew env₂ (by simp))
  refine ⟨c₁.clientIdBytes, ⟨hsettled₂, ?_⟩, ?_, ?_, hnew env₂ (by simp), ?_⟩
  · exact fun j x hx => hids₂ j x (hids₁ j x (hids j x hx))
  · rw [hdone₂.server, hdone₂.client]
    exact hready
  · rw [hdone₂.server, hdone₁.server]
    exact hlisted.entry_eq
  · intro env henv
    rw [hdone₂.server]
    exact ((retouched_insertKeysOfClient _ _ _ _ _).exists_eq _).trans
      (hnew env (List.mem_cons_of_mem _ henv))

end Begin

section Transfer

variable {field : ℕ → Bytes} {sys : System} {i : ℕ} {files : Bytes → Option Bytes}
  {name filename : Str} {content clientId : Bytes} (env₃ env₄ : Draws) (haes : AesLaws E)
  (hprepared : Prepared E name filename content files)
  (hready : Ready E files name clientId sys.server (sys.client i))
include haes hprepared hready

theorem main_sent : ∃ c', Performed sys (perform E i .sendFileToServer [env₃, env₄] sys) i
    (confirm env₄.now clientId filename (store env₃.now clientId filename content sys.server)) c' ∧
      c'.awaiting = false ∧ (perform E i .sendFileToServer [env₃] sys).server =
        store env₃.now clientId filename content sys.server := by
  obtain ⟨hinfo, -, path, hline, hfile, hother, hkept⟩ := hprepared.lines
  have hid : (sys.client i).clientIdBytes.length = 16 := by
    rw [hready.clientId_eq, hready.idLength]
  have hknown := hready.known
  have hagreed := hready.agreed
  rw [← hready.clientId_eq] at hknown hagreed
  obtain ⟨c', hdone, hawait, -, -, hfirst⟩ := performed_send env₃ haes hready.resting hready.attached
    hid hready.aesKey hinfo (hline _) hfile hother hprepared.size hkept rfl hready.consistent hknown
    hagreed env₄ []
  rw [hready.clientId_eq] at hdone hfirst
  exact ⟨c', hdone, hawait, hfirst⟩

theorem main_entry : entry (perform E i .sendFileToServer [env₃, env₄] sys).server =
    Function.update (entry sys.server) (clientId, filename) (some (content, true)) := by
  obtain ⟨-, -, path, -, -, -, hkept⟩ := hprepared.lines
  obtain ⟨c', hdone, -⟩ := main_sent env₃ env₄ haes hprepared hready
  have hs := hready.consistent
  have hs' := hs.after_store env₃.now content hready.known hkept.nul_notMem
  rw [hdone.server, hs'.sound.entry_confirm, hs.sound.entry_store]
  funext k
  by_cases hk : k = (clientId, filename)
  · subst hk
    simp [Ledger.apply]
  · simp [Ledger.apply, Function.update_of_ne hk]

theorem main_fresh
    (hfresh : ∀ env ∈ [env₃, env₄], sys.server.database.clientExistsById env.uuid = false) :
    (perform E i .sendFileToServer [env₃] sys).server.database.clientExistsById env₄.uuid =
      false := by
  obtain ⟨c', -, -, hfirst⟩ := main_sent env₃ env₄ haes hprepared hready
  rw [hfirst, (retouched_store _ _ _ _ _).exists_eq]
  exact hfresh env₄ (by simp)

theorem main_allowed (field : ℕ → Bytes)
    (hfresh : ∀ env ∈ [env₃, env₄], sys.server.database.clientExistsById env.uuid = false) :
    AllowedAll E field (sys.step E (.call i .sendFileToServer))
      [.move (.serve i env₃), .move (.resume i), .move (.serve i env₄), .move (.resume i)] := by
  have hfresh₃ := hfresh env₃ (by simp)
  have hfresh₄ := main_fresh env₃ env₄ haes hprepared hready hfresh
  rw [← step_call_server (E := E) (i := i) .sendFileToServer] at hfresh₃
  exact ⟨⟨hfresh₃, nofun⟩, ⟨trivial, nofun⟩, ⟨hfresh₄, nofun⟩, ⟨trivial, nofun⟩, trivial⟩

theorem main_settled (h : Settled E field sys)
    (hfresh : ∀ env ∈ [env₃, env₄], sys.server.database.clientExistsById env.uuid = false) :
    Settled E field (perform E i .sendFileToServer [env₃, env₄] sys) ∧
      KeepsIds sys (perform E i .sendFileToServer [env₃, env₄] sys) := by
  rw [perform_eq_steps]
  exact Settled.moves h
    ⟨⟨trivial, nofun⟩, main_allowed env₃ env₄ haes hprepared hready field hfresh⟩

end Transfer

section Main

variable {field : ℕ → Bytes} {sys₀ sys : System} {before : List Event} {i : ℕ}
  {files : Bytes → Option Bytes} {name filename : Str} {content : Bytes} {pair : KeyPair}
  {env₁ env₂ env₃ env₄ : Draws}

theorem perform_idle {method : Method} (hsame : Method.run E method (sys.client i) = sys.client i)
    (hawait : (sys.client i).awaiting = false) (hout : (sys.client i).outbox = [])
    (draws : List Draws) : perform E i method draws sys = sys := by
  have hcall : sys.step E (.call i method) = sys := by
    simp only [System.step, hawait, hsame, System.setClient, Function.update_eq_self, ite_self]
  rw [perform, hcall]
  induction draws with
  | nil => rfl
  | cons env draws ih =>
    have hserve : sys.serve E i env = sys := System.serve_nil E hout env
    rw [List.foldl_cons, hserve, System.resume]
    simpa [hawait] using ih

theorem main_refused (h : Settled E field sys)
    (hprepared : Prepared E name filename content files)
    (hnone : ∀ clientId, ¬ HasId clientId (sys.client i).files)
    (htaken : sys.server.database.clientExistsByName name = true) :
    let sys' := main E i files pair env₁ env₂ env₃ env₄ sys
    sys'.server = sys.server ∧ (sys'.client i).awaiting = false ∧
      (sys'.client i).requestCodes = [clientCodeRegister] := by
  intro sys'
  have hkept := hprepared.keepDetails (sys.client i)
  have hdetails : keepDetails (sys.client i) files clientDetailsPath = none := by
    rw [keepDetails, Function.update_self]
    exact (h.belongs i).details.resolve_right (not_exists.mpr hnone)
  have hhex := new_of_none hdetails true
  have hclient : ((Event.start i files true).run E sys).client i =
      .new (keepDetails (sys.client i) files) true := System.setClient_self ..
  have hinfo : ((Client.new (keepDetails (sys.client i) files) true).files
      serverFilePath).isSome = true := by
    rw [new_files]
    exact hkept.lines.1
  have hrequests : (Client.new (keepDetails (sys.client i) files) true).requestCodes = [] := by
    obtain ⟨_, _, _, _, _, -, -, hnew⟩ :=
      KeyAgreement.new_eq (keepDetails (sys.client i) files) true
    rw [hnew]
  have hrest := hkept.resting
  have hdone := performed_refused (E := E) env₁ [] hclient hrest hprepared.fits
    hprepared.nul_notMem hinfo htaken
  have hidle (method : Method) (hmethod : method ≠ .registerToServer) (draws : List Draws) :
      perform E i method draws (perform E i .registerToServer [env₁]
        ((Event.start i files true).run E sys)) = perform E i .registerToServer [env₁]
          ((Event.start i files true).run E sys) := by
    refine perform_idle ?_ ?_ ?_ draws
    · rw [hdone.client]
      cases method with
      | registerToServer => exact absurd rfl hmethod
      | generateRSAKeyPair pair => simp [Method.run, generateRSAKeyPair, hhex]
      | sendFileToServer => simp [Method.run, sendFileToServer, hhex]
    · rw [hdone.client]
      exact hrest.awaiting
    · rw [hdone.client]
      exact hrest.outbox
  have hsame : sys' = perform E i .registerToServer [env₁]
      ((Event.start i files true).run E sys) := by
    rw [show sys' = main E i files pair env₁ env₂ env₃ env₄ sys from rfl, main, hidle _ (by simp),
      hidle _ (by simp)]
  rw [hsame]
  refine ⟨hdone.server, ?_, ?_⟩
  · rw [hdone.client]
    exact hrest.awaiting
  · rw [hdone.client, hrequests]
    rfl

/-- A process that has an id or whose name is free. -/
theorem main_opened (haes : AesLaws E) (h : Settled E field sys)
    (hfield : field i = padField 255 name)
    (hprepared : Prepared E name filename content files)
    (hpair : KeyPairLaws E pair.publicKey pair.privateKey)
    (hfresh : Fresh env₁ env₂ env₃ env₄ sys.server.database)
    (hopen : (∃ clientId, HasId clientId (sys.client i).files) ∨
      sys.server.database.clientExistsByName name = false) :
    let sys' := main E i files pair env₁ env₂ env₃ env₄ sys
    (Settled E field sys' ∧ KeepsIds sys sys') ∧ (sys'.client i).awaiting = false ∧
      ∃ clientId, HasId clientId (sys'.client i).files ∧
        entry sys'.server =
          Function.update (entry sys.server) (clientId, filename) (some (content, true)) := by
  intro sys'
  obtain ⟨clientId, ⟨hsettled, hids⟩, hready, hentry, -, hfresh'⟩ :=
    main_begun h hfield hprepared hpair hfresh hopen
  have hkept := hprepared.keepDetails (sys.client i)
  obtain ⟨c', hdone, hawait, -⟩ := main_sent env₃ env₄ haes hkept hready
  obtain ⟨hsettled', hids'⟩ := main_settled env₃ env₄ haes hkept hready hsettled hfresh'
  have hid := (hsettled.belongs i).attached hready.attached
  rw [hready.clientId_eq] at hid
  refine ⟨⟨hsettled', fun j x hx => hids' j x (hids j x hx)⟩, ?_, clientId, hids' i clientId hid, ?_⟩
  · rw [show sys' = main E i files pair env₁ env₂ env₃ env₄ sys from rfl, main, hdone.client]
    exact hawait
  · rw [← hentry]
    exact main_entry env₃ env₄ haes hkept hready

/-- In any state all machines' processes have led to, a whole process of a machine that has its
id or whose name is free gets the file to the server, confirmed and in all four stores, under the
machine's one id, and changes no other file. A process without an id under a name that is taken
sends its registration only, and changes nothing. -/
theorem main_transfers (haes : AesLaws E) (h₀ : Installed E field sys₀)
    (hrun : Events E field sys₀ before sys) (hfield : field i = padField 255 name)
    (hprepared : Prepared E name filename content files)
    (hpair : KeyPairLaws E pair.publicKey pair.privateKey)
    (hfresh : Fresh env₁ env₂ env₃ env₄ sys.server.database) :
    let sys' := main E i files pair env₁ env₂ env₃ env₄ sys
    (sys'.client i).awaiting = false ∧
    ((∃ clientId, HasId clientId (sys.client i).files) ∨
        sys.server.database.clientExistsByName name = false →
      ∃ clientId, HasId clientId (sys'.client i).files ∧
        (∀ old, HasId old (sys.client i).files → old = clientId) ∧
        stored sys'.server (clientId, filename) =
          (some content, [⟨clientId, filename, filePath clientId filename, true⟩],
            some (.new clientId filename (filePath clientId filename)),
            some (.new clientId filename (filePath clientId filename))) ∧
        ∀ key, key ≠ (clientId, filename) → stored sys'.server key = stored sys.server key) ∧
    ((∀ clientId, ¬ HasId clientId (sys.client i).files) →
      sys.server.database.clientExistsByName name = true →
        sys'.server = sys.server ∧ (sys'.client i).requestCodes = [clientCodeRegister]) := by
  intro sys'
  obtain ⟨h, -⟩ := h₀.settled.events hrun
  have hopened := main_opened haes h hfield hprepared hpair hfresh
  refine ⟨?_, ?_, ?_⟩
  · by_cases hopen : (∃ clientId, HasId clientId (sys.client i).files) ∨
        sys.server.database.clientExistsByName name = false
    · exact (hopened hopen).2.1
    · rw [not_or, not_exists, Bool.not_eq_false] at hopen
      exact (main_refused h hprepared hopen.1 hopen.2).2.1
  · intro hopen
    obtain ⟨⟨hsettled', hids⟩, -, clientId, hid, hentry⟩ := hopened hopen
    have hstored := hsettled'.agreement.consistent.stored_eq
    refine ⟨clientId, hid, fun old hold => hasId_unique (hids i old hold) hid, ?_, ?_⟩
    · rw [hstored, hentry, Function.update_self]
      rfl
    · intro key hkey
      rw [hstored, hentry, Function.update_of_ne hkey, h.agreement.consistent.stored_eq]
  · intro hnone htaken
    obtain ⟨hserver, -, hrequests⟩ := main_refused h hprepared hnone htaken
    exact ⟨hserver, hrequests⟩

end Main

theorem prepared_filesOfA : Prepared plainCiphers ['a'] ['f'] [7] filesOfA := by
  refine ⟨⟨infoOfA, addressLine, [102], [], rfl, by decide, rfl, by decide, ?_⟩,
    by decide, by decide, by decide⟩
  exact ⟨by decide +kernel, by decide +kernel, by decide⟩

theorem fresh_systemOfA : Fresh (constantDraws 1) (constantDraws 2) (constantDraws 3)
    (constantDraws 4) systemOfA.server.database :=
  ⟨fun _ _ => rfl, by decide⟩

theorem main_transfers_ofA : ∃ clientId,
    HasId clientId ((main plainCiphers 0 filesOfA keyPairOfA (constantDraws 1)
      (constantDraws 2) (constantDraws 3) (constantDraws 4) systemOfA).client 0).files ∧
    stored (main plainCiphers 0 filesOfA keyPairOfA (constantDraws 1)
      (constantDraws 2) (constantDraws 3) (constantDraws 4) systemOfA).server (clientId, ['f']) =
        (some [7], [⟨clientId, ['f'], filePath clientId ['f'], true⟩],
          some (.new clientId ['f'] (filePath clientId ['f'])),
          some (.new clientId ['f'] (filePath clientId ['f']))) := by
  have hfield : nameField filesOfA = padField 255 ['a'] := prepared_filesOfA.lines.2.1
  have hpair : KeyPairLaws plainCiphers keyPairOfA.publicKey
      keyPairOfA.privateKey := keyPairLaws_plainCiphers _
  obtain ⟨-, hopened, -⟩ := main_transfers (i := 0) aesLaws_plainCiphers installed_systemOfA
    (.nil systemOfA) hfield prepared_filesOfA hpair fresh_systemOfA
  obtain ⟨clientId, hid, -, hstored, -⟩ := hopened (.inr rfl)
  exact ⟨clientId, hid, hstored⟩

end EncryptedTransfer.MainRuns
