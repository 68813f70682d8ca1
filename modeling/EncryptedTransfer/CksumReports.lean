import EncryptedTransfer.ServerEffects
import EncryptedTransfer.ServerThreads

/-!
# The answer to an upload

An upload is answered in two messages, and the second carries the checksum of the content that
was read back before them. Which calls a session makes in between.
-/
namespace EncryptedTransfer.CksumReports
open ByteFormats Text ServerStores ServerCalls ServerHandlers ServerEffects ServerFootprints
open ServerThreads Interaction Program

variable {α β : Type}

/-- Whether a message ends with the checksum of a content, at its place in a report. -/
def reports (content data : Bytes) : Bool :=
  match Cksum.Server.cksumCalc content with
  | some cksum => data.drop 255 = leBytes 4 cksum
  | none => false

theorem reports_cksumReport {content : Bytes} {cksum : ℕ}
    (h : Cksum.Server.cksumCalc content = some cksum) (filename : Str) :
    reports content (cksumReport filename cksum) = true := by
  have hname : ((encodeUtf8 (padNul 255 filename)).take 255).length = 255 := by
    have hlen := length_le_encodeUtf8 (padNul 255 filename)
    simp only [padNul, List.length_append, List.length_replicate] at hlen
    rw [List.length_take]
    simp only [padNul]
    omega
  rw [reports, h, cksumReport, List.drop_left' hname]
  simp

theorem reports_short {data : Bytes} (h : data.length ≤ 255) (content : Bytes) :
    reports content data = false := by
  unfold reports
  split
  · next cksum _ =>
    have hne : [] ≠ leBytes 4 cksum := by
      intro he
      have hlen := congrArg List.length he
      simp at hlen
    rw [List.drop_of_length_le h]
    exact decide_eq_false hne
  · rfl

/-- Where a session is in the answer to an upload: the path and the content that was read back,
and then the head of the answer. -/
inductive Dialogue where
  | idle
  | asked (path : Str) (content : Bytes)
  | headed (path : Str) (content : Bytes)

/-- After a content is read back the second message reports it, unless the session goes on to its
next request before. -/
def dialogueMonitor : Monitor calls PyError Dialogue where
  allowed g c :=
    Within True AnyKind c ∧
      match g, c with
      | .idle, _ => True
      | .asked _ content, .send data => reports content data = false
      | .headed _ content, .send data => reports content data = true
      | _, .host (.readFile _) => False
      | _, _ => True
  after g c r :=
    match c, r with
    | .host (.readFile path), .ok content => .asked path content
    | .recv _, _ => .idle
    | .send _, .ok _ =>
      match g with
      | .asked path content => .headed path content
      | _ => .idle
    | _, _ => g

/-- The host calls that read no file back. -/
def Unread (c : HostCall) : Prop := AnyKind c ∧ ∀ path, c ≠ .readFile path

theorem unread_of_footprint {k : Kind} (hk : k ≠ .sendFile) {c : HostCall} (h : Footprint k c) :
    Unread c := by
  refine ⟨⟨k, h⟩, ?_⟩
  rintro path rfl
  cases k with
  | sendFile => exact hk rfl
  | _ => exact h

variable {p : Proc α}

theorem obeys_idle (hp : Issues (Within True Unread) p) :
    Obeys dialogueMonitor p .idle fun g _ => g = .idle := by
  apply hp.obeys_stays
  intro c hc
  cases c with
  | recv n => exact ⟨⟨trivial, trivial⟩, fun _ => rfl⟩
  | send data => exact ⟨⟨trivial, trivial⟩, fun r => by cases r <;> rfl⟩
  | host c =>
    obtain ⟨hkind, hread⟩ := hc
    refine ⟨⟨hkind, trivial⟩, fun r => ?_⟩
    cases c with
    | readFile path => exact absurd rfl (hread path)
    | _ => rfl

theorem obeys_idle_seq (hp : Issues (Within True Unread) p) {f : α → Proc β}
    (h : ∀ a, Obeys dialogueMonitor (f a) .idle fun _ _ => True) :
    Obeys dialogueMonitor (p >>= f) .idle fun _ _ => True := by
  refine .seq ((obeys_idle hp).mono ?_)
  rintro _ _ rfl a _
  exact h a

theorem obeys_dialogue_guarded {p : Proc Unit} {g : Dialogue}
    (h : Obeys dialogueMonitor p g fun _ _ => True) :
    Obeys dialogueMonitor (guarded p) g fun _ _ => True := by
  apply Obeys.attempt
  apply h.mono
  intro g o _
  cases o <;> trivial

variable (E : Externals) (request : Request)

theorem obeys_sendCksum {content : Bytes} {cksum : ℕ}
    (h : Cksum.Server.cksumCalc content = some cksum) (path : Str) (clientId : Bytes)
    (filename : Str) (contentSize : ℕ) :
    Obeys dialogueMonitor (sendCksum clientId filename contentSize cksum) (.asked path content)
      fun _ _ => True := by
  have hcksum : cksum < 4294967296 := by
    obtain ⟨value, hvalue⟩ := Cksum.cksumCalc_isSome content
    obtain rfl := Option.some.inj (h.symm.trans hvalue)
    exact value.toNat_lt
  refine .seq (.ofOption (fun response _ => ?_) nofun)
  rintro _ ⟨⟩
  refine .seq (.ofOption (fun head hhead => ?_) nofun)
  rintro _ ⟨⟩
  have hshort : head.length ≤ 255 := by
    rw [length_pack hhead]
    decide
  refine .seq (.issue ⟨trivial, reports_short hshort content⟩ fun r => ?_)
  rintro _ rfl
  rw [pack_cksumReport filename hcksum]
  refine .seq (.ofOption (fun report hreport => ?_) nofun)
  rintro _ ⟨⟩
  cases hreport
  exact .issue ⟨trivial, reports_cksumReport h filename⟩ fun _ => trivial

/-- Between the reading and the answer nothing is sent, read or read back. -/
theorem obeys_recordFile (path : Str) (content : Bytes) (clientId : Bytes) (filename : Str) :
    Obeys dialogueMonitor (recordFile clientId filename (filePath clientId filename))
      (.asked path content) fun g _ => g = .asked path content := by
  refine .bind (.issue ⟨⟨.sendFile, trivial⟩, trivial⟩ fun r => ?_)
  cases r with
  | error e => rfl
  | ok found =>
    dsimp only
    split_ifs
    · exact .issue ⟨⟨.sendFile, rfl⟩, trivial⟩ fun _ => rfl
    · exact .issue ⟨⟨.sendFile, rfl, rfl⟩, trivial⟩ fun _ => rfl

theorem obeys_processFileContent (filename : Str) (encrypted : Bytes) :
    Obeys dialogueMonitor (processFileContent E request filename encrypted) .idle
      fun _ _ => True := by
  have hhost (c : HostCall) (hfoot : Footprint .sendFile c) (hread : ∀ path, c ≠ .readFile path) :
      Issues (Within True Unread) (host c) := within_host ⟨⟨.sendFile, hfoot⟩, hread⟩
  have hdir (dirName : Str) : Issues (Within True Unread) (makeDir dirName) :=
    within_makeDir ⟨⟨.sendFile, trivial⟩, by simp⟩ ⟨⟨.sendFile, trivial⟩, by simp⟩
  apply obeys_dialogue_guarded
  refine obeys_idle_seq (hhost (.getClientName _) trivial (by simp)) fun _ => ?_
  refine obeys_idle_seq (hhost (.getAesKeyOfClient _) trivial (by simp)) fun aesKey => ?_
  refine obeys_idle_seq (.ofOption _ _) fun aesKey => ?_
  refine obeys_idle_seq (.ofOption _ _) fun padded => ?_
  refine obeys_idle_seq (.ofOption _ _) fun content => ?_
  refine obeys_idle_seq (hdir _) fun _ => obeys_idle_seq (hdir _) fun _ => ?_
  refine obeys_idle_seq (hhost (.writeFile _ _) trivial (by simp)) fun _ => ?_
  refine obeys_idle_seq (hhost (.fileMapPut _ _) trivial (by simp)) fun _ => ?_
  refine obeys_idle_seq (hhost (.clientAddFile _ _ _) trivial (by simp)) fun _ => ?_
  refine .seq (.issue ⟨⟨.sendFile, trivial⟩, trivial⟩ fun r => ?_)
  rintro stored rfl
  refine .seq (.ofOption (fun cksum hcksum => ?_) nofun)
  rintro _ ⟨⟩
  refine .seq ((obeys_recordFile _ stored _ filename).mono ?_)
  rintro _ _ rfl _ _
  exact obeys_sendCksum hcksum _ _ _ _

theorem obeys_handleFileRequest :
    Obeys dialogueMonitor (handleFileRequest E request) .idle fun _ _ => True := by
  apply obeys_dialogue_guarded
  refine obeys_idle_seq (within_recv _) fun fileData => ?_
  split_ifs
  · refine obeys_idle_seq (.ofOption _ _) fun fields => ?_
    refine obeys_idle_seq (within_readFilename E _) fun filename => ?_
    refine obeys_idle_seq (within_recv _) fun encrypted => ?_
    exact obeys_processFileContent E request filename encrypted
  · trivial

theorem obeys_handleRequest (payload : Bytes) :
    Obeys dialogueMonitor (handleRequest E request payload) .idle fun _ _ => True := by
  by_cases hk : kindOf request.code = .sendFile
  · have hgate : Issues (Within True Unread) (turnedAway request) := by
      apply Issues.attempt _ fun _ => within_pure _
      split_ifs
      · exact within_pure _
      · exact .bind (within_host ⟨⟨.sendFile, trivial⟩, by simp⟩) fun found => within_pure _
    refine obeys_idle_seq hgate fun away => ?_
    split_ifs
    · exact (obeys_idle (within_guarded (within_respond _ _))).mono fun _ _ _ => trivial
    · rw [dispatch_eq, hk]
      exact obeys_handleFileRequest E request
  · have hissues := (footprint_handleRequest E request payload).mono
      (Within.mono fun c => unread_of_footprint hk)
    exact (obeys_idle hissues).mono fun _ _ _ => trivial

/-- A turn begins with a read, which ends whatever the turn before has left. -/
theorem obeys_sessionTurn (g : Dialogue) :
    Obeys dialogueMonitor (sessionTurn E) g fun _ _ => True := by
  have hissues := footprint_receiveRequest.mono (Within.mono (B := Unread) fun _ h => h.elim)
  have hreceive : Obeys dialogueMonitor receiveRequest g fun g _ => g = .idle :=
    ⟨⟨trivial, by cases g <;> trivial⟩, (obeys_idle hissues).2⟩
  refine .seq (hreceive.mono ?_)
  rintro _ _ rfl received _
  cases received with
  | none => trivial
  | some received =>
    exact .seq ((obeys_handleRequest E received.1 received.2).mono fun _ _ _ _ _ => trivial)

end EncryptedTransfer.CksumReports
