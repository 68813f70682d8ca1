import EncryptedTransfer.CksumReports
import EncryptedTransfer.CryptoLaws

/-!
# What the flag of a file says about its content

An upload writes the disk, reads it for the checksum, resets the flag and reports in separate
calls of its thread; a confirmation names only the file.
-/
namespace EncryptedTransfer.VerifiedFlag
open ByteFormats Text ServerStores ServerCalls ServerHandlers ServerEffects ServerFootprints
open ServerThreads CksumReports CryptoLaws ThreadPools Interaction Program

/-- What a session has read for a checksum, and the content it was last sent the checksum of,
for each path. -/
structure Reports where
  read : Option (Str × Bytes)
  reported : Str → Option Bytes

def reportMonitor : Monitor calls PyError Reports where
  allowed _ c := Within True AnyKind c
  after g c r :=
    match c, r with
    | .host (.readFile path), .ok content => { g with read := some (path, content) }
    | .send data, .ok _ =>
      match g.read with
      | some (path, content) =>
        if reports content data then ⟨none, Function.update g.reported path (some content)⟩
        else g
      | none => g
    | _, _ => g

def heard (i : ℕ) (t : Trace calls PyError) : Reports :=
  seen reportMonitor ⟨none, fun _ => none⟩ i t

/-- The content whose checksum a session was last sent for a path. -/
def reported (i : ℕ) (path : Str) (t : Trace calls PyError) : Option Bytes :=
  (heard i t).reported path

/-- The content last written to a path and not removed. -/
def lastWritten (path : Str) : Trace calls PyError → Option Bytes
  | [] => none
  | ⟨_, .host (.writeFile p content), .ok _⟩ :: t =>
    if p = path then some content else lastWritten path t
  | ⟨_, .host (.remove p), .ok _⟩ :: t => if p = path then none else lastWritten path t
  | _ :: t => lastWritten path t

/-- The session that last set the flag of a file, and what had happened before. -/
def confirmation (clientId : Bytes) (filename : Str) :
    Trace calls PyError → Option (ℕ × Trace calls PyError)
  | [] => none
  | ⟨i, .host (.updateCksumVerification x f true), .ok _⟩ :: t =>
    if x = clientId ∧ f = filename then some (i, t) else confirmation clientId filename t
  | _ :: t => confirmation clientId filename t

/-- The disk holds the content whose checksum was reported to the session that set the flag. -/
def Confirmed (s : Server KeyedDisk) (t : Trace calls PyError) (row : FileRow) : Prop :=
  ∃ i earlier content, confirmation row.clientId row.filename t = some (i, earlier) ∧
    reported i row.pathname earlier = some content ∧
    s.disk.files row.pathname = some content

/-- How far a session has come in the answer to its upload of a path. -/
inductive Stage where
  | away
  | read
  | headed
  | told
  deriving DecidableEq

/-- A session that reads on gives up an answer it has not sent whole. -/
def Stage.recv : Stage → Stage
  | .told => .told
  | _ => .away

def Stage.send : Stage → Stage
  | .read => .headed
  | .headed => .told
  | stage => stage

/-- Only the calls and their success count: a session has read the file of the path back and been
sent the two messages of the answer, and nobody has written or removed the file since. -/
def stage (i : ℕ) (path : Str) : Trace calls PyError → Stage
  | [] => .away
  | ⟨_, .host (.writeFile p _), .ok _⟩ :: t => if p = path then .away else stage i path t
  | ⟨_, .host (.remove p), .ok _⟩ :: t => if p = path then .away else stage i path t
  | ⟨j, .host (.readFile p), .ok _⟩ :: t => if j = i ∧ p = path then .read else stage i path t
  | ⟨j, .recv _, _⟩ :: t => if j = i then (stage i path t).recv else stage i path t
  | ⟨j, .send _, .ok _⟩ :: t => if j = i then (stage i path t).send else stage i path t
  | _ :: t => stage i path t

/-- A file whose flag is set is neither written nor removed, and a session confirms a file only
where it has been told its checksum and nobody has written or removed the file since. -/
def Undisturbed : Demand calls PyError (Server KeyedDisk) := fun s t i c =>
  match c with
  | .host (.writeFile path _) | .host (.remove path) =>
    ∀ row ∈ s.database.files, row.pathname = path → row.verified = false
  | .host (.updateCksumVerification clientId filename true) =>
    s.database.fileExists clientId filename = true →
      stage i (filePath clientId filename) t = .told
  | _ => True

instance (s : Server KeyedDisk) (t : Trace calls PyError) (i : ℕ) (c : Call) :
    Decidable (Undisturbed s t i c) := by
  unfold Undisturbed
  split <;> infer_instance

/-- What the stage of a session says of what it has read and been sent, and of the content last
written. -/
def Tracks (path : Str) (d : Dialogue) (g : Reports) (last : Option Bytes) : Stage → Prop
  | .away => True
  | .read => ∃ content, d = .asked path content ∧ g.read = some (path, content) ∧
      last = some content
  | .headed => ∃ content, d = .headed path content ∧ g.read = some (path, content) ∧
      last = some content
  | .told => (∃ content, g.reported path = some content ∧ last = some content) ∧
      ∀ content, g.read ≠ some (path, content)

def AllTracked (t : Trace calls PyError) : Prop :=
  ∀ i path, Tracks path (seen dialogueMonitor .idle i t) (heard i t) (lastWritten path t)
    (stage i path t)

section Tracking

variable {path : Str} {d : Dialogue} {g : Reports} {last : Option Bytes} {st : Stage}

theorem Tracks.recv (h : Tracks path d g last st) : Tracks path .idle g last st.recv := by
  cases st with
  | told => exact h
  | _ => trivial

theorem Tracks.send (h : Tracks path d g last st) {data : Bytes}
    (hallowed : dialogueMonitor.allowed d (.send data)) :
    Tracks path (dialogueMonitor.after d (.send data) (.ok ()))
      (reportMonitor.after g (.send data) (.ok ())) last st.send := by
  cases st with
  | away => trivial
  | read =>
    obtain ⟨content, rfl, hread, hlast⟩ := h
    have hshort : reports content data = false := hallowed.2
    refine ⟨content, rfl, ?_, hlast⟩
    simp [reportMonitor, hread, hshort]
  | headed =>
    obtain ⟨content, rfl, hread, hlast⟩ := h
    have hreport : reports content data = true := hallowed.2
    simp [Stage.send, Tracks, reportMonitor, hread, hreport, hlast]
  | told =>
    obtain ⟨⟨content, hreported, hlast⟩, hread⟩ := h
    simp only [Stage.send, Tracks, reportMonitor]
    split
    · next path' content' hread' =>
      have hne : path ≠ path' := by
        rintro rfl
        exact hread content' hread'
      split_ifs
      · exact ⟨⟨content, (Function.update_of_ne hne _ _).trans hreported, hlast⟩, by simp⟩
      · exact ⟨⟨content, hreported, hlast⟩, hread⟩
    · exact ⟨⟨content, hreported, hlast⟩, hread⟩

/-- A session reads a file back only where it has no answer begun. -/
theorem Tracks.readFile (h : Tracks path d g last st) {p : Str}
    (hallowed : dialogueMonitor.allowed d (.host (.readFile p))) {content : Bytes}
    (hlast : p = path → last = some content) :
    Tracks path (.asked p content) { g with read := some (p, content) } last
      (if p = path then .read else st) := by
  split_ifs with hp
  · subst hp
    exact ⟨content, rfl, rfl, hlast rfl⟩
  · cases st with
    | away => trivial
    | read =>
      obtain ⟨_, rfl, _⟩ := h
      exact hallowed.2.elim
    | headed =>
      obtain ⟨_, rfl, _⟩ := h
      exact hallowed.2.elim
    | told => exact ⟨h.1, by simp [hp]⟩

end Tracking

section Events

variable {t : Trace calls PyError} {j : ℕ}

theorem AllTracked.quiet (h : AllTracked t) {e : Event calls PyError}
    (hd : ∀ d, dialogueMonitor.after d e.call e.answer = d)
    (hg : ∀ g, reportMonitor.after g e.call e.answer = g)
    (hstage : ∀ i path, stage i path (e :: t) = .away ∨
      (stage i path (e :: t) = stage i path t ∧ lastWritten path (e :: t) = lastWritten path t)) :
    AllTracked (e :: t) := by
  intro i path
  rw [heard, seen_still hd, seen_still hg]
  rcases hstage i path with hs | ⟨hs, hlast⟩
  · rw [hs]
    trivial
  · rw [hs, hlast]
    exact h i path

theorem AllTracked.own (h : AllTracked t) {c : Call} {r : Except PyError c.Answer}
    (hstage : ∀ i path, j ≠ i → stage i path (⟨j, c, r⟩ :: t) = stage i path t)
    (hlast : ∀ path, lastWritten path (⟨j, c, r⟩ :: t) = lastWritten path t)
    (hown : ∀ path, Tracks path (seen dialogueMonitor .idle j t) (heard j t) (lastWritten path t)
        (stage j path t) →
      Tracks path (dialogueMonitor.after (seen dialogueMonitor .idle j t) c r)
        (reportMonitor.after (heard j t) c r) (lastWritten path t)
        (stage j path (⟨j, c, r⟩ :: t))) : AllTracked (⟨j, c, r⟩ :: t) := by
  intro i path
  rw [hlast, heard]
  by_cases hij : i = j
  · subst hij
    rw [seen_self, seen_self]
    exact hown path (h i path)
  · rw [seen_other hij, seen_other hij, hstage i path (Ne.symm hij)]
    exact h i path

theorem AllTracked.call (h : AllTracked t) {c : Call} {r : Except PyError c.Answer}
    (hallowed : dialogueMonitor.allowed (seen dialogueMonitor .idle j t) c)
    (hread : ∀ p content, (⟨j, c, r⟩ : Event calls PyError) = ⟨j, .host (.readFile p), .ok content⟩ →
      lastWritten p t = some content) : AllTracked (⟨j, c, r⟩ :: t) := by
  cases c with
  | recv n =>
    refine h.own (fun i path hij => if_neg hij) (fun _ => rfl) fun path hp => ?_
    rw [stage, if_pos rfl]
    exact hp.recv
  | send data =>
    cases r with
    | error e =>
      exact h.quiet (fun _ => rfl) (fun _ => rfl) fun _ _ => .inr ⟨rfl, rfl⟩
    | ok _ =>
      refine h.own (fun i path hij => if_neg hij) (fun _ => rfl) fun path hp => ?_
      rw [stage, if_pos rfl]
      exact hp.send hallowed
  | host c =>
    cases c with
    | readFile p =>
      cases r with
      | error e => exact h.quiet (fun _ => rfl) (fun _ => rfl) fun _ _ => .inr ⟨rfl, rfl⟩
      | ok content =>
        refine h.own (fun i path hij => if_neg fun hp => hij hp.1) (fun _ => rfl) fun path hp => ?_
        have hstage : stage j path (⟨j, .host (.readFile p), .ok content⟩ :: t) =
            if p = path then .read else stage j path t := by
          simp only [stage, true_and]
        rw [hstage]
        exact hp.readFile hallowed fun he => he ▸ hread p content rfl
    | writeFile p content | remove p =>
      refine h.quiet (fun _ => rfl) (fun _ => rfl) fun i path => ?_
      cases r with
      | error e => exact .inr ⟨rfl, rfl⟩
      | ok _ =>
        by_cases hp : p = path
        · exact .inl (if_pos hp)
        · exact .inr ⟨if_neg hp, if_neg hp⟩
    | _ => exact h.quiet (fun _ => rfl) (fun _ => rfl) fun _ _ => .inr ⟨rfl, rfl⟩

end Events

/-- Paths are those of their files, the disk is what the trace has written, and every flag that
is set is confirmed. -/
structure FlagsHold (s : Server KeyedDisk) (t : Trace calls PyError) : Prop where
  paths : ∀ row ∈ s.database.files, row.pathname = filePath row.clientId row.filename
  disk : ∀ path, s.disk.files path = lastWritten path t
  confirmed : ∀ row ∈ s.database.files, row.verified = true → Confirmed s t row

variable {s s' : Server KeyedDisk} {t : Trace calls PyError} {e : Event calls PyError}

theorem Confirmed.keep {row row' : FileRow} (h : Confirmed s t row)
    (hrow : row'.clientId = row.clientId ∧ row'.filename = row.filename ∧
      row'.pathname = row.pathname)
    (hdisk : s'.disk.files row.pathname = s.disk.files row.pathname)
    (hsame : confirmation row.clientId row.filename (e :: t) =
      confirmation row.clientId row.filename t) : Confirmed s' (e :: t) row' := by
  obtain ⟨i, earlier, content, hset, hreported, hcontent⟩ := h
  obtain ⟨hid, hname, hpath⟩ := hrow
  exact ⟨i, earlier, content, by rw [hid, hname, hsame, hset], by rw [hpath, hreported],
    by rw [hpath, hdisk, hcontent]⟩

theorem FlagsHold.quiet (h : FlagsHold s t)
    (hpaths : ∀ row ∈ s'.database.files, row.pathname = filePath row.clientId row.filename)
    (hrows : ∀ row ∈ s'.database.files, row.verified = true → row ∈ s.database.files)
    (hdisk : s'.disk.files = s.disk.files)
    (hlast : ∀ path, lastWritten path (e :: t) = lastWritten path t)
    (hsame : ∀ clientId filename, confirmation clientId filename (e :: t) =
      confirmation clientId filename t) : FlagsHold s' (e :: t) := by
  refine ⟨hpaths, fun path => ?_, fun row hmem hv => ?_⟩
  · rw [hdisk, h.disk, hlast]
  · exact (h.confirmed row (hrows row hmem hv) hv).keep ⟨rfl, rfl, rfl⟩ (by rw [hdisk])
      (hsame _ _)

theorem FlagsHold.same (h : FlagsHold s t) (hfiles : s'.database.files = s.database.files)
    (hdisk : s'.disk.files = s.disk.files)
    (hlast : ∀ path, lastWritten path (e :: t) = lastWritten path t)
    (hsame : ∀ clientId filename, confirmation clientId filename (e :: t) =
      confirmation clientId filename t) : FlagsHold s' (e :: t) :=
  h.quiet (fun row hmem => h.paths row (hfiles ▸ hmem)) (fun _ hmem _ => hfiles ▸ hmem) hdisk
    hlast hsame

theorem FlagsHold.disk_step (h : FlagsHold s t) {path : Str} {found : Option Bytes}
    (hfiles : s'.database = s.database)
    (hdisk : s'.disk.files = Function.update s.disk.files path found)
    (hlast : ∀ p, lastWritten p (e :: t) = if path = p then found else lastWritten p t)
    (hsame : ∀ clientId filename, confirmation clientId filename (e :: t) =
      confirmation clientId filename t)
    (hkept : ∀ row ∈ s.database.files, row.pathname = path → row.verified = false) :
    FlagsHold s' (e :: t) := by
  refine ⟨fun row hmem => h.paths row (hfiles ▸ hmem), fun p => ?_, fun row hmem hv => ?_⟩
  · rw [hdisk, hlast]
    by_cases hp : path = p
    · subst hp
      rw [Function.update_self, if_pos rfl]
    · rw [Function.update_of_ne (Ne.symm hp), if_neg hp, h.disk]
  · rw [hfiles] at hmem
    refine (h.confirmed row hmem hv).keep ⟨rfl, rfl, rfl⟩ ?_ (hsame _ _)
    have hp : row.pathname ≠ path := by
      intro hp
      rw [hkept row hmem hp] at hv
      cases hv
    rw [hdisk, Function.update_of_ne hp]

variable {E : Externals} {x : Input} {i : ℕ}

theorem FlagsHold.insert (h : FlagsHold s t) {clientId : Bytes} {filename pathname : Str}
    (hpath : pathname = filePath clientId filename) :
    FlagsHold (shared E x (.host (.insertFileDetails clientId filename pathname false)) s).2
      (⟨i, .host (.insertFileDetails clientId filename pathname false), .ok ()⟩ :: t) := by
  have hrows (row : FileRow) (hmem : row ∈ (s.database.insertFileDetails x.env.now clientId
      filename pathname false).files) :
      row ∈ s.database.files ∨ row = ⟨clientId, filename, pathname, false⟩ := by
    unfold Database.insertFileDetails at hmem
    split_ifs at hmem
    · exact .inl hmem
    · simpa using hmem
  refine h.quiet (fun row hmem => ?_) (fun row hmem hv => ?_) rfl (fun _ => rfl) fun _ _ => rfl
  · rcases hrows row hmem with hold | rfl
    · exact h.paths row hold
    · exact hpath
  · rcases hrows row hmem with hold | rfl
    · exact hold
    · cases hv

theorem FlagsHold.delete (h : FlagsHold s t) (clientId : Bytes) (filename : Str) :
    FlagsHold (shared E x (.host (.deleteFileOfClient clientId filename)) s).2
      (⟨i, .host (.deleteFileOfClient clientId filename), .ok ()⟩ :: t) := by
  have hrows (row : FileRow) (hmem : row ∈ (s.database.deleteFileOfClient x.env.now clientId
      filename).files) : row ∈ s.database.files := by
    simp only [Database.deleteFileOfClient, Database.updateLastSeen_files] at hmem
    exact (List.mem_filter.mp hmem).1
  exact h.quiet (fun row hmem => h.paths row (hrows row hmem)) (fun row hmem _ => hrows row hmem)
    rfl (fun _ => rfl) fun _ _ => rfl

theorem mem_updateCksumVerification {now filename : Str} {clientId : Bytes} {verified : Bool}
    {row : FileRow}
    (h : row ∈ (s.database.updateCksumVerification now clientId filename verified).files) :
    ∃ old ∈ s.database.files,
      (row = { old with verified := verified } ∧ old.clientId = clientId ∧
        old.filename = filename) ∨
      (row = old ∧ ¬ (old.clientId = clientId ∧ old.filename = filename)) := by
  simp only [Database.updateCksumVerification, Database.updateLastSeen_files] at h
  obtain ⟨old, hold, rfl⟩ := List.mem_map.mp h
  refine ⟨old, hold, ?_⟩
  split_ifs with hfile
  · exact .inl ⟨rfl, hfile⟩
  · exact .inr ⟨rfl, hfile⟩

theorem FlagsHold.reset (h : FlagsHold s t) (clientId : Bytes) (filename : Str) :
    FlagsHold (shared E x (.host (.updateCksumVerification clientId filename false)) s).2
      (⟨i, .host (.updateCksumVerification clientId filename false), .ok ()⟩ :: t) := by
  refine h.quiet (fun row hmem => ?_) (fun row hmem hv => ?_) rfl (fun _ => rfl) fun _ _ => rfl
  · obtain ⟨old, hold, ⟨rfl, -⟩ | ⟨rfl, -⟩⟩ := mem_updateCksumVerification hmem
    · exact h.paths old hold
    · exact h.paths row hold
  · obtain ⟨old, hold, ⟨rfl, -⟩ | ⟨rfl, -⟩⟩ := mem_updateCksumVerification hmem
    · cases hv
    · exact hold

/-- A session that was told the checksum of what the disk holds sets the flag. -/
theorem FlagsHold.set (h : FlagsHold s t) (htracked : AllTracked t) {clientId : Bytes} {filename : Str}
    (hD : Undisturbed s t i (.host (.updateCksumVerification clientId filename true))) :
    FlagsHold (shared E x (.host (.updateCksumVerification clientId filename true)) s).2
      (⟨i, .host (.updateCksumVerification clientId filename true), .ok ()⟩ :: t) := by
  refine ⟨fun row hmem => ?_, h.disk, fun row hmem hv => ?_⟩
  · obtain ⟨old, hold, ⟨rfl, -⟩ | ⟨rfl, -⟩⟩ := mem_updateCksumVerification hmem
    · exact h.paths old hold
    · exact h.paths row hold
  · obtain ⟨old, hold, ⟨rfl, rfl, rfl⟩ | ⟨rfl, hother⟩⟩ := mem_updateCksumVerification hmem
    · have htold : stage i old.pathname t = .told := by
        rw [h.paths old hold]
        exact hD (Database.fileExists_iff.mpr ⟨old, hold, rfl, rfl⟩)
      have htracks := htracked i old.pathname
      rw [htold] at htracks
      obtain ⟨⟨content, hreported, hlast⟩, -⟩ := htracks
      refine ⟨i, t, content, if_pos ⟨rfl, rfl⟩, hreported, ?_⟩
      rw [← hlast]
      exact h.disk old.pathname
    · refine (h.confirmed row hold hv).keep ⟨rfl, rfl, rfl⟩ rfl (if_neg ?_)
      rintro ⟨rfl, rfl⟩
      exact hother ⟨rfl, rfl⟩

/-- What one call of any thread preserves. -/
theorem FlagsHold.call (h : FlagsHold s t) (htracked : AllTracked t) (c : Call)
    (hallowed : Within True AnyKind c) (hD : Undisturbed s t i c) :
    FlagsHold (shared E x c s).2 (⟨i, c, (shared E x c s).1⟩ :: t) := by
  cases c with
  | recv n => exact h.same rfl rfl (fun _ => rfl) fun _ _ => rfl
  | send data => exact h.same rfl rfl (fun _ => rfl) fun _ _ => rfl
  | host c =>
    cases c with
    | insertFileDetails clientId filename pathname verified =>
      obtain ⟨kind, hfoot⟩ := hallowed
      cases kind with
      | sendFile =>
        obtain ⟨hpath, rfl⟩ := hfoot
        exact h.insert hpath
      | _ => exact hfoot.elim
    | updateCksumVerification clientId filename verified =>
      cases verified with
      | false => exact h.reset clientId filename
      | true => exact h.set htracked hD
    | deleteFileOfClient clientId filename => exact h.delete clientId filename
    | writeFile path content =>
      simp only [shared, hostCall]
      cases hw : FileSystem.writeFile s.disk path content with
      | none => exact h.same rfl rfl (fun _ => rfl) fun _ _ => rfl
      | some disk =>
        have hdisk : disk.files = Function.update s.disk.files path (some content) := by
          simp only [FileSystem.writeFile, KeyedDisk.writeFile] at hw
          split_ifs at hw
          cases hw
          rfl
        exact h.disk_step rfl hdisk (fun _ => rfl) (fun _ _ => rfl) hD
    | remove path =>
      simp only [shared, hostCall]
      cases hr : FileSystem.remove s.disk path with
      | none => exact h.same rfl rfl (fun _ => rfl) fun _ _ => rfl
      | some disk =>
        have hdisk : disk.files = Function.update s.disk.files path none := by
          simp only [FileSystem.remove, KeyedDisk.remove] at hr
          split_ifs at hr
          cases hr
          rfl
        exact h.disk_step rfl hdisk (fun _ => rfl) (fun _ _ => rfl) hD
    | mkdir path =>
      simp only [shared, hostCall]
      cases hm : FileSystem.mkdir s.disk path with
      | none => exact h.same rfl rfl (fun _ => rfl) fun _ _ => rfl
      | some disk =>
        have hdisk : disk.files = s.disk.files := by
          simp only [FileSystem.mkdir, KeyedDisk.mkdir] at hm
          split_ifs at hm
          cases hm
          rfl
        exact h.same rfl hdisk (fun _ => rfl) fun _ _ => rfl
    | insertNewClient clientName clientId =>
      refine h.same ?_ rfl (fun _ => rfl) fun _ _ => rfl
      simp only [shared, hostCall, Database.insertNewClient]
      split_ifs <;> rfl
    | clientAddFile clientId filePath file =>
      simp only [shared, hostCall]
      split <;> exact h.same rfl rfl (fun _ => rfl) fun _ _ => rfl
    | clientRemoveFile clientId filePath =>
      simp only [shared, hostCall]
      split
      · split_ifs <;> exact h.same rfl rfl (fun _ => rfl) fun _ _ => rfl
      · exact h.same rfl rfl (fun _ => rfl) fun _ _ => rfl
    | fileMapPop filePath =>
      simp only [shared, hostCall]
      split_ifs <;> exact h.same rfl rfl (fun _ => rfl) fun _ _ => rfl
    | _ => exact h.same rfl rfl (fun _ => rfl) fun _ _ => rfl

theorem FlagsHold.readFile (h : FlagsHold s t) {c : Call} (p : Str) (content : Bytes)
    (he : (⟨i, c, (shared E x c s).1⟩ : Event calls PyError) =
      ⟨i, .host (.readFile p), .ok content⟩) : lastWritten p t = some content := by
  have hc : c = .host (.readFile p) := congrArg Event.call he
  subst hc
  have hanswer : (shared E x (.host (.readFile p)) s).1 = .ok content := by simpa using he
  have hread : orRaise .osError (FileSystem.readFile s.disk p) = .ok content := hanswer
  cases hfound : FileSystem.readFile s.disk p with
  | none =>
    rw [hfound] at hread
    cases hread
  | some found =>
    rw [hfound] at hread
    cases hread
    rw [← h.disk]
    simp only [FileSystem.readFile, KeyedDisk.readFile] at hfound
    split_ifs at hfound
    exact hfound

/-- The calls of one turn: the data of its reads, in the order of the calls. -/
def turnOf (thread : ℕ) (data : List Bytes) : List (ℕ × Input) :=
  data.map fun data => (thread, ⟨constantDraws 1, .ok data, .ok ()⟩)

/-- The header of a request of the client with the id of ones, as registered. -/
def headerFor (code payloadSize : ℕ) : Bytes :=
  List.replicate 16 1 ++ ([3] ++ (leBytes 2 code ++ leBytes 4 payloadSize))

def introduction : List (ℕ × Input) :=
  turnOf 0 ([headerFor clientCodeRegister 1, [97]] ++ List.replicate 6 []) ++
    turnOf 0 ([headerFor clientCodeSendPublicKey 415,
      padField 255 ['a'] ++ derKey] ++ List.replicate 7 [])

/-- A session uploads a content of one byte. The first upload also makes the two directories. -/
def upload (thread : ℕ) (filename : Char) (b : UInt8) (made : ℕ) : List (ℕ × Input) :=
  turnOf thread ([headerFor clientCodeSendFile 0, [], [],
    List.replicate 16 1 ++ (leBytes 4 16 ++ padField 255 [filename]), pkcs7Pad [b]] ++
      List.replicate (13 + made) [])

def confirming (thread : ℕ) (filename : Char) : List (ℕ × Input) :=
  turnOf thread ([headerFor clientCodeCksumOk 0, [], [], [], padField 255 [filename]] ++
    List.replicate 3 [])

def together (a b : List (ℕ × Input)) : List (ℕ × Input) :=
  (a.zip b).flatMap fun moves => [moves.1, moves.2]

def played (schedule : List (ℕ × Input)) : Pool calls PyError (Server KeyedDisk) :=
  Pool.play (shared plainCiphers) (sessionTurn plainCiphers)
    (.start (sessionTurn plainCiphers) Server.empty) schedule

/-- Session 0 uploads `f`; then session 1 uploads `f` anew while session 0 uploads `g`, and each
confirms the file it has been told the checksum of. -/
def twoUploads : List (ℕ × Input) :=
  introduction ++ (upload 0 'f' 1 2 ++ (together (upload 0 'g' 3 0) (upload 1 'f' 2 0) ++
    together (confirming 0 'g') (confirming 1 'f')))

theorem exists_not_confirmed {s : Server KeyedDisk} {t : Trace calls PyError} (clientId : Bytes)
    (filename pathname : Str) {content told : Bytes} (hne : content ≠ told)
    (h : s.database.files = [⟨clientId, filename, pathname, true⟩] ∧
      s.disk.files pathname = some content ∧
      (confirmation clientId filename t).map (fun c => reported c.1 pathname c.2) =
        some (some told)) :
    ∃ row ∈ s.database.files, row.verified = true ∧ ¬ Confirmed s t row := by
  obtain ⟨hfiles, hdisk, hreported⟩ := h
  refine ⟨⟨clientId, filename, pathname, true⟩, ?_, rfl, ?_⟩
  · rw [hfiles]
    exact List.mem_singleton_self _
  rintro ⟨i, earlier, c, hset, hread, hcontent⟩
  rw [hset, Option.map_some] at hreported
  have htold : told = c := Option.some.inj ((Option.some.inj hreported).symm.trans hread)
  have hheld : content = c := Option.some.inj (hdisk.symm.trans hcontent)
  exact hne (hheld.trans htold.symm)

end EncryptedTransfer.VerifiedFlag
