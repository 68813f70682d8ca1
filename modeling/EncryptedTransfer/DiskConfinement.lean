import EncryptedTransfer.ClientIsolation
import EncryptedTransfer.WindowsPaths

/-!
# Where a client's requests write on a Windows disk

The server over a disk whose paths are resolved. One request touches at most the location to
which its name leads from the client's directory, and which names stay inside is decided by
walking their components.
-/
namespace EncryptedTransfer.DiskConfinement
open ByteFormats Text ServerStores ServerCalls ServerHandlers ServerEffects ServerFootprints
open ServerRuns WindowsPaths Interaction Program CryptoLaws

instance : FileSystem Disk :=
  ⟨Disk.pathExists, Disk.mkdir, Disk.writeFile, Disk.readFile, Disk.remove⟩

theorem isSeparator_hex {data : Bytes} {c : Char} (h : c ∈ hex data) : isSeparator c = false := by
  have hd : ∀ n : Fin 16, isSeparator (hexDigit n) = false := by decide
  obtain ⟨n, rfl⟩ := mem_hex h
  exact hd n

theorem isSeparator_filesDir {c : Char} (h : c ∈ filesDir) : isSeparator c = false := by
  have hd : filesDir.all (fun c => !isSeparator c) = true := by decide
  simpa using List.all_eq_true.mp hd c h

def clientLocation (cwd : Location) (clientId : Bytes) : Location := cwd ++ [filesDir, hex clientId]

/-- A file's path leads where its name leads from the client's directory. -/
theorem resolve_filePath {clientId : Bytes} (hlen : clientId.length = 16) (cwd : Location)
    (filename : Str) :
    resolve cwd (filePath clientId filename) =
      walk (clientLocation cwd clientId) (components filename) := by
  have hpath : filePath clientId filename =
      filesDir ++ backslash :: (hex clientId ++ backslash :: filename) := by
    simp only [filePath, clientDir, List.append_assoc, List.cons_append]
    rfl
  have hne (s : Str) (hs : s.length ≠ 32) : hex clientId ≠ s := by
    intro he
    have := congrArg List.length he
    rw [hex_length] at this
    omega
  rw [hpath, resolve_append_sep (fun c hc => isSeparator_filesDir hc) (by decide) (by decide)
      (by decide),
    resolve_append_sep (fun c hc => isSeparator_hex hc) (hne _ (by decide)) (hne _ (by decide))
      (hne _ (by decide)), clientLocation, List.append_assoc]
  rfl

theorem namesFile_filePath (clientId : Bytes) (filename : Str) :
    namesFile (filePath clientId filename) = namesFile filename := by
  cases filename with
  | nil =>
    have hlast : (filePath clientId []).getLast? = some sep := by
      rw [filePath, List.getLast?_append_of_ne_nil _ (by simp)]
      rfl
    rw [namesFile, hlast]
    rfl
  | cons c s =>
    have hlast : (filePath clientId (c :: s)).getLast? = (c :: s).getLast? := by
      rw [filePath, List.getLast?_append_of_ne_nil _ (by simp)]
      rfl
    rw [namesFile, hlast, namesFile]

/-- No file can be written or removed under the name: it has a NUL, is no name of a file, or
leads to the working directory or above. -/
def Sealed (cwd : Location) (clientId : Bytes) (filename : Str) : Prop :=
  nul ∈ filename ∨ namesFile filename = false ∨
    walk (clientLocation cwd clientId) (components filename) <+: cwd

/-- Only the file the name leads to has changed, if it can be. -/
def Touched (clientId : Bytes) (filename : Str) (before after : Disk) : Prop :=
  after.cwd = before.cwd ∧ ∀ l, after.files l ≠ before.files l →
    ¬ Sealed before.cwd clientId filename ∧
      l = walk (clientLocation before.cwd clientId) (components filename)

variable {E : Externals} {env : Draws} {d : Delivery} {clientId : Bytes} {filename : Str}

theorem touched_of_target (hlen : clientId.length = 16) {before disk disk' : Disk}
    (h : Touched clientId filename before disk)
    (hcwd : disk'.cwd = disk.cwd)
    (hfile : nul ∉ filePath clientId filename ∧ namesFile (filePath clientId filename) = true ∧
      disk.dirs (disk.target (filePath clientId filename)) = false)
    (hother : ∀ l, l ≠ disk.target (filePath clientId filename) → disk'.files l = disk.files l) :
    Touched clientId filename before disk' := by
  obtain ⟨hc, hf⟩ := h
  obtain ⟨hnul, hname, hdir⟩ := hfile
  rw [Disk.target, resolve_filePath hlen] at hdir
  simp only [Disk.target, resolve_filePath hlen] at hother
  rw [nul_mem_filePath] at hnul
  rw [namesFile_filePath] at hname
  refine ⟨hcwd.trans hc, ?_⟩
  intro l hl
  by_cases hlt : l = walk (clientLocation disk.cwd clientId) (components filename)
  · rw [hc] at hlt hdir
    refine ⟨?_, hlt⟩
    rintro (hs | hs | hs)
    · exact hnul hs
    · simp [hname] at hs
    · rw [← hc] at hs
      rw [← hc, disk.cwd_dirs _ hs] at hdir
      cases hdir
  · rw [hother l hlt] at hl
    exact hf l hl

theorem touched_hostCall (hlen : clientId.length = 16) {before : Disk} {c : HostCall}
    (hc : AtFile clientId filename c) {s : Server Disk} (h : Touched clientId filename before s.disk) :
    Touched clientId filename before (hostCall E env c s).2.disk := by
  cases c with
  | mkdir path =>
    have hdef : FileSystem.mkdir s.disk path = s.disk.mkdir path := rfl
    cases hm : s.disk.mkdir path with
    | none => simpa [hostCall, onDisk, hdef, hm] using h
    | some disk =>
      obtain ⟨hcwd, hfiles⟩ := Disk.mkdir_files hm
      simp only [hostCall, onDisk, hdef, hm]
      exact ⟨hcwd.trans h.1, by rw [hfiles]; exact h.2⟩
  | writeFile path content =>
    have hdef : FileSystem.writeFile s.disk path content = s.disk.writeFile path content := rfl
    obtain rfl : path = filePath clientId filename := hc
    cases hm : s.disk.writeFile (filePath clientId filename) content with
    | none => simpa [hostCall, onDisk, hdef, hm] using h
    | some disk =>
      obtain ⟨hcwd, hfile, hother⟩ := Disk.writeFile_files hm
      simp only [hostCall, onDisk, hdef, hm]
      exact touched_of_target hlen h hcwd hfile hother
  | remove path =>
    have hdef : FileSystem.remove s.disk path = s.disk.remove path := rfl
    obtain rfl : path = filePath clientId filename := hc
    cases hm : s.disk.remove (filePath clientId filename) with
    | none => simpa [hostCall, onDisk, hdef, hm] using h
    | some disk =>
      obtain ⟨hcwd, hfile, hother⟩ := Disk.remove_files hm
      simp only [hostCall, onDisk, hdef, hm]
      exact touched_of_target hlen h hcwd hfile hother
  | clientAddFile x path file =>
    simp only [hostCall]
    split <;> exact h
  | clientRemoveFile x path =>
    simp only [hostCall]
    split
    · split_ifs <;> exact h
    · exact h
  | fileMapPop path =>
    simp only [hostCall]
    split_ifs <;> exact h
  | _ => exact h

theorem touched_run (hlen : clientId.length = 16) {A : HostCall → Prop} {α : Type} {p : Proc α}
    (hp : Issues (Within True fun c => A c ∧ AtFile clientId filename c) p) {before : Disk}
    {w : World Disk} (h : Touched clientId filename before w.server.disk) :
    Touched clientId filename before (run (machine E env d) p w).2.server.disk := by
  have hstep : ∀ (c : Call) (w' : World Disk),
      Within True (fun c => A c ∧ AtFile clientId filename c) c →
      Touched clientId filename before w'.server.disk →
      Touched clientId filename before (machine E env d c w').2.server.disk := by
    intro c w' hc hw'
    cases c with
    | recv n => exact hw'
    | send data => exact hw'
    | host c => exact touched_hostCall hlen hc.2 hw'
  exact hp.run_preserves _ hstep h

/-- The request carries the name field and is an upload or a final failure report. -/
def Carries (request : Request) (inbox field : Bytes) : Prop :=
  (request.code = clientCodeSendFile ∧ ∃ owner contentSize,
      unpack fileFormat (inbox.take 275) = some (owner, contentSize, field, ())) ∨
    (request.code = clientCodeCksumErrFinal ∧ inbox.take 255 = field)

variable {request : Request} {payload field : Bytes} {s : Server Disk} {conn : Conn}

theorem handled_touched (hid : s.database.clientExistsById request.clientId = true)
    (hlen : request.clientId.length = 16) (hc : Carries request conn.inbox field)
    (hf : filenameOf E field = some filename) :
    Touched request.clientId filename s.disk
      (handled E env .whole request payload ⟨s, conn⟩).server.disk := by
  have hstart : Touched request.clientId filename s.disk s.disk := ⟨rfl, fun l hl => absurd rfl hl⟩
  rw [handled, run_handleRequest E env .whole (.inr hid), dispatch_eq]
  rcases hc with ⟨hcode, owner, contentSize, hu⟩ | ⟨hcode, hfield⟩
  · have hk : kindOf request.code = .sendFile := by rw [hcode]; rfl
    have hh : uploadHeader E (conn.recv .whole 275).1 = some (contentSize, filename) := by
      rw [recv_whole]
      exact (uploadHeader_eq_some E).mpr ⟨owner, field, hu, hf⟩
    rw [hk]
    simp only
    rw [run_handleFileRequest E env .whole (w := ⟨s, conn⟩) hh]
    exact touched_run hlen ((footprint_processFileContent E request filename _).mono
      (Within.mono fun _ h => h)) hstart
  · have hk : kindOf request.code = .cksumErrFinal := by rw [hcode]; rfl
    have hh : filenameOf E (conn.recv .whole 255).1 = some filename := by
      rw [recv_whole, hfield, hf]
    rw [hk]
    simp only
    rw [run_handleCksumErrFinal_named E env .whole (w := ⟨s, conn⟩) hh]
    have hp : Issues (Within True fun c => True ∧ AtFile request.clientId filename c)
        (do
          deleteFile request.clientId filename
          respond serverCodeMessageReceived request.clientId) :=
      .bind ((footprint_deleteFile request.clientId filename).mono
        (Within.mono fun _ h => ⟨trivial, h.2⟩)) fun _ => within_respond _ _
    exact touched_run hlen hp hstart

theorem handled_undecodable (hid : s.database.clientExistsById request.clientId = true)
    (hc : Carries request conn.inbox field) (hf : filenameOf E field = none) :
    (handled E env .whole request payload ⟨s, conn⟩).server = s := by
  rw [handled, run_handleRequest E env .whole (.inr hid), dispatch_eq]
  rcases hc with ⟨hcode, owner, contentSize, hu⟩ | ⟨hcode, hfield⟩
  · have hk : kindOf request.code = .sendFile := by rw [hcode]; rfl
    have hh : uploadHeader E (conn.recv .whole 275).1 = none := by
      rw [recv_whole]
      simp [uploadHeader, hu, hf]
    rw [hk]
    simp only
    rw [run_handleFileRequest_malformed E env .whole (w := ⟨s, conn⟩) hh]
  · have hk : kindOf request.code = .cksumErrFinal := by rw [hcode]; rfl
    have hh : filenameOf E (conn.recv .whole 255).1 = none := by rw [recv_whole, hfield, hf]
    rw [hk]
    simp only
    rw [run_handleCksumErrFinal_undecodable E env .whole (w := ⟨s, conn⟩) hh]

def onlyFile (cwd l : Location) (h : ¬ l <+: cwd) : Disk where
  cwd := cwd
  files := fun m => if m = l then some [] else none
  dirs := fun m => decide (m <+: cwd ∨ (m <+: l ∧ m ≠ l))
  cwd_dirs := fun m hm => by simp [hm]
  disjoint := by
    intro m hm
    have hne : m ≠ l := by
      rintro rfl
      simp [h] at hm
    simp [hne]
  parents := by
    intro m hm
    have hml : m = l := by
      by_contra hne
      simp [hne] at hm
    have hne : l ≠ [] := by
      rintro rfl
      exact h List.nil_prefix
    subst hml
    have hd : m.dropLast ≠ m := by
      intro he
      have hl := congrArg List.length he
      have hpos := List.length_pos_of_ne_nil hne
      rw [List.length_dropLast] at hl
      omega
    simp [List.dropLast_prefix, hd]

def oneClient (clientId : Bytes) (disk : Disk) : Server Disk :=
  ⟨⟨[⟨clientId, [], none, none, none⟩], []⟩, disk, fun _ => none, fun _ => none⟩

theorem handled_removes (hlen : request.clientId.length = 16)
    (hcode : request.code = clientCodeCksumErrFinal)
    (hf : filenameOf E (conn.inbox.take 255) = some filename) (hnul : nul ∉ filename)
    (hname : namesFile filename = true) {disk : Disk}
    (hfile : (disk.files (walk (clientLocation disk.cwd request.clientId)
      (components filename))).isSome = true) :
    (handled E env .whole request payload ⟨oneClient request.clientId disk, conn⟩).server.disk.files
      (walk (clientLocation disk.cwd request.clientId) (components filename)) = none := by
  have hid : (oneClient request.clientId disk).database.clientExistsById request.clientId = true := by
    simp [oneClient, Database.clientExistsById]
  have hk : kindOf request.code = .cksumErrFinal := by rw [hcode]; rfl
  have hh : filenameOf E (conn.recv .whole 255).1 = some filename := by rw [recv_whole, hf]
  have hnul' : nul ∉ filePath request.clientId filename := mt nul_mem_filePath.mp hnul
  have htarget := resolve_filePath hlen disk.cwd filename
  rw [← htarget] at hfile ⊢
  have hexists : FileSystem.pathExists disk (filePath request.clientId filename) = true := by
    have hdef : FileSystem.pathExists disk (filePath request.clientId filename) =
      disk.pathExists (filePath request.clientId filename) := rfl
    simp [hdef, Disk.pathExists, hnul', Disk.target, hfile, namesFile_filePath, hname]
  have hremove : FileSystem.remove disk (filePath request.clientId filename) =
      disk.remove (filePath request.clientId filename) := rfl
  rw [handled, run_handleRequest E env .whole (.inr hid), dispatch_eq, hk]
  simp only
  rw [run_handleCksumErrFinal_named E env .whole (w := ⟨oneClient _ disk, conn⟩) hh]
  have hnamed : namesFile (filePath request.clientId filename) = true := by
    rw [namesFile_filePath, hname]
  obtain ⟨disk', hrem, hgone⟩ := Disk.remove_isSome hnul' hnamed hfile
  have hcode2 : serverCodeMessageReceived < 65536 := by decide
  simpa [deleteFile, removeStored, forgetOwned, forgetFile, hostCall, oneClient, onDisk, hexists,
    hremove, hrem, run_respond E env .whole hcode2] using hgone

/-- Every file the request touches is a direct child of the client's directory. -/
def Confined (cwd : Location) (clientId : Bytes) (before after : Disk) : Prop :=
  ∀ l, after.files l ≠ before.files l → ∃ name, l = clientLocation cwd clientId ++ [name]

/-- The name cannot be decoded, or no file can be touched under it, or its components lead
from the client's directory to a direct child of it. -/
def StaysInside (E : Externals) (cwd : Location) (clientId field : Bytes) : Prop :=
  ∀ filename, filenameOf E field = some filename →
    Sealed cwd clientId filename ∨ ∃ name,
      walk (clientLocation cwd clientId) (components filename) =
        clientLocation cwd clientId ++ [name]

/-- Uploads and deletions under a name are confined to the client's directory, whatever the
server's state and the content, exactly if the name stays inside. -/
theorem confined_iff (E : Externals) (cwd : Location) {clientId field : Bytes}
    (hlen : clientId.length = 16) (hfield : field.length = 255) :
    (∀ (s : Server Disk) (env : Draws) (request : Request) (payload : Bytes) (conn : Conn),
      s.disk.cwd = cwd → s.database.clientExistsById clientId = true →
      request.clientId = clientId → Carries request conn.inbox field →
      Confined cwd clientId s.disk (handled E env .whole request payload ⟨s, conn⟩).server.disk) ↔
    StaysInside E cwd clientId field := by
  constructor
  · intro h filename hf
    by_contra hout
    rw [not_or] at hout
    obtain ⟨hseal, hchild⟩ := hout
    simp only [Sealed, not_or] at hseal
    obtain ⟨hnul, hname, hcwd⟩ := hseal
    have hname' : namesFile filename = true := by simpa using hname
    have hcarries : Carries ⟨clientId, 3, clientCodeCksumErrFinal, 0⟩ field field :=
      .inr ⟨rfl, List.take_of_length_le (by omega)⟩
    have htake : (⟨field, 0, [], []⟩ : Conn).inbox.take 255 = field :=
      List.take_of_length_le (by simp [hfield])
    have hgone : (handled E (constantDraws 0) .whole ⟨clientId, 3, clientCodeCksumErrFinal, 0⟩ []
        ⟨oneClient clientId (onlyFile cwd _ hcwd), ⟨field, 0, [], []⟩⟩).server.disk.files
        (walk (clientLocation cwd clientId) (components filename)) = none :=
      handled_removes hlen rfl (by rw [htake, hf]) hnul hname' (by simp [onlyFile])
    apply hchild
    apply h (oneClient clientId (onlyFile cwd _ hcwd)) (constantDraws 0)
      ⟨clientId, 3, clientCodeCksumErrFinal, 0⟩ [] ⟨field, 0, [], []⟩ rfl
      (by simp [oneClient, Database.clientExistsById]) rfl hcarries
    rw [hgone]
    simp [oneClient, onlyFile]
  · intro h s env request payload conn hcwd hid hreq hc l hl
    subst hreq
    cases hf : filenameOf E field with
    | none =>
      rw [handled_undecodable hid hc hf] at hl
      exact absurd rfl hl
    | some filename =>
      have htouched : Touched request.clientId filename s.disk
          (handled E env .whole request payload ⟨s, conn⟩).server.disk :=
        handled_touched hid hlen hc hf
      obtain ⟨hseal, hwhere⟩ := htouched.2 l hl
      rw [hcwd] at hseal hwhere
      rcases h filename hf with hs | ⟨name, hname⟩
      · exact absurd hs hseal
      · exact ⟨name, hwhere.trans hname⟩

theorem confined_iff_plain :
    (∀ (s : Server Disk) (env : Draws) (request : Request) (payload : Bytes) (conn : Conn),
      s.disk.cwd = [['s']] → s.database.clientExistsById (List.replicate 16 1) = true →
      request.clientId = List.replicate 16 1 → Carries request conn.inbox (padField 255 ['f']) →
      Confined [['s']] (List.replicate 16 1) s.disk
        (handled plainCiphers env .whole request payload ⟨s, conn⟩).server.disk) ↔
    StaysInside plainCiphers [['s']] (List.replicate 16 1) (padField 255 ['f']) :=
  confined_iff plainCiphers [['s']] List.length_replicate (length_padField (by decide))

/-- The name `..\<hex id of the other client>\f`. -/
def intruding : Str := dotdot ++ backslash :: (hex (List.replicate 16 2) ++ backslash :: ['f'])

def othersFile : Location := clientLocation [['s']] (List.replicate 16 2) ++ [['f']]

def othersDisk : Disk := onlyFile [['s']] othersFile (by decide)

def intrudingRequest : Request := ⟨List.replicate 16 1, 3, clientCodeCksumErrFinal, 0⟩

def intrudingConn : Conn := ⟨padField 255 intruding, 0, [], []⟩

/-- The client of ones reports the final failure of a name that leads into the directory of
the client of twos: that client's file is deleted. -/
theorem intruding_name_deletes :
    let s := oneClient intrudingRequest.clientId othersDisk
    let s' := (handled plainCiphers (constantDraws 0) .whole intrudingRequest []
      ⟨s, intrudingConn⟩).server
    Carries intrudingRequest intrudingConn.inbox (padField 255 intruding) ∧
      s.disk.files othersFile = some [] ∧ s'.disk.files othersFile = none ∧
      ¬ Confined [['s']] intrudingRequest.clientId s.disk s'.disk := by
  have hwalk : walk (clientLocation othersDisk.cwd intrudingRequest.clientId)
      (components intruding) = othersFile := by decide
  have htake : intrudingConn.inbox.take 255 = padField 255 intruding :=
    List.take_of_length_le (length_padField (n := 255) (s := intruding) (by decide)).le
  have hf : filenameOf plainCiphers (intrudingConn.inbox.take 255) = some intruding := by
    rw [htake, filenameOf_padField _ (by decide)]
    decide
  have hnul : nul ∉ intruding := by decide
  have hgone := @handled_removes plainCiphers (constantDraws 0) intruding intrudingRequest []
    intrudingConn List.length_replicate rfl hf hnul (by decide) othersDisk (by rw [hwalk]; rfl)
  rw [hwalk] at hgone
  have hthere : othersDisk.files othersFile = some [] := by simp [othersDisk, onlyFile]
  refine ⟨.inr ⟨rfl, htake⟩, hthere, hgone, ?_⟩
  intro hconf
  have hne : (none : Option Bytes) ≠ some [] := by simp
  have hchanged : ¬ (none : Option Bytes) = othersDisk.files othersFile := by
    rw [hthere]
    exact hne
  obtain ⟨name, hname⟩ := hconf othersFile (by rw [hgone]; exact hchanged)
  exact absurd (List.append_inj' hname rfl).1 (by decide)

end EncryptedTransfer.DiskConfinement
