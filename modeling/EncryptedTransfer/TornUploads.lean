import EncryptedTransfer.KeyExchange
import EncryptedTransfer.StreamFraming

/-!
# Uploads that fail

An upload overwrites the old file in place, then the maps, then the row. Where a call of the disk or
of the database fails on the way, what is left behind.
-/
namespace EncryptedTransfer.TornUploads
open ByteFormats Text ServerStores ServerCalls ServerHandlers ServerConsistency ServerEffects
open ServerFootprints ServerRuns KeyedTable CryptoLaws FaultyDatabase GateFailures KeyExchange
open StreamFraming
open Interaction Program

/-- What becomes of the `open` and the `write` of the file. -/
inductive Writing where
  | works
  | closed
  | stops (n : ℕ)
  deriving DecidableEq

/-- Which calls fail while a request is handled. -/
structure Trouble where
  outcomes : HostCall → Outcome
  mkdirFails : Str → Bool
  writing : Writing
  readFails : Bool

/-- A file that could be opened and of which only the first bytes were written. -/
def cutWrite (disk : KeyedDisk) (path : Str) (content : Bytes) (n : ℕ) : KeyedDisk :=
  (disk.writeFile path (content.take n)).getD disk

namespace Trouble

def none : Trouble := ⟨fun _ => .works, fun _ => false, .works, false⟩

/-- What a call does in place of its work. -/
def strikes (t : Trouble) : Disturbance calls PyError (World KeyedDisk)
  | .host (.mkdir path) =>
    if t.mkdirFails path then some (fun w => (.error .osError, w)) else .none
  | .host (.writeFile path content) =>
    match t.writing with
    | .works => .none
    | .closed => some (fun w => (.error .osError, w))
    | .stops n => some (fun w => (.error .osError,
        { w with server := { w.server with disk := cutWrite w.server.disk path content n } }))
  | .host (.readFile _) => if t.readFails then some (fun w => (.error .osError, w)) else .none
  | c => failure (fun _ => t.outcomes) 0 c

end Trouble

variable (E : Externals) (env : Draws) (d : Delivery) (t : Trouble)

def troubledMachine : Machine calls PyError (World KeyedDisk × ℕ) :=
  disturbed (machine E env d) (fun _ => false) (fun _ => t.strikes)

def troubledHandled (request : Request) (payload : Bytes) (w : World KeyedDisk) :
    World KeyedDisk :=
  (run (troubledMachine E env d t) (handleRequest E request payload) (w, 0)).2.1

def troubledRestarted (s : Server KeyedDisk) (conn : Conn) : World KeyedDisk :=
  (run (troubledMachine E env d t) loadDataFromDatabase
    (⟨{ s with clientMap := fun _ => .none, fileMap := fun _ => .none }, conn⟩, 0)).2.1

/-- Runs from empty stores, whatever fails. -/
inductive TroubledRun (E : Externals) : Server KeyedDisk → Prop
  | start : TroubledRun E .empty
  | request {s : Server KeyedDisk} (env : Draws) (d : Delivery) (t : Trouble) (request : Request)
      (payload : Bytes) (conn : Conn) (h : TroubledRun E s) :
      TroubledRun E (troubledHandled E env d t request payload ⟨s, conn⟩).server
  | restart {s : Server KeyedDisk} (env : Draws) (d : Delivery) (t : Trouble) (conn : Conn)
      (h : TroubledRun E s) : TroubledRun E (troubledRestarted E env d t s conn).server

section Calls

variable (w : World KeyedDisk) (n : ℕ)

@[simp] theorem run_troubled_recv (k : ℕ) : run (troubledMachine E env d t) (recv k) (w, n) =
    (.ok (w.conn.recv d k).1, ({ w with conn := (w.conn.recv d k).2 }, n)) := rfl

@[simp] theorem run_troubled_send (data : Bytes) :
    run (troubledMachine E env d t) (send data) (w, n) =
      (.ok (), ({ w with conn := w.conn.push data }, n)) := rfl

theorem troubled_calm {c : HostCall} (h : t.strikes (.host c) = .none) :
    troubledMachine E env d t (.host c) (w, n) =
      ((hostCall E env c w.server).1, ({ w with server := (hostCall E env c w.server).2 }, n)) := by
  have hcalm : (fun _ => t.strikes : ℕ → Disturbance calls PyError (World KeyedDisk)) n (.host c) =
    .none := h
  rw [troubledMachine, disturbed_calm _ hcalm]
  rfl

theorem troubled_struck {c : HostCall}
    {f : World KeyedDisk → Except PyError c.Answer × World KeyedDisk}
    (h : t.strikes (.host c) = some f) :
    troubledMachine E env d t (.host c) (w, n) = ((f w).1, ((f w).2, n)) := by
  have hstruck : (fun _ => t.strikes : ℕ → Disturbance calls PyError (World KeyedDisk)) n (.host c) =
    some f := h
  rw [troubledMachine, disturbed_struck _ hstruck]
  rfl

theorem troubled_method {c : HostCall} {a : c.Answer} (h : swallowed (.host c) = some a) :
    troubledMachine E env d t (.host c) (w, n) =
      match t.outcomes c with
      | .works => ((hostCall E env c w.server).1,
          ({ w with server := (hostCall E env c w.server).2 }, n))
      | .prints => (.ok a, (w, n))
      | .raises => (.error .attributeError, (w, n)) := by
  have hf : t.strikes (.host c) = failure (fun _ => t.outcomes) 0 (.host c) := by
    cases c <;> first | rfl | cases h
  simp only [GateFailures.failure, h, Option.bind_some] at hf
  cases ho : t.outcomes c with
  | works =>
    rw [ho] at hf
    exact troubled_calm E env d t w n hf
  | prints =>
    rw [ho] at hf
    exact troubled_struck E env d t w n hf
  | raises =>
    rw [ho] at hf
    exact troubled_struck E env d t w n hf

theorem troubled_preserves {α : Type} {A : HostCall → Prop} {p : Proc α}
    (hp : Issues (Within True A) p) {P : Server KeyedDisk → Prop}
    (hA : ∀ c s, A c → P s → P (hostCall E env c s).2)
    (hcut : ∀ s path content n, P s → P { s with disk := cutWrite s.disk path content n })
    {w : World KeyedDisk} {n : ℕ} (hw : P w.server) :
    P (run (troubledMachine E env d t) p (w, n)).2.1.server := by
  refine hp.run_preserves _ (P := fun s : World KeyedDisk × ℕ => P s.1.server) ?_ hw
  rintro c ⟨w, n⟩ hc hw
  cases c with
  | host c =>
    cases hs : t.strikes (.host c) with
    | none =>
      rw [troubled_calm E env d t w n hs]
      exact hA c w.server hc hw
    | some f =>
      rw [troubled_struck E env d t w n hs]
      -- only a cut write changes anything
      have hf : (f w).2.server = w.server ∨ ∃ path content n, (f w).2.server =
          { w.server with disk := cutWrite w.server.disk path content n } := by
        cases c with
        | mkdir path =>
          simp only [Trouble.strikes, Option.ite_none_right_eq_some, Option.some.injEq] at hs
          rw [← hs.2]
          exact .inl rfl
        | readFile path =>
          simp only [Trouble.strikes, Option.ite_none_right_eq_some, Option.some.injEq] at hs
          rw [← hs.2]
          exact .inl rfl
        | writeFile path content =>
          simp only [Trouble.strikes] at hs
          split at hs
          · cases hs
          · rw [← Option.some.inj hs]
            exact .inl rfl
          · rename_i k _
            rw [← Option.some.inj hs]
            exact .inr ⟨path, content, k, rfl⟩
        | _ =>
          simp only [Trouble.strikes, GateFailures.failure, Option.bind_eq_some_iff] at hs
          obtain ⟨a, _, hs⟩ := hs
          split at hs
          · cases hs
          · rw [← Option.some.inj hs]
            exact .inl rfl
          · rw [← Option.some.inj hs]
            exact .inl rfl
      rcases hf with hsame | ⟨path, content, k, hcutted⟩
      · exact hsame ▸ hw
      · exact hcutted ▸ hcut w.server path content k hw
  | _ => exact hw

end Calls

/-- The conditions on the stores no failure breaks. -/
structure Sane (s : Server KeyedDisk) : Prop where
  keyed : Keyed s.database
  uniquePaths : Unique FileRow.pathname s.database.files
  dirs : ∀ p, s.disk.dirs p = true → p = filesDir ∨ ∃ clientId, p = clientDir clientId

/-- The calls that keep them. -/
def Regular : HostCall → Prop
  | .insertNewClient _ clientId => clientId.length = 16
  | .insertFileDetails clientId filename pathname _ => pathname = filePath clientId filename
  | .mkdir path => path = filesDir ∨ ∃ clientId, path = clientDir clientId
  | _ => True

namespace Sane

variable {s : Server KeyedDisk} (h : Sane s)
include h

theorem onDisk {r : Option KeyedDisk} (hr : ∀ disk, r = some disk →
      ∀ p, disk.dirs p = true → p = filesDir ∨ ∃ clientId, p = clientDir clientId) :
    Sane (onDisk s r).2 := by
  cases r with
  | none => exact h
  | some disk => exact ⟨h.keyed, h.uniquePaths, hr disk rfl⟩

theorem hostCall {c : HostCall} (hc : Regular c) : Sane (hostCall E env c s).2 := by
  cases c with
  | insertNewClient clientName clientId =>
    refine ⟨h.keyed.insertNewClient env.now clientName hc, ?_, h.dirs⟩
    simp only [ServerCalls.hostCall, Database.insertNewClient]
    split_ifs <;> exact h.uniquePaths
  | insertKeysOfClient clientName publicKey aesKey =>
    exact ⟨h.keyed.retouched (retouched_insertKeysOfClient _ _ _ _ _) h.keyed.pathname,
      h.uniquePaths, h.dirs⟩
  | insertFileDetails clientId filename pathname verified =>
    obtain rfl := hc
    refine ⟨h.keyed.insertFileDetails env.now clientId filename verified, ?_, h.dirs⟩
    cases hrow : rows s.database (filePath clientId filename) with
    | none =>
      simp only [ServerCalls.hostCall, insertFileDetails_files hrow]
      exact h.uniquePaths.append hrow
    | some row =>
      have hknown : s.database.fileExists clientId filename = true := by
        rw [Pathed.fileExists_eq h.keyed.pathname, hrow, Option.isSome_some]
      simp only [ServerCalls.hostCall, h.keyed.insertFileDetails_known hknown]
      exact h.uniquePaths
  | updateCksumVerification clientId filename verified =>
    refine ⟨h.keyed.updateCksumVerification env.now clientId filename verified, ?_, h.dirs⟩
    refine h.uniquePaths.map fun row => ?_
    split_ifs <;> rfl
  | deleteFileOfClient clientId filename =>
    exact ⟨h.keyed.deleteFileOfClient env.now clientId filename, h.uniquePaths.filter _, h.dirs⟩
  | mkdir path =>
    apply h.onDisk
    intro disk hdisk p hp
    have hmade : s.disk.mkdir path = some disk := hdisk
    unfold KeyedDisk.mkdir at hmade
    split_ifs at hmade
    obtain rfl := Option.some.inj hmade
    by_cases he : p = path
    · exact he ▸ hc
    · have hold : s.disk.dirs p = true := by simpa [he] using hp
      exact h.dirs p hold
  | writeFile path content =>
    apply h.onDisk
    intro disk hdisk
    have hwritten : s.disk.writeFile path content = some disk := hdisk
    unfold KeyedDisk.writeFile at hwritten
    split_ifs at hwritten
    obtain rfl := Option.some.inj hwritten
    exact h.dirs
  | remove path =>
    apply h.onDisk
    intro disk hdisk
    have hremoved : s.disk.remove path = some disk := hdisk
    unfold KeyedDisk.remove at hremoved
    split_ifs at hremoved
    obtain rfl := Option.some.inj hremoved
    exact h.dirs
  | clientAddFile clientId filePath file | fileMapPop filePath =>
    simp only [ServerCalls.hostCall]
    split <;> exact ⟨h.keyed, h.uniquePaths, h.dirs⟩
  | clientRemoveFile clientId filePath =>
    simp only [ServerCalls.hostCall]
    split
    · split_ifs <;> exact ⟨h.keyed, h.uniquePaths, h.dirs⟩
    · exact h
  | _ => exact ⟨h.keyed, h.uniquePaths, h.dirs⟩

theorem cutWrite (path : Str) (content : Bytes) (n : ℕ) :
    Sane { s with disk := cutWrite s.disk path content n } := by
  refine ⟨h.keyed, h.uniquePaths, ?_⟩
  unfold TornUploads.cutWrite KeyedDisk.writeFile
  split_ifs <;> exact h.dirs

end Sane

section Runs

variable {request : Request} {payload : Bytes}

theorem regular_register : Issues (Within True Regular) (handleClientRegistration payload) := by
  apply within_guarded
  refine .bind (.ofOption _ _) fun clientName => .bind (within_host trivial) fun found => ?_
  split_ifs
  · exact within_respond _ _
  refine .bind (within_host trivial) fun clientId => ?_
  refine Obeys.bind (Obeys.ofOption (fun response hr => ?_) trivial)
  have hid : response.clientId.length = 16 := by
    unfold Response.new at hr
    split_ifs at hr
    rw [← Option.some.inj hr]
    exact uuidField_length clientId
  refine Issues.bind (within_host trivial) fun _ => .bind (within_host hid) fun _ => ?_
  exact .bind (.ofOption _ _) fun data => within_send _

theorem regular_handleFileRequest :
    Issues (Within True Regular) (handleFileRequest E request) := by
  apply within_guarded
  refine .bind (within_recv _) fun fileData => ?_
  split_ifs
  · refine .bind (.ofOption _ _) fun fields => .bind (within_readFilename E _) fun filename => ?_
    refine .bind (within_recv _) fun encrypted => ?_
    apply (footprint_processFileContent E request _ _).mono
    apply Within.mono
    rintro c ⟨hfoot, hat⟩
    cases c with
    | insertNewClient clientName clientId => exact hfoot.elim
    | insertFileDetails clientId filename pathname verified => exact hfoot.1
    | mkdir path => exact hat.imp id fun hp => ⟨_, hp⟩
    | _ => trivial
  · exact within_pure _

theorem regular_handleRequest :
    Issues (Within True Regular) (handleRequest E request payload) := by
  have hgate : Issues (Within True Regular) (turnedAway request) := by
    apply Issues.attempt _ fun _ => within_pure _
    split_ifs
    · exact within_pure _
    · exact .bind (within_host trivial) fun found => within_pure _
  refine .bind hgate fun away => ?_
  split_ifs
  · exact within_guarded (within_respond _ _)
  rw [dispatch_eq]
  have hrest {k : Kind} {A : Prop} {p : Proc Unit} (hp : Issues (Within A (Footprint k)) p)
      (hr : k ≠ .register) (hf : k ≠ .sendFile) : Issues (Within True Regular) p := by
    apply hp.mono
    apply Within.mono
    intro c hc
    cases c with
    | insertNewClient | insertFileDetails | mkdir =>
      cases k with
      | register => exact absurd rfl hr
      | sendFile => exact absurd rfl hf
      | _ => cases hc
    | _ => trivial
  cases kindOf request.code with
  | register => exact regular_register
  | sendFile => exact regular_handleFileRequest E
  | sendPublicKey =>
    exact hrest (footprint_sendAesKeyToClient E request payload) (by decide) (by decide)
  | cksumOk => exact hrest (footprint_handleCksumOk E request) (by decide) (by decide)
  | cksumErr => exact hrest (footprint_handleCksumErr request) (by decide) (by decide)
  | cksumErrFinal => exact hrest (footprint_handleCksumErrFinal E request) (by decide) (by decide)
  | unknown => exact within_pure ()

theorem TroubledRun.sane {E : Externals} {s : Server KeyedDisk} (h : TroubledRun E s) : Sane s := by
  induction h with
  | start =>
    have hempty : Keyed Database.empty := 
      ⟨fun row hrow => (nomatch hrow), fun row hrow => (nomatch hrow)⟩
    exact ⟨hempty, unique_nil, fun p hp => nomatch hp⟩
  | @request s env d t request payload conn _ ih =>
    refine troubled_preserves E env d t (regular_handleRequest E) (P := Sane) ?_ ?_
      (w := ⟨s, conn⟩) ih
    · exact fun c s hc hs => hs.hostCall E env hc
    · exact fun s path content n hs => hs.cutWrite path content n
  | @restart s env d t conn _ ih =>
    have hcleared : Sane { s with clientMap := fun _ => none, fileMap := fun _ => none } :=
      ⟨ih.keyed, ih.uniquePaths, ih.dirs⟩
    refine troubled_preserves E env d t loads_loadDataFromDatabase (P := Sane) ?_ ?_
      (w := ⟨_, conn⟩) hcleared
    · intro c s hc hs
      apply hs.hostCall E env
      cases c <;> trivial
    · exact fun s path content n hs => hs.cutWrite path content n

theorem TroubledRun.ofRun {E : Externals} {s : Server KeyedDisk}
    {acts : List (FileLedger.Act (Bytes × Str) Bytes)} (h : Run E s acts) : TroubledRun E s := by
  have hnever (_ : ℕ) (c : Call) : Trouble.none.strikes c = none := by
    cases c with
    | host c => cases c <;> rfl
    | _ => rfl
  induction h with
  | start => exact .start
  | @request s acts env request payload conn h fresh ih =>
    have hrun := run_disturbed_never (machine E env .whole) (fun _ => false) hnever
      (handleRequest E request payload) (⟨s, conn⟩, 0)
    have hstep := ih.request env .whole .none request payload conn
    rwa [troubledHandled, troubledMachine, hrun.2] at hstep
  | @restart s acts env conn h ih =>
    have hrun := run_disturbed_never (machine E env .whole) (fun _ => false) hnever
      loadDataFromDatabase
      (⟨{ s with clientMap := fun _ => none, fileMap := fun _ => none }, conn⟩, 0)
    have hstep := ih.restart env .whole .none conn
    rwa [troubledRestarted, troubledMachine, hrun.2] at hstep

end Runs

section Stages

variable (w : World KeyedDisk) (n : ℕ) {request : Request} {clientId : Bytes} {filename : Str}
  {content : Bytes}

theorem run_troubled_turnedAway (request : Request) (hc : request.code ≠ clientCodeRegister) :
    run (troubledMachine E env d t) (turnedAway request) (w, n) =
      (.ok (!letsPass (fun _ => t.outcomes) w.server.database request.clientId), (w, n)) := by
  have hgate := troubled_method E env d t w n (c := .clientExistsById request.clientId) rfl
  cases ho : t.outcomes (.clientExistsById request.clientId) <;> rw [ho] at hgate <;>
    simp [turnedAway, hc, hgate, hostCall, letsPass, ho]

@[simp] theorem run_troubled_getClientName {α : Type} (clientId : Bytes) (p : Proc α) :
    run (troubledMachine E env d t) (host (.getClientName clientId) >>= fun _ => p) (w, n) =
      if t.outcomes (.getClientName clientId) = .raises then (.error .attributeError, (w, n))
      else run (troubledMachine E env d t) p (w, n) := by
  have hname := troubled_method E env d t w n (c := .getClientName clientId) rfl
  cases ho : t.outcomes (.getClientName clientId) <;> simp [hname, ho, hostCall]

/-- Whether the content of an upload is found out: its key is read, and opens it. -/
def Opens (db : Database) (clientId encrypted content : Bytes) : Prop :=
  t.outcomes (.getClientName clientId) ≠ .raises ∧
    t.outcomes (.getAesKeyOfClient clientId) = .works ∧
    contentOf E db clientId encrypted = some content

theorem run_troubled_opened {encrypted : Bytes}
    (h : Opens E t w.server.database request.clientId encrypted content) :
    (run (troubledMachine E env d t) (processFileContent E request filename encrypted)
        (w, n)).2 =
      (run (troubledMachine E env d t) (keepContent request.clientId filename content)
        (w, n)).2 := by
  obtain ⟨hname, hworks, hcontent⟩ := h
  obtain ⟨aesKey, padded, haes, hdec, hunpad⟩ := (contentOf_eq_some E).mp hcontent
  have hkey := troubled_method E env d t w n (c := .getAesKeyOfClient request.clientId) rfl
  rw [processFileContent, run_guarded, run_troubled_getClientName, if_neg hname]
  simp [hkey, hworks, hostCall, haes, hdec, hunpad, keepContent]

theorem run_troubled_unopened {encrypted : Bytes}
    (h : ∀ content, ¬ Opens E t w.server.database request.clientId encrypted content) :
    (run (troubledMachine E env d t) (processFileContent E request filename encrypted)
        (w, n)).2 = (w, n) := by
  have hkey := troubled_method E env d t w n (c := .getAesKeyOfClient request.clientId) rfl
  rw [processFileContent, run_guarded, run_troubled_getClientName]
  split_ifs with hname
  · rfl
  cases ho : t.outcomes (.getAesKeyOfClient request.clientId) with
  | prints | raises => simp [hkey, ho]
  | works =>
    cases hcontent : contentOf E w.server.database request.clientId encrypted with
    | some content => exact absurd ⟨hname, ho, hcontent⟩ (h content)
    | none =>
      rcases contentOf_eq_none E hcontent with haes | ⟨aesKey, haes, hdec⟩ |
        ⟨aesKey, padded, haes, hdec, hunpad⟩
      · simp [hkey, ho, hostCall, haes]
      · simp [hkey, ho, hostCall, haes, hdec]
      · simp [hkey, ho, hostCall, haes, hdec, hunpad]

def Makes (disk : KeyedDisk) (dirName : Str) : Prop :=
  disk.pathExists dirName = true ∨ t.mkdirFails dirName = false

instance (disk : KeyedDisk) (dirName : Str) : Decidable (Makes t disk dirName) :=
  inferInstanceAs (Decidable (_ ∨ _))

theorem run_troubled_makeDir (dirName : Str) (hn : nul ∉ dirName) :
    ∃ dirs, (∀ p, dirs p = true → w.server.disk.dirs p = true ∨ p = dirName) ∧
      (∀ p, p ≠ dirName → dirs p = w.server.disk.dirs p) ∧
      (run (troubledMachine E env d t) (makeDir dirName) (w, n)).2 =
        ({ w with server := { w.server with disk := ⟨w.server.disk.files, dirs⟩ } }, n) ∧
      ((run (troubledMachine E env d t) (makeDir dirName) (w, n)).1 = .ok () ∧
          Makes t w.server.disk dirName ∨
        (run (troubledMachine E env d t) (makeDir dirName) (w, n)).1 = .error .osError ∧
          ¬ Makes t w.server.disk dirName) := by
  have hexists := troubled_calm E env d t w n (c := .pathExists dirName) rfl
  have hsame : (FileSystem.pathExists w.server.disk dirName) = w.server.disk.pathExists dirName :=
    rfl
  cases hp : w.server.disk.pathExists dirName with
  | true =>
    refine ⟨w.server.disk.dirs, fun p => .inl, fun p _ => rfl, ?_, .inl ⟨?_, .inl hp⟩⟩ <;>
      simp [makeDir, hexists, hostCall, hsame, hp]
  | false =>
    cases hf : t.mkdirFails dirName with
    | true =>
      have hmkdir := troubled_struck E env d t w n (c := .mkdir dirName) (if_pos hf)
      refine ⟨w.server.disk.dirs, fun p => .inl, fun p _ => rfl, ?_, .inr ⟨?_, ?_⟩⟩
      · simp [makeDir, hexists, hostCall, hsame, hp, hmkdir]
      · simp [makeDir, hexists, hostCall, hsame, hp, hmkdir]
      · simp [Makes, hp, hf]
    | false =>
      have hmkdir := troubled_calm E env d t w n (c := .mkdir dirName) (by simp [Trouble.strikes, hf])
      have hmade : FileSystem.mkdir w.server.disk dirName =
          some { w.server.disk with dirs := Function.update w.server.disk.dirs dirName true } := by
        show w.server.disk.mkdir dirName = _
        rw [KeyedDisk.mkdir, if_neg (by simp [hn, hp])]
      refine ⟨Function.update w.server.disk.dirs dirName true, ?_, ?_, ?_, .inl ⟨?_, .inr hf⟩⟩
      · intro p hdir
        by_cases he : p = dirName
        · exact .inr he
        · exact .inl (by rwa [Function.update_of_ne he] at hdir)
      · exact fun p he => Function.update_of_ne he ..
      · simp [makeDir, hexists, hostCall, hsame, hp, hmkdir, hmade, onDisk]
      · simp [makeDir, hexists, hostCall, hsame, hp, hmkdir, hmade, onDisk]

theorem run_troubled_makeDirs (clientId : Bytes) (p : Proc Unit) :
    ∃ disk : KeyedDisk, disk.files = w.server.disk.files ∧
      (∀ clientId filename, disk.dirs (filePath clientId filename) =
        w.server.disk.dirs (filePath clientId filename)) ∧
      (run (troubledMachine E env d t) (do
        makeDir filesDir
        makeDir (clientDir clientId)
        p) (w, n)).2 =
      if Makes t w.server.disk filesDir ∧ Makes t w.server.disk (clientDir clientId) then
        (run (troubledMachine E env d t) p
          ({ w with server := { w.server with disk := disk } }, n)).2
      else ({ w with server := { w.server with disk := disk } }, n) := by
  obtain ⟨dirs, -, hother, hserver, hanswer⟩ := run_troubled_makeDir E env d t w n
    filesDir (by decide)
  have hfiles (x : Bytes) (f : Str) : dirs (filePath x f) = w.server.disk.dirs (filePath x f) :=
    hother _ (filePath_ne_filesDir x f)
  rcases hanswer with ⟨hok, hmade⟩ | ⟨herror, hnot⟩
  · obtain ⟨dirs', -, hother', hserver', hanswer'⟩ := run_troubled_makeDir E env d t
      { w with server := { w.server with disk := ⟨w.server.disk.files, dirs⟩ } } n
      (clientDir clientId) (nul_notMem_clientDir clientId)
    have hpath (x : Bytes) (f : Str) :
        dirs' (filePath x f) = w.server.disk.dirs (filePath x f) :=
      (hother' _ (filePath_ne_clientDir x clientId f)).trans (hfiles x f)
    have hsame : Makes t ⟨w.server.disk.files, dirs⟩ (clientDir clientId) ↔
        Makes t w.server.disk (clientDir clientId) := by
      simp only [Makes, KeyedDisk.pathExists, hother _ (clientDir_ne_filesDir clientId)]
    refine ⟨⟨w.server.disk.files, dirs'⟩, rfl, hpath, ?_⟩
    rw [run_bind, ← Prod.eta (run _ (makeDir filesDir) (w, n)), hok, andThen_ok, hserver, run_bind,
      ← Prod.eta (run _ (makeDir (clientDir clientId)) _), hserver']
    rcases hanswer' with ⟨hok', hmade'⟩ | ⟨herror', hnot'⟩
    · rw [hok', andThen_ok, if_pos ⟨hmade, hsame.mp hmade'⟩]
    · rw [herror', andThen_error, if_neg fun h => hnot' (hsame.mpr h.2)]
  · refine ⟨⟨w.server.disk.files, dirs⟩, rfl, hfiles, ?_⟩
    rw [run_bind, ← Prod.eta (run _ (makeDir filesDir) (w, n)), herror, andThen_error, hserver,
      if_neg fun h => hnot h.1]

def newRow (clientId : Bytes) (filename : Str) : FileRow :=
  ⟨clientId, filename, filePath clientId filename, false⟩

def recording (db : Database) (clientId : Bytes) (filename : Str) : HostCall :=
  if t.outcomes (.fileExists clientId filename) = .works ∧
      db.fileExists clientId filename = true then
    .updateCksumVerification clientId filename false
  else .insertFileDetails clientId filename (filePath clientId filename) false

/-- Whether it does: a file that is taken for an unknown one cannot be inserted again. -/
def Records (db : Database) (clientId : Bytes) (filename : Str) : Prop :=
  t.outcomes (.fileExists clientId filename) ≠ .raises ∧
    t.outcomes (recording t db clientId filename) = .works ∧
    (t.outcomes (.fileExists clientId filename) = .works ∨
      rows db (filePath clientId filename) = none)

instance (db : Database) (clientId : Bytes) (filename : Str) :
    Decidable (Records t db clientId filename) :=
  inferInstanceAs (Decidable (_ ∧ _ ∧ _))

theorem rows_recording {s : Server KeyedDisk} (h : Keyed s.database) (clientId : Bytes)
    (filename : Str) :
    rows (hostCall E env (recording t s.database clientId filename) s).2.database
        (filePath clientId filename) =
      if t.outcomes (.fileExists clientId filename) = .works ∨
          rows s.database (filePath clientId filename) = none then some (newRow clientId filename)
      else rows s.database (filePath clientId filename) := by
  have hknown := Pathed.fileExists_eq h.pathname clientId filename
  cases hrow : rows s.database (filePath clientId filename) with
  | none =>
    rw [hrow, Option.isSome_none] at hknown
    rw [recording, if_neg (by simp [hknown]), if_pos (.inr rfl)]
    simp only [hostCall, rows_insertFileDetails hrow, Function.update_self, newRow]
  | some row =>
    rw [hrow, Option.isSome_some] at hknown
    by_cases hw : t.outcomes (.fileExists clientId filename) = .works
    · obtain ⟨hid, hname⟩ := Pathed.row_of_path h.pathname hrow
      have hpath := (lookup_some hrow).2
      rw [recording, if_pos ⟨hw, hknown⟩, if_pos (.inl hw)]
      simp only [hostCall, Pathed.rows_updateCksumVerification h.pathname, hrow,
        Option.map_some, setVerified, hpath, ↓reduceIte, newRow, Option.some.injEq]
      rw [← hid, ← hname, ← h.pathname row (lookup_some hrow).1]
    · rw [recording, if_neg fun hboth => hw hboth.1, if_neg (by simp [hw])]
      simp only [hostCall, h.insertFileDetails_known hknown, hrow]

theorem run_troubled_recordFile (clientId : Bytes) (filename : Str) (p : Proc Unit) :
    run (troubledMachine E env d t)
        (recordFile clientId filename (filePath clientId filename) >>= fun _ => p) (w, n) =
      if t.outcomes (.fileExists clientId filename) = .raises then (.error .attributeError, (w, n))
      else match t.outcomes (recording t w.server.database clientId filename) with
      | .works => run (troubledMachine E env d t) p ({ w with server :=
          (hostCall E env (recording t w.server.database clientId filename) w.server).2 }, n)
      | .prints => run (troubledMachine E env d t) p (w, n)
      | .raises => (.error .attributeError, (w, n)) := by
  have hexists := troubled_method E env d t w n (c := .fileExists clientId filename) rfl
  have hupdate := troubled_method E env d t w n
    (c := .updateCksumVerification clientId filename false) rfl
  have hinsert := troubled_method E env d t w n
    (c := .insertFileDetails clientId filename (filePath clientId filename) false) rfl
  cases ho : t.outcomes (.fileExists clientId filename) with
  | raises => simp [recordFile, hexists, ho]
  | prints =>
    have hrecord : recording t w.server.database clientId filename =
        .insertFileDetails clientId filename (filePath clientId filename) false :=
      if_neg (by simp [ho])
    rw [hrecord]
    cases hi : t.outcomes
        (.insertFileDetails clientId filename (filePath clientId filename) false) <;>
      simp [recordFile, hexists, ho, hinsert, hi, hostCall]
  | works =>
    cases hf : w.server.database.fileExists clientId filename with
    | false =>
      have hrecord : recording t w.server.database clientId filename =
          .insertFileDetails clientId filename (filePath clientId filename) false :=
        if_neg (by simp [hf])
      rw [hrecord]
      cases hi : t.outcomes
          (.insertFileDetails clientId filename (filePath clientId filename) false) <;>
        simp [recordFile, hexists, ho, hf, hinsert, hi, hostCall]
    | true =>
      have hrecord : recording t w.server.database clientId filename =
          .updateCksumVerification clientId filename false := if_pos ⟨ho, hf⟩
      rw [hrecord]
      cases hu : t.outcomes (.updateCksumVerification clientId filename false) <;>
        simp [recordFile, hexists, ho, hf, hupdate, hu, hostCall]

/-- What an upload does once its content is on the disk. -/
def recordContent (clientId : Bytes) (filename : Str) (content : Bytes) : Proc Unit := do
  let path := filePath clientId filename
  let file := File.new clientId filename path
  host (.fileMapPut path file)
  host (.clientAddFile clientId path file)
  let stored ← host (.readFile path)
  let cksum ← ofOption .indexError (Cksum.Server.cksumCalc stored)
  recordFile clientId filename path
  sendCksum clientId filename content.length cksum

theorem keepContent_eq (clientId : Bytes) (filename : Str) (content : Bytes) :
    keepContent clientId filename content = (do
      makeDir filesDir
      makeDir (clientDir clientId)
      host (.writeFile (filePath clientId filename) content)
      recordContent clientId filename content) := rfl

def mapped (clientId : Bytes) (filename : Str) (s : Server KeyedDisk) : Server KeyedDisk :=
  let path := filePath clientId filename
  let file := File.new clientId filename path
  { s with
    clientMap := Function.update s.clientMap clientId
      ((s.clientMap clientId).map (fun client => client.addFile path file))
    fileMap := Function.update s.fileMap path (some file) }

def Reads (s : Server KeyedDisk) (clientId : Bytes) : Prop :=
  (s.clientMap clientId).isSome = true ∧ t.readFails = false

def Reports (s : Server KeyedDisk) (clientId : Bytes) (filename : Str) (size : ℕ) : Prop :=
  Reads t s clientId ∧ t.outcomes (.fileExists clientId filename) ≠ .raises ∧
    t.outcomes (recording t s.database clientId filename) ≠ .raises ∧ size < 4294967296

instance (s : Server KeyedDisk) (clientId : Bytes) : Decidable (Reads t s clientId) :=
  inferInstanceAs (Decidable (_ ∧ _))

instance (s : Server KeyedDisk) (clientId : Bytes) (filename : Str) (size : ℕ) :
    Decidable (Reports t s clientId filename size) :=
  inferInstanceAs (Decidable (_ ∧ _ ∧ _ ∧ _))

theorem hostCall_recording (s : Server KeyedDisk) (db : Database) (clientId : Bytes)
    (filename : Str) :
    (hostCall E env (recording t db clientId filename) s).2 =
      { s with database := (hostCall E env (recording t db clientId filename) s).2.database } := by
  have hcases : recording t db clientId filename =
        .updateCksumVerification clientId filename false ∨
      recording t db clientId filename =
        .insertFileDetails clientId filename (filePath clientId filename) false :=
    ite_eq_or_eq ..
  rcases hcases with hrecord | hrecord <;> rw [hrecord] <;> rfl

theorem run_troubled_sendCksum (hid : clientId.length = 16) (filename : Str) (size : ℕ)
    (cksum : UInt32) : ∃ conn',
      conn'.sent = (if size < 4294967296 then
          w.conn.sent ++ [responseHead serverCodeCksumReady 0 clientId ++ leBytes 4 size,
            cksumReport filename cksum.toNat]
        else w.conn.sent) ∧
      (run (troubledMachine E env d t) (sendCksum clientId filename size cksum.toNat) (w, n)).2.1 =
        ⟨w.server, conn'⟩ := by
  by_cases hs : size < 4294967296
  · refine ⟨(w.conn.push (responseHead serverCodeCksumReady 0 clientId ++ leBytes 4 size)).push
      (cksumReport filename cksum.toNat), ?_, ?_⟩
    · rw [if_pos hs]
      simp [Conn.push]
    · rw [sendCksum_eq hid filename hs cksum.toNat_lt, run_bind, run_troubled_send, andThen_ok,
        run_troubled_send]
  · refine ⟨w.conn, (if_neg hs).symm, ?_⟩
    rw [sendCksum_oversize clientId filename hs, run_done]

theorem run_troubled_recordContent {s : Server KeyedDisk} (h : Keyed s.database) (conn : Conn)
    (hid : clientId.length = 16) (hn : nul ∉ filename)
    (hfile : s.disk.files (filePath clientId filename) = some content) {cksum : UInt32}
    (hcksum : Cksum.Server.cksumCalc content = some cksum.toNat) :
    ∃ db conn', rows db (filePath clientId filename) =
        (if Reads t s clientId ∧ Records t s.database clientId filename then
          some (newRow clientId filename)
        else rows s.database (filePath clientId filename)) ∧
      conn'.sent = (if Reports t s clientId filename content.length then
          conn.sent ++ [responseHead serverCodeCksumReady 0 clientId ++ leBytes 4 content.length,
            cksumReport filename cksum.toNat]
        else conn.sent) ∧
      (run (troubledMachine E env d t) (recordContent clientId filename content)
        (⟨s, conn⟩, n)).2.1 =
        ⟨{ mapped clientId filename s with database := db }, conn'⟩ := by
  have hput (w : World KeyedDisk) := troubled_calm E env d t w n
    (c := .fileMapPut (filePath clientId filename)
      (.new clientId filename (filePath clientId filename))) rfl
  have hadd (w : World KeyedDisk) := troubled_calm E env d t w n
    (c := .clientAddFile clientId (filePath clientId filename)
      (.new clientId filename (filePath clientId filename))) rfl
  cases hmap : s.clientMap clientId with
  | none =>
    have hsame : mapped clientId filename s = { s with
        fileMap := Function.update s.fileMap (filePath clientId filename)
          (some (.new clientId filename (filePath clientId filename))) } := by
      rw [mapped, hmap, Option.map_none, ← hmap, Function.update_eq_self]
    have hreads : ¬ Reads t s clientId := by simp [Reads, hmap]
    refine ⟨s.database, conn, ?_, ?_, ?_⟩
    · rw [if_neg fun h => hreads h.1]
    · rw [if_neg fun h => hreads h.1]
    · simp [recordContent, hput, hadd, hostCall, hmap, hsame]
  | some client =>
    have hmapped : mapped clientId filename s = { s with
        clientMap := Function.update s.clientMap clientId (some (client.addFile
          (filePath clientId filename) (.new clientId filename (filePath clientId filename))))
        fileMap := Function.update s.fileMap (filePath clientId filename)
          (some (.new clientId filename (filePath clientId filename))) } := by
      rw [mapped, hmap, Option.map_some]
    have hentered : run (troubledMachine E env d t) (recordContent clientId filename content)
        (⟨s, conn⟩, n) = run (troubledMachine E env d t) (do
          let stored ← host (.readFile (filePath clientId filename))
          let cksum ← ofOption .indexError (Cksum.Server.cksumCalc stored)
          recordFile clientId filename (filePath clientId filename)
          sendCksum clientId filename content.length cksum)
        (⟨mapped clientId filename s, conn⟩, n) := by
      simp [recordContent, hput, hadd, hostCall, hmap, hmapped]
    rw [hentered]
    have hread := troubled_calm E env d t ⟨mapped clientId filename s, conn⟩ n
      (c := .readFile (filePath clientId filename))
    cases hf : t.readFails with
    | true =>
      have hreads : ¬ Reads t s clientId := by simp [Reads, hf]
      have hstruck := troubled_struck E env d t ⟨mapped clientId filename s, conn⟩ n
        (c := .readFile (filePath clientId filename)) (if_pos hf)
      refine ⟨s.database, conn, ?_, ?_, ?_⟩
      · rw [if_neg fun h => hreads h.1]
      · rw [if_neg fun h => hreads h.1]
      · simp [hstruck]
        rfl
    | false =>
    have hreads : Reads t s clientId := ⟨by rw [hmap, Option.isSome_some], hf⟩
    have hstored : FileSystem.readFile (mapped clientId filename s).disk
        (filePath clientId filename) = some content := by
      show KeyedDisk.readFile s.disk _ = _
      rw [KeyedDisk.readFile, if_neg (mt nul_mem_filePath.mp hn), hfile]
    have hrun : run (troubledMachine E env d t) (do
          let stored ← host (.readFile (filePath clientId filename))
          let cksum ← ofOption .indexError (Cksum.Server.cksumCalc stored)
          recordFile clientId filename (filePath clientId filename)
          sendCksum clientId filename content.length cksum)
        (⟨mapped clientId filename s, conn⟩, n) = run (troubledMachine E env d t) (do
          recordFile clientId filename (filePath clientId filename)
          sendCksum clientId filename content.length cksum.toNat)
        (⟨mapped clientId filename s, conn⟩, n) := by
      have hcalm : t.strikes (.host (.readFile (filePath clientId filename))) = none :=
        if_neg (by simp [hf])
      simp [hread hcalm, hostCall, hstored, orRaise, hcksum]
    have hrows := rows_recording E env t (s := mapped clientId filename s) h clientId filename
    have hsame : (mapped clientId filename s).database = s.database := rfl
    rw [hsame] at hrows
    rw [hrun, run_troubled_recordFile]
    by_cases hexists : t.outcomes (.fileExists clientId filename) = .raises
    · refine ⟨s.database, conn, ?_, ?_, ?_⟩
      · rw [if_neg fun h => h.2.1 hexists]
      · rw [if_neg fun h => h.2.1 hexists]
      · rw [if_pos hexists]
        rfl
    rw [if_neg hexists]
    simp only [hsame]
    cases hrec : t.outcomes (recording t s.database clientId filename) with
    | raises =>
      refine ⟨s.database, conn, ?_, ?_, rfl⟩
      · rw [if_neg]
        rintro ⟨-, -, hworks, -⟩
        rw [hrec] at hworks
        cases hworks
      · rw [if_neg fun h => h.2.2.1 hrec]
    | prints =>
      obtain ⟨conn', hsent, hlast⟩ := run_troubled_sendCksum E env d t
        ⟨mapped clientId filename s, conn⟩ n hid filename content.length cksum
      refine ⟨s.database, conn', ?_, ?_, hlast⟩
      · rw [if_neg]
        rintro ⟨-, -, hworks, -⟩
        rw [hrec] at hworks
        cases hworks
      · simp [hsent, Reports, hreads, hexists, hrec]
    | works =>
      obtain ⟨conn', hsent, hlast⟩ := run_troubled_sendCksum E env d t
        ⟨(hostCall E env (recording t s.database clientId filename)
          (mapped clientId filename s)).2, conn⟩ n hid filename content.length cksum
      refine ⟨(hostCall E env (recording t s.database clientId filename)
        (mapped clientId filename s)).2.database, conn', ?_, ?_, hlast.trans ?_⟩
      · exact hrows.trans (by simp [Records, hreads, hexists, hrec])
      · simp [hsent, Reports, hreads, hexists, hrec]
      · rw [hostCall_recording]

/-- The server with another content of one file. -/
def withContent (path : Str) (content : Bytes) (s : Server KeyedDisk) : Server KeyedDisk :=
  { s with disk := { s.disk with files := Function.update s.disk.files path (some content) } }

theorem run_troubled_writeFile (content : Bytes) {path : Str} (hdir : w.server.disk.dirs path = false) :
    run (troubledMachine E env d t) (host (.writeFile path content)) (w, n) =
      if nul ∈ path then (.error .osError, (w, n)) else match t.writing with
      | .works => (.ok (), ({ w with server := withContent path content w.server }, n))
      | .closed => (.error .osError, (w, n))
      | .stops k =>
        (.error .osError, ({ w with server := withContent path (content.take k) w.server }, n)) := by
  have hwrite (content : Bytes) : w.server.disk.writeFile path content =
      if nul ∈ path then none
      else some { w.server.disk with
        files := Function.update w.server.disk.files path (some content) } := by
    simp [KeyedDisk.writeFile, hdir]
  cases hw : t.writing with
  | works =>
    have hcalm := troubled_calm E env d t w n (c := .writeFile path content)
      (by simp only [Trouble.strikes, hw])
    have hsame : FileSystem.writeFile w.server.disk path content =
      w.server.disk.writeFile path content := rfl
    rw [host, run_issue, hcalm]
    simp only [hostCall, hsame, hwrite]
    split_ifs <;> rfl
  | closed =>
    have hstruck := troubled_struck E env d t w n (c := .writeFile path content)
      (f := fun w => (.error .osError, w)) (by simp only [Trouble.strikes, hw])
    rw [host, run_issue, hstruck]
    split_ifs <;> rfl
  | stops k =>
    have hstruck := troubled_struck E env d t w n (c := .writeFile path content)
      (f := fun w => (.error .osError,
        { w with server := { w.server with disk := cutWrite w.server.disk path content k } }))
      (by simp only [Trouble.strikes, hw])
    rw [host, run_issue, hstruck]
    simp only [cutWrite, hwrite]
    split_ifs <;> rfl

def Writes (disk : KeyedDisk) (clientId : Bytes) (filename : Str) : Prop :=
  Makes t disk filesDir ∧ Makes t disk (clientDir clientId) ∧ nul ∉ filename ∧ t.writing ≠ .closed

instance (disk : KeyedDisk) (clientId : Bytes) (filename : Str) :
    Decidable (Writes t disk clientId filename) :=
  inferInstanceAs (Decidable (_ ∧ _ ∧ _ ∧ _))

variable (clientId filename content) in
/-- A content that is read is written, in part or not at all. -/
theorem run_troubled_keepContent {s : Server KeyedDisk} (h : Sane s) (conn : Conn) :
    ∃ disk : KeyedDisk, disk.files = s.disk.files ∧
      (run (troubledMachine E env d t) (keepContent clientId filename content)
        (⟨s, conn⟩, n)).2 =
      if Writes t s.disk clientId filename then
        match t.writing with
        | .works => (run (troubledMachine E env d t) (recordContent clientId filename content)
            (⟨withContent (filePath clientId filename) content { s with disk := disk }, conn⟩, n)).2
        | .closed => (⟨{ s with disk := disk }, conn⟩, n)
        | .stops k => (⟨withContent (filePath clientId filename) (content.take k)
            { s with disk := disk }, conn⟩, n)
      else (⟨{ s with disk := disk }, conn⟩, n) := by
  obtain ⟨disk, hfiles, hpath, hdirs⟩ := run_troubled_makeDirs E env d t ⟨s, conn⟩ n clientId (do
    host (.writeFile (filePath clientId filename) content)
    recordContent clientId filename content)
  refine ⟨disk, hfiles, ?_⟩
  have hdir : disk.dirs (filePath clientId filename) = false :=
    (hpath clientId filename).trans (not_dir_filePath h.dirs clientId filename)
  have hwrite := run_troubled_writeFile E env d t (w := ⟨{ s with disk := disk }, conn⟩) n
    content hdir
  rw [keepContent_eq, hdirs]
  by_cases hmade : Makes t s.disk filesDir ∧ Makes t s.disk (clientDir clientId)
  · rw [if_pos hmade, run_bind, hwrite]
    by_cases hn : nul ∈ filename
    · rw [if_pos (nul_mem_filePath.mpr hn), andThen_error, if_neg fun h => h.2.2.1 hn]
    · rw [if_neg (mt nul_mem_filePath.mp hn)]
      cases hw : t.writing with
      | closed => rw [andThen_error, if_neg fun h => h.2.2.2 hw]
      | works | stops k =>
        have hopened : Writes t s.disk clientId filename :=
          ⟨hmade.1, hmade.2, hn, by rw [hw]; exact nofun⟩
        rw [if_pos hopened]
        rfl
  · rw [if_neg hmade, if_neg fun h => hmade ⟨h.1, h.2.1⟩]

end Stages

/-- The stores after an upload that has succeeded. -/
structure Renewed (s' : Server KeyedDisk) (clientId : Bytes) (filename : Str) (content : Bytes) :
    Prop where
  disk : s'.disk.files (filePath clientId filename) = some content
  row : rows s'.database (filePath clientId filename) = some (newRow clientId filename)
  clientMap : ∃ client, s'.clientMap clientId = some client ∧
    client.files (filePath clientId filename) =
      some (.new clientId filename (filePath clientId filename))
  fileMap : s'.fileMap (filePath clientId filename) =
    some (.new clientId filename (filePath clientId filename))

/-- The stores after an upload that has changed nothing. -/
structure Untouched (s s' : Server KeyedDisk) (clientId : Bytes) (filename : Str) : Prop where
  disk : s'.disk.files (filePath clientId filename) = s.disk.files (filePath clientId filename)
  row : rows s'.database (filePath clientId filename) =
    rows s.database (filePath clientId filename)
  clientMap : s'.clientMap = s.clientMap
  fileMap : s'.fileMap = s.fileMap

/-- A 2103 response is the first message of a request. -/
def Reported (clientId : Bytes) (sent sent' : List Bytes) : Prop :=
  ∃ size, sent ++ [responseHead serverCodeCksumReady 0 clientId ++ leBytes 4 size] <+: sent'

/-- What an upload whose file is opened needs: where the write stops, the old content began and
ended like that; where all is reported, the row is recorded; elsewhere nothing was to change. -/
def Whole (s : Server KeyedDisk) (clientId : Bytes) (filename : Str) (content : Bytes) : Prop :=
  let path := filePath clientId filename
  let file := File.new clientId filename path
  let recorded := rows s.database path = some (newRow clientId filename)
  match t.writing with
  | .closed => True
  | .stops k => s.disk.files path = some (content.take k)
  | .works =>
    if Reports t s clientId filename content.length then
      Records t s.database clientId filename ∨ recorded
    else
      s.disk.files path = some content ∧ s.fileMap path = some file ∧
        (∀ client, s.clientMap clientId = some client → client.files path = some file) ∧
        (Reads t s clientId → Records t s.database clientId filename → recorded)

section Atomic

variable {s s' : Server KeyedDisk} {clientId : Bytes} {filename : Str} {content : Bytes}

theorem not_reported_of_eq (clientId : Bytes) {sent sent' : List Bytes} (h : sent' = sent) :
    ¬ Reported clientId sent sent' := by
  rintro ⟨size, hp⟩
  have hlen := hp.length_le
  rw [h, List.length_append, List.length_singleton] at hlen
  omega

theorem mapped_clientMap : (mapped clientId filename s).clientMap = s.clientMap ↔
    ∀ client, s.clientMap clientId = some client →
      client.files (filePath clientId filename) =
        some (.new clientId filename (filePath clientId filename)) := by
  simp only [mapped, Function.update_eq_self_iff]
  cases hmap : s.clientMap clientId with
  | none => simp
  | some client =>
    simp only [Option.map_some, Option.some.injEq, forall_eq']
    constructor
    · intro h
      rw [← h]
      exact Function.update_self ..
    · intro h
      rw [Client.addFile, ← h, Function.update_eq_self]

theorem mapped_fileMap : (mapped clientId filename s).fileMap = s.fileMap ↔
    s.fileMap (filePath clientId filename) =
      some (.new clientId filename (filePath clientId filename)) := by
  simp only [mapped, Function.update_eq_self_iff]
  exact eq_comm

/-- A file that is written and entered leaves the stores renewed or untouched. -/
theorem recordContent_iff (hw : t.writing = .works) {db : Database} (disk : KeyedDisk)
    (hrow : rows db (filePath clientId filename) =
      if Reads t s clientId ∧ Records t s.database clientId filename then
        some (newRow clientId filename)
      else rows s.database (filePath clientId filename)) {reported : Prop}
    (hreported : reported ↔ Reports t s clientId filename content.length)
    (hs' : s' = { mapped clientId filename (withContent (filePath clientId filename) content
      { s with disk := disk }) with database := db }) :
    (reported ∧ Renewed s' clientId filename content ∨
      ¬ reported ∧ Untouched s s' clientId filename) ↔ Whole t s clientId filename content := by
  simp only [Whole, hw]
  subst hs'
  rw [hreported]
  split_ifs with hrep
  · have hreads := hrep.1
    simp only [hrep, true_and, not_true_eq_false, false_and, or_false]
    constructor
    · intro h
      have hnew := h.row.symm.trans hrow
      split_ifs at hnew with hrec
      · exact .inl hrec.2
      · exact .inr hnew.symm
    · intro h
      obtain ⟨client, hmap⟩ := Option.isSome_iff_exists.mp hreads.1
      refine ⟨?_, ?_, ?_, ?_⟩
      · simp [mapped, withContent]
      · refine hrow.trans ?_
        split_ifs with hrec
        · rfl
        · exact h.resolve_left fun hr => hrec ⟨hreads, hr⟩
      · refine ⟨client.addFile (filePath clientId filename) _, ?_, Function.update_self ..⟩
        simp [mapped, withContent, hmap]
      · simp [mapped, withContent]
  · simp only [hrep, false_and, not_false_eq_true, true_and, false_or]
    have hmaps := @mapped_clientMap s clientId filename
    have hfiles := @mapped_fileMap s clientId filename
    constructor
    · intro h
      refine ⟨?_, hfiles.mp h.fileMap, hmaps.mp h.clientMap, ?_⟩
      · have hnew := h.disk
        simp only [mapped, withContent, Function.update_self] at hnew
        exact hnew.symm
      · intro hreads hrec
        have hnew := h.row.symm.trans hrow
        rwa [if_pos ⟨hreads, hrec⟩] at hnew
    · rintro ⟨hcontent, hfile, hclient, hrec⟩
      refine ⟨?_, ?_, hmaps.mpr hclient, hfiles.mpr hfile⟩
      · simp [mapped, withContent, hcontent]
      · refine hrow.trans ?_
        split_ifs with hboth
        · exact (hrec hboth.1 hboth.2).symm
        · rfl

variable {request : Request} {payload : Bytes} {conn : Conn} {size : ℕ}

def received (conn : Conn) (size : ℕ) : Bytes := ((conn.recv d 275).2.recv d size).1

/-- The stores are renewed and a 2103 response is sent, or the stores are as before and none is. -/
def AllOrNothing (s : Server KeyedDisk) (request : Request) (payload : Bytes) (conn : Conn)
    (filename : Str) (encrypted : Bytes) : Prop :=
  let w' := troubledHandled E env d t request payload ⟨s, conn⟩
  (Reported request.clientId conn.sent w'.conn.sent ∧
      ∃ content, contentOf E s.database request.clientId encrypted = some content ∧
        Renewed w'.server request.clientId filename content) ∨
    (¬ Reported request.clientId conn.sent w'.conn.sent ∧
      Untouched s w'.server request.clientId filename)

variable (payload conn) in
theorem troubledHandled_turnedAway (hc : request.code ≠ clientCodeRegister)
    (hid : request.clientId.length = 16)
    (hno : letsPass (fun _ => t.outcomes) s.database request.clientId = false) :
    (troubledHandled E env d t request payload ⟨s, conn⟩).server = s ∧
      ¬ Reported request.clientId conn.sent
        (troubledHandled E env d t request payload ⟨s, conn⟩).conn.sent := by
  have hcode : serverCodeRegistrationErr < 65536 := by decide
  have hrun : troubledHandled E env d t request payload ⟨s, conn⟩ =
      ⟨s, conn.push (responseHead serverCodeRegistrationErr 0 (uuidField []))⟩ := by
    simp [troubledHandled, handleRequest, run_troubled_turnedAway E env d t _ 0 request hc, hno,
      handleClientDoesntExit, respond_eq hcode]
  rw [hrun]
  refine ⟨rfl, ?_⟩
  rintro ⟨size, hp⟩
  obtain ⟨rest, hrest⟩ := hp
  simp only [Conn.push, List.append_assoc, List.append_cancel_left_eq, List.singleton_append,
    List.cons.injEq] at hrest
  have hlen := congrArg List.length hrest.1
  simp [responseHead, hid, uuidField_length] at hlen

variable (payload) in
theorem troubledHandled_passed (hc : request.code = clientCodeSendFile)
    (hpass : letsPass (fun _ => t.outcomes) s.database request.clientId = true)
    (hheader : uploadHeader E (conn.recv d 275).1 = some (size, filename)) :
    troubledHandled E env d t request payload ⟨s, conn⟩ =
      (run (troubledMachine E env d t) (processFileContent E request filename (received d conn size))
        (⟨s, ((conn.recv d 275).2.recv d size).2⟩, 0)).2.1 := by
  have hother : request.code ≠ clientCodeRegister := by
    rw [hc]
    decide
  have hk : kindOf request.code = .sendFile := by
    rw [hc]
    rfl
  have hheaded := run_handleFileRequest_headed E request
    (run_troubled_recv E env d t ⟨s, conn⟩ 0 275) hheader
  rw [run_bind, run_troubled_recv, andThen_ok] at hheaded
  rw [troubledHandled, handleRequest, run_bind, run_troubled_turnedAway E env d t _ 0 request hother]
  simp only [andThen_ok, hpass, Bool.not_true, Bool.false_eq_true, ↓reduceIte, dispatch_eq, hk,
    hheaded, received]

theorem allOrNothing_iff_whole (hsane : Sane s) (hc : request.code = clientCodeSendFile)
    (hid : s.database.clientExistsById request.clientId = true)
    (hheader : uploadHeader E (conn.recv d 275).1 = some (size, filename)) :
    AllOrNothing E env d t s request payload conn filename (received d conn size) ↔
      ∀ content, letsPass (fun _ => t.outcomes) s.database request.clientId = true →
        Opens E t s.database request.clientId (received d conn size) content →
        Writes t s.disk request.clientId filename → Whole t s request.clientId filename content := by
  have hlen : request.clientId.length = 16 := by
    obtain ⟨row, hrow, hrowId⟩ := Database.clientExistsById_iff.mp hid
    rw [← hrowId]
    exact hsane.keyed.idLength row hrow
  have huntouched (disk : KeyedDisk) (hfiles : disk.files = s.disk.files) :
      Untouched s { s with disk := disk } request.clientId filename :=
    ⟨congrFun hfiles _, rfl, rfl, rfl⟩
  cases hpass : letsPass (fun _ => t.outcomes) s.database request.clientId with
  | false =>
    obtain ⟨hserver, hsilent⟩ := troubledHandled_turnedAway E env d t payload conn
      (by rw [hc]; decide) hlen hpass
    refine iff_of_true (.inr ⟨hsilent, ?_⟩) fun _ h => nomatch h
    rw [hserver]
    exact huntouched s.disk rfl
  | true =>
  have hrun := troubledHandled_passed E env d t payload hc hpass hheader
  have hsent : ((conn.recv d 275).2.recv d size).2.sent = conn.sent := rfl
  revert hrun hsent
  generalize ((conn.recv d 275).2.recv d size).2 = conn₂
  intro hrun hsent
  -- an upload that leaves the connection and the files has failed as a whole
  have hfailed (disk : KeyedDisk) (hfiles : disk.files = s.disk.files)
      (h : troubledHandled E env d t request payload ⟨s, conn⟩ = ⟨{ s with disk := disk }, conn₂⟩) :
      AllOrNothing E env d t s request payload conn filename (received d conn size) := by
    right
    rw [h]
    exact ⟨not_reported_of_eq _ hsent, huntouched disk hfiles⟩
  by_cases hopens : ∃ content, Opens E t s.database request.clientId (received d conn size) content
  swap
  · have hno := not_exists.mp hopens
    refine iff_of_true (hfailed s.disk rfl ?_) fun content _ h => absurd h (hno content)
    rw [hrun, run_troubled_unopened E env d t ⟨s, conn₂⟩ 0 hno]
  obtain ⟨content, hopens⟩ := hopens
  have honly : (∀ content', Opens E t s.database request.clientId (received d conn size) content' →
      Writes t s.disk request.clientId filename →
        Whole t s request.clientId filename content') ↔
      (Writes t s.disk request.clientId filename →
        Whole t s request.clientId filename content) := by
    refine ⟨fun h => h content hopens, fun h content' hopens' => ?_⟩
    have hsame := hopens'.2.2.symm.trans hopens.2.2
    cases hsame
    exact h
  obtain ⟨disk, hfiles, hkept⟩ := run_troubled_keepContent E env d t 0 request.clientId filename
    content hsane conn₂
  rw [run_troubled_opened E env d t ⟨s, conn₂⟩ 0 hopens, hkept] at hrun
  simp only [true_implies, honly]
  by_cases hwrites : Writes t s.disk request.clientId filename
  swap
  · rw [if_neg hwrites] at hrun
    exact iff_of_true (hfailed disk hfiles hrun) fun h => absurd h hwrites
  rw [if_pos hwrites] at hrun
  simp only [hwrites, true_implies]
  cases hw : t.writing with
  | closed => exact absurd hw hwrites.2.2.2
  | stops k =>
    rw [hw] at hrun
    simp only [Whole, hw]
    have hsilent := not_reported_of_eq request.clientId hsent
    simp only [AllOrNothing, hrun, hsilent, false_and, false_or, not_false_eq_true, true_and]
    constructor
    · intro h
      have hcut := h.disk
      simp only [withContent, Function.update_self] at hcut
      exact hcut.symm
    · intro hcut
      refine ⟨?_, rfl, rfl, rfl⟩
      simp [withContent, hcut]
  | works =>
    rw [hw] at hrun
    obtain ⟨cksum, hcksum⟩ := Cksum.cksumCalc_isSome content
    obtain ⟨db, conn', hrow, hconn, hrecorded⟩ := run_troubled_recordContent E env d t 0
      (s := withContent (filePath request.clientId filename) content { s with disk := disk })
      hsane.keyed conn₂ hlen hwrites.2.2.1 (Function.update_self ..) hcksum
    have hafter := hrun.trans hrecorded
    have hreported : Reported request.clientId conn.sent conn'.sent ↔
        Reports t s request.clientId filename content.length := by
      have hsame : Reports t (withContent (filePath request.clientId filename) content
          { s with disk := disk }) request.clientId filename content.length ↔
          Reports t s request.clientId filename content.length := Iff.rfl
      simp only [hsame] at hconn
      split_ifs at hconn with hrep
      · refine iff_of_true ⟨content.length, [cksumReport filename cksum.toNat], ?_⟩ hrep
        rw [hconn, hsent, List.append_assoc, List.singleton_append]
      · exact iff_of_false (not_reported_of_eq _ (hconn.trans hsent)) hrep
    refine Iff.trans ?_ (recordContent_iff t (s := s) hw disk hrow hreported rfl)
    simp only [AllOrNothing, hafter, hopens.2.2, Option.some.injEq, exists_eq_left']

/-- Whatever fails in an upload and in the run before it: a 2103 response is sent and the stores
hold the new content, or none is and they are as before, exactly where an upload whose file is
opened is whole. -/
theorem all_or_nothing_iff (h : TroubledRun E s) (hc : request.code = clientCodeSendFile)
    (hid : s.database.clientExistsById request.clientId = true)
    (hheader : uploadHeader E (conn.recv d 275).1 = some (size, filename)) :
    AllOrNothing E env d t s request payload conn filename (received d conn size) ↔
      ∀ content, letsPass (fun _ => t.outcomes) s.database request.clientId = true →
        Opens E t s.database request.clientId (received d conn size) content →
        Writes t s.disk request.clientId filename → Whole t s request.clientId filename content :=
  allOrNothing_iff_whole E env d t h.sane hc hid hheader

end Atomic

def uploadRequest : Request := ⟨List.replicate 16 1, 3, clientCodeSendFile, 0⟩

def uploadSent : Conn := uploadConn (List.replicate 16 1) ['f'] (pkcs7Pad [1, 2])

theorem uploadSent_reads :
    uploadHeader plainCiphers (uploadSent.recv .whole 275).1 = some (16, ['f']) ∧
      received .whole uploadSent 16 = pkcs7Pad [1, 2] :=
  uploadConn_recv plainCiphers List.length_replicate (by decide) (by decide) rfl (by decide)

def fullDisk : Trouble := ⟨fun _ => .works, fun _ => false, .stops 1, false⟩

theorem all_or_nothing_iff_keyedClient :
    AllOrNothing plainCiphers (constantDraws 3) .whole fullDisk keyedServer uploadRequest []
        uploadSent ['f'] (received .whole uploadSent 16) ↔
      ∀ content, letsPass (fun _ => fullDisk.outcomes) keyedServer.database
          uploadRequest.clientId = true →
        Opens plainCiphers fullDisk keyedServer.database uploadRequest.clientId
          (received .whole uploadSent 16) content →
        Writes fullDisk keyedServer.disk uploadRequest.clientId ['f'] →
        Whole fullDisk keyedServer uploadRequest.clientId ['f'] content :=
  all_or_nothing_iff plainCiphers (constantDraws 3) .whole fullDisk (.ofRun (run_keyedServer _)) rfl
    (by decide) uploadSent_reads.1

/-- The beginning of the file stays on the disk, without a row and without an entry. -/
theorem torn_upload_stays :
    TroubledRun plainCiphers keyedServer ∧
      ¬ AllOrNothing plainCiphers (constantDraws 3) .whole fullDisk keyedServer uploadRequest []
        uploadSent ['f'] (received .whole uploadSent 16) := by
  have hrun : TroubledRun plainCiphers keyedServer := .ofRun (run_keyedServer _)
  refine ⟨hrun, ?_⟩
  rw [allOrNothing_iff_whole plainCiphers _ _ _ hrun.sane rfl (by decide) uploadSent_reads.1,
    uploadSent_reads.2]
  intro h
  have hopens : Opens plainCiphers fullDisk keyedServer.database uploadRequest.clientId
      (pkcs7Pad [1, 2]) [1, 2] := ⟨by decide, rfl, by decide⟩
  have hwhole := h [1, 2] (by decide) hopens (by decide)
  simp only [Whole, fullDisk] at hwhole
  have hnone : keyedServer.disk.files (filePath uploadRequest.clientId ['f']) = none := rfl
  rw [hnone] at hwhole
  cases hwhole

end EncryptedTransfer.TornUploads
