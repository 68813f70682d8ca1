import EncryptedTransfer.ClientIsolation
import EncryptedTransfer.DisturbedMachines
import EncryptedTransfer.TruthfulReplies

/-!
# Requests of ids that are not registered

A method of `Database` can fail in two ways: it catches its error and returns `None`, or it cannot
connect, and its `finally` then closes a connection it does not have and raises. The gate of
`handle_request` catches that exception and lets the request pass. What the requests of an
unregistered id then change, after any run in which methods have failed in any pattern.
-/
namespace EncryptedTransfer.GateFailures
open ByteFormats Text ServerStores ServerCalls ServerHandlers ServerConsistency ServerEffects
open ServerFootprints ServerRuns CryptoLaws ClientIsolation FaultyDatabase TruthfulReplies
open Interaction Program

inductive Outcome where
  | works
  | prints
  | raises
  deriving DecidableEq

/-- How the methods of `Database` end while a request is handled, by their number and themselves. -/
abbrev Outcomes := ℕ → HostCall → Outcome

variable {δ : Type}

def failure (outcomes : Outcomes) (n : ℕ) : Disturbance calls PyError (World δ)
  | .host c => (swallowed (.host c)).bind (fun a =>
    match outcomes n c with
    | .works => none
    | .prints => some (fun w => (.ok a, w))
    | .raises => some (fun w => (.error .attributeError, w)))
  | _ => none

variable [FileSystem δ] (E : Externals) (env : Draws) (d : Delivery) (outcomes : Outcomes)

def failingMachine : Machine calls PyError (World δ × ℕ) :=
  disturbed (machine E env d) (fun c => (swallowed c).isSome) (failure outcomes)

/-- The world after a request some of whose database calls have failed in either way. -/
def failingHandled (request : Request) (payload : Bytes) (w : World δ) : World δ :=
  (run (failingMachine E env d outcomes) (handleRequest E request payload) (w, 0)).2.1

def failingRestarted (s : Server δ) (conn : Conn) : World δ :=
  (run (failingMachine E env d outcomes) loadDataFromDatabase
    (⟨{ s with clientMap := fun _ => none, fileMap := fun _ => none }, conn⟩, 0)).2.1

inductive FailingRun (E : Externals) : Server δ → Prop
  | start (disk : δ) : FailingRun E ⟨.empty, disk, fun _ => none, fun _ => none⟩
  | request {s : Server δ} (env : Draws) (d : Delivery) (outcomes : Outcomes) (request : Request)
      (payload : Bytes) (conn : Conn) (h : FailingRun E s) :
      FailingRun E (failingHandled E env d outcomes request payload ⟨s, conn⟩).server
  | restart {s : Server δ} (env : Draws) (d : Delivery) (outcomes : Outcomes) (conn : Conn)
      (h : FailingRun E s) : FailingRun E (failingRestarted E env d outcomes s conn).server

theorem FailingRun.ofRun {E : Externals} {s : Server KeyedDisk}
    {acts : List (FileLedger.Act (Bytes × Str) Bytes)} (h : Run E s acts) : FailingRun E s := by
  have hnever (n : ℕ) (c : Call) : (failure (fun _ _ => .works) n :
      Disturbance calls PyError (World KeyedDisk)) c = none := by
    cases c with
    | host c =>
      rw [failure]
      cases swallowed (.host c) <;> rfl
    | _ => rfl
  induction h with
  | start => exact .start KeyedDisk.empty
  | @request s acts env request payload conn h fresh ih =>
    have hrun := run_disturbed_never (machine E env .whole)
      (fun c => (swallowed c).isSome) hnever (handleRequest E request payload) (⟨s, conn⟩, 0)
    have hstep := ih.request env .whole (fun _ _ => .works) request payload conn
    rwa [failingHandled, failingMachine, hrun.2] at hstep
  | @restart s acts env conn h ih =>
    have hrun := run_disturbed_never (machine E env .whole)
      (fun c => (swallowed c).isSome) hnever loadDataFromDatabase
      (⟨{ s with clientMap := fun _ => none, fileMap := fun _ => none }, conn⟩, 0)
    have hstep := ih.restart env .whole (fun _ _ => .works) conn
    rwa [failingRestarted, failingMachine, hrun.2] at hstep

section Calls

variable (w : World δ) (n : ℕ)

@[simp] theorem run_failing_recv (k : ℕ) :
    run (failingMachine E env d outcomes) (recv k) (w, n) =
      (.ok (w.conn.recv d k).1, ({ w with conn := (w.conn.recv d k).2 }, n)) := rfl

@[simp] theorem run_failing_send (data : Bytes) :
    run (failingMachine E env d outcomes) (send data) (w, n) =
      (.ok (), ({ w with conn := w.conn.push data }, n)) := rfl

theorem failing_sure {c : HostCall} (h : swallowed (.host c) = none) :
    failingMachine E env d outcomes (.host c) (w, n) =
      ((hostCall E env c w.server).1, ({ w with server := (hostCall E env c w.server).2 }, n)) := by
  have hcalm : (failure outcomes n : Disturbance calls PyError (World δ)) (.host c) = none := by
    rw [failure, h, Option.bind_none]
  rw [failingMachine, disturbed_calm _ hcalm, h]
  rfl

theorem failing_method {c : HostCall} {a : c.Answer} (h : swallowed (.host c) = some a) :
    failingMachine E env d outcomes (.host c) (w, n) =
      match outcomes n c with
      | .works => ((hostCall E env c w.server).1,
          ({ w with server := (hostCall E env c w.server).2 }, n + 1))
      | .prints => (.ok a, (w, n + 1))
      | .raises => (.error .attributeError, (w, n + 1)) := by
  have hf : (failure outcomes n : Disturbance calls PyError (World δ)) (.host c) =
      match outcomes n c with
      | .works => none
      | .prints => some (fun w => (.ok a, w))
      | .raises => some (fun w => (.error .attributeError, w)) := by
    rw [failure, h, Option.bind_some]
  cases ho : outcomes n c with
  | works =>
    rw [ho] at hf
    rw [failingMachine, disturbed_calm _ hf, h]
    rfl
  | prints =>
    rw [ho] at hf
    rw [failingMachine, disturbed_struck _ hf, h]
    rfl
  | raises =>
    rw [ho] at hf
    rw [failingMachine, disturbed_struck _ hf, h]
    rfl

theorem failing_server (c : HostCall) :
    (failingMachine E env d outcomes (.host c) (w, n)).2.1.server = w.server ∨
      (failingMachine E env d outcomes (.host c) (w, n)).2.1.server =
        (hostCall E env c w.server).2 := by
  cases h : swallowed (.host c) with
  | none => exact .inr (by rw [failing_sure E env d outcomes w n h])
  | some a =>
    rw [failing_method E env d outcomes w n h]
    cases outcomes n c with
    | works => exact .inr rfl
    | prints | raises => exact .inl rfl

theorem failing_preserves {α : Type} {A : HostCall → Prop} {p : Proc α}
    (hp : Issues (Within True A) p) {P : Server δ → Prop}
    (hA : ∀ c s, A c → P s → P (hostCall E env c s).2) {n : ℕ} {w : World δ} (hw : P w.server) :
    P (run (failingMachine E env d outcomes) p (w, n)).2.1.server := by
  refine hp.run_preserves _ (P := fun s : World δ × ℕ => P s.1.server) ?_ hw
  intro c s hc hs
  cases c with
  | host c =>
    have hserver := failing_server E env d outcomes s.1 s.2 c
    rcases hserver with hsame | hcalled
    · exact hsame ▸ hs
    · exact hcalled ▸ hA c s.1.server hc hs
  | _ => exact hs

end Calls

section Handlers

variable (w : World δ) {request : Request} {payload : Bytes}

/-- Whether the gate lets a request pass whose code is not 1100. -/
def letsPass (db : Database) (clientId : Bytes) : Bool :=
  match outcomes 0 (.clientExistsById clientId) with
  | .works => db.clientExistsById clientId
  | .prints => false
  | .raises => true

theorem run_failing_turnedAway (request : Request) :
    run (failingMachine E env d outcomes) (turnedAway request) (w, 0) =
      if request.code = clientCodeRegister then (.ok false, (w, 0))
      else (.ok (!letsPass outcomes w.server.database request.clientId), (w, 1)) := by
  by_cases hc : request.code = clientCodeRegister
  · simp [turnedAway, hc]
  · have hgate := failing_method E env d outcomes w 0 (c := .clientExistsById request.clientId) rfl
    cases ho : outcomes 0 (.clientExistsById request.clientId) <;> rw [ho] at hgate <;>
      simp [turnedAway, hc, hgate, hostCall, letsPass, ho]

variable {w} in
theorem failingHandled_register (hc : request.code = clientCodeRegister) :
    failingHandled E env d outcomes request payload w =
      (run (failingMachine E env d outcomes) (handleClientRegistration payload) (w, 0)).2.1 := by
  simp [failingHandled, handleRequest, run_failing_turnedAway, hc, dispatch]

variable {w} in
theorem failingHandled_passed (hc : request.code ≠ clientCodeRegister)
    (hpass : letsPass outcomes w.server.database request.clientId = true) :
    failingHandled E env d outcomes request payload w =
      (run (failingMachine E env d outcomes) (dispatch E request payload) (w, 1)).2.1 := by
  simp [failingHandled, handleRequest, run_failing_turnedAway, hc, hpass]

variable {w} in
theorem failingHandled_turnedAway (hc : request.code ≠ clientCodeRegister)
    (hpass : letsPass outcomes w.server.database request.clientId = false) :
    (failingHandled E env d outcomes request payload w).server = w.server := by
  have hcode : serverCodeRegistrationErr < 65536 := by decide
  simp [failingHandled, handleRequest, run_failing_turnedAway, hc, hpass, handleClientDoesntExit,
    respond_eq hcode, guarded]

@[simp] theorem run_failing_getClientName {α : Type} (clientId : Bytes) (p : Proc α) (n : ℕ) :
    run (failingMachine E env d outcomes) (host (.getClientName clientId) >>= fun _ => p) (w, n) =
      if outcomes n (.getClientName clientId) = .raises then
        (.error .attributeError, (w, n + 1))
      else run (failingMachine E env d outcomes) p (w, n + 1) := by
  have hname := failing_method E env d outcomes w n (c := .getClientName clientId) rfl
  cases ho : outcomes n (.getClientName clientId) <;> simp [hname, ho, hostCall]

theorem run_failing_processFileContent (request : Request) (filename : Str) (encrypted : Bytes)
    (n : ℕ) :
    (run (failingMachine E env d outcomes) (processFileContent E request filename encrypted)
        (w, n)).2.1 = w ∨
      ∃ content, contentOf E w.server.database request.clientId encrypted = some content ∧
        (run (failingMachine E env d outcomes) (processFileContent E request filename encrypted)
          (w, n)).2 =
        (run (failingMachine E env d outcomes) (keepContent request.clientId filename content)
          (w, n + 2)).2 := by
  have hkey := failing_method E env d outcomes w (n + 1)
    (c := .getAesKeyOfClient request.clientId) rfl
  have hguarded (p : Proc Unit) (s : World δ × ℕ) :
      (run (failingMachine E env d outcomes) (guarded p) s).2 =
        (run (failingMachine E env d outcomes) p s).2 := by
    rw [run_guarded]
  rw [processFileContent, hguarded, run_failing_getClientName]
  split_ifs
  · exact .inl rfl
  cases ho : outcomes (n + 1) (.getAesKeyOfClient request.clientId) with
  | prints | raises =>
    left
    simp [hkey, ho]
  | works =>
    cases hcontent : contentOf E w.server.database request.clientId encrypted with
    | none =>
      left
      rcases contentOf_eq_none E hcontent with haes | ⟨aesKey, haes, hdec⟩ |
        ⟨aesKey, padded, haes, hdec, hunpad⟩
      · simp [hkey, ho, hostCall, haes]
      · simp [hkey, ho, hostCall, haes, hdec]
      · simp [hkey, ho, hostCall, haes, hdec, hunpad]
    | some content =>
      right
      obtain ⟨aesKey, padded, haes, hdec, hunpad⟩ := (contentOf_eq_some E).mp hcontent
      refine ⟨content, rfl, ?_⟩
      simp [hkey, ho, hostCall, haes, hdec, hunpad, keepContent]

end Handlers

/-- Files and entries of files are of registered clients. -/
structure OnlyRegistered (s : Server δ) : Prop where
  rows : ∀ row ∈ s.database.files, s.database.clientExistsById row.clientId = true
  pathname : ∀ row ∈ s.database.files, row.pathname = filePath row.clientId row.filename
  fileMap : ∀ p file, s.fileMap p = some file → ∃ clientId filename,
    s.database.clientExistsById clientId = true ∧ p = filePath clientId filename
  clientMap : ∀ clientId client, s.clientMap clientId = some client →
    s.database.clientExistsById clientId = false → client.files = fun _ => none

/-- The calls that bring in no file of an unregistered client. -/
def Admissible (db : Database) : HostCall → Prop
  | .insertFileDetails clientId filename pathname _ =>
    db.clientExistsById clientId = true ∧ pathname = filePath clientId filename
  | .fileMapPut path _ => ∃ clientId filename,
    db.clientExistsById clientId = true ∧ path = filePath clientId filename
  | .clientAddFile clientId _ _ => db.clientExistsById clientId = true
  | .clientMapPut _ client => client.files = fun _ => none
  | _ => True

theorem Admissible.mono {db db' : Database} {c : HostCall}
    (h : ∀ clientId, db.clientExistsById clientId = true → db'.clientExistsById clientId = true)
    (hc : Admissible db c) : Admissible db' c := by
  cases c with
  | insertFileDetails clientId filename pathname verified => exact ⟨h _ hc.1, hc.2⟩
  | fileMapPut path file =>
    obtain ⟨clientId, filename, hid, hp⟩ := hc
    exact ⟨clientId, filename, h _ hid, hp⟩
  | clientAddFile clientId path file => exact h _ hc
  | clientMapPut clientId client => exact hc
  | _ => trivial

namespace OnlyRegistered

variable {s : Server δ} (h : OnlyRegistered s)
include h

omit [FileSystem δ] in
theorem tables {db : Database}
    (hex : ∀ x, s.database.clientExistsById x = true → db.clientExistsById x = true)
    (hrows : ∀ row ∈ db.files, db.clientExistsById row.clientId = true ∧
      row.pathname = filePath row.clientId row.filename) :
    OnlyRegistered { s with database := db } := by
  refine ⟨fun row hrow => (hrows row hrow).1, fun row hrow => (hrows row hrow).2, ?_, ?_⟩
  · intro p file hp
    obtain ⟨clientId, filename, hid, hpath⟩ := h.fileMap p file hp
    exact ⟨clientId, filename, hex _ hid, hpath⟩
  · intro clientId client hclient hid
    apply h.clientMap clientId client hclient
    rw [Bool.eq_false_iff] at hid ⊢
    exact mt (hex clientId) hid

omit [FileSystem δ] in
theorem retouched {db : Database} (ht : Retouched s.database db)
    (hfiles : ∀ row ∈ db.files, ∃ old ∈ s.database.files, row.clientId = old.clientId ∧
      row.filename = old.filename ∧ row.pathname = old.pathname) :
    OnlyRegistered { s with database := db } := by
  apply h.tables (fun x hx => (ht.exists_eq x).trans hx)
  intro row hrow
  obtain ⟨old, hold, hid, hname, hpath⟩ := hfiles row hrow
  rw [ht.exists_eq, hid, hname, hpath]
  exact ⟨h.rows old hold, h.pathname old hold⟩

omit [FileSystem δ] in
theorem maps {fileMap : Str → Option File} {clientMap : Bytes → Option Client}
    (hfile : ∀ p file, fileMap p = some file → ∃ clientId filename,
      s.database.clientExistsById clientId = true ∧ p = filePath clientId filename)
    (hclient : ∀ clientId client, clientMap clientId = some client →
      s.database.clientExistsById clientId = false → client.files = fun _ => none) :
    OnlyRegistered { s with fileMap := fileMap, clientMap := clientMap } :=
  ⟨h.rows, h.pathname, hfile, hclient⟩

omit [FileSystem δ] in
theorem putClient {clientId : Bytes} {client : Option Client}
    (hput : ∀ c, client = some c → s.database.clientExistsById clientId = false →
      c.files = fun _ => none) :
    OnlyRegistered { s with clientMap := Function.update s.clientMap clientId client } := by
  refine h.maps h.fileMap ?_
  intro x c hx hid
  by_cases he : x = clientId
  · subst he
    rw [Function.update_self] at hx
    exact hput c hx hid
  · rw [Function.update_of_ne he] at hx
    exact h.clientMap x c hx hid

omit [FileSystem δ] in
theorem onDisk (r : Option δ) : OnlyRegistered (onDisk s r).2 := by
  cases r with
  | none => exact h
  | some disk => exact ⟨h.rows, h.pathname, h.fileMap, h.clientMap⟩

theorem hostCall {c : HostCall} (hc : Admissible s.database c) :
    OnlyRegistered (hostCall E env c s).2 := by
  cases c with
  | insertNewClient clientName clientId =>
    apply h.tables (exists_insertNewClient _ _ _ _)
    intro row hrow
    have hold : row ∈ s.database.files := by
      unfold Database.insertNewClient at hrow
      split_ifs at hrow <;> exact hrow
    exact ⟨exists_insertNewClient _ _ _ _ _ (h.rows row hold), h.pathname row hold⟩
  | insertKeysOfClient clientName publicKey aesKey =>
    apply h.retouched (retouched_insertKeysOfClient _ _ _ _ _)
    exact fun row hrow => ⟨row, hrow, rfl, rfl, rfl⟩
  | insertFileDetails clientId filename pathname verified =>
    have ht := retouched_insertFileDetails s.database env.now clientId filename pathname verified
    apply h.tables (fun x hx => (ht.exists_eq x).trans hx)
    intro row hrow
    rw [ht.exists_eq]
    unfold Database.insertFileDetails at hrow
    split_ifs at hrow
    · exact ⟨h.rows row hrow, h.pathname row hrow⟩
    · rcases List.mem_append.mp hrow with hold | hnew
      · exact ⟨h.rows row hold, h.pathname row hold⟩
      · rw [List.mem_singleton.mp hnew]
        exact hc
  | updateCksumVerification clientId filename verified =>
    apply h.retouched (retouched_updateCksumVerification _ _ _ _ _)
    intro row hrow
    obtain ⟨old, hold, rfl⟩ := List.mem_map.mp hrow
    refine ⟨old, hold, ?_⟩
    split_ifs <;> exact ⟨rfl, rfl, rfl⟩
  | deleteFileOfClient clientId filename =>
    apply h.retouched (retouched_deleteFileOfClient _ _ _ _)
    exact fun row hrow => ⟨row, List.mem_of_mem_filter hrow, rfl, rfl, rfl⟩
  | mkdir path | writeFile path content | remove path => exact h.onDisk _
  | clearMaps => exact h.maps (fun p file hp => nomatch hp) (fun x c hx => nomatch hx)
  | clientMapPut clientId client => exact h.putClient fun c hput _ => Option.some.inj hput ▸ hc
  | clientAddFile clientId filePath file =>
    simp only [ServerCalls.hostCall]
    split
    · apply h.putClient
      intro c _ hid
      exact absurd (Eq.trans (Eq.symm hc) hid) (by decide)
    · exact h
  | clientRemoveFile clientId filePath =>
    simp only [ServerCalls.hostCall]
    split
    · rename_i client hclient
      split_ifs
      · apply h.putClient
        intro c hput hid
        rw [← Option.some.inj hput, Client.removeFile, h.clientMap clientId client hclient hid]
        exact Function.update_eq_self filePath _
      · exact h
    · exact h
  | fileMapPut filePath file =>
    refine h.maps ?_ h.clientMap
    intro p f hp
    by_cases he : p = filePath
    · exact he ▸ hc
    · rw [Function.update_of_ne he] at hp
      exact h.fileMap p f hp
  | fileMapPop filePath =>
    simp only [ServerCalls.hostCall]
    split
    · refine h.maps ?_ h.clientMap
      intro p f hp
      by_cases he : p = filePath
      · rw [he, Function.update_self] at hp
        cases hp
      · rw [Function.update_of_ne he] at hp
        exact h.fileMap p f hp
    · exact h
  | _ => exact h

end OnlyRegistered

section Runs

variable {w : World δ} {request : Request} {payload : Bytes}

theorem OnlyRegistered.run_failing (h : OnlyRegistered w.server) {α : Type} {p : Proc α}
    (hp : Issues (Within True (Admissible w.server.database)) p) (n : ℕ) :
    OnlyRegistered (run (failingMachine E env d outcomes) p (w, n)).2.1.server := by
  have hrun := failing_preserves E env d outcomes hp (n := n)
    (P := fun s => OnlyRegistered s ∧ ∀ x, w.server.database.clientExistsById x = true →
      s.database.clientExistsById x = true) ?_ ⟨h, fun _ => id⟩
  · exact hrun.1
  · intro c s hc hs
    constructor
    · exact hs.1.hostCall env (hc.mono hs.2) (E := E)
    · exact fun x hx => exists_hostCall E env c s x (hs.2 x hx)

theorem admissible_register (db : Database) :
    Issues (Within True (Admissible db)) (handleClientRegistration payload) := by
  apply within_guarded
  refine .bind (.ofOption _ _) fun clientName => .bind (within_host trivial) fun found => ?_
  split_ifs
  · exact within_respond _ _
  · refine .bind (within_host trivial) fun clientId => .bind (.ofOption _ _) fun response => ?_
    refine .bind (within_host rfl) fun _ => .bind (within_host trivial) fun _ => ?_
    exact .bind (.ofOption _ _) fun data => within_send _

theorem admissible_of_footprint {k : Kind} (hr : k ≠ .register) (hf : k ≠ .sendFile)
    (db : Database) {c : HostCall} (hc : Footprint k c) : Admissible db c := by
  cases c with
  | insertFileDetails | fileMapPut | clientAddFile | clientMapPut =>
    cases k with
    | register => exact absurd rfl hr
    | sendFile => exact absurd rfl hf
    | _ => cases hc
  | _ => trivial

theorem admissible_keepContent {db : Database} {clientId : Bytes}
    (hid : db.clientExistsById clientId = true) (filename : Str) (content : Bytes) :
    Issues (Within True (Admissible db)) (keepContent clientId filename content) := by
  have hmade (dirName : Str) : Issues (Within True (Admissible db)) (makeDir dirName) :=
    within_makeDir trivial trivial
  refine .bind (hmade _) fun _ => .bind (hmade _) fun _ => .bind (within_host trivial) fun _ => ?_
  refine .bind (within_host ⟨clientId, filename, hid, rfl⟩) fun _ => ?_
  refine .bind (within_host hid) fun _ => .bind (within_host trivial) fun stored => ?_
  refine .bind (.ofOption _ _) fun cksum => .bind ?_ fun _ => within_sendCksum _ _ _ _
  refine .bind (within_host trivial) fun found => ?_
  split_ifs
  · exact within_host trivial
  · exact within_host ⟨hid, rfl⟩

theorem exists_of_contentOf {db : Database} {clientId encrypted content : Bytes}
    (h : contentOf E db clientId encrypted = some content) :
    db.clientExistsById clientId = true := by
  obtain ⟨aesKey, padded, haes, _, _⟩ := (contentOf_eq_some E).mp h
  obtain ⟨row, hrow, _⟩ := Option.bind_eq_some_iff.mp haes
  rw [clientExistsById_eq, clients, KeyedTable.lookup, hrow]
  rfl

theorem OnlyRegistered.processFileContent (h : OnlyRegistered w.server) (filename : Str)
    (encrypted : Bytes) (n : ℕ) :
    OnlyRegistered (run (failingMachine E env d outcomes)
      (processFileContent E request filename encrypted) (w, n)).2.1.server := by
  rcases run_failing_processFileContent E env d outcomes w request filename encrypted n with
    hsame | ⟨content, hcontent, hkept⟩
  · rw [hsame]
    exact h
  · rw [hkept]
    exact h.run_failing E env d outcomes
      (admissible_keepContent (exists_of_contentOf E hcontent) filename content) _

theorem run_failing_handleFileRequest (n : ℕ) {contentSize : ℕ} {filename : Str}
    (hheader : uploadHeader E (w.conn.recv d 275).1 = some (contentSize, filename)) :
    (run (failingMachine E env d outcomes) (handleFileRequest E request) (w, n)).2 =
      (run (failingMachine E env d outcomes) (processFileContent E request filename
        ((w.conn.recv d 275).2.recv d contentSize).1)
        ({ w with conn := ((w.conn.recv d 275).2.recv d contentSize).2 }, n)).2 := by
  have hrecv := run_failing_recv E env d outcomes w n 275
  rw [run_handleFileRequest_headed E request hrecv hheader]
  simp

theorem OnlyRegistered.handleFileRequest (h : OnlyRegistered w.server) (n : ℕ) :
    OnlyRegistered (run (failingMachine E env d outcomes)
      (handleFileRequest E request) (w, n)).2.1.server := by
  have hrecv := run_failing_recv E env d outcomes w n 275
  cases hheader : uploadHeader E (w.conn.recv d 275).1 with
  | none =>
    rw [run_handleFileRequest_headless E hrecv hheader]
    exact h
  | some header =>
    rw [run_failing_handleFileRequest E env d outcomes n hheader]
    have hw : OnlyRegistered (World.mk w.server
      ((w.conn.recv d 275).2.recv d header.1).2).server := h
    exact hw.processFileContent E env d outcomes _ _ n

theorem OnlyRegistered.failingHandled (h : OnlyRegistered w.server) :
    OnlyRegistered (failingHandled E env d outcomes request payload w).server := by
  by_cases hc : request.code = clientCodeRegister
  · rw [failingHandled_register E env d outcomes hc]
    exact h.run_failing E env d outcomes (admissible_register _) _
  cases hpass : letsPass outcomes w.server.database request.clientId with
  | false =>
    rw [failingHandled_turnedAway E env d outcomes hc hpass]
    exact h
  | true =>
    rw [failingHandled_passed E env d outcomes hc hpass]
    by_cases hf : kindOf request.code = .sendFile
    · rw [dispatch_eq, hf]
      exact h.handleFileRequest E env d outcomes 1
    · have hr : kindOf request.code ≠ .register := mt kindOf_eq_register.mp hc
      apply h.run_failing E env d outcomes
      exact (footprint_dispatch E request payload).mono
        (Within.mono fun c hc => admissible_of_footprint hr hf _ hc)

def loads : Monitor calls PyError (List (Bytes × Str × Str)) where
  allowed
    | files, .host (.fileMapPut path _) => ∃ item ∈ files, item.2.2 = path
    | files, .host (.clientAddFile clientId _ _) => ∃ item ∈ files, item.1 = clientId
    | _, .host (.clientMapPut _ client) => client.files = fun _ => none
    | _, .host .clearMaps | _, .host .getClientList | _, .host .getFileList => True
    | _, _ => False
  after
    | _, .host .getFileList, .ok (some files) => files
    | files, _, _ => files

theorem obeys_loadFiles (files items : List (Bytes × Str × Str))
    (h : ∀ item ∈ items, item ∈ files) :
    Obeys loads (items.forM loadFile) files (fun _ _ => True) := by
  induction items with
  | nil => trivial
  | cons item items ih =>
    have hmem := h item List.mem_cons_self
    have hrest := ih fun other hother => h other (List.mem_cons_of_mem _ hother)
    apply Obeys.seq
    refine Obeys.bind ⟨⟨item, hmem, rfl⟩, fun r => ?_⟩
    cases r with
    | error e => exact fun _ he => nomatch he
    | ok u => exact ⟨⟨item, hmem, rfl⟩, fun r _ _ => hrest⟩

theorem obeys_loadClients (files : List (Bytes × Str × Str)) (items : List (Bytes × Str)) :
    Obeys loads (items.forM loadClient) files (fun g _ => g = files) := by
  induction items with
  | nil => rfl
  | cons item items ih =>
    refine Obeys.bind ⟨rfl, fun r => ?_⟩
    cases r with
    | error e => rfl
    | ok u => exact ih

theorem obeys_guarded {γ : Type} {W : Monitor calls PyError γ} {p : Proc Unit} {g : γ}
    (h : Obeys W p g (fun _ _ => True)) : Obeys W (guarded p) g (fun _ _ => True) := by
  apply Obeys.attempt
  apply h.mono
  intro g o _
  cases o <;> trivial

theorem obeys_loadDataFromDatabase : Obeys loads loadDataFromDatabase [] (fun _ _ => True) := by
  apply obeys_guarded
  refine Obeys.seq ⟨trivial, fun _ _ _ => Obeys.seq ⟨trivial, fun answer clients _ => ?_⟩⟩
  refine Obeys.seq (Obeys.ofOption (fun clients _ => ?_) fun _ h => nomatch h)
  rintro _ ⟨⟩
  refine Obeys.seq ((obeys_loadClients [] clients).mono ?_)
  rintro g _ rfl _ _
  refine Obeys.seq ⟨trivial, ?_⟩
  rintro _ answer rfl
  refine Obeys.seq (Obeys.ofOption (fun files hfiles => ?_) fun _ h => nomatch h)
  rintro _ ⟨⟩
  rw [hfiles]
  exact obeys_loadFiles files files fun _ => id

theorem failing_getFileList (w : World δ) (n : ℕ) {files : List (Bytes × Str × Str)}
    (h : (failingMachine E env d outcomes (.host .getFileList) (w, n)).1 = .ok (some files)) :
    files = w.server.database.getFileList := by
  have hcall := failing_method E env d outcomes w n (c := .getFileList) rfl
  rw [hcall] at h
  cases ho : outcomes n .getFileList with
  | works =>
    simp only [ho, hostCall, Except.ok.injEq, Option.some.injEq] at h
    exact h.symm
  | prints | raises => simp [ho] at h

theorem OnlyRegistered.failingRestarted {s : Server δ} (h : OnlyRegistered s) (conn : Conn) :
    OnlyRegistered (failingRestarted E env d outcomes s conn).server := by
  have hcleared : OnlyRegistered { s with clientMap := fun _ => none, fileMap := fun _ => none } :=
    h.maps (fun p file hp => nomatch hp) (fun x c hx => nomatch hx)
  let R : List (Bytes × Str × Str) → World δ × ℕ → Prop := fun files s =>
    OnlyRegistered s.1.server ∧ ∀ item ∈ files,
      s.1.server.database.clientExistsById item.1 = true ∧ item.2.2 = filePath item.1 item.2.1
  have hstep : ∀ files c (s : World δ × ℕ), loads.allowed files c → R files s →
      R (loads.after files c (failingMachine E env d outcomes c s).1)
        (failingMachine E env d outcomes c s).2 := by
    rintro files c ⟨w, n⟩ hallowed ⟨hw, hfiles⟩
    cases c with
    | recv k => exact hallowed.elim
    | send data => exact hallowed.elim
    | host c =>
    have hadmissible : Admissible w.server.database c := by
      cases c with
      | fileMapPut path file =>
        obtain ⟨item, hitem, rfl⟩ := hallowed
        exact ⟨item.1, item.2.1, hfiles item hitem⟩
      | clientAddFile clientId path file =>
        obtain ⟨item, hitem, rfl⟩ := hallowed
        exact (hfiles item hitem).1
      | clientMapPut clientId client => exact hallowed
      | clearMaps | getClientList | getFileList => trivial
      | _ => exact hallowed.elim
    have hafter : ∀ item ∈ loads.after files (.host c)
        (failingMachine E env d outcomes (.host c) (w, n)).1,
        w.server.database.clientExistsById item.1 = true ∧
          item.2.2 = filePath item.1 item.2.1 := by
      intro item hitem
      cases c with
      | getFileList =>
        cases hr : (failingMachine E env d outcomes (.host .getFileList) (w, n)).1 with
        | error e =>
          rw [hr] at hitem
          exact hfiles item hitem
        | ok answer =>
          cases answer with
          | none =>
            rw [hr] at hitem
            exact hfiles item hitem
          | some read =>
            rw [hr] at hitem
            have hmem : item ∈ w.server.database.getFileList :=
              failing_getFileList E env d outcomes w n hr ▸ hitem
            obtain ⟨row, hrow, rfl⟩ := List.mem_map.mp hmem
            exact ⟨hw.rows row hrow, hw.pathname row hrow⟩
      | _ => exact hfiles item hitem
    rcases failing_server E env d outcomes w n c with hsame | hcalled
    · refine ⟨?_, ?_⟩
      · rw [hsame]
        exact hw
      · rw [hsame]
        exact hafter
    · refine ⟨?_, ?_⟩
      · rw [hcalled]
        exact hw.hostCall E env hadmissible
      · rw [hcalled]
        exact fun item hitem =>
          ⟨exists_hostCall E env c _ _ (hafter item hitem).1, (hafter item hitem).2⟩
  obtain ⟨_, hR, _⟩ := obeys_loadDataFromDatabase.run (failingMachine E env d outcomes)
    (R := R) hstep (s := (⟨{ s with clientMap := fun _ => none, fileMap := fun _ => none }, conn⟩, 0))
    ⟨hcleared, fun item hitem => nomatch hitem⟩
  exact hR.1

theorem FailingRun.onlyRegistered {E : Externals} {s : Server δ} (h : FailingRun E s) :
    OnlyRegistered s := by
  induction h with
  | start disk =>
    refine ⟨?_, ?_, ?_, ?_⟩
    · exact fun row hrow => nomatch hrow
    · exact fun row hrow => nomatch hrow
    · exact fun p file hp => nomatch hp
    · exact fun x client hx => nomatch hx
  | request env d outcomes request payload conn _ ih =>
    exact OnlyRegistered.failingHandled E env d outcomes (w := ⟨_, conn⟩) ih
  | restart env d outcomes conn _ ih => exact ih.failingRestarted E env d outcomes conn

end Runs

section Unregistered

theorem updateLastSeen_unregistered {db : Database} {clientId : Bytes}
    (hid : db.clientExistsById clientId = false) (now : Str) :
    db.updateLastSeen now clientId = db := by
  have hrows : db.clients.map (fun row =>
      if row.clientId = clientId then { row with lastSeen := some now } else row) = db.clients := by
    refine KeyedTable.map_eq_self.mpr fun row hrow => if_neg fun he => ?_
    exact Bool.eq_false_iff.mp hid (Database.clientExistsById_iff.mpr ⟨row, hrow, he⟩)
  rw [Database.updateLastSeen, hrows]

section Stores

variable {s : Server δ} (h : OnlyRegistered s) {clientId : Bytes}
  (hid : s.database.clientExistsById clientId = false)
include h hid

omit [FileSystem δ] in
theorem OnlyRegistered.no_row {row : FileRow} (hrow : row ∈ s.database.files) :
    row.clientId ≠ clientId := by
  rintro rfl
  rw [h.rows row hrow] at hid
  cases hid

omit [FileSystem δ] in
theorem OnlyRegistered.updateCksumVerification_eq (now filename : Str) (v : Bool) :
    s.database.updateCksumVerification now clientId filename v = s.database := by
  have hfiles : s.database.files.map (fun row =>
      if row.clientId = clientId ∧ row.filename = filename then { row with verified := v }
      else row) = s.database.files :=
    KeyedTable.map_eq_self.mpr fun row hrow => if_neg fun he => h.no_row hid hrow he.1
  rw [Database.updateCksumVerification, hfiles]
  exact updateLastSeen_unregistered hid now

omit [FileSystem δ] in
theorem OnlyRegistered.deleteFileOfClient_eq (now filename : Str) :
    s.database.deleteFileOfClient now clientId filename = s.database := by
  have hfiles : s.database.files.filter (fun row =>
      ¬ (row.clientId = clientId ∧ row.filename = filename)) = s.database.files := by
    refine List.filter_eq_self.mpr fun row hrow => decide_eq_true fun he => ?_
    exact h.no_row hid hrow he.1
  rw [Database.deleteFileOfClient, hfiles]
  exact updateLastSeen_unregistered hid now

omit [FileSystem δ] in
theorem OnlyRegistered.fileMap_eq (filename : Str) :
    s.fileMap (filePath clientId filename) = none := by
  cases hf : s.fileMap (filePath clientId filename) with
  | none => rfl
  | some file =>
    obtain ⟨x, f, hx, hp⟩ := h.fileMap _ file hf
    rw [(filePath_inj.mp hp).1, hx] at hid
    cases hid

/-- The calls of an unregistered client that change nothing. -/
def Harmless (clientId : Bytes) : HostCall → Prop
  | .getClientName _ | .pathExists _ | .clientMapGet _ | .fileMapGet _ => True
  | .updateCksumVerification x _ _ | .deleteFileOfClient x _ | .clientRemoveFile x _ =>
    x = clientId
  | .fileMapPop path => ∃ filename, path = filePath clientId filename
  | _ => False

theorem OnlyRegistered.harmless {c : HostCall} (hc : Harmless clientId c) :
    (ServerCalls.hostCall E env c s).2 = s := by
  cases c with
  | updateCksumVerification x filename verified =>
    obtain rfl := hc
    simp only [ServerCalls.hostCall, h.updateCksumVerification_eq hid]
  | deleteFileOfClient x filename =>
    obtain rfl := hc
    simp only [ServerCalls.hostCall, h.deleteFileOfClient_eq hid]
  | clientRemoveFile x path =>
    obtain rfl := hc
    simp only [ServerCalls.hostCall]
    split
    · rename_i client hclient
      simp [h.clientMap x client hclient hid]
    · rfl
  | fileMapPop path =>
    obtain ⟨filename, rfl⟩ := hc
    simp [ServerCalls.hostCall, h.fileMap_eq hid]
  | getClientName | pathExists | clientMapGet | fileMapGet => rfl
  | _ => exact hc.elim

end Stores

variable {w : World δ} {request : Request} {payload : Bytes}

theorem run_failing_sure {α : Type} {p : Proc α}
    (h : Issues (Within True fun c => swallowed (.host c) = none) p) (w : World δ) (n : ℕ) :
    run (failingMachine E env d outcomes) p (w, n) =
      ((run (machine E env d) p w).1, ((run (machine E env d) p w).2, n)) := by
  apply run_disturbed_calm
  apply h.mono
  intro c hc
  cases c with
  | host c =>
    refine ⟨?_, fun n => ?_⟩
    · exact congrArg Option.isSome hc
    · exact congrArg (fun a => Option.bind a _) hc
  | _ => exact ⟨rfl, fun _ => rfl⟩

theorem within_answerKey (request : Request) (publicKey aesKey : Bytes) :
    Issues (Within True fun c => swallowed (.host c) = none)
      (answerKey E request publicKey aesKey) := by
  refine .bind (.ofOption _ _) fun _ => .bind (within_host rfl) fun cipher => ?_
  refine .bind (.ofOption _ _) fun response => .bind (.ofOption _ _) fun data => ?_
  exact within_send _

/-- The keys of the name in the payload are set where the update works, and the answer comes
after it. -/
theorem run_failing_sendAesKeyToClient {clientName : Str} {publicKey : Bytes}
    (hkey : keyRequest payload = some (clientName, publicKey)) :
    (run (failingMachine E env d outcomes) (sendAesKeyToClient E request payload) (w, 1)).2.1 =
      if outcomes 1 (.getClientName request.clientId) = .raises then w
      else match outcomes 2 (.insertKeysOfClient clientName publicKey (env.random aesKeySize)) with
        | .works => (run (machine E env d)
            (answerKey E request publicKey (env.random aesKeySize))
            ⟨setKeys env.now clientName publicKey (env.random aesKeySize) w.server, w.conn⟩).2
        | .prints => (run (machine E env d)
            (answerKey E request publicKey (env.random aesKeySize)) w).2
        | .raises => w := by
  have hdraw (n : ℕ) := failing_sure E env d outcomes w n (c := .getRandomBytes aesKeySize) rfl
  have hset := failing_method E env d outcomes w 2
    (c := .insertKeysOfClient clientName publicKey (env.random aesKeySize)) rfl
  have hrest (w' : World δ) (n : ℕ) := run_failing_sure E env d outcomes
    (within_answerKey E request publicKey (env.random aesKeySize)) w' n
  rw [sendAesKeyToClient_eq E hkey, run_guarded, run_failing_getClientName]
  split_ifs
  · rfl
  · simp only [run_bind, andThen_ok, host_eq, run_call, hdraw, hostCall, hset, run_done]
    cases outcomes 2 (.insertKeysOfClient clientName publicKey (env.random aesKeySize)) with
    | works => exact congrArg (fun r => r.2.1) (hrest _ _)
    | prints => exact congrArg (fun r => r.2.1) (hrest _ _)
    | raises => rfl

theorem run_failing_sendAesKeyToClient_server {clientName : Str} {publicKey : Bytes}
    (hkey : keyRequest payload = some (clientName, publicKey)) :
    (run (failingMachine E env d outcomes) (sendAesKeyToClient E request payload)
        (w, 1)).2.1.server =
      if outcomes 1 (.getClientName request.clientId) ≠ .raises ∧
          outcomes 2 (.insertKeysOfClient clientName publicKey (env.random aesKeySize)) = .works then
        setKeys env.now clientName publicKey (env.random aesKeySize) w.server
      else w.server := by
  have hanswer (w' : World δ) : (run (machine E env d)
      (answerKey E request publicKey (env.random aesKeySize)) w').2.server = w'.server := by
    rw [run_answerKey]
    split <;> rfl
  rw [run_failing_sendAesKeyToClient E env d outcomes hkey]
  by_cases hname : outcomes 1 (.getClientName request.clientId) = .raises
  · rw [if_pos hname, if_neg fun hboth => hboth.1 hname]
  · rw [if_neg hname]
    cases outcomes 2 (.insertKeysOfClient clientName publicKey (env.random aesKeySize)) with
    | works => exact (hanswer _).trans (if_pos ⟨hname, rfl⟩).symm
    | prints => exact (hanswer _).trans (if_neg fun hboth => nomatch hboth.2).symm
    | raises => exact (if_neg fun hboth => nomatch hboth.2).symm

theorem run_failing_sendAesKeyToClient_malformed (hkey : keyRequest payload = none) :
    (run (failingMachine E env d outcomes) (sendAesKeyToClient E request payload)
        (w, 1)).2.1.server = w.server := by
  rw [sendAesKeyToClient, run_guarded, run_failing_getClientName]
  split_ifs
  · rfl
  · cases hu : unpack publicKeyFormat payload with
    | none => simp
    | some fields =>
      have hd : decodeUtf8 fields.1 = none := by simpa [keyRequest, hu] using hkey
      simp [decode, hd]

theorem OnlyRegistered.run_harmless (h : OnlyRegistered w.server) {clientId : Bytes}
    (hid : w.server.database.clientExistsById clientId = false) {α : Type} {p : Proc α}
    (hp : Issues (Within True (Harmless clientId)) p) (n : ℕ) :
    (run (failingMachine E env d outcomes) p (w, n)).2.1.server = w.server := by
  refine failing_preserves E env d outcomes hp (P := fun s => s = w.server) ?_ rfl
  rintro c _ hc rfl
  exact h.harmless E env hid hc

theorem harmless_handleCksumOk :
    Issues (Within True (Harmless request.clientId)) (handleCksumOk E request) := by
  apply within_guarded
  refine .bind (within_host trivial) fun _ => .bind (within_recv _) fun field => ?_
  refine .bind (within_readFilename E _) fun filename => .bind (within_host rfl) fun _ => ?_
  exact within_respond _ _

theorem harmless_handleCksumErr :
    Issues (Within True (Harmless request.clientId)) (handleCksumErr request) := by
  apply within_guarded
  refine .bind (.bind (within_recv _) fun field => .bind (.ofOption _ _) fun _ => ?_) fun _ =>
    within_pure _
  exact .bind (within_host trivial) fun _ => within_pure _

theorem harmless_forget (clientId : Bytes) (filename : Str) :
    Issues (Within True (Harmless clientId)) (do
      (do
        host (.deleteFileOfClient clientId filename)
        forgetOwned clientId (filePath clientId filename)
        forgetFile (filePath clientId filename))
      respond serverCodeMessageReceived clientId) := by
  refine .bind ?_ fun _ => within_respond _ _
  refine .bind (within_host rfl) fun _ => .bind (within_forgetOwned trivial rfl) fun _ => ?_
  exact within_forgetFile trivial ⟨filename, rfl⟩

theorem run_failing_unregistered_upload
    (hid : w.server.database.clientExistsById request.clientId = false) (n : ℕ) :
    (run (failingMachine E env d outcomes) (handleFileRequest E request) (w, n)).2.1.server =
      w.server := by
  have hrecv := run_failing_recv E env d outcomes w n 275
  cases hheader : uploadHeader E (w.conn.recv d 275).1 with
  | none => rw [run_handleFileRequest_headless E hrecv hheader]
  | some header =>
    rw [run_failing_handleFileRequest E env d outcomes n hheader]
    rcases run_failing_processFileContent E env d outcomes
      ⟨w.server, ((w.conn.recv d 275).2.recv d header.1).2⟩ request header.2
      ((w.conn.recv d 275).2.recv d header.1).1 n with hsame | ⟨content, hcontent, _⟩
    · rw [hsame]
    · rw [exists_of_contentOf E hcontent] at hid
      cases hid

theorem run_failing_removeStored (path : Str) (n : ℕ) :
    run (failingMachine E env d outcomes) (removeStored path) (w, n) =
      ((onDisk w.server (removed w.server.disk path)).1,
        ({ w with server := (onDisk w.server (removed w.server.disk path)).2 }, n)) := by
  have hexists := failing_sure E env d outcomes w n (c := .pathExists path) rfl
  have hremove := failing_sure E env d outcomes w n (c := .remove path) rfl
  by_cases hp : FileSystem.pathExists w.server.disk path = true <;>
    simp [removeStored, hexists, hremove, hostCall, removed, hp, onDisk]

theorem OnlyRegistered.run_handleCksumErrFinal (h : OnlyRegistered w.server)
    (hid : w.server.database.clientExistsById request.clientId = false) :
    (run (failingMachine E env d outcomes) (ServerHandlers.handleCksumErrFinal E request)
        (w, 1)).2.1.server =
      (filenameOf E (w.conn.recv d 255).1).elim w.server (fun filename =>
        if outcomes 1 (.getClientName request.clientId) = .raises then w.server
        else (ServerCalls.onDisk w.server
          (removed w.server.disk (filePath request.clientId filename))).2) := by
  cases hname : filenameOf E (w.conn.recv d 255).1 with
  | none => simp [handleCksumErrFinal, filenameLength, run_readFilename, hname]
  | some filename =>
    simp only [handleCksumErrFinal, filenameLength, run_guarded, run_bind, run_failing_recv,
      andThen_ok, run_readFilename, hname, Option.elim_some]
    rw [← run_bind, run_failing_getClientName]
    split_ifs with hraises
    · rfl
    · simp only [deleteFile, run_bind, run_failing_removeStored]
      cases hdisk : removed w.server.disk (filePath request.clientId filename) with
      | none => rfl
      | some disk =>
        have hdisk : OnlyRegistered { w.server with disk := disk } := h.onDisk (some disk)
        have hrest := hdisk.run_harmless E env d outcomes
          (w := ⟨{ w.server with disk := disk }, (w.conn.recv d 255).2⟩) hid
          (harmless_forget request.clientId filename) 2
        simpa only [ServerCalls.onDisk, andThen_ok, run_bind] using hrest

end Unregistered

/-- What is relied on of the disk: a file is removed exactly where it can be read. -/
structure FilesRemoved (δ : Type) [FileSystem δ] : Prop where
  agree : FilesAgree δ
  removes : ∀ (disk : δ) (path : Str),
    (FileSystem.remove disk path).isSome = (FileSystem.readFile disk path).isSome

theorem filesRemoved_keyedDisk : FilesRemoved KeyedDisk := by
  refine ⟨filesAgree_keyedDisk, ?_⟩
  intro disk path
  show (disk.remove path).isSome = (disk.readFile path).isSome
  unfold KeyedDisk.remove KeyedDisk.readFile
  by_cases hn : nul ∈ path <;> cases hf : disk.files path <;> simp [hn]

theorem filesRemoved_disk : FilesRemoved WindowsPaths.Disk := by
  refine ⟨filesAgree_disk, ?_⟩
  intro disk path
  show (disk.remove path).isSome = (disk.readFile path).isSome
  unfold WindowsPaths.Disk.remove WindowsPaths.Disk.readFile
  split_ifs <;> simp_all

variable (s : Server δ) (request : Request) (payload : Bytes) (conn : Conn)

/-- The request of an unregistered client takes effect: the gate cannot connect, the query of the
client's name can, and either the keys of a row of the name in the payload are replaced or a file
that the name leads to is removed. -/
def TakesEffect : Prop :=
  outcomes 0 (.clientExistsById request.clientId) = .raises ∧
    outcomes 1 (.getClientName request.clientId) ≠ .raises ∧
    match kindOf request.code with
    | .sendPublicKey => ∃ clientName publicKey,
      keyRequest payload = some (clientName, publicKey) ∧
        outcomes 2 (.insertKeysOfClient clientName publicKey (env.random aesKeySize)) = .works ∧
        ∃ row ∈ s.database.clients, row.clientName = clientName ∧
          (row.publicKey, row.aesKey, row.lastSeen) ≠
            (some publicKey, some (env.random aesKeySize), some env.now)
    | .cksumErrFinal => ∃ filename, filenameOf E (conn.recv d 255).1 = some filename ∧
        (FileSystem.readFile s.disk (filePath request.clientId filename)).isSome = true
    | _ => False

omit [FileSystem δ] in
theorem setKeys_eq_self {s : Server δ} {now clientName : Str} {publicKey aesKey : Bytes} :
    setKeys now clientName publicKey aesKey s = s ↔
      ¬ ∃ row ∈ s.database.clients, row.clientName = clientName ∧
        (row.publicKey, row.aesKey, row.lastSeen) ≠ (some publicKey, some aesKey, some now) := by
  have hclients : setKeys now clientName publicKey aesKey s = s ↔
      (s.database.insertKeysOfClient now clientName publicKey aesKey).clients =
        s.database.clients := by
    constructor
    · exact fun he => congrArg (fun s => s.database.clients) he
    · intro he
      have hdb : s.database.insertKeysOfClient now clientName publicKey aesKey = s.database :=
        congrArg (fun rows => Database.mk rows s.database.files) he
      rw [setKeys, hdb]
  rw [hclients, Database.insertKeysOfClient, KeyedTable.map_eq_self]
  push Not
  refine forall₂_congr fun row _ => ?_
  obtain ⟨x, name, oldPublic, oldSeen, oldAes⟩ := row
  by_cases hn : name = clientName
  · simp only [hn, ↓reduceIte, ClientRow.mk.injEq, true_and, true_implies, Prod.mk.injEq]
    constructor
    · rintro ⟨hp, hl, ha⟩
      exact ⟨hp.symm, ha.symm, hl.symm⟩
    · rintro ⟨hp, ha, hl⟩
      exact ⟨hp.symm, hl.symm, ha.symm⟩
  · simp [hn]

theorem onDisk_removed_eq_self (hδ : FilesRemoved δ) {s : Server δ} {path : Str} :
    (onDisk s (removed s.disk path)).2 = s ↔
      ¬ (FileSystem.readFile s.disk path).isSome = true := by
  have hremoves := hδ.removes s.disk path
  cases hread : FileSystem.readFile s.disk path with
  | none =>
    rw [hread, Option.isSome_none, Option.isSome_eq_false_iff, Option.isNone_iff_eq_none]
      at hremoves
    refine iff_of_true ?_ (by decide)
    unfold removed
    split_ifs
    · rw [hremoves]
      rfl
    · rfl
  | some content =>
    have hseen : FileSystem.pathExists s.disk path = true := by
      by_contra hunseen
      have hnone := hδ.agree.unseen _ _ (Bool.eq_false_iff.mpr hunseen)
      rw [hread] at hnone
      cases hnone
    rw [hread, Option.isSome_some] at hremoves
    obtain ⟨disk, hdisk⟩ := Option.isSome_iff_exists.mp hremoves
    refine iff_of_false ?_ (fun hnot => hnot rfl)
    rw [removed, if_pos hseen, hdisk]
    intro he
    have hgone := hδ.agree.removed _ _ _ hdisk
    have hsame : disk = s.disk := congrArg Server.disk he
    rw [hsame, hread] at hgone
    cases hgone

variable {s request} in
/-- After any run with failures, and for any failures: a request of an unregistered client changes
nothing exactly where it does not take effect. -/
theorem unregistered_without_effect_iff (hδ : FilesRemoved δ) (h : FailingRun E s)
    (hc : request.code ≠ clientCodeRegister)
    (hid : s.database.clientExistsById request.clientId = false) :
    (failingHandled E env d outcomes request payload ⟨s, conn⟩).server = s ↔
      ¬ TakesEffect E env d outcomes s request payload conn := by
  have hs := h.onlyRegistered
  by_cases hgate : outcomes 0 (.clientExistsById request.clientId) = .raises
  · have hpass : letsPass outcomes s.database request.clientId = true := by
      simp only [letsPass, hgate]
    rw [failingHandled_passed E env d outcomes hc hpass, dispatch_eq, TakesEffect]
    cases hk : kindOf request.code with
    | register => exact absurd (kindOf_eq_register.mp hk) hc
    | sendFile =>
      refine iff_of_true ?_ (fun ht => ht.2.2)
      exact run_failing_unregistered_upload E env d outcomes (w := ⟨s, conn⟩) hid 1
    | cksumOk =>
      refine iff_of_true ?_ (fun ht => ht.2.2)
      exact hs.run_harmless E env d outcomes (w := ⟨s, conn⟩) hid (harmless_handleCksumOk E) 1
    | cksumErr =>
      refine iff_of_true ?_ (fun ht => ht.2.2)
      exact hs.run_harmless E env d outcomes (w := ⟨s, conn⟩) hid harmless_handleCksumErr 1
    | unknown => exact iff_of_true rfl (fun ht => ht.2.2)
    | sendPublicKey =>
      simp only
      cases hkey : keyRequest payload with
      | none =>
        refine iff_of_true ?_ ?_
        · exact run_failing_sendAesKeyToClient_malformed E env d outcomes (w := ⟨s, conn⟩) hkey
        · rintro ⟨_, _, _, _, hsome, _⟩
          cases hsome
      | some key =>
        rw [run_failing_sendAesKeyToClient_server E env d outcomes (w := ⟨s, conn⟩) hkey]
        by_cases hset : outcomes 1 (.getClientName request.clientId) ≠ .raises ∧
            outcomes 2 (.insertKeysOfClient key.1 key.2 (env.random aesKeySize)) = .works
        · rw [if_pos hset, setKeys_eq_self, not_iff_not]
          constructor
          · exact fun hrow => ⟨hgate, hset.1, key.1, key.2, rfl, hset.2, hrow⟩
          · rintro ⟨_, _, _, _, ⟨⟩, _, hrow⟩
            exact hrow
        · rw [if_neg hset]
          refine iff_of_true rfl ?_
          rintro ⟨_, hname, _, _, ⟨⟩, hworks, _⟩
          exact hset ⟨hname, hworks⟩
    | cksumErrFinal =>
      simp only
      rw [hs.run_handleCksumErrFinal E env d outcomes (w := ⟨s, conn⟩) hid]
      cases hname : filenameOf E (conn.recv d 255).1 with
      | none =>
        refine iff_of_true rfl ?_
        rintro ⟨_, _, _, hsome, _⟩
        cases hsome
      | some filename =>
        simp only [Option.elim_some]
        by_cases hraises : outcomes 1 (.getClientName request.clientId) = .raises
        · rw [if_pos hraises]
          exact iff_of_true rfl fun ht => ht.2.1 hraises
        · rw [if_neg hraises, onDisk_removed_eq_self hδ, not_iff_not]
          constructor
          · exact fun hread => ⟨hgate, hraises, filename, rfl, hread⟩
          · rintro ⟨_, _, _, ⟨⟩, hread⟩
            exact hread
  · refine iff_of_true ?_ (fun ht => hgate ht.1)
    have hstop : letsPass outcomes s.database request.clientId = false := by
      unfold letsPass
      split
      · exact hid
      · rfl
      · contradiction
    exact failingHandled_turnedAway E env d outcomes hc hstop

def strangersHeader : Request := ⟨List.replicate 16 9, 3, clientCodeSendPublicKey, 415⟩

def gateRaises : Outcomes := fun n _ => if n = 0 then .raises else .works

theorem unregistered_without_effect_iff_twoClients :
    (failingHandled plainCiphers (constantDraws 3) .whole gateRaises strangersHeader
      (padField 255 ['a'] ++ derKey)
      ⟨twoClients, ⟨[], 0, [], []⟩⟩).server = twoClients ↔
      ¬ TakesEffect plainCiphers (constantDraws 3) .whole gateRaises twoClients strangersHeader
        (padField 255 ['a'] ++ derKey) ⟨[], 0, [], []⟩ :=
  unregistered_without_effect_iff _ _ _ _ _ _ filesRemoved_keyedDisk (.ofRun run_twoClients)
    (by decide) (by decide)

/-- The gate cannot connect, and a stranger replaces the keys of the client `a`. -/
theorem stranger_replaces_keys :
    FailingRun plainCiphers twoClients ∧
      twoClients.database.clientExistsById strangersHeader.clientId = false ∧
      twoClients.database.getAesKeyOfClient (List.replicate 16 1) = none ∧
      (failingHandled plainCiphers (constantDraws 3) .whole gateRaises strangersHeader
        (padField 255 ['a'] ++ derKey)
        ⟨twoClients, ⟨[], 0, [], []⟩⟩).server.database.getAesKeyOfClient (List.replicate 16 1) =
        some (List.replicate 16 3) := by
  have hkey : keyRequest (padField 255 ['a'] ++ derKey) =
      some (['a'], derKey) :=
    keyRequest_padField (by decide) (by decide) length_derKey
  refine ⟨.ofRun run_twoClients, by decide, by decide, ?_⟩
  have hk : kindOf strangersHeader.code = .sendPublicKey := by decide
  rw [failingHandled_passed _ _ _ _ (by decide) rfl, dispatch_eq, hk]
  simp only
  rw [run_failing_sendAesKeyToClient_server _ _ _ _ hkey]
  rfl

end EncryptedTransfer.GateFailures
