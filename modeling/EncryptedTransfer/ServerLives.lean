import EncryptedTransfer.Reload
import EncryptedTransfer.StoreInvariants

/-!
# Lives of the server

A process loads the maps and serves any number of sessions, whose database statements interleave
and fail in any way, until it is killed at any point; the next process starts from the tables and
the disk that are left.
-/
namespace EncryptedTransfer.ServerLives
open ByteFormats Text ServerStores ServerCalls ServerHandlers ServerThreads ServerConsistency
open CryptoLaws FaultyDatabase GateFailures DatabaseMethods StoreInvariants Reload Transactions
open ThreadPools Interaction Program

variable {δ : Type} [FileSystem δ] (E : Externals)

/-- The states of the stores a server reaches over all its processes. -/
inductive Life (E : Externals) : Server δ → Prop
  | start (disk : δ) : Life E ⟨.empty, disk, fun _ => none, fun _ => none⟩
  | process {s : Server δ} (h : Life E s) (env : Draws) (d : Delivery) (outcomes : Outcomes)
      (conn : Conn) {p : Pool (accesses sqlite calls Str) PyError (Connections sqlite (Server δ))}
      (hp : Run (statement E) (statementTurn E) anything
        (.fresh (failingRestarted E env d outcomes s conn).server) p) : Life E p.state.state

theorem run_forM_keeps {I : Interface} {ε α σ : Type} {M : Machine I ε σ}
    {f : α → Program I ε Unit} {P : σ → Prop} {xs : List α}
    (h : ∀ x ∈ xs, ∀ s, P s → P (run M (f x) s).2) {s : σ} (hs : P s) :
    P (run M (forM xs f) s).2 := by
  induction xs generalizing s with
  | nil => exact hs
  | cons x xs ih =>
    rw [List.forM_cons, run_bind]
    have hx := h x List.mem_cons_self s hs
    generalize run M (f x) s = r at hx ⊢
    obtain ⟨r | r, s'⟩ := r
    · exact hx
    · exact ih (fun y hy => h y (List.mem_cons_of_mem x hy)) hx

variable (env : Draws) (d : Delivery) (outcomes : Outcomes) {db : Database}

/-- Ordered stores over given tables. -/
def Over (db : Database) (s : World δ × ℕ) : Prop :=
  Ordered s.1.server ∧ s.1.server.database = db

theorem Over.call {s : World δ × ℕ} (h : Over db s) {g : Given}
    (hkeyed : ∀ clientId ∈ g.keyed, HasKey db clientId)
    (hdrawn : ∀ clientId, g.drawn = some clientId → clientId.length = 16) {c : HostCall}
    (hallowed : keyMonitor.allowed g (.host c)) (hm : method (.host c) = none) :
    Over db (failingMachine E env d outcomes (.host c) s).2 := by
  obtain ⟨w, n⟩ := s
  have hknows : Knows w.server g := ⟨fun x hx => h.2 ▸ hkeyed x hx, hdrawn⟩
  have hsure : swallowed (.host c) = none := by
    simpa [hm] using (method_isSome (.host c)).symm
  rw [failing_sure E env d outcomes w n hsure]
  have hserver := h.1.shared E hknows hallowed ⟨env, .ok [], .ok ()⟩
  have hdatabase := shared_database E w.server hm ⟨env, .ok [], .ok ()⟩
  exact ⟨hserver, hdatabase.trans h.2⟩

theorem over_loadClient (hdb : Filed db) {item : Bytes × Str} (hitem : item ∈ db.getClientList)
    {s : World δ × ℕ} (h : Over db s) :
    Over db (run (failingMachine E env d outcomes) (loadClient item) s).2 := by
  obtain ⟨row, hrow, rfl⟩ := List.mem_map.mp hitem
  refine h.call E env d outcomes (g := ⟨[], some row.clientId⟩) (fun _ hx => (by cases hx)) ?_
    ⟨rfl, row.clientName, rfl⟩ rfl
  rintro _ ⟨⟩
  exact hdb.idLength row hrow

theorem over_loadFile (hdb : Filed db) {item : Bytes × Str × Str} (hitem : item ∈ db.getFileList)
    {s : World δ × ℕ} (h : Over db s) :
    Over db (run (failingMachine E env d outcomes) (loadFile item) s).2 := by
  obtain ⟨row, hrow, rfl⟩ := List.mem_map.mp hitem
  have hkeyed : ∀ clientId ∈ [row.clientId], HasKey db clientId := by
    intro clientId hx
    rw [List.mem_singleton.mp hx]
    exact hdb.keyed row hrow
  have hput := h.call E env d outcomes (g := ⟨[row.clientId], none⟩)
    (c := .fileMapPut row.pathname (.new row.clientId row.filename row.pathname)) hkeyed
    (fun _ hx => (by cases hx))
    ⟨row.clientId, row.filename, List.mem_singleton_self _, hdb.pathname row hrow, rfl⟩ rfl
  rw [loadFile, host, run_bind, run_issue]
  generalize failingMachine E env d outcomes (.host (.fileMapPut _ _)) s = r at hput ⊢
  obtain ⟨r | r, s'⟩ := r
  · exact hput
  · exact hput.call E env d outcomes (g := ⟨[row.clientId], none⟩) hkeyed
      (fun _ hx => (by cases hx))
      ⟨row.clientId, row.filename, ⟨rfl, List.mem_singleton_self _⟩, hdb.pathname row hrow, rfl⟩
      rfl

theorem over_bind {α : Type} {p : Proc α} {f : α → Proc Unit} {s : World δ × ℕ}
    (hp : Over db (run (failingMachine E env d outcomes) p s).2)
    (hf : ∀ a s', run (failingMachine E env d outcomes) p s = (.ok a, s') → Over db s' →
      Over db (run (failingMachine E env d outcomes) (f a) s').2) :
    Over db (run (failingMachine E env d outcomes) (p >>= f) s).2 := by
  rw [run_bind]
  generalize hr : run (failingMachine E env d outcomes) p s = r at hp
  obtain ⟨r | a, s'⟩ := r
  · exact hp
  · exact hf a s' hr hp

theorem over_query {α : Type} {s : World δ × ℕ} {q : Proc (Option α)} {items : α}
    (hq : Over db (run (failingMachine E env d outcomes) q s).2)
    (hanswer : ∀ r, (run (failingMachine E env d outcomes) q s).1 = .ok r →
      r = some items ∨ r = none)
    {k : α → Proc Unit}
    (hk : ∀ s : World δ × ℕ, Over db s →
      Over db (run (failingMachine E env d outcomes) (k items) s).2) :
    Over db (run (failingMachine E env d outcomes) (do
      let answer ← q
      let items ← ofOption .typeError answer
      k items) s).2 := by
  refine over_bind E env d outcomes hq fun answer s' hs' h' => ?_
  rcases hanswer answer (by rw [hs']) with rfl | rfl
  · exact hk s' h'
  · exact h'

theorem over_getClientList {s : World δ × ℕ} (h : Over db s) :
    Over db (run (failingMachine E env d outcomes) (host .getClientList) s).2 ∧
      ∀ r, (run (failingMachine E env d outcomes) (host .getClientList) s).1 = .ok r →
        r = some db.getClientList ∨ r = none := by
  obtain ⟨w, n⟩ := s
  rw [host, run_issue, failing_method E env d outcomes w n (c := .getClientList) rfl]
  cases outcomes n .getClientList with
  | works => exact ⟨h, fun r hr => .inl (h.2 ▸ (Except.ok.inj hr).symm)⟩
  | prints => exact ⟨h, fun r hr => .inr (Except.ok.inj hr).symm⟩
  | raises => exact ⟨h, fun r hr => by cases hr⟩

theorem over_getFileList {s : World δ × ℕ} (h : Over db s) :
    Over db (run (failingMachine E env d outcomes) (host .getFileList) s).2 ∧
      ∀ r, (run (failingMachine E env d outcomes) (host .getFileList) s).1 = .ok r →
        r = some db.getFileList ∨ r = none := by
  obtain ⟨w, n⟩ := s
  rw [host, run_issue, failing_method E env d outcomes w n (c := .getFileList) rfl]
  cases outcomes n .getFileList with
  | works => exact ⟨h, fun r hr => .inl (h.2 ▸ (Except.ok.inj hr).symm)⟩
  | prints => exact ⟨h, fun r hr => .inr (Except.ok.inj hr).symm⟩
  | raises => exact ⟨h, fun r hr => by cases hr⟩

/-- A new process is ordered, however far it has come with loading. -/
theorem ordered_failingRestarted {s : Server δ} (h : Ordered s) (conn : Conn) :
    Ordered (failingRestarted E env d outcomes s conn).server := by
  have hempty : Over s.database
      (⟨{ s with clientMap := fun _ => none, fileMap := fun _ => none }, conn⟩, 0) :=
    ⟨h.maps rfl (fun _ _ hc => (by cases hc)) fun _ _ hf => (by cases hf), rfl⟩
  suffices hloaded : Over s.database (run (failingMachine E env d outcomes) loadDataFromDatabase
      (⟨{ s with clientMap := fun _ => none, fileMap := fun _ => none }, conn⟩, 0)).2 from
    hloaded.1
  rw [loadDataFromDatabase, ServerEffects.run_guarded]
  refine over_bind E env d outcomes ?_ fun _ s' _ h' => ?_
  · exact hempty.call E env d outcomes (g := ⟨[], none⟩) (fun _ hx => (by cases hx))
      (fun _ hx => (by cases hx)) trivial rfl
  obtain ⟨hclients, hlist⟩ := over_getClientList E env d outcomes h'
  refine over_query E env d outcomes hclients hlist fun s' h' => ?_
  refine over_bind E env d outcomes ?_ fun _ s' _ h' => ?_
  · exact run_forM_keeps (fun item hitem _ => over_loadClient E env d outcomes h.filed hitem) h'
  obtain ⟨hfiles, hlist⟩ := over_getFileList E env d outcomes h'
  refine over_query E env d outcomes hfiles hlist fun s' h' => ?_
  exact run_forM_keeps (fun item hitem _ => over_loadFile E env d outcomes h.filed hitem) h'

variable {E}

theorem Life.ordered {s : Server δ} (h : Life E s) : Ordered s := by
  induction h with
  | start disk =>
    exact ⟨filed_empty, fun _ _ hc => (by cases hc), fun _ _ hf => (by cases hf)⟩
  | @process s h env d outcomes conn p hp ih =>
    obtain ⟨q, hq, hstate, _⟩ := exists_run_atomic (fun x c s h => shared_database E s h x) hp
    rw [atomic_shared] at hq
    rw [← hstate]
    exact ordered_of_run E (ordered_failingRestarted E env d outcomes ih conn) hq

/-- In every state the server can be killed in, the tables keep their keys and every file is filed
under its path and under a client that has a key; the maps hold clients and files under their own
keys. A process that starts from there and meets no failure builds maps that mirror the tables. -/
theorem life_reloads {s : Server δ} (h : Life E s) :
    Ordered s ∧ ∀ (env : Draws) (d : Delivery) (conn : Conn),
      run (machine E env d) loadDataFromDatabase ⟨s, conn⟩ = (.ok (), ⟨{ s with
        clientMap := loadedClients s.database, fileMap := loadedFiles s.database }, conn⟩) := by
  have hordered := h.ordered
  refine ⟨hordered, fun env d conn => ?_⟩
  apply run_loadDataFromDatabase_owned E env d ⟨s, conn⟩ hordered.filed.uniqueIds
    hordered.filed.uniquePaths
  intro row hrow
  obtain ⟨client, hclient, hid, _⟩ := hordered.filed.keyed row hrow
  exact KeyedTable.lookup_isSome.mpr ⟨client, hclient, hid⟩

/-- The accesses of one session: each read with what it is given, and how many follow it. -/
def accessing (thread : ℕ) (b : UInt8) (reads : List (Bytes × ℕ)) :
    List (ℕ × Transactions.Input Str ServerThreads.Input) :=
  (reads.flatMap fun read => read.1 :: List.replicate read.2 []).map fun data =>
    (thread, ⟨false, false, [], ⟨constantDraws b, .ok data, .ok ()⟩⟩)

def header (clientId : Bytes) (code : ℕ) (payload : Bytes) : Bytes :=
  clientId ++ (leBytes 1 3 ++ (leBytes 2 code ++ leBytes 4 payload.length))

/-- The client `a` registers, sends its key and uploads `f`. While the row of `f` is not committed,
the insert of a client `b` fails. -/
def uploading : List (ℕ × Transactions.Input Str ServerThreads.Input) :=
  accessing 0 1 [(header (List.replicate 16 0) clientCodeRegister [97], 0), ([97], 14),
      (header (List.replicate 16 1) clientCodeSendPublicKey (padField 255 ['a'] ++ derKey), 0),
      (padField 255 ['a'] ++ derKey, 19)] ++
    (accessing 1 2 [(header (List.replicate 16 0) clientCodeRegister [98], 0), ([98], 9)] ++
      (accessing 0 1 [(header (List.replicate 16 1) clientCodeSendFile [], 0), ([], 5),
          (List.replicate 16 1 ++ (leBytes 4 16 ++ padField 255 ['f']), 0), (pkcs7Pad [7], 27)] ++
        (accessing 1 2 [([], 2)] ++ accessing 0 1 [([], 4)])))

def confirming : List (ℕ × Transactions.Input Str ServerThreads.Input) :=
  accessing 0 1 [(header (List.replicate 16 1) clientCodeCksumOk [], 0), ([], 10),
    (padField 255 ['f'], 8)]

/-- The list of the files cannot be read. -/
def filesUnread : Outcomes
  | _, .getFileList => .prints
  | _, _ => .works

/-- What a process that is killed after some accesses leaves behind. -/
def left (outcomes : Outcomes) (schedule : List (ℕ × Transactions.Input Str ServerThreads.Input))
    (s : Server KeyedDisk) : Server KeyedDisk :=
  (Pool.play (statement plainCiphers) (statementTurn plainCiphers)
    (.start (statementTurn plainCiphers) (.fresh (failingRestarted plainCiphers (constantDraws 0)
      .whole outcomes s ⟨[], 0, [], []⟩).server)) schedule).state.state

theorem Life.left {s : Server KeyedDisk} (h : Life plainCiphers s) (outcomes : Outcomes)
    (schedule : List (ℕ × Transactions.Input Str ServerThreads.Input)) :
    Life plainCiphers (left outcomes schedule s) :=
  h.process (constantDraws 0) .whole outcomes ⟨[], 0, [], []⟩
    (Run.start.play (follows_free _ schedule))

/-- The server is killed after an upload, and a second process, which loads no files, is told that
it arrived. -/
theorem life_reloads_confirmed : ∃ s : Server KeyedDisk,
    (s.database.getClientList = [(List.replicate 16 1, ['a'])] ∧
      s.database.files =
        [⟨List.replicate 16 1, ['f'], filePath (List.replicate 16 1) ['f'], true⟩] ∧
      s.fileMap (filePath (List.replicate 16 1) ['f']) = none) ∧ Ordered s ∧
      ∀ (env : Draws) (d : Delivery) (conn : Conn),
        run (machine plainCiphers env d) loadDataFromDatabase ⟨s, conn⟩ =
          (.ok (), ⟨{ s with
            clientMap := loadedClients s.database, fileMap := loadedFiles s.database }, conn⟩) := by
  have hlife := ((Life.start KeyedDisk.empty).left (fun _ _ => .works) uploading).left filesUnread
    confirming
  exact ⟨left filesUnread confirming (left (fun _ _ => .works) uploading .empty), by decide +kernel,
    life_reloads hlife⟩

end EncryptedTransfer.ServerLives
