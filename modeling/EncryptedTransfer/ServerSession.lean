import EncryptedTransfer.ServerFootprints
import EncryptedTransfer.ServerRuns

/-!
# A session and its input

`session` as a loop over one connection: which requests it handles and what each of them
reads. What a program reads is compared between a connection that delivers pieces and one
that delivers every read whole.
-/
namespace EncryptedTransfer.ServerSession
open ByteFormats Text ServerStores ServerCalls ServerHandlers ServerEffects ServerFootprints
open ServerRuns Interaction Program

variable {δ : Type} [FileSystem δ]

section Reads

variable (E : Externals) (env : Draws) (d : Delivery) {α : Type}

def readsOf (p : Proc α) (w : World δ) : List Bytes :=
  (run (machine E env d) p w).2.conn.received.drop w.conn.received.length

/-- The delivery gives a read of this length at once. -/
def Enough (d : Delivery) (i len : ℕ) : Prop :=
  match d i with
  | none => True
  | some c => len ≤ max 1 c

/-- The delivery gives each of these reads at once, the first being its `i`-th. -/
def AllWhole (d : Delivery) : ℕ → List Bytes → Prop
  | _, [] => True
  | i, data :: rest => Enough d i data.length ∧ AllWhole d (i + 1) rest

theorem recv_eq_whole_iff (conn : Conn) (n : ℕ) :
    (conn.recv d n).1 = (conn.recv .whole n).1 ↔
      Enough d conn.reads (conn.recv .whole n).1.length := by
  have hw : Delivery.whole.amount conn n = min n conn.inbox.length := rfl
  have hlen : (conn.recv .whole n).1.length = min n conn.inbox.length := by
    simp only [Conn.recv, hw, List.length_take]
    omega
  rw [hlen, Enough]
  cases hd : d conn.reads with
  | none =>
    have ha : d.amount conn n = min n conn.inbox.length := by simp [Delivery.amount, hd]
    simp [Conn.recv, hw, ha]
  | some c =>
    have ha : d.amount conn n = min (min n conn.inbox.length) (max 1 c) := by
      simp [Delivery.amount, hd]
    simp only [Conn.recv, hw, ha]
    constructor
    · intro h
      have hl := congrArg List.length h
      simp only [List.length_take] at hl
      omega
    · intro h
      rw [min_eq_left h]

theorem amount_le (conn : Conn) (n : ℕ) : d.amount conn n ≤ conn.inbox.length := by
  unfold Delivery.amount
  split <;> omega

theorem amount_le_request (conn : Conn) (n : ℕ) : d.amount conn n ≤ n := by
  unfold Delivery.amount
  split <;> omega

theorem recv_eq_whole {conn : Conn} {n : ℕ} (h : (conn.recv d n).1 = (conn.recv .whole n).1) :
    conn.recv d n = conn.recv .whole n := by
  have hd := amount_le d conn n
  have hw := amount_le .whole conn n
  have hamount : d.amount conn n = Delivery.whole.amount conn n := by
    have hl := congrArg List.length h
    simp only [Conn.recv, List.length_take] at hl
    omega
  simp only [Conn.recv, hamount]

theorem run_received (p : Proc α) (w : World δ) :
    (run (machine E env d) p w).2.conn.received = w.conn.received ++ readsOf E env d p w ∧
      w.conn.inbox = (readsOf E env d p w).flatten ++ (run (machine E env d) p w).2.conn.inbox ∧
      (run (machine E env d) p w).2.conn.reads = w.conn.reads + (readsOf E env d p w).length := by
  have h : ∃ reads, (run (machine E env d) p w).2.conn.received = w.conn.received ++ reads ∧
      w.conn.inbox = reads.flatten ++ (run (machine E env d) p w).2.conn.inbox ∧
      (run (machine E env d) p w).2.conn.reads = w.conn.reads + reads.length := by
    induction p generalizing w with
    | done o => exact ⟨[], by simp⟩
    | call c next ih =>
      cases c with
      | recv n =>
        obtain ⟨reads, hr, hi, hn⟩ := ih (.ok (w.conn.recv d n).1)
          { w with conn := (w.conn.recv d n).2 }
        refine ⟨(w.conn.recv d n).1 :: reads, ?_, ?_, ?_⟩
        · rw [run_call, machine_recv, hr]
          simp [Conn.recv]
        · rw [run_call, machine_recv, List.flatten_cons, List.append_assoc, ← hi]
          simp [Conn.recv]
        · rw [run_call, machine_recv, hn]
          simp [Conn.recv]
          omega
      | send data => exact ih _ _
      | host c => exact ih _ _
  obtain ⟨reads, hr, hi, hn⟩ := h
  have he : readsOf E env d p w = reads := by rw [readsOf, hr, List.drop_left]
  rw [he]
  exact ⟨hr, hi, hn⟩

theorem readsOf_recv (n : ℕ) (next : Except PyError Bytes → Proc α) (w : World δ) :
    readsOf E env d (.call (.recv n) next) w =
      (w.conn.recv d n).1 :: readsOf E env d (next (.ok (w.conn.recv d n).1))
        { w with conn := (w.conn.recv d n).2 } := by
  have h := (run_received E env d (next (.ok (w.conn.recv d n).1))
    { w with conn := (w.conn.recv d n).2 }).1
  have hr : (w.conn.recv d n).2.received = w.conn.received ++ [(w.conn.recv d n).1] := rfl
  rw [readsOf, run_call, machine_recv, h, hr, List.append_assoc, List.drop_left]
  rfl

/-- Reading the same is having every read delivered at once, and then all is the same. -/
theorem readsOf_eq_whole_iff (p : Proc α) (w : World δ) :
    (readsOf E env d p w = readsOf E env .whole p w ↔
      AllWhole d w.conn.reads (readsOf E env .whole p w)) ∧
    (readsOf E env d p w = readsOf E env .whole p w →
      run (machine E env d) p w = run (machine E env .whole) p w) := by
  induction p generalizing w with
  | done o => simp [readsOf, AllWhole]
  | call c next ih =>
    cases c with
    | recv n =>
      rw [readsOf_recv, readsOf_recv, AllWhole, List.cons.injEq, ← recv_eq_whole_iff]
      by_cases hdata : (w.conn.recv d n).1 = (w.conn.recv .whole n).1
      · have hrecv := recv_eq_whole d hdata
        obtain ⟨hiff, hrun⟩ := ih (.ok (w.conn.recv .whole n).1)
          { w with conn := (w.conn.recv .whole n).2 }
        have hreads : (w.conn.recv .whole n).2.reads = w.conn.reads + 1 := rfl
        rw [hreads] at hiff
        simp only [hrecv, true_and, run_call, machine_recv]
        exact ⟨hiff, hrun⟩
      · simp [hdata]
    | send data => exact ih (.ok ()) { w with conn := w.conn.push data }
    | host c =>
      exact ih (hostCall E env c w.server).1 { w with server := (hostCall E env c w.server).2 }

end Reads

section Handlers

variable (E : Externals) (env : Draws) (d : Delivery) {α : Type}

theorem received_within {p : Proc α} {A : HostCall → Prop} (h : Issues (Within False A) p)
    (w : World δ) : (run (machine E env d) p w).2.conn.received = w.conn.received := by
  refine Issues.run_preserves (P := fun w' => w'.conn.received = w.conn.received)
    (machine E env d) h ?_ rfl
  intro c w' hc hw'
  cases c with
  | recv n => exact hc.elim
  | send data => exact hw'
  | host c => exact hw'

theorem readsOf_of_received {p : Proc α} {w : World δ} {reads : List Bytes}
    (h : (run (machine E env d) p w).2.conn.received = w.conn.received ++ reads) :
    readsOf E env d p w = reads := by
  rw [readsOf, h, List.drop_left]

theorem readsOf_within {p : Proc α} {A : HostCall → Prop} (h : Issues (Within False A) p)
    (w : World δ) : readsOf E env d p w = [] := by
  apply readsOf_of_received
  rw [received_within E env d h, List.append_nil]

variable (request : Request) (payload : Bytes) (w : World δ)

theorem readsOf_handleFileRequest :
    readsOf E env .whole (handleFileRequest E request) w =
      w.conn.inbox.take 275 ::
        match uploadHeader E (w.conn.inbox.take 275) with
        | some (contentSize, _) => [(w.conn.inbox.drop 275).take contentSize]
        | none => [] := by
  have hdata : (w.conn.recv .whole 275).1 = w.conn.inbox.take 275 := by rw [recv_whole]
  cases hu : uploadHeader E (w.conn.inbox.take 275) with
  | none =>
    apply readsOf_of_received
    rw [run_handleFileRequest_malformed E env .whole (hdata ▸ hu), recv_whole]
  | some header =>
    obtain ⟨contentSize, filename⟩ := header
    apply readsOf_of_received
    rw [run_handleFileRequest E env .whole (hdata ▸ hu)]
    have hkept := received_within E env .whole (footprint_processFileContent E request filename
      ((w.conn.recv .whole 275).2.recv .whole contentSize).1)
      { w with conn := ((w.conn.recv .whole 275).2.recv .whole contentSize).2 }
    rw [hkept]
    simp [recv_whole]

theorem readsOf_handleCksumOk :
    readsOf E env .whole (handleCksumOk E request) w = [w.conn.inbox.take 255] := by
  apply readsOf_of_received
  cases hf : filenameOf E (w.conn.recv .whole 255).1 with
  | none => rw [run_handleCksumOk_undecodable E env .whole hf, recv_whole]
  | some filename => rw [run_handleCksumOk E env .whole hf, recv_whole]; rfl

theorem readsOf_handleCksumErr :
    readsOf E env .whole (handleCksumErr request) w = [w.conn.inbox.take 255] := by
  apply readsOf_of_received
  rw [run_handleCksumErr, recv_whole]

theorem readsOf_handleCksumErrFinal :
    readsOf E env .whole (handleCksumErrFinal E request) w = [w.conn.inbox.take 255] := by
  apply readsOf_of_received
  cases hf : filenameOf E (w.conn.recv .whole 255).1 with
  | none => rw [run_handleCksumErrFinal_undecodable E env .whole hf, recv_whole]
  | some filename =>
    rw [run_handleCksumErrFinal_named E env .whole hf]
    have hrest : Issues (Within False (Footprint .cksumErrFinal)) (do
        deleteFile request.clientId filename
        respond serverCodeMessageReceived request.clientId) := by
      refine .bind ?_ fun _ => within_respond _ _
      exact (footprint_deleteFile _ _).mono fun c hc => by
        cases c with
        | recv n => exact hc
        | send data => trivial
        | host c => exact hc.1
    rw [received_within E env .whole hrest, recv_whole]

/-- What a handler reads after the payload, when every read is delivered at once. -/
def handlerReads (db : Database) (rest : Bytes) : List Bytes :=
  if request.code = clientCodeRegister ∨ db.clientExistsById request.clientId = true then
    match kindOf request.code with
    | .sendFile =>
      rest.take 275 ::
        match uploadHeader E (rest.take 275) with
        | some (contentSize, _) => [(rest.drop 275).take contentSize]
        | none => []
    | .cksumOk | .cksumErr | .cksumErrFinal => [rest.take 255]
    | .register | .sendPublicKey | .unknown => []
  else []

theorem readsOf_handleRequest :
    readsOf E env .whole (handleRequest E request payload) w =
      handlerReads E request w.server.database w.conn.inbox := by
  by_cases hpass : request.code = clientCodeRegister ∨
    w.server.database.clientExistsById request.clientId = true
  · rw [readsOf, run_handleRequest E env .whole hpass, ← readsOf, handlerReads, if_pos hpass,
      dispatch_eq]
    cases kindOf request.code with
    | register =>
      exact readsOf_within E env .whole (footprint_handleClientRegistration payload) w
    | sendPublicKey =>
      exact readsOf_within E env .whole (footprint_sendAesKeyToClient E request payload) w
    | sendFile => exact readsOf_handleFileRequest E env request w
    | cksumOk => exact readsOf_handleCksumOk E env request w
    | cksumErr => exact readsOf_handleCksumErr E env request w
    | cksumErrFinal => exact readsOf_handleCksumErrFinal E env request w
    | unknown => exact readsOf_of_received E env .whole (by simp)
  · obtain ⟨hcode, hid⟩ := not_or.mp hpass
    rw [Bool.not_eq_true] at hid
    rw [handlerReads, if_neg hpass]
    apply readsOf_of_received
    rw [run_handleRequest_unknown E env .whole hcode hid, List.append_nil]
    rfl

end Handlers

section Loop

variable (E : Externals) (d : Delivery)

/-- The request a header holds. -/
def headerOf (requestData : Bytes) : Option Request :=
  (unpack requestFormat requestData).map fun fields =>
    ⟨fields.1, fields.2.1, fields.2.2.1, fields.2.2.2.1⟩

theorem headerOf_isSome (requestData : Bytes) :
    (headerOf requestData).isSome = true ↔ requestData.length = 23 := by
  rw [headerOf, Option.isSome_map, unpack_isSome]
  rfl

theorem run_receiveRequest (env : Draws) (w : World δ) :
    run (machine E env d) receiveRequest w =
      match headerOf (w.conn.recv d 23).1 with
      | some request =>
        (.ok (some (request, ((w.conn.recv d 23).2.recv d request.payloadSize).1)),
          { w with conn := ((w.conn.recv d 23).2.recv d request.payloadSize).2 })
      | none => (.ok none, { w with conn := (w.conn.recv d 23).2 }) := by
  by_cases hne : (w.conn.recv d 23).1 = []
  · have hn : headerOf [] = none := rfl
    simp [receiveRequest, Field.size, hne, hn]
  · cases hu : unpack requestFormat (w.conn.recv d 23).1 with
    | none => simp [receiveRequest, Field.size, hne, headerOf, hu]
    | some fields => simp [receiveRequest, Field.size, hne, headerOf, hu]

/-- A request a session has handled: its header, its payload, and what the handler itself
has read: the name field, or the file header with the encrypted content. -/
structure Handled where
  request : Request
  payload : Bytes
  fields : List Bytes
  deriving DecidableEq

/-- One turn of the loop: a request is read and handled, or the session ends. -/
def turn (env : Draws) (w : World δ) : Option Handled × World δ :=
  match run (machine E env d) receiveRequest w with
  | (.ok (some (request, payload)), w) =>
    (some ⟨request, payload, readsOf E env d (handleRequest E request payload) w⟩,
      (run (machine E env d) (handleRequest E request payload) w).2)
  | (_, w) => (none, w)

theorem turn_of_header (env : Draws) {w : World δ} {request : Request}
    (h : headerOf (w.conn.recv d 23).1 = some request) :
    turn E d env w =
      let (payload, conn) := (w.conn.recv d 23).2.recv d request.payloadSize
      (some ⟨request, payload,
          readsOf E env d (handleRequest E request payload) { w with conn := conn }⟩,
        (run (machine E env d) (handleRequest E request payload) { w with conn := conn }).2) := by
  rw [turn, run_receiveRequest, h]

theorem turn_of_no_header {env : Draws} {w : World δ} (h : headerOf (w.conn.recv d 23).1 = none) :
    turn E d env w = (none, { w with conn := (w.conn.recv d 23).2 }) := by
  rw [turn, run_receiveRequest, h]

/-- The request at the front of a stream whose reads are delivered at once. -/
def nextRequest (db : Database) (inbox : Bytes) : Option Handled :=
  (headerOf (inbox.take 23)).map fun request =>
    ⟨request, (inbox.drop 23).take request.payloadSize,
      handlerReads E request db ((inbox.drop 23).drop request.payloadSize)⟩

theorem turn_whole (env : Draws) (w : World δ) :
    (turn E .whole env w).1 = nextRequest E w.server.database w.conn.inbox := by
  cases h : headerOf (w.conn.inbox.take 23) with
  | none =>
    rw [turn_of_no_header E .whole (by rw [recv_whole]; exact h), nextRequest, h]
    rfl
  | some request =>
    rw [turn_of_header E .whole env (by rw [recv_whole]; exact h), nextRequest, h, recv_whole,
      recv_whole]
    simp only [Option.map_some, readsOf_handleRequest]

theorem turn_whole_inbox (env : Draws) {w : World δ} {handled : Handled}
    (h : nextRequest E w.server.database w.conn.inbox = some handled) :
    w.conn.inbox = w.conn.inbox.take 23 ++ (handled.payload ++
      (handled.fields.flatten ++ (turn E .whole env w).2.conn.inbox)) := by
  obtain ⟨request, hh, rfl⟩ := Option.map_eq_some_iff.mp h
  have hheader : headerOf (w.conn.recv .whole 23).1 = some request := by rw [recv_whole]; exact hh
  rw [turn_of_header E .whole env hheader]
  have hrun := (run_received E env .whole (handleRequest E request
    ((w.conn.recv .whole 23).2.recv .whole request.payloadSize).1)
    { w with conn := ((w.conn.recv .whole 23).2.recv .whole request.payloadSize).2 }).2.1
  rw [readsOf_handleRequest] at hrun
  simp only [recv_whole] at hrun ⊢
  rw [← hrun, List.take_append_drop, List.take_append_drop]

theorem turn_of_no_next {env : Draws} {w : World δ}
    (h : nextRequest E w.server.database w.conn.inbox = none) : (turn E d env w).1 = none := by
  rw [nextRequest, Option.map_eq_none_iff, ← Option.not_isSome_iff_eq_none, headerOf_isSome] at h
  have hnone : headerOf (w.conn.recv d 23).1 = none := by
    rw [← Option.not_isSome_iff_eq_none, headerOf_isSome]
    simp only [Conn.recv, List.length_take] at h ⊢
    have hle := amount_le_request d w.conn 23
    omega
  rw [turn_of_no_header E d hnone]

theorem turn_shortens {env : Draws} {w : World δ} {handled : Handled}
    (h : (turn E d env w).1 = some handled) :
    (turn E d env w).2.conn.inbox.length < w.conn.inbox.length := by
  cases hh : headerOf (w.conn.recv d 23).1 with
  | none => simp [turn_of_no_header E d hh] at h
  | some request =>
    rw [turn_of_header E d env hh]
    have hlen : (w.conn.recv d 23).1.length = 23 := by
      rw [← headerOf_isSome, hh]
      rfl
    have hrun := (run_received E env d (handleRequest E request
      ((w.conn.recv d 23).2.recv d request.payloadSize).1)
      { w with conn := ((w.conn.recv d 23).2.recv d request.payloadSize).2 }).2.1
    have hrest := congrArg List.length hrun
    simp only [List.length_append, Conn.recv, List.length_drop, List.length_take] at hrest hlen ⊢
    omega

theorem headerOf_recv {conn : Conn} {request : Request}
    (h : headerOf (conn.inbox.take 23) = some request) :
    (Enough d conn.reads (conn.inbox.take 23).length → conn.recv d 23 = conn.recv .whole 23) ∧
    (¬ Enough d conn.reads (conn.inbox.take 23).length → headerOf (conn.recv d 23).1 = none) := by
  have hfull : (conn.recv .whole 23).1 = conn.inbox.take 23 := by rw [recv_whole]
  rw [← hfull, ← recv_eq_whole_iff]
  refine ⟨recv_eq_whole d, fun hdata => ?_⟩
  rw [← Option.not_isSome_iff_eq_none, headerOf_isSome]
  intro hlen
  have hle := amount_le d conn 23
  have hamount : d.amount conn 23 = 23 := by
    have hlen' : (conn.inbox.take 23).length = 23 := by rw [← headerOf_isSome, h]; rfl
    simp only [Conn.recv, List.length_take] at hlen hlen'
    omega
  exact hdata (by rw [hfull]; simp only [Conn.recv, hamount])

/-- The reads of one turn are those of complete delivery where each is delivered at once, and
the turn is then the same. -/
theorem turn_eq_whole (env : Draws) {w : World δ} {handled : Handled}
    (h : nextRequest E w.server.database w.conn.inbox = some handled) :
    ((turn E d env w).1 = some handled ↔ AllWhole d w.conn.reads
      (w.conn.inbox.take 23 :: handled.payload :: handled.fields)) ∧
    ((turn E d env w).1 = some handled → turn E d env w = turn E .whole env w) := by
  obtain ⟨request, hh, rfl⟩ := Option.map_eq_some_iff.mp h
  obtain ⟨hyes, hno⟩ := headerOf_recv d hh
  by_cases henough : Enough d w.conn.reads (w.conn.inbox.take 23).length
  swap
  · rw [turn_of_no_header E d (hno henough), AllWhole]
    exact ⟨⟨nofun, fun hall => absurd hall.1 henough⟩, nofun⟩
  have hconn := hyes henough
  have hheader : headerOf (w.conn.recv .whole 23).1 = some request := by rw [recv_whole]; exact hh
  rw [turn_of_header E d env (by rw [hconn]; exact hheader),
    turn_of_header E .whole env hheader, hconn, AllWhole, AllWhole]
  have hpayload := recv_eq_whole_iff d (w.conn.recv .whole 23).2 request.payloadSize
  by_cases hdata : ((w.conn.recv .whole 23).2.recv d request.payloadSize).1 =
      ((w.conn.recv .whole 23).2.recv .whole request.payloadSize).1
  · have hreads := readsOf_eq_whole_iff E env d
      (handleRequest E request ((w.conn.inbox.drop 23).take request.payloadSize))
      { w with conn := ((w.conn.recv .whole 23).2.recv .whole request.payloadSize).2 }
    rw [readsOf_handleRequest] at hreads
    rw [recv_eq_whole d hdata]
    obtain ⟨hiff, hrun⟩ := hreads
    simp only [recv_whole] at hiff hrun hpayload hdata ⊢
    rw [← hpayload, ← hiff, readsOf_handleRequest]
    refine ⟨?_, fun he => ?_⟩
    · simp only [Option.some.injEq, Handled.mk.injEq, true_and, henough, hdata]
    · have hf := congrArg Handled.fields (Option.some.inj he)
      rw [hrun hf]
      exact Prod.ext he rfl
  · simp only [recv_whole] at hpayload hdata ⊢
    rw [← hpayload]
    simp [hdata]

/-- The requests handled in at most so many turns. -/
def turns (envs : ℕ → Draws) : ℕ → World δ → List Handled
  | 0, _ => []
  | n + 1, w =>
    match turn E d (envs 0) w with
    | (some h, w') => h :: turns (fun i => envs (i + 1)) n w'
    | (none, _) => []

/-- The requests a session handles; a turn that handles one consumes its header at least. -/
def session (envs : ℕ → Draws) (w : World δ) : List Handled :=
  turns E d envs w.conn.inbox.length w

theorem turns_succ (envs : ℕ → Draws) (n : ℕ) (w : World δ) :
    turns E d envs (n + 1) w =
      match (turn E d (envs 0) w).1 with
      | some h => h :: turns E d (fun i => envs (i + 1)) n (turn E d (envs 0) w).2
      | none => [] := by
  rw [turns]
  obtain ⟨_ | h, w'⟩ := turn E d (envs 0) w <;> rfl

/-- As many turns as there are bytes are enough. -/
theorem turns_eq_session {n : ℕ} (envs : ℕ → Draws) (w : World δ) (h : w.conn.inbox.length ≤ n) :
    turns E d envs n w = session E d envs w := by
  have hagree : ∀ (n m : ℕ) (envs : ℕ → Draws) (w : World δ), w.conn.inbox.length ≤ n →
      w.conn.inbox.length ≤ m → turns E d envs n w = turns E d envs m w := by
    intro n
    induction n with
    | zero =>
      intro m envs w hn _
      cases m with
      | zero => rfl
      | succ m =>
        have hnone : (turn E d (envs 0) w).1 = none := by
          cases ht : (turn E d (envs 0) w).1 with
          | none => rfl
          | some h =>
            have hlt := turn_shortens E d ht
            omega
        rw [turns_succ, hnone, turns]
    | succ n ih =>
      intro m envs w hn hm
      rw [turns_succ]
      cases ht : (turn E d (envs 0) w).1 with
      | none =>
        cases m with
        | zero => rfl
        | succ m => rw [turns_succ, ht]
      | some h =>
        have hlt := turn_shortens E d ht
        cases m with
        | zero => omega
        | succ m =>
          rw [turns_succ, ht]
          simp only [List.cons.injEq, true_and]
          exact ih m _ _ (by omega) (by omega)
  exact hagree n w.conn.inbox.length envs w h le_rfl

theorem session_eq (envs : ℕ → Draws) (w : World δ) :
    session E d envs w =
      match (turn E d (envs 0) w).1 with
      | some h => h :: session E d (fun i => envs (i + 1)) (turn E d (envs 0) w).2
      | none => [] := by
  rw [← turns_eq_session E d envs w (Nat.le_succ _), turns_succ]
  cases ht : (turn E d (envs 0) w).1 with
  | none => rfl
  | some h =>
    have hlt := turn_shortens E d ht
    simp only [turns_eq_session E d (fun i => envs (i + 1)) (turn E d (envs 0) w).2 hlt.le]

end Loop

end EncryptedTransfer.ServerSession
