import EncryptedTransfer.GateFailures

/-!
# Key exchanges that fail

The handler of a key request stores the new keys before it knows that it can answer with them.
-/
namespace EncryptedTransfer.KeyExchange
open ByteFormats Text ServerStores ServerCalls ServerHandlers ServerConsistency ServerEffects
open ServerRuns CryptoLaws GateFailures Interaction Program

def keysIn (db : Database) : List (Option Bytes × Option Bytes) :=
  db.clients.map (fun row => (row.publicKey, row.aesKey))

theorem keysIn_insertKeysOfClient {db : Database} {now clientName : Str} {publicKey aesKey : Bytes} :
    keysIn (db.insertKeysOfClient now clientName publicKey aesKey) = keysIn db ↔
      ¬ ∃ row ∈ db.clients, row.clientName = clientName ∧
        (row.publicKey, row.aesKey) ≠ (some publicKey, some aesKey) := by
  rw [keysIn, keysIn, Database.insertKeysOfClient, List.map_map, List.map_inj_left]
  push Not
  refine forall₂_congr fun row _ => ?_
  by_cases hn : row.clientName = clientName
  · simp only [Function.comp_apply, hn, ↓reduceIte, true_implies]
    exact eq_comm
  · simp [hn]

section

variable {δ : Type} [FileSystem δ] (E : Externals) (env : Draws) (d : Delivery)
  (outcomes : Outcomes) (s : Server δ) (request : Request) (payload : Bytes) (conn : Conn)

/-- The answer to the request is a 2102 response. -/
def SendsKey : Prop :=
  ∃ cipher : Bytes, (failingHandled E env d outcomes request payload ⟨s, conn⟩).conn.sent =
    conn.sent ++ [responseHead serverCodeSwitchingKeys cipher.length
      (uuidField request.clientId) ++ cipher]

/-- The new keys are stored, one of the rows of the name in the payload had others, and the key
cannot be sent. -/
def KeysLost : Prop :=
  letsPass outcomes s.database request.clientId = true ∧
    outcomes 1 (.getClientName request.clientId) ≠ .raises ∧
    ∃ clientName publicKey, keyRequest payload = some (clientName, publicKey) ∧
      outcomes 2 (.insertKeysOfClient clientName publicKey (env.random aesKeySize)) = .works ∧
      wrappedKey E env publicKey (env.random aesKeySize) = none ∧
      ∃ row ∈ s.database.clients, row.clientName = clientName ∧
        (row.publicKey, row.aesKey) ≠ (some publicKey, some (env.random aesKeySize))

variable {s request payload conn}

theorem not_sendsKey
    (h : (failingHandled E env d outcomes request payload ⟨s, conn⟩).conn.sent = conn.sent) :
    ¬ SendsKey E env d outcomes s request payload conn := by
  rintro ⟨cipher, hsent⟩
  rw [h] at hsent
  exact List.cons_ne_nil _ _ (List.append_right_eq_self.mp hsent.symm)

/-- Whatever calls of the database fail, and where the connection takes what is sent to it: a key
request that is not answered by a 2102 response leaves the keys of all rows exactly where no keys
are lost. -/
theorem keys_kept_iff (hc : request.code = clientCodeSendPublicKey) :
    (¬ SendsKey E env d outcomes s request payload conn →
      keysIn (failingHandled E env d outcomes request payload ⟨s, conn⟩).server.database =
        keysIn s.database) ↔
      ¬ KeysLost E env outcomes s request payload := by
  have hk : kindOf request.code = .sendPublicKey := kindOf_eq_sendPublicKey.mpr hc
  have hother : request.code ≠ clientCodeRegister := by
    rw [hc]
    decide
  have hkept (h : (failingHandled E env d outcomes request payload ⟨s, conn⟩).server = s)
      (hnot : ¬ KeysLost E env outcomes s request payload) :
      (¬ SendsKey E env d outcomes s request payload conn →
        keysIn (failingHandled E env d outcomes request payload ⟨s, conn⟩).server.database =
          keysIn s.database) ↔ ¬ KeysLost E env outcomes s request payload :=
    iff_of_true (fun _ => congrArg (fun s => keysIn s.database) h) hnot
  cases hpass : letsPass outcomes s.database request.clientId with
  | false =>
    apply hkept (failingHandled_turnedAway E env d outcomes hother (w := ⟨s, conn⟩) hpass)
    rintro ⟨hyes, _⟩
    rw [hpass] at hyes
    cases hyes
  | true =>
  have hrun : failingHandled E env d outcomes request payload ⟨s, conn⟩ = _ :=
    failingHandled_passed E env d outcomes hother hpass
  rw [dispatch_eq, hk] at hrun
  simp only at hrun
  cases hkey : keyRequest payload with
  | none =>
    apply hkept
    · rw [hrun]
      exact run_failing_sendAesKeyToClient_malformed E env d outcomes hkey
    · rintro ⟨_, _, _, _, hsome, _⟩
      rw [hkey] at hsome
      cases hsome
  | some key =>
  rw [run_failing_sendAesKeyToClient E env d outcomes hkey] at hrun
  by_cases hname : outcomes 1 (.getClientName request.clientId) = .raises
  · rw [if_pos hname] at hrun
    exact hkept (congrArg World.server hrun) fun hlost => hlost.2.1 hname
  rw [if_neg hname] at hrun
  -- only keys that are known to be stored can be lost
  have hstored (hlost : KeysLost E env outcomes s request payload) :
      outcomes 2 (.insertKeysOfClient key.1 key.2 (env.random aesKeySize)) = .works ∧
        wrappedKey E env key.2 (env.random aesKeySize) = none ∧
        ∃ row ∈ s.database.clients, row.clientName = key.1 ∧
          (row.publicKey, row.aesKey) ≠ (some key.2, some (env.random aesKeySize)) := by
    obtain ⟨_, _, _, _, hsome, hworks, hcipher, hrow⟩ := hlost
    rw [hkey] at hsome
    cases hsome
    exact ⟨hworks, hcipher, hrow⟩
  cases hset : outcomes 2 (.insertKeysOfClient key.1 key.2 (env.random aesKeySize)) with
  | raises =>
    rw [hset] at hrun
    refine hkept (congrArg World.server hrun) fun hlost => ?_
    rw [(hstored hlost).1] at hset
    cases hset
  | prints =>
    simp only [hset, run_answerKey] at hrun
    refine hkept ?_ fun hlost => ?_
    · rw [hrun]
      split <;> rfl
    · rw [(hstored hlost).1] at hset
      cases hset
  | works =>
    simp only [hset, run_answerKey] at hrun
    cases hcipher : wrappedKey E env key.2 (env.random aesKeySize) with
    | some cipher =>
      rw [hcipher] at hrun
      have hsends : SendsKey E env d outcomes s request payload conn :=
        ⟨cipher, congrArg (fun w => w.conn.sent) hrun⟩
      refine iff_of_true (fun hnot => absurd hsends hnot) fun hlost => ?_
      rw [(hstored hlost).2.1] at hcipher
      cases hcipher
    | none =>
      rw [hcipher] at hrun
      have hsilent := not_sendsKey E env d outcomes (congrArg (fun w => w.conn.sent) hrun)
      simp only [hsilent, not_false_iff, true_implies, hrun, setKeys]
      rw [keysIn_insertKeysOfClient, not_iff_not]
      constructor
      · exact fun hrow => ⟨hpass, hname, key.1, key.2, hkey, hset, hcipher, hrow⟩
      · exact fun hlost => (hstored hlost).2.2

end

def nextKeyHeader : Request := ⟨List.replicate 16 1, 3, clientCodeSendPublicKey, 415⟩

theorem keys_kept_iff_keyedClient :
    (¬ SendsKey plainCiphers (constantDraws 3) .whole (fun _ _ => .works) keyedServer nextKeyHeader
        (padField 255 ['a'] ++ List.replicate 160 0) ⟨[], 0, [], []⟩ →
      keysIn (failingHandled plainCiphers (constantDraws 3) .whole (fun _ _ => .works) nextKeyHeader
        (padField 255 ['a'] ++ List.replicate 160 0)
        ⟨keyedServer, ⟨[], 0, [], []⟩⟩).server.database = keysIn keyedServer.database) ↔
      ¬ KeysLost plainCiphers (constantDraws 3) (fun _ _ => .works) keyedServer nextKeyHeader
        (padField 255 ['a'] ++ List.replicate 160 0) :=
  keys_kept_iff plainCiphers (constantDraws 3) .whole (fun _ _ => .works) rfl

/-- A key that cannot be imported replaces the keys agreed on, and nothing is answered. -/
theorem keys_lost_unanswered :
    Run plainCiphers keyedServer [] ∧
      keysIn keyedServer.database =
        [(some derKey, some (List.replicate 16 2))] ∧
      (handled plainCiphers (constantDraws 3) .whole nextKeyHeader
        (padField 255 ['a'] ++ List.replicate 160 0)
        ⟨keyedServer, ⟨[], 0, [], []⟩⟩).conn.sent = [] ∧
      keysIn (handled plainCiphers (constantDraws 3) .whole nextKeyHeader
        (padField 255 ['a'] ++ List.replicate 160 0)
        ⟨keyedServer, ⟨[], 0, [], []⟩⟩).server.database =
        [(some (List.replicate 160 0), some (List.replicate 16 3))] := by
  have hkey : keyRequest (padField 255 ['a'] ++ List.replicate 160 0) =
      some (['a'], List.replicate 160 0) :=
    keyRequest_padField (by decide) (by decide) List.length_replicate
  have hk : kindOf nextKeyHeader.code = .sendPublicKey := by decide
  have hid : keyedServer.database.clientExistsById nextKeyHeader.clientId = true := by decide
  have hcipher : wrappedKey plainCiphers (constantDraws 3) (List.replicate 160 0)
      ((constantDraws 3).random aesKeySize) = none := by
    rw [wrappedKey, if_neg]
    simp only [plainCiphers, decide_eq_true_eq]
    rintro ⟨_, hhead⟩
    rw [List.head?_replicate, if_neg (by decide)] at hhead
    exact absurd hhead (by decide)
  have hrun : handled plainCiphers (constantDraws 3) .whole nextKeyHeader
      (padField 255 ['a'] ++ List.replicate 160 0) ⟨keyedServer, ⟨[], 0, [], []⟩⟩ =
        ⟨setKeys [] ['a'] (List.replicate 160 0) (List.replicate 16 3) keyedServer,
          ⟨[], 0, [], []⟩⟩ := by
    rw [handled, run_handleRequest _ _ _ (.inr hid), dispatch_eq, hk]
    simp only
    rw [run_sendAesKeyToClient_stored _ _ _ hkey, run_answerKey, hcipher]
    rfl
  rw [hrun]
  exact ⟨run_keyedServer _, rfl, rfl, rfl⟩

end EncryptedTransfer.KeyExchange
