import EncryptedTransfer.FileHoldings

/-!
# Transfers come to their end

A transfer takes two rounds, each a request that is served and an answer that is read. Whatever
happens in between to the other machines, their processes and the server, a machine that gets two
rounds has its file on the server.
-/
namespace EncryptedTransfer.TransferProgress
open ServerStores hiding Client Client.new
open ByteFormats Text ServerCalls ServerHandlers ServerConsistency ServerEffects ServerRuns
open StreamFraming FileLedger CryptoLaws ClientProcess Network ClientMessages ServerTurns
open ClientRoster FileNames KeyAgreement FirstTransfer DetailsFile ClientLives MainRuns
open FileHoldings

/-- The requests of a transfer that are still to be served and the answers to be read. -/
def remaining (c : Client) : ℕ :=
  (if c.requestCodes.getLast? = some clientCodeSendFile then 2 else 0) +
    if c.outbox = [] then 1 else 2

/-- How often a request of the machine is served and an answer read after it. `served` tells
whether one has been served since the last answer was read. -/
def rounds (i : ℕ) : Bool → List Event → ℕ
  | _, [] => 0
  | served, .move (.serve j _) :: events => rounds i (served || j == i) events
  | served, .move (.resume j) :: events =>
    if served ∧ j = i then rounds i false events + 1 else rounds i served events
  | served, _ :: events => rounds i served events

def CleanAll (E : Externals) : System → List Event → Prop
  | _, [] => True
  | sys, event :: events => Clean E sys event ∧ CleanAll E (event.run E sys) events

section Client

variable {E : Externals} {s : Server KeyedDisk} {c : Client} {a : Account}
  {transfer : Str × Bytes}

theorem remaining_le (c : Client) : 1 ≤ remaining c ∧ remaining c ≤ 4 := by
  unfold remaining
  split_ifs <;> omega

theorem stage_busy (h : Stage E s c (some transfer)) : c.awaiting = true ∧
    c.clientIdHex ≠ [] ∧ (c.outbox = [] → c.inbox ≠ []) ∧
      ∀ request rest, c.outbox = request :: rest → rest = [] ∧ c.inbox = [] := by
  cases h with
  | uploading h _ _ _ _ _ _ _ hout hin =>
    refine ⟨h.awaiting, h.attached, ?_, ?_⟩
    · simp [hout]
    · intro request rest hrest
      rw [hout] at hrest
      exact ⟨(List.cons.inj hrest).2.symm, hin⟩
  | uploaded h hout hin =>
    refine ⟨h.awaiting, h.attached, fun _ => ?_, by simp [hout]⟩
    rw [hin, reported]
    exact List.append_ne_nil_of_left_ne_nil (nil_ne_responseHead _).symm _
  | confirming h _ hout hin =>
    refine ⟨h.awaiting, h.attached, ?_, ?_⟩
    · simp [hout]
    · intro request rest hrest
      rw [hout] at hrest
      exact ⟨(List.cons.inj hrest).2.symm, hin⟩
  | confirmed h hout hin =>
    refine ⟨h.awaiting, h.attached, fun _ => ?_, by simp [hout]⟩
    rw [hin, acknowledged]
    exact (nil_ne_responseHead _).symm

theorem remaining_of_nil (hout : c.outbox = []) : remaining c = 1 ∨ remaining c = 3 := by
  rw [remaining, if_pos hout]
  split_ifs <;> simp

theorem remaining_answered {request : Bytes} (hout : c.outbox = [request]) (sent : Bytes) :
    remaining (answered c [] sent) + 1 = remaining c := by
  have hcodes : (answered c [] sent).requestCodes = c.requestCodes := rfl
  have hnone : (answered c [] sent).outbox = [] := rfl
  rw [remaining, remaining, hcodes, hnone, hout]
  simp

theorem remaining_receive (h : Accounted E s c a) (hsending : a.sending = some transfer)
    (hid : c.clientIdBytes.length = 16) (hin : c.inbox ≠ []) :
    (receiveResponseFromServer E c).starved = false ∧
      ((receiveResponseFromServer E c).awaiting = false ∨
        (receiveResponseFromServer E c).awaiting = true ∧
          remaining (receiveResponseFromServer E c) + 1 = remaining c) := by
  have hstage := h.stage
  rw [hsending] at hstage
  cases hstage with
  | uploading _ _ _ _ _ _ _ _ _ hno => exact absurd hno hin
  | uploaded hsends hout hinbox =>
    have hreceive := receiveResponseFromServer_reported (E := E) hid c.cksumOfLastFile.toNat_lt
      hinbox
    simp only [UInt32.ofNat_toNat, ↓reduceIte] at hreceive
    rw [sendRequestToServer_name hid (.inl rfl) (length_reportField _)] at hreceive
    rw [hreceive]
    refine ⟨h.fed, .inr ⟨rfl, ?_⟩⟩
    simp [remaining, await, post, hout, hsends.asked, clientCodeSendFile, clientCodeCksumOk]
  | confirming _ _ _ hno => exact absurd hno hin
  | confirmed hsends hout hinbox =>
    rw [receiveResponseFromServer_told (uuidField_length _) (.inr rfl) hinbox]
    exact ⟨h.fed, .inl rfl⟩

end Client

section Step

variable {E : Externals} {field : ℕ → Bytes} {sys : System} {accounts : ℕ → Account} {i : ℕ}
  {filename : Str} {content : Bytes} {served : Bool} {events : List Event}

/-- What an event leaves of a transfer: it has ended, or the rounds to come are enough for it. -/
def Nears (sys' : System) (i : ℕ) (filename : Str) (content : Bytes) (a : Account)
    (events : List Event) : Prop :=
  (sys'.client i).awaiting = false ∧ a.holding filename = .file content ∨
    a.sending = some (filename, content) ∧ ∃ served,
      (served = true → (sys'.client i).outbox = []) ∧
        remaining (sys'.client i) ≤ 2 * rounds i served events

theorem nears_of_same {sys' : System} {c : Client} {a : Account} (hc : sys'.client i = c)
    (hout : c.outbox = (sys.client i).outbox) (hcodes : c.requestCodes = (sys.client i).requestCodes)
    (hsending : a.sending = some (filename, content))
    (hserved : served = true → (sys.client i).outbox = [])
    (hdue : remaining (sys.client i) ≤ 2 * rounds i served events) :
    Nears sys' i filename content a events := by
  refine .inr ⟨hsending, served, ?_, ?_⟩
  · rwa [hc, hout]
  · rwa [hc, remaining, hout, hcodes]

variable (hstage : Accounted E sys.server (sys.client i) (accounts i))
  (hsending : (accounts i).sending = some (filename, content))
  (hserved : served = true → (sys.client i).outbox = [])
include hstage hsending hserved

theorem serve_nears (j : ℕ) (env : Draws)
    (hdue : remaining (sys.client i) ≤ 2 * rounds i served (.move (.serve j env) :: events)) :
    Nears (sys.serve E j env) i filename content (accounts i) events := by
  have hbusy := stage_busy (hsending ▸ hstage.stage)
  rw [rounds] at hdue
  by_cases hj : j = i
  · subst hj
    rw [beq_self_eq_true, Bool.or_true] at hdue
    cases hout : (sys.client j).outbox with
    | nil =>
      rw [System.serve_nil E hout]
      exact .inr ⟨hsending, true, fun _ => hout, hdue⟩
    | cons request rest =>
      obtain ⟨rfl, -⟩ := hbusy.2.2.2 request rest hout
      rw [System.serve_cons E hout]
      refine .inr ⟨hsending, true, ?_, ?_⟩
      · simp only [Function.update_self]
        exact fun _ => rfl
      · simp only [Function.update_self]
        have hless := remaining_answered hout
          (System.turnWith E env sys.server request).conn.sent.flatten
        omega
  · rw [beq_eq_false_iff_ne.mpr hj, Bool.or_false] at hdue
    refine nears_of_same ?_ rfl rfl hsending hserved hdue
    cases hout : (sys.client j).outbox with
    | nil => rw [System.serve_nil E hout]
    | cons request rest =>
      rw [System.serve_cons E hout]
      exact Function.update_of_ne (Ne.symm hj) _ _

theorem resume_nears (hid : (sys.client i).clientIdBytes.length = 16) (j : ℕ)
    (hdue : remaining (sys.client i) ≤ 2 * rounds i served (.move (.resume j) :: events)) :
    Nears (sys.resume E j) i filename content ((accounts i).next E sys i (.move (.resume j)))
      events := by
  have hbusy := stage_busy (hsending ▸ hstage.stage)
  rw [rounds] at hdue
  by_cases hj : j = i
  · subst hj
    by_cases hin : (sys.client j).inbox = []
    · have hresume : sys.resume E j = sys := by
        rw [System.resume, if_neg (by simp [hin])]
      cases served with
      | true => exact absurd hin (hbusy.2.2.1 (hserved rfl))
      | false =>
        refine nears_of_same (by rw [hresume]) rfl rfl ?_ hserved (by simpa using hdue)
        simpa [Account.next, hresume, hbusy.1] using hsending
    · obtain ⟨hfed, hread⟩ := remaining_receive hstage hsending hid hin
      have hresume : sys.resume E j =
          sys.setClient j (receiveResponseFromServer E (sys.client j)) := by
        rw [System.resume, if_pos ⟨hbusy.1, hin⟩]
        simp only [hfed, Bool.false_eq_true, ↓reduceIte]
      rw [hresume, Nears, Account.next, hresume]
      simp only [System.setClient_self, true_and]
      rcases hread with hended | ⟨hwaits, hless⟩
      · left
        refine ⟨hended, ?_⟩
        rw [if_pos hended, Account.finish, hsending]
        exact Function.update_self ..
      · right
        rw [if_neg (by simp [hwaits])]
        refine ⟨hsending, false, by simp, ?_⟩
        cases served with
        | true =>
          have hodd := remaining_of_nil (hserved rfl)
          simp only [true_and, ↓reduceIte] at hdue
          omega
        | false =>
          simp only [Bool.false_eq_true, false_and, ↓reduceIte] at hdue
          omega
  · rw [if_neg (by simp [hj])] at hdue
    refine nears_of_same ?_ rfl rfl ?_ hserved hdue
    · simp only [System.resume]
      split_ifs
      · rfl
      · exact System.setClient_other _ (Ne.symm hj) _
      · rfl
    · simpa [Account.next, hj] using hsending

/-- Every event but a new process of the machine brings the transfer nearer to its end, or leaves
it where it is. -/
theorem event_nears (hid : (sys.client i).clientIdBytes.length = 16) (event : Event)
    (hclean : Clean E sys event) (hlives : ∀ files connects, event ≠ .start i files connects)
    (hdue : remaining (sys.client i) ≤ 2 * rounds i served (event :: events)) :
    Nears (event.run E sys) i filename content ((accounts i).next E sys i event) events := by
  have hawait := (stage_busy (hsending ▸ hstage.stage)).1
  cases event with
  | move move =>
    cases move with
    | call j method =>
      have hnext : (accounts i).next E sys i (.move (.call j method)) = accounts i := by
        cases method with
        | registerToServer => rfl
        | generateRSAKeyPair pair => rfl
        | sendFileToServer =>
          simp only [Account.next]
          rw [if_neg (by simp [hawait])]
      rw [hnext]
      refine nears_of_same ?_ rfl rfl hsending hserved hdue
      simp only [Event.run, System.step]
      split_ifs with hbusy
      · rfl
      · have hj : i ≠ j := by
          rintro rfl
          exact hbusy hawait
        exact System.setClient_other _ hj _
    | serve j env => exact serve_nears hstage hsending hserved j env hdue
    | resume j => exact resume_nears hstage hsending hserved hid j hdue
    | corrupt j encrypted => exact hclean.elim
    | edit j path content =>
      by_cases hj : j = i
      · subst hj
        exact nears_of_same (System.setClient_self ..) rfl rfl hsending hserved hdue
      · exact nears_of_same (System.setClient_other _ (Ne.symm hj) _) rfl rfl hsending hserved hdue
  | start j files connects =>
    have hj : j ≠ i := by
      rintro rfl
      exact hlives files connects rfl
    rw [Account.next, if_neg hj]
    exact nears_of_same (System.setClient_other _ (Ne.symm hj) _) rfl rfl hsending hserved hdue
  | restart env conn => exact nears_of_same rfl rfl rfl hsending hserved hdue

end Step

section Runs

variable {E : Externals} {field : ℕ → Bytes} {sys : System} {accounts : ℕ → Account} {i : ℕ}
  {filename : Str} {content : Bytes} {events : List Event}

theorem ends_of_rounds (haes : AesLaws E) (h : Kept E field sys accounts)
    (hsending : (accounts i).sending = some (filename, content)) (served : Bool)
    (hserved : served = true → (sys.client i).outbox = [])
    (hallowed : AllowedAll E field sys events) (hclean : CleanAll E sys events)
    (hlives : ∀ files connects, .start i files connects ∉ events)
    (hdue : remaining (sys.client i) ≤ 2 * rounds i served events) :
    ∃ before after accounts', events = before ++ after ∧
      Kept E field (runs E sys before) accounts' ∧
        ((runs E sys before).client i).awaiting = false ∧
          (accounts' i).holding filename = .file content := by
  induction events generalizing sys accounts served with
  | nil =>
    have hleft := (remaining_le (sys.client i)).1
    rw [rounds] at hdue
    omega
  | cons event events ih =>
    obtain ⟨hsettled, haccounted⟩ := h.accounted haes
    have hnext := h.event event hallowed.1 hclean.1
    have hlater (files : Bytes → Option Bytes) (connects : Bool) :
        .start i files connects ∉ events := fun hm => hlives files connects (.tail event hm)
    have hself (files : Bytes → Option Bytes) (connects : Bool) :
        event ≠ .start i files connects := by
      rintro rfl
      exact hlives files connects (.head events)
    rcases event_nears (haccounted i) hsending hserved (hsettled.agreement.agrees i).idLength event
      hclean.1 hself hdue with ⟨hawait, hfile⟩ | ⟨hsending', served', hserved', hdue'⟩
    · exact ⟨[event], events, _, rfl, hnext, hawait, hfile⟩
    · obtain ⟨before, after, accounts', rfl, hkept, hended⟩ :=
        ih hnext hsending' served' hserved' hallowed.2 hclean.2 hlater hdue'
      exact ⟨event :: before, after, accounts', rfl, hkept, hended⟩

/-- A transfer ends within two rounds of its machine, whatever happens in between elsewhere, and
its file is then on the server, confirmed, in all four stores. -/
theorem transfers_end (haes : AesLaws E) (h : Kept E field sys accounts)
    (hsending : (accounts i).sending = some (filename, content))
    (hallowed : AllowedAll E field sys events) (hclean : CleanAll E sys events)
    (hlives : ∀ files connects, .start i files connects ∉ events)
    (hrounds : 2 ≤ rounds i false events) :
    ∃ before after, events = before ++ after ∧
      ((runs E sys before).client i).awaiting = false ∧
        ∃ clientId, HasId clientId ((runs E sys before).client i).files ∧
          stored (runs E sys before).server (clientId, filename) =
            (some content, [⟨clientId, filename, filePath clientId filename, true⟩],
              some (.new clientId filename (filePath clientId filename)),
              some (.new clientId filename (filePath clientId filename))) := by
  have hmost := (remaining_le (sys.client i)).2
  obtain ⟨before, after, accounts', hevents, hkept, hawait, hfile⟩ := ends_of_rounds haes h hsending
    false (by simp) hallowed hclean hlives (by omega)
  obtain ⟨hsettled, haccounted⟩ := hkept.accounted haes
  have hknown : ∃ clientId, HasId clientId ((runs E sys before).client i).files := by
    by_contra hno
    rw [(haccounted i).blank (not_exists.mp hno)] at hfile
    cases hfile
  obtain ⟨clientId, hid⟩ := hknown
  exact ⟨before, after, hevents, hawait, clientId, hid,
    (haccounted i).stored_eq hsettled.agreement.consistent hid hfile⟩

end Runs

def sendingOfA : System :=
  (perform plainCiphers 0 (.generateRSAKeyPair keyPairOfA) [constantDraws 2]
    (perform plainCiphers 0 .registerToServer [constantDraws 1]
      ((Event.start 0 filesOfA true).run plainCiphers systemOfA))).step plainCiphers
        (.call 0 .sendFileToServer)

def twoRounds : List Event :=
  [.move (.serve 0 (constantDraws 3)), .move (.resume 0), .move (.serve 0 (constantDraws 4)),
    .move (.resume 0)]

theorem transfers_end_ofA : ∃ before after, twoRounds = before ++ after ∧
    ((runs plainCiphers sendingOfA before).client 0).awaiting = false ∧
      ∃ clientId, HasId clientId ((runs plainCiphers sendingOfA before).client 0).files ∧
        stored (runs plainCiphers sendingOfA before).server (clientId, ['f']) =
          (some [7], [⟨clientId, ['f'], filePath clientId ['f'], true⟩],
            some (.new clientId ['f'] (filePath clientId ['f'])),
            some (.new clientId ['f'] (filePath clientId ['f']))) := by
  have hinstalled := installed_systemOfA
  have hfield : nameField filesOfA = padField 255 ['a'] := prepared_filesOfA.lines.2.1
  have hpair : KeyPairLaws plainCiphers keyPairOfA.publicKey
      keyPairOfA.privateKey := keyPairLaws_plainCiphers _
  have hbegun := main_begun_kept (i := 0) aesLaws_plainCiphers (.installed hinstalled) hfield
    prepared_filesOfA hpair fresh_systemOfA (.inr rfl)
  obtain ⟨clientId, -, hready, -, -, hfresh⟩ := main_begun (i := 0) hinstalled.settled hfield
    prepared_filesOfA hpair fresh_systemOfA (.inr rfl)
  have hkept := prepared_filesOfA.keepDetails (systemOfA.client 0)
  obtain ⟨hoffer, hsend⟩ := offered_of_ready hkept hready
  have hcalled := hbegun.called hsend hready.resting.awaiting hoffer
  refine transfers_end (i := 0) aesLaws_plainCiphers hcalled ?_ ?_ ?_ ?_ ?_
  · rw [Function.update_self]
  · exact main_allowed _ _ aesLaws_plainCiphers hkept hready _ hfresh
  · exact ⟨trivial, trivial, trivial, trivial, trivial⟩
  · simp [twoRounds]
  · decide

end EncryptedTransfer.TransferProgress
