import EncryptedTransfer.BoundedRetries
import EncryptedTransfer.ClientReactions

/-!
# The dialogue about an upload

What a client that awaits the answer to an upload makes of the reports that arrive, and which
bounds a call of `sendFileToServer` keeps against any server.
-/
namespace EncryptedTransfer.UploadDialogue
open ServerStores hiding Client Client.new
open ByteFormats ServerCalls ServerHandlers ServerEffects CryptoLaws BoundedRetries
open ClientProcess Network ClientMessages KeyAgreement ServerReplies ClientReactions

def fieldOf (reply : Reply) : Bytes := (reply.report.map Report.filename).getD []

/-- Whether the response after `k` others reports the checksum of the file. -/
def matching (file : Bytes) (replies : ℕ → Reply) (k : ℕ) : Bool :=
  reports (cksumOf file) (replies k)

/-- A client whose upload of a file is to be answered. -/
structure Uploaded (file : Bytes) (c : Client) : Prop where
  awaiting : c.awaiting = true
  inbox : c.inbox = []
  readable : c.files c.filePath = some file
  key : c.aesKey.length = 16
  cksum : c.cksumOfLastFile = cksumOf file

section Requests

variable (E : Externals) (c : Client) (file : Bytes) (replies : ℕ → Reply)

def retries (n : ℕ) : List (ℕ × Bytes) :=
  (List.range n).flatMap fun k =>
    [(clientCodeCksumErr, namedOf c clientCodeCksumErr (fieldOf (replies k))),
      (clientCodeSendFile, uploadOf E c file)]

def verdictCode (accepted : Bool) : ℕ :=
  if accepted then clientCodeCksumOk else clientCodeCksumErrFinal

theorem verdictCode_injective : Function.Injective verdictCode := by
  intro accepted accepted' h
  cases accepted <;> cases accepted' <;> first | rfl | cases h

def verdict (outcome : Outcome) : ℕ × Bytes :=
  (verdictCode outcome.accepted,
    namedOf c (verdictCode outcome.accepted) (fieldOf (replies (outcome.attempts - 1))))

def requestsOf (outcome : Outcome) : List (ℕ × Bytes) :=
  (clientCodeSendFile, uploadOf E c file) ::
    (retries E c file replies (outcome.attempts - 1) ++ [verdict c replies outcome])

end Requests

section Dialogue

variable {E : Externals} {c : Client} {file : Bytes} {reply : Reply} {replies : ℕ → Reply}

theorem retries_succ (n : ℕ) : retries E c file replies (n + 1) = retries E c file replies n ++
    [(clientCodeCksumErr, namedOf c clientCodeCksumErr (fieldOf (replies n))),
      (clientCodeSendFile, uploadOf E c file)] := by
  simp [retries, List.range_succ]

theorem code_of_reports {cksum : UInt32} (h : reports cksum reply = true) :
    reply.code = serverCodeCksumReady := by
  refine reply.report_iff.mp ?_
  cases hreport : reply.report with
  | none => simp [reports, hreport] at h
  | some report => rfl

variable (h : Uploaded file c)
include h

theorem react_compared (hcode : reply.code = serverCodeCksumReady) :
    ∃ cksum, (c.cksumOfLastFile = UInt32.ofNat cksum ↔ reports (cksumOf file) reply = true) ∧
      react E reply c = compareCksums E (fieldOf reply) cksum { c with
        awaiting := false
        inbox := []
        responseCodes := c.responseCodes ++ [serverCodeCksumReady] } := by
  obtain ⟨report, hreport⟩ := Option.isSome_iff_exists.mp (reply.report_iff.mpr hcode)
  have hfield : fieldOf reply = report.filename := by
    rw [fieldOf, hreport]
    rfl
  refine ⟨report.cksum, ?_, ?_⟩
  · rw [reports, hreport, h.cksum]
    exact eq_comm.trans decide_eq_true_iff.symm
  · rw [react_report h.awaiting h.inbox hreport, hfield]

theorem react_confirmed (hsame : reports (cksumOf file) reply = true) : react E reply c =
    { posted [(clientCodeCksumOk, namedOf c clientCodeCksumOk (fieldOf reply))] c with
      awaiting := true
      inbox := []
      responseCodes := c.responseCodes ++ [serverCodeCksumReady] } := by
  obtain ⟨cksum, hcksum, hreact⟩ := react_compared (E := E) h (code_of_reports hsame)
  rw [hreact, compareCksums, if_pos (hcksum.mpr hsame)]
  rfl

variable (hcode : reply.code = serverCodeCksumReady)
  (hother : reports (cksumOf file) reply = false)
include hcode hother

theorem react_retried (hleft : c.numberOfTrialsTOSendFile < numberOfFileSending) :
    react E reply c =
      { posted [(clientCodeCksumErr, namedOf c clientCodeCksumErr (fieldOf reply)),
          (clientCodeSendFile, uploadOf E c file)] c with
        awaiting := true
        inbox := []
        responseCodes := c.responseCodes ++ [serverCodeCksumReady]
        numberOfTrialsTOSendFile := c.numberOfTrialsTOSendFile + 1
        cksumOfLastFile := cksumOf file } := by
  obtain ⟨cksum, hcksum, hreact⟩ := react_compared (E := E) h hcode
  have hno : ¬ c.cksumOfLastFile = UInt32.ofNat cksum := by
    rw [hcksum, hother]
    exact Bool.false_ne_true
  have hnamed : NamesFile clientCodeCksumErr := .inr (.inl rfl)
  rw [hreact, compareCksums, if_neg hno, if_pos hleft,
    sendRequestToServer_named (c := c) hnamed (fieldOf reply)]
  have hagain (c' : Client) (hkey : c'.aesKey.length = 16)
      (hfile : c'.files c'.filePath = some file) := reSendFileToServer_some (E := E) hkey hfile
  rw [hagain]
  · simp only [posted, await, List.append_assoc]
    rfl
  · exact h.key
  · exact h.readable

theorem react_givenUp (hleft : ¬ c.numberOfTrialsTOSendFile < numberOfFileSending) :
    react E reply c =
      { posted [(clientCodeCksumErrFinal, namedOf c clientCodeCksumErrFinal (fieldOf reply))] c with
        awaiting := true
        inbox := []
        responseCodes := c.responseCodes ++ [serverCodeCksumReady]
        numberOfTrialsTOSendFile := 1
        cksumOfLastFile := 0 } := by
  obtain ⟨cksum, hcksum, hreact⟩ := react_compared (E := E) h hcode
  have hno : ¬ c.cksumOfLastFile = UInt32.ofNat cksum := by
    rw [hcksum, hother]
    exact Bool.false_ne_true
  rw [hreact, compareCksums, if_neg hno, if_neg hleft]
  rfl

end Dialogue

section States

variable (E : Externals) (c : Client) (file : Bytes) (replies : ℕ → Reply)

def retried (n : ℕ) : Client :=
  { posted (retries E c file replies n) c with
    awaiting := true
    inbox := []
    responseCodes := c.responseCodes ++ List.replicate n serverCodeCksumReady
    numberOfTrialsTOSendFile := c.numberOfTrialsTOSendFile + n
    cksumOfLastFile := cksumOf file }

def decided (outcome : Outcome) : Client :=
  { posted (retries E c file replies (outcome.attempts - 1) ++ [verdict c replies outcome]) c with
    awaiting := true
    inbox := []
    responseCodes := c.responseCodes ++ List.replicate outcome.attempts serverCodeCksumReady
    numberOfTrialsTOSendFile :=
      if outcome.accepted then c.numberOfTrialsTOSendFile + (outcome.attempts - 1) else 1
    cksumOfLastFile := if outcome.accepted then cksumOf file else 0 }

def outcomeOf : Outcome :=
  tryUpTo (numberOfFileSending - c.numberOfTrialsTOSendFile) (matching file replies)

end States

section Dialogue

variable {E : Externals} {c : Client} {file : Bytes} {replies : ℕ → Reply} (h : Uploaded file c)
include h

theorem uploaded_retried (n : ℕ) : Uploaded file (retried E c file replies n) :=
  ⟨rfl, rfl, h.readable, h.key, rfl⟩

theorem retried_zero : retried E c file replies 0 = c := by
  obtain ⟨hawait, hin, -, -, hcksum⟩ := h
  cases c
  simp_all [retried, posted, retries]

theorem afterReplies_retried (n : ℕ) (hleft : c.numberOfTrialsTOSendFile + n ≤ numberOfFileSending)
    (hcodes : ∀ k < n, (replies k).code = serverCodeCksumReady)
    (hother : ∀ k < n, matching file replies k = false) :
    afterReplies E replies c n = retried E c file replies n := by
  induction n with
  | zero => exact (retried_zero h).symm
  | succ n ih =>
    have hbefore := ih (by omega) (fun k hk => hcodes k (by omega))
      (fun k hk => hother k (by omega))
    have hlt : (retried E c file replies n).numberOfTrialsTOSendFile < numberOfFileSending :=
      Nat.lt_of_lt_of_le (by simp [retried]) hleft
    rw [afterReplies, hbefore, react_retried (uploaded_retried h n) (hcodes n (Nat.lt_succ_self n))
      (hother n (Nat.lt_succ_self n)) hlt]
    simp [retried, posted, retries_succ, List.replicate_succ', Nat.add_assoc]
    exact ⟨rfl, rfl⟩

theorem afterReplies_decided (hle : c.numberOfTrialsTOSendFile ≤ numberOfFileSending)
    (hcodes : ∀ k < (outcomeOf c file replies).attempts, (replies k).code = serverCodeCksumReady) :
    afterReplies E replies c (outcomeOf c file replies).attempts =
      decided E c file replies (outcomeOf c file replies) := by
  obtain ⟨k, hk, hother, hlast, houtcome⟩ :=
    tryUpTo_spec (numberOfFileSending - c.numberOfTrialsTOSendFile) (matching file replies)
  rw [← outcomeOf] at houtcome
  rw [houtcome] at hcodes ⊢
  have hbefore := afterReplies_retried (E := E) h k (by omega)
    (fun i hi => hcodes i (Nat.lt_succ_of_lt hi)) hother
  have hcode := hcodes k (Nat.lt_succ_self k)
  rw [afterReplies, hbefore]
  cases hsame : matching file replies k with
  | true =>
    rw [react_confirmed (uploaded_retried h k) hsame]
    simp [retried, decided, posted, verdict, verdictCode, List.replicate_succ']
    rfl
  | false =>
    have hnone : ¬ (retried E c file replies k).numberOfTrialsTOSendFile < numberOfFileSending := by
      have htrials : (retried E c file replies k).numberOfTrialsTOSendFile =
        c.numberOfTrialsTOSendFile + k := rfl
      have hall := hlast hsame
      omega
    rw [react_givenUp (uploaded_retried h k) hcode hsame hnone]
    simp [retried, decided, posted, verdict, verdictCode, List.replicate_succ']
    rfl

end Dialogue

def sentBy (c c' : Client) : List ℕ := c'.requestCodes.drop c.requestCodes.length

/-- At most four uploads, and nothing after a confirmation or the last complaint. -/
structure Decent (codes : List ℕ) : Prop where
  uploads : codes.count clientCodeSendFile ≤ numberOfFileSending
  last : ∀ before code after, codes = before ++ code :: after →
    code = clientCodeCksumOk ∨ code = clientCodeCksumErrFinal → after = []

section Bound

variable {E : Externals} {c : Client} {file : Bytes} {replies : ℕ → Reply}

theorem uploaded_first (hin : c.inbox = []) (hfile : fileToSend c = some file) :
    Uploaded file (first E c file) := by
  obtain ⟨⟨-, -, -, hkey⟩, hread⟩ := fileToSend_eq_some.mp hfile
  obtain ⟨path, hpath⟩ := loadFilePath_eq c
  rw [first]
  rw [hpath] at hread ⊢
  exact ⟨rfl, hin, hread, hkey, rfl⟩

theorem first_codes : (first E c file).requestCodes = c.requestCodes ++ [clientCodeSendFile] ∧
    (first E c file).numberOfTrialsTOSendFile = c.numberOfTrialsTOSendFile := by
  obtain ⟨path, hpath⟩ := loadFilePath_eq c
  rw [first, hpath]
  exact ⟨rfl, rfl⟩

def retryCodes (n : ℕ) : List ℕ :=
  (List.range n).flatMap fun _ => [clientCodeCksumErr, clientCodeSendFile]

theorem map_fst_retries (n : ℕ) : (retries E c file replies n).map Prod.fst = retryCodes n := by
  simp [retries, retryCodes, List.map_flatMap]

theorem count_retryCodes (n : ℕ) : (retryCodes n).count clientCodeSendFile = n := by
  induction n with
  | zero => rfl
  | succ n ih => simp_all [retryCodes, List.range_succ, clientCodeSendFile, clientCodeCksumErr]

theorem getLast?_retryCodes (codes : List ℕ) (n : ℕ) :
    (codes ++ clientCodeSendFile :: retryCodes n).getLast? = some clientCodeSendFile := by
  cases n with
  | zero => exact List.getLast?_concat
  | succ n =>
    have hsplit : codes ++ clientCodeSendFile :: retryCodes (n + 1) =
        codes ++ clientCodeSendFile :: retryCodes n ++ [clientCodeCksumErr] ++
          [clientCodeSendFile] := by
      simp [retryCodes, List.range_succ]
    rw [hsplit]
    exact List.getLast?_concat

theorem not_verdict_of_mem {n code : ℕ} (h : code ∈ clientCodeSendFile :: retryCodes n) :
    ¬ (code = clientCodeCksumOk ∨ code = clientCodeCksumErrFinal) := by
  rcases List.mem_cons.mp h with rfl | hretry
  · decide
  · obtain ⟨_, _, hcode⟩ := List.mem_flatMap.mp hretry
    have hcases : code = clientCodeCksumErr ∨ code = clientCodeSendFile := by simpa using hcode
    rcases hcases with rfl | rfl <;> decide

theorem decent_nil : Decent [] :=
  ⟨Nat.zero_le _, fun before code after h _ => by simp at h⟩

theorem decent_retryCodes {n : ℕ} (h : n < numberOfFileSending) :
    Decent (clientCodeSendFile :: retryCodes n) := by
  refine ⟨?_, ?_⟩
  · rw [List.count_cons_self, count_retryCodes]
    exact h
  · intro before code after hcodes hlast
    exact absurd hlast (not_verdict_of_mem (n := n) (by simp [hcodes]))

theorem decent_verdict {n : ℕ} (h : n < numberOfFileSending) (accepted : Bool) :
    Decent (clientCodeSendFile :: retryCodes n ++ [verdictCode accepted]) := by
  have hverdict : verdictCode accepted ≠ clientCodeSendFile := by
    cases accepted <;> decide
  refine ⟨?_, ?_⟩
  · rw [List.count_append, List.count_cons_self, count_retryCodes,
      List.count_singleton, if_neg (by simpa using hverdict)]
    exact h
  · intro before code after hcodes hlast
    by_contra hne
    obtain ⟨init, final, rfl⟩ : ∃ init final, after = init ++ [final] :=
      ⟨_, _, (List.dropLast_append_getLast hne).symm⟩
    have hsplit : (clientCodeSendFile :: retryCodes n) ++ [verdictCode accepted] =
        (before ++ code :: init) ++ [final] := by simpa using hcodes
    have hinit : clientCodeSendFile :: retryCodes n = before ++ code :: init :=
      (List.append_inj' hsplit rfl).1
    exact absurd hlast (not_verdict_of_mem (n := n) (by simp [hinit]))

theorem sentBy_of_append {c' : Client} {codes : List ℕ}
    (h : c'.requestCodes = c.requestCodes ++ codes) : sentBy c c' = codes := by
  rw [sentBy, h, List.drop_left]

theorem codes_retried (n : ℕ) : (retried E (first E c file) file replies n).requestCodes =
    c.requestCodes ++ clientCodeSendFile :: retryCodes n := by
  change (first E c file).requestCodes ++ (retries E _ file replies n).map Prod.fst = _
  rw [map_fst_retries, first_codes.1, List.append_assoc]
  rfl

theorem codes_decided (outcome : Outcome) :
    (decided E (first E c file) file replies outcome).requestCodes = c.requestCodes ++
      (clientCodeSendFile :: retryCodes (outcome.attempts - 1) ++
        [verdictCode outcome.accepted]) := by
  change (first E c file).requestCodes ++ (retries E _ file replies (outcome.attempts - 1) ++
    [verdict (first E c file) replies outcome]).map Prod.fst = _
  rw [List.map_append, map_fst_retries, first_codes.1, List.append_assoc]
  rfl

/-- A report is never left unanswered. -/
theorem react_report_sends {reply : Reply} (hawait : c.awaiting = true) (hin : c.inbox = [])
    (hcode : reply.code = serverCodeCksumReady) : ∃ code codes,
      (react E reply c).requestCodes = c.requestCodes ++ code :: codes := by
  obtain ⟨report, hreport⟩ := Option.isSome_iff_exists.mp (reply.report_iff.mpr hcode)
  rw [react_report hawait hin hreport, compareCksums]
  split_ifs
  · exact ⟨clientCodeCksumOk, [], rfl⟩
  · refine ⟨clientCodeCksumErr, [clientCodeSendFile], ?_⟩
    rw [reSendFileToServer_codes]
    exact List.append_assoc c.requestCodes [clientCodeCksumErr] [clientCodeSendFile]
  · exact ⟨clientCodeCksumErrFinal, [], rfl⟩

variable (hc : Settled c) (hfile : fileToSend c = some file)
include hc hfile

theorem afterReplies_resent {n : ℕ} (hn : n < (outcomeOf c file replies).attempts)
    (hcodes : ∀ k < n, (replies k).code = serverCodeCksumReady) :
    afterReplies E replies (first E c file) n = retried E (first E c file) file replies n := by
  have hpos := hc.pos
  have hle := hc.le
  have htrials : (first E c file).numberOfTrialsTOSendFile = c.numberOfTrialsTOSendFile :=
    first_codes.2
  obtain ⟨k, hk, hother, -, houtcome⟩ :=
    tryUpTo_spec (numberOfFileSending - c.numberOfTrialsTOSendFile) (matching file replies)
  have hattempts : (outcomeOf c file replies).attempts = k + 1 := by rw [outcomeOf, houtcome]
  exact afterReplies_retried (uploaded_first hc.inbox hfile) n (by omega) hcodes
    (fun i hi => hother i (by omega))

theorem afterReplies_verdict
    (hcodes : ∀ k < (outcomeOf c file replies).attempts, (replies k).code = serverCodeCksumReady) :
    afterReplies E replies (first E c file) (outcomeOf c file replies).attempts =
      decided E (first E c file) file replies (outcomeOf c file replies) := by
  have htrials : (first E c file).numberOfTrialsTOSendFile = c.numberOfTrialsTOSendFile :=
    first_codes.2
  have hsame : outcomeOf (first E c file) file replies = outcomeOf c file replies := by
    rw [outcomeOf, outcomeOf, htrials]
  rw [← hsame] at hcodes ⊢
  exact afterReplies_decided (uploaded_first hc.inbox hfile) (htrials ▸ hc.le) hcodes

/-- As long as only reports arrive, the client awaits more and has kept the bounds. -/
theorem decent_while_reported {n : ℕ} (hn : n ≤ (outcomeOf c file replies).attempts)
    (hcodes : ∀ k < n, (replies k).code = serverCodeCksumReady) :
    let c' := afterReplies E replies (first E c file) n
    c'.awaiting = true ∧ c'.inbox = [] ∧ Decent (sentBy c c') := by
  have hattempts : (outcomeOf c file replies).attempts - 1 < numberOfFileSending := by
    have hpos := hc.pos
    have hle := hc.le
    have hmost : (outcomeOf c file replies).attempts ≤
      numberOfFileSending - c.numberOfTrialsTOSendFile + 1 := attempts_le _ _
    omega
  intro c'
  rcases Nat.lt_or_eq_of_le hn with hlt | rfl
  · have hretried : c' = retried E (first E c file) file replies n :=
      afterReplies_resent hc hfile hlt hcodes
    rw [hretried, sentBy_of_append (codes_retried _)]
    exact ⟨rfl, rfl, decent_retryCodes (by omega)⟩
  · have hdecided : c' = decided E (first E c file) file replies (outcomeOf c file replies) :=
      afterReplies_verdict hc hfile hcodes
    rw [hdecided, sentBy_of_append (codes_decided _)]
    exact ⟨rfl, rfl, decent_verdict hattempts _⟩

end Bound

/-- What one call of `sendFileToServer` may do, whatever it is answered. -/
structure Bounded (E : Externals) (c : Client) (replies : ℕ → Reply) : Prop where
  decent : ∀ n, Decent (sentBy c (afterReplies E replies (sendFileToServer E c) n))
  returns : ∃ n, (afterReplies E replies (sendFileToServer E c) n).awaiting = false

section Bound

variable {E : Externals} {c : Client} {file : Bytes} {replies : ℕ → Reply}

theorem not_bounded (hc : Settled c) (hfile : fileToSend c = some file)
    (hcodes : ∀ k ≤ (outcomeOf c file replies).attempts,
      (replies k).code = serverCodeCksumReady) : ¬ Bounded E c replies := by
  intro h
  have hdecided := afterReplies_verdict (E := E) hc hfile (fun k hk => hcodes k hk.le)
  have hreport := hcodes _ (Nat.le_refl _)
  generalize outcomeOf c file replies = outcome at hdecided hreport
  obtain ⟨code, codes, hmore⟩ := react_report_sends (E := E)
    (c := decided E (first E c file) file replies outcome) rfl rfl hreport
  have hsent : sentBy c (afterReplies E replies (sendFileToServer E c) (outcome.attempts + 1)) =
      (clientCodeSendFile :: retryCodes (outcome.attempts - 1)) ++
        verdictCode outcome.accepted :: code :: codes := by
    rw [sendFileToServer_some hfile, afterReplies, hdecided]
    refine sentBy_of_append ?_
    rw [hmore, codes_decided]
    simp
  have hverdict : verdictCode outcome.accepted = clientCodeCksumOk ∨
      verdictCode outcome.accepted = clientCodeCksumErrFinal := by
    cases outcome.accepted
    · exact .inr rfl
    · exact .inl rfl
  have hnone := (h.decent (outcome.attempts + 1)).last _ _ (code :: codes) hsent hverdict
  cases hnone

theorem bounded_of_other (hc : Settled c) (hfile : fileToSend c = some file)
    (hother : ∃ k ≤ (outcomeOf c file replies).attempts,
      (replies k).code ≠ serverCodeCksumReady) : Bounded E c replies := by
  obtain ⟨k, ⟨hk, hcode⟩, hfirst⟩ : ∃ k, (k ≤ (outcomeOf c file replies).attempts ∧
      (replies k).code ≠ serverCodeCksumReady) ∧
      ∀ i < k, (replies i).code = serverCodeCksumReady := by
    refine ⟨Nat.find hother, Nat.find_spec hother, fun i hi => ?_⟩
    have hle := (Nat.find_spec hother).1
    by_contra hno
    exact Nat.find_min hother hi ⟨by omega, hno⟩
  obtain ⟨hawait, hin, hdecent⟩ := decent_while_reported (E := E) hc hfile hk hfirst
  have hreport : (replies k).report = none := by
    by_contra hsome
    exact hcode ((replies k).report_iff.mp (Option.isSome_iff_ne_none.mpr hsome))
  obtain ⟨hex, bytes, key, files, -, hreact⟩ := react_other (E := E) hawait hin hreport
  have hreturned : (afterReplies E replies (first E c file) (k + 1)).awaiting = false := by
    rw [afterReplies, hreact]
  have hsame : sentBy c (afterReplies E replies (first E c file) (k + 1)) =
      sentBy c (afterReplies E replies (first E c file) k) := by
    rw [afterReplies, hreact]
    rfl
  rw [← sendFileToServer_some hfile] at hreturned
  refine ⟨fun n => ?_, k + 1, hreturned⟩
  rw [sendFileToServer_some hfile] at hreturned ⊢
  rcases Nat.lt_or_ge k n with hlt | hge
  · obtain ⟨m, rfl⟩ := Nat.exists_eq_add_of_lt hlt
    rw [Nat.add_right_comm, afterReplies_idle hreturned m, hsame]
    exact hdecent
  · exact (decent_while_reported (E := E) hc hfile (by omega)
      (fun i hi => hfirst i (by omega))).2.2

/-- A call of `sendFileToServer` keeps the bounds against exactly those servers that do not go
on reporting checksums until the verdict is answered by one. -/
theorem bounded_iff (h : Reached E c) (hidle : c.awaiting = false) : Bounded E c replies ↔
    ∀ file, fileToSend c = some file → ∃ k ≤ (outcomeOf c file replies).attempts,
      (replies k).code ≠ serverCodeCksumReady := by
  constructor
  · intro hbounded file hfile
    by_contra hno
    refine not_bounded h.settled hfile (fun k hk => ?_) hbounded
    by_contra hcode
    exact hno ⟨k, hk, hcode⟩
  · intro hcond
    cases hfile : fileToSend c with
    | none =>
      obtain ⟨path, hpath⟩ := sendFileToServer_none (E := E) hfile
      have hreturned : (afterReplies E replies (sendFileToServer E c) 0).awaiting = false := by
        rw [afterReplies, hpath]
        exact hidle
      have hstill (n : ℕ) : afterReplies E replies (sendFileToServer E c) n =
          { c with filePath := path } := by
        have hall := afterReplies_idle hreturned n
        rw [Nat.zero_add, afterReplies, hpath] at hall
        rw [hpath, hall]
      have hnone : sentBy c { c with filePath := path } = [] :=
        sentBy_of_append (List.append_nil _).symm
      refine ⟨fun n => ?_, 0, hreturned⟩
      rw [hstill n, hnone]
      exact decent_nil
    | some file => exact bounded_of_other h.settled hfile (hcond file hfile)

end Bound

theorem bounded_iff_keyedA : Bounded plainCiphers keyedA (fun _ => acknowledgement) ↔
    ∀ file, fileToSend keyedA = some file →
      ∃ k ≤ (outcomeOf keyedA file fun _ => acknowledgement).attempts,
        acknowledgement.code ≠ serverCodeCksumReady :=
  bounded_iff reached_keyedA keyedA_ready.1

/-- A server that sends the same report for ever. -/
theorem endless_reports : Reached plainCiphers keyedA ∧ keyedA.awaiting = false ∧
    ¬ Bounded plainCiphers keyedA (fun _ => reportOf 0) :=
  ⟨reached_keyedA, keyedA_ready.1,
    not_bounded reached_keyedA.settled keyedA_ready.2.2 (fun _ _ => rfl)⟩

end EncryptedTransfer.UploadDialogue
