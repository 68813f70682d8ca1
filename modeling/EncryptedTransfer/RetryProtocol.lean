import EncryptedTransfer.UploadDialogue

/-!
# The retries of the README

Calls of `sendFileToServer` against the server of the README. The trials are counted in a field
of the client, so its calls draw on one stock of retries.
-/
namespace EncryptedTransfer.RetryProtocol
open ServerStores hiding Client Client.new
open ByteFormats ServerCalls ServerHandlers ServerEffects CryptoLaws BoundedRetries
open ClientProcess Network ClientMessages KeyAgreement ServerReplies ClientReactions UploadDialogue

/-- A checksum for an upload, an acknowledgement for a verdict. -/
def Answers (code : ℕ) (reply : Reply) : Prop :=
  (code = clientCodeSendFile → reply.code = serverCodeCksumReady) ∧
    (code = clientCodeCksumOk ∨ code = clientCodeCksumErrFinal →
      reply.code = serverCodeMessageReceived)

/-- Each response answers the last request. -/
def Followed (E : Externals) (c : Client) (replies : ℕ → Reply) : Prop :=
  ∀ n, (afterReplies E replies c n).awaiting = true →
    ∀ code, (afterReplies E replies c n).requestCodes.getLast? = some code →
      Answers code (replies n)

/-- A call of `sendFileToServer`: the files at that time, and the responses. -/
structure Call where
  files : Bytes → Option Bytes
  replies : ℕ → Reply

namespace Call

def start (call : Call) (c : Client) : Client := { c with files := call.files }

def result (E : Externals) (call : Call) (c : Client) : Client :=
  afterReplies E call.replies (sendFileToServer E (call.start c)) (numberOfFileSending + 1)

/-- Which reports match, where a file is sent. -/
def pattern (call : Call) (c : Client) : Option (ℕ → Bool) :=
  (fileToSend (call.start c)).map fun file => matching file call.replies

/-- What the call is to send: the file until a report matches, four times at most. -/
def expected (E : Externals) (call : Call) (c : Client) : List (ℕ × Bytes) :=
  match fileToSend (call.start c) with
  | none => []
  | some file => requestsOf E (loadFilePath (call.start c)).2 file call.replies
      (tryUpTo (numberOfFileSending - 1) (matching file call.replies))

end Call

def AllFollowed (E : Externals) : Client → List Call → Prop
  | _, [] => True
  | c, call :: calls => Followed E (sendFileToServer E (call.start c)) call.replies ∧
      AllFollowed E (call.result E c) calls

def Sent (requests : List (ℕ × Bytes)) (c c' : Client) : Prop :=
  c'.awaiting = false ∧ c'.outbox = c.outbox ++ requests.map Prod.snd ∧
    c'.requestCodes = c.requestCodes ++ requests.map Prod.fst

/-- Every call sends what it is to send. -/
def Protocol (E : Externals) : Client → List Call → Prop
  | _, [] => True
  | c, call :: calls => Sent (call.expected E c) c (call.result E c) ∧
      Protocol E (call.result E c) calls

section Calls

variable {E : Externals} {c : Client} {file : Bytes} {replies : ℕ → Reply}

theorem splitLines_ne_nil (content : Bytes) : splitLines content ≠ [] := by
  cases content with
  | nil => exact List.cons_ne_nil _ _
  | cons b bs =>
    rw [splitLines]
    split_ifs
    · exact List.cons_ne_nil _ _
    · cases splitLines bs <;> exact List.cons_ne_nil _ _

theorem readLine_some (content : Bytes) (lineNumber : ℕ) (destination destination' : Bytes) :
    readLine (some content) lineNumber destination =
      readLine (some content) lineNumber destination' := by
  obtain ⟨line, lines, hlines⟩ : ∃ line lines, splitLines content = line :: lines :=
    List.exists_cons_of_ne_nil (splitLines_ne_nil content)
  simp only [readLine, hlines, readLineLoop]

theorem fileToSend_congr {c' : Client} (hfiles : c'.files = c.files)
    (hconnected : c'.connectedToServer = c.connectedToServer)
    (hattached : c'.clientIdHex = c.clientIdHex) (hkey : c'.aesKey = c.aesKey) :
    fileToSend c' = fileToSend c := by
  cases hinfo : c.files serverFilePath with
  | none =>
    have hload : (loadFilePath c).1 = false := by simp [loadFilePath, hinfo]
    have hload' : (loadFilePath c').1 = false := by simp [loadFilePath, hfiles, hinfo]
    simp [fileToSend, hload, hload']
  | some content =>
    have hread := readLine_some content 3 c'.filePath c.filePath
    have hfound : (loadFilePath c').1 = (loadFilePath c).1 := by
      simp only [loadFilePath, hfiles, hinfo, Option.isSome_some, ↓reduceIte, hread]
      split_ifs <;> rfl
    have hpath : (loadFilePath c').2.filePath = (loadFilePath c).2.filePath := by
      simp only [loadFilePath, hfiles, hinfo, Option.isSome_some, ↓reduceIte, hread]
      split_ifs <;> rfl
    have hsame : (loadFilePath c').2.files = (loadFilePath c).2.files := by
      obtain ⟨path, hc⟩ := loadFilePath_eq c
      obtain ⟨path', hc'⟩ := loadFilePath_eq c'
      rw [hc, hc']
      exact hfiles
    rw [fileToSend, fileToSend, hfound, hpath, hsame, hconnected, hattached, hkey]

theorem afterReplies_followed (hc : Settled c) (hfile : fileToSend c = some file)
    (hfollowed : Followed E (first E c file) replies) :
    let outcome := outcomeOf c file replies
    afterReplies E replies (first E c file) (outcome.attempts + 1) =
      { decided E (first E c file) file replies outcome with
        awaiting := false
        responseCodes := (decided E (first E c file) file replies outcome).responseCodes ++
          [serverCodeMessageReceived] } := by
  have hcodes : ∀ n ≤ (outcomeOf c file replies).attempts, ∀ i < n,
      (replies i).code = serverCodeCksumReady := by
    intro n hn
    induction n with
    | zero => exact fun i hi => absurd hi (Nat.not_lt_zero i)
    | succ n ih =>
      intro i hi
      rcases Nat.lt_succ_iff_lt_or_eq.mp hi with hlt | rfl
      · exact ih (by omega) i hlt
      · have hretried := afterReplies_resent (E := E) hc hfile hn (ih (by omega))
        refine (hfollowed i ?_ clientCodeSendFile ?_).1 rfl
        · rw [hretried]
          rfl
        · rw [hretried, codes_retried]
          exact getLast?_retryCodes _ _
  intro outcome
  have hverdict : afterReplies E replies (first E c file) outcome.attempts =
      decided E (first E c file) file replies outcome :=
    afterReplies_verdict hc hfile (hcodes outcome.attempts (Nat.le_refl _))
  have hcode : (replies outcome.attempts).code = serverCodeMessageReceived := by
    refine (hfollowed outcome.attempts ?_ (verdictCode outcome.accepted) ?_).2 ?_
    · rw [hverdict]
      rfl
    · rw [hverdict, codes_decided, ← List.append_assoc]
      exact List.getLast?_concat
    · cases outcome.accepted
      · exact .inr rfl
      · exact .inl rfl
  rw [afterReplies, hverdict, react_acknowledged rfl rfl hcode]
  rfl

namespace Call

variable {call : Call}

theorem result_none (hidle : c.awaiting = false) (hfile : fileToSend (call.start c) = none) :
    ∃ path, call.result E c = { call.start c with filePath := path } := by
  obtain ⟨path, hpath⟩ := sendFileToServer_none (E := E) hfile
  refine ⟨path, ?_⟩
  have hreturned : (afterReplies E call.replies (sendFileToServer E (call.start c)) 0).awaiting =
      false := by
    rw [afterReplies, hpath]
    exact hidle
  have hstill := afterReplies_idle hreturned (numberOfFileSending + 1)
  rw [Nat.zero_add, afterReplies, hpath] at hstill
  rw [result, hpath, hstill]

theorem result_some (hc : Settled c) (hfile : fileToSend (call.start c) = some file)
    (hfollowed : Followed E (sendFileToServer E (call.start c)) call.replies) :
    call.result E c =
      let decided := decided E (first E (call.start c) file) file call.replies
        (outcomeOf c file call.replies)
      { decided with
        awaiting := false
        responseCodes := decided.responseCodes ++ [serverCodeMessageReceived] } := by
  have hstart : Settled (call.start c) := ⟨hc.inbox, hc.pos, hc.le⟩
  rw [sendFileToServer_some hfile] at hfollowed
  have hdone := afterReplies_followed hstart hfile hfollowed
  have hattempts : (outcomeOf (call.start c) file call.replies).attempts + 1 ≤
      numberOfFileSending + 1 := by
    have hpos := hstart.pos
    have hle := hstart.le
    have hmost : (outcomeOf (call.start c) file call.replies).attempts ≤
      numberOfFileSending - (call.start c).numberOfTrialsTOSendFile + 1 := attempts_le _ _
    omega
  obtain ⟨m, hm⟩ := Nat.exists_eq_add_of_le hattempts
  have hreturned : (afterReplies E call.replies (first E (call.start c) file)
      ((outcomeOf (call.start c) file call.replies).attempts + 1)).awaiting = false := by
    rw [hdone]
  rw [result, sendFileToServer_some hfile, hm, afterReplies_idle hreturned, hdone]
  rfl

end Call

theorem codes_requestsOf (outcome : Outcome) : (requestsOf E c file replies outcome).map Prod.fst =
    clientCodeSendFile :: retryCodes (outcome.attempts - 1) ++ [verdictCode outcome.accepted] := by
  simp [requestsOf, map_fst_retries, verdict]

theorem outcome_of_codes {outcome outcome' : Outcome} (hpos : 1 ≤ outcome.attempts)
    (hpos' : 1 ≤ outcome'.attempts)
    (h : clientCodeSendFile :: retryCodes (outcome.attempts - 1) ++ [verdictCode outcome.accepted] =
      clientCodeSendFile :: retryCodes (outcome'.attempts - 1) ++
        [verdictCode outcome'.accepted]) : outcome = outcome' := by
  obtain ⟨hcodes, hverdict⟩ := List.append_inj' h rfl
  have hcount := congrArg (List.count clientCodeSendFile) hcodes
  rw [List.count_cons_self, List.count_cons_self, count_retryCodes, count_retryCodes] at hcount
  have hsame : verdictCode outcome.accepted = verdictCode outcome'.accepted :=
    List.singleton_inj.mp hverdict
  obtain ⟨attempts, accepted⟩ := outcome
  obtain ⟨attempts', accepted'⟩ := outcome'
  have hattempts : attempts = attempts' := by
    change 1 ≤ attempts at hpos
    change 1 ≤ attempts' at hpos'
    change attempts - 1 + 1 = attempts' - 1 + 1 at hcount
    omega
  have haccepted : accepted = accepted' := verdictCode_injective hsame
  rw [hattempts, haccepted]

variable (E c file replies) in
theorem sent_decided (outcome : Outcome) :
    let c' := decided E (first E c file) file replies outcome
    c'.outbox = c.outbox ++
        (requestsOf E (loadFilePath c).2 file replies outcome).map Prod.snd ∧
      c'.requestCodes = c.requestCodes ++
        (requestsOf E (loadFilePath c).2 file replies outcome).map Prod.fst := by
  intro c'
  refine ⟨?_, ?_⟩
  · have hbefore : (loadFilePath c).2.outbox = c.outbox := by
      obtain ⟨path, hpath⟩ := loadFilePath_eq c
      rw [hpath]
    change ((loadFilePath c).2.outbox ++ [uploadOf E (loadFilePath c).2 file]) ++
      (retries E (loadFilePath c).2 file replies (outcome.attempts - 1) ++
        [verdict (loadFilePath c).2 replies outcome]).map Prod.snd = _
    rw [hbefore, List.append_assoc]
    rfl
  · rw [codes_requestsOf, codes_decided]

/-- What a call leaves for the next one. -/
structure Kept (c c' : Client) : Prop where
  settled : Settled c'
  idle : c'.awaiting = false
  connected : c'.connectedToServer = c.connectedToServer
  attached : c'.clientIdHex = c.clientIdHex
  key : c'.aesKey = c.aesKey

theorem Kept.pattern {c' : Client} (h : Kept c c') (call : Call) :
    call.pattern c' = call.pattern c := by
  have hfile : fileToSend (call.start c') = fileToSend (call.start c) :=
    fileToSend_congr rfl h.connected h.attached h.key
  rw [Call.pattern, Call.pattern, hfile]

def retriesLeft (c : Client) : ℕ := numberOfFileSending - c.numberOfTrialsTOSendFile

namespace Call

variable {call : Call} (hc : Settled c)
include hc

theorem kept_none (hidle : c.awaiting = false) (hfile : call.pattern c = none) :
    Kept c (call.result E c) ∧ Sent (call.expected E c) c (call.result E c) ∧
      retriesLeft (call.result E c) = retriesLeft c := by
  have hnone : fileToSend (call.start c) = none := Option.map_eq_none_iff.mp hfile
  obtain ⟨path, hresult⟩ := result_none (E := E) hidle hnone
  have hexpected : call.expected E c = [] := by rw [expected, hnone]
  rw [hresult, hexpected]
  exact ⟨⟨⟨hc.inbox, hc.pos, hc.le⟩, hidle, rfl, rfl, rfl⟩,
    ⟨hidle, (List.append_nil _).symm, (List.append_nil _).symm⟩, rfl⟩

variable (hfollowed : Followed E (sendFileToServer E (call.start c)) call.replies) {file : Bytes}
  (hfile : fileToSend (call.start c) = some file)
include hfollowed hfile

theorem trials_result : (call.result E c).numberOfTrialsTOSendFile =
    if (outcomeOf c file call.replies).accepted then
      c.numberOfTrialsTOSendFile + ((outcomeOf c file call.replies).attempts - 1)
    else 1 := by
  have htrials : (first E (call.start c) file).numberOfTrialsTOSendFile =
    c.numberOfTrialsTOSendFile := first_codes.2
  rw [result_some hc hfile hfollowed, ← htrials]
  rfl

theorem retriesLeft_result : retriesLeft (call.result E c) =
    leftAfter (numberOfFileSending - 1) (retriesLeft c) (matching file call.replies) := by
  have hpos := hc.pos
  have hone := one_le_attempts (retriesLeft c) (matching file call.replies)
  have htrials := trials_result (E := E) hc hfollowed hfile
  have houtcome : outcomeOf c file call.replies =
    tryUpTo (retriesLeft c) (matching file call.replies) := rfl
  rw [houtcome] at htrials
  rw [leftAfter, retriesLeft, htrials]
  split_ifs
  · rw [retriesLeft]
    omega
  · rfl

theorem kept_result : Kept c (call.result E c) := by
  obtain ⟨k, hk, -, -, houtcome⟩ := tryUpTo_spec
    (numberOfFileSending - c.numberOfTrialsTOSendFile) (matching file call.replies)
  have hpos := hc.pos
  have hle := hc.le
  have htrials := trials_result (E := E) hc hfollowed hfile
  rw [outcomeOf, houtcome] at htrials
  obtain ⟨path, hpath⟩ := loadFilePath_eq (call.start c)
  have hbounds : 1 ≤ (call.result E c).numberOfTrialsTOSendFile ∧
      (call.result E c).numberOfTrialsTOSendFile ≤ numberOfFileSending := by
    rw [htrials]
    split_ifs
    · change 1 ≤ _ + (k + 1 - 1) ∧ _ + (k + 1 - 1) ≤ _
      omega
    · exact ⟨Nat.le_refl 1, Nat.le_trans hpos hle⟩
  have hresult := result_some (E := E) hc hfile hfollowed
  simp only [decided, posted, first, await, hpath] at hresult
  exact ⟨⟨congrArg Client.inbox hresult, hbounds.1, hbounds.2⟩, congrArg Client.awaiting hresult,
    (congrArg Client.connectedToServer hresult).trans rfl,
    (congrArg Client.clientIdHex hresult).trans rfl, (congrArg Client.aesKey hresult).trans rfl⟩

/-- The call does what it should exactly where the trials already spent make no difference. -/
theorem sent_result_iff : Sent (call.expected E c) c (call.result E c) ↔
    outcomeOf c file call.replies =
      tryUpTo (numberOfFileSending - 1) (matching file call.replies) := by
  have hexpected : call.expected E c = requestsOf E (loadFilePath (call.start c)).2 file
      call.replies (tryUpTo (numberOfFileSending - 1) (matching file call.replies)) := by
    rw [expected, hfile]
  have hsent := sent_decided E (call.start c) file call.replies (outcomeOf c file call.replies)
  rw [result_some hc hfile hfollowed, hexpected]
  constructor
  · rintro ⟨-, -, hcodes⟩
    have hsame := List.append_cancel_left (hsent.2.symm.trans hcodes)
    rw [codes_requestsOf, codes_requestsOf] at hsame
    refine outcome_of_codes ?_ ?_ hsame
    · exact one_le_attempts _ _
    · exact one_le_attempts _ _
  · intro hsame
    rw [← hsame]
    exact ⟨rfl, hsent.1, hsent.2⟩

end Call

theorem protocol_iff_unaffected (hc : Settled c) (hidle : c.awaiting = false) {calls : List Call}
    (hfollowed : AllFollowed E c calls) : Protocol E c calls ↔
      Unaffected (numberOfFileSending - 1) (retriesLeft c)
        (calls.filterMap fun call => call.pattern c) := by
  induction calls generalizing c with
  | nil => exact Iff.rfl
  | cons call calls ih =>
    obtain ⟨hcall, hcalls⟩ := hfollowed
    cases hfile : fileToSend (call.start c) with
    | none =>
      have hpattern : call.pattern c = none := Option.map_eq_none_iff.mpr hfile
      obtain ⟨hkept, hsent, hleft⟩ := Call.kept_none (E := E) hc hidle hpattern
      have hrest := ih hkept.settled hkept.idle hcalls
      simp only [hkept.pattern, hleft] at hrest
      rw [Protocol]
      simp only [List.filterMap_cons, hpattern, ← hrest]
      exact ⟨fun h => h.2, fun h => ⟨hsent, h⟩⟩
    | some file =>
      have hpattern : call.pattern c = some (matching file call.replies) := by
        rw [Call.pattern, hfile]
        rfl
      have hkept := Call.kept_result (E := E) hc hcall hfile
      have hsent := Call.sent_result_iff (E := E) hc hcall hfile
      have hleft : retriesLeft (call.result E c) =
          leftAfter (numberOfFileSending - 1) (retriesLeft c) (matching file call.replies) :=
        Call.retriesLeft_result hc hcall hfile
      have hrest := ih hkept.settled hkept.idle hcalls
      simp only [hkept.pattern, hleft] at hrest
      rw [Protocol, hsent]
      simp only [List.filterMap_cons, hpattern, Unaffected, ← hrest]
      exact Iff.rfl

theorem followed_of_codes (hc : Settled c) (hfile : fileToSend c = some file)
    (hcodes : ∀ k < (outcomeOf c file replies).attempts, (replies k).code = serverCodeCksumReady)
    (hlast : (replies (outcomeOf c file replies).attempts).code = serverCodeMessageReceived) :
    Followed E (sendFileToServer E c) replies := by
  rw [sendFileToServer_some hfile]
  intro n hawait code hcode
  have hdecided := afterReplies_verdict (E := E) hc hfile hcodes
  rcases Nat.lt_trichotomy n (outcomeOf c file replies).attempts with hlt | rfl | hgt
  · have hretried := afterReplies_resent (E := E) hc hfile hlt (fun k hk => hcodes k (by omega))
    rw [hretried, codes_retried, getLast?_retryCodes] at hcode
    obtain rfl := Option.some.inj hcode
    exact ⟨fun _ => hcodes n hlt, fun h => absurd h (by decide)⟩
  · rw [hdecided, codes_decided, ← List.append_assoc, List.getLast?_concat] at hcode
    obtain rfl := Option.some.inj hcode
    refine ⟨fun h => ?_, fun _ => hlast⟩
    cases hverdict : (outcomeOf c file replies).accepted <;> rw [hverdict] at h <;> cases h
  · obtain ⟨m, rfl⟩ := Nat.exists_eq_add_of_lt hgt
    have hreturned : (afterReplies E replies (first E c file)
        ((outcomeOf c file replies).attempts + 1)).awaiting = false := by
      rw [afterReplies, hdecided, react_acknowledged rfl rfl hlast]
    rw [Nat.add_right_comm, afterReplies_idle hreturned m, hreturned] at hawait
    cases hawait

/-- The retry protocol is kept in exactly those sequences of calls where every upload meets an
unspent stock of trials or is accepted with what earlier uploads have left of it. -/
theorem protocol_iff (h : Reached E c) (hidle : c.awaiting = false) {calls : List Call}
    (hfollowed : AllFollowed E c calls) : Protocol E c calls ↔
      Spares (numberOfFileSending - 1) (retriesLeft c)
        (calls.filterMap fun call => call.pattern c) := by
  have hleft : retriesLeft c ≤ numberOfFileSending - 1 := Nat.sub_le_sub_left h.settled.pos _
  rw [protocol_iff_unaffected h.settled hidle hfollowed, unaffected_iff_spares hleft]

end Calls

def secondMatches : Call where
  files := keyedA.files
  replies
    | 0 => reportOf 0
    | 1 => reportOf (cksumOf [7])
    | _ => acknowledgement

def noneMatches : Call where
  files := keyedA.files
  replies k := if k < 3 then reportOf 0 else acknowledgement

section Examples

variable {c : Client}

theorem cksumOf_seven : (0 : UInt32) ≠ cksumOf [7] := by decide +kernel

theorem matching_secondMatches : matching [7] secondMatches.replies 0 = false ∧
    matching [7] secondMatches.replies 1 = true :=
  ⟨(reports_reportOf _ _).trans (decide_eq_false cksumOf_seven),
    (reports_reportOf _ _).trans (decide_eq_true rfl)⟩

theorem matching_noneMatches (k : ℕ) : matching [7] noneMatches.replies k = false := by
  have hreply : noneMatches.replies k = if k < 3 then reportOf 0 else acknowledgement := rfl
  rw [matching, hreply]
  split_ifs
  · exact (reports_reportOf _ _).trans (decide_eq_false cksumOf_seven)
  · rfl

theorem kept_keyedA : Kept keyedA keyedA :=
  ⟨reached_keyedA.settled, keyedA_ready.1, rfl, rfl, rfl⟩

theorem fileToSend_start (h : Kept keyedA c) {call : Call} (hfiles : call.files = keyedA.files) :
    fileToSend (call.start c) = some [7] := by
  have hsame : fileToSend (call.start c) = fileToSend keyedA :=
    fileToSend_congr hfiles h.connected h.attached h.key
  rw [hsame, keyedA_ready.2.2]

theorem followed_secondMatches (h : Kept keyedA c) (hleft : 1 ≤ retriesLeft c) :
    Followed plainCiphers (sendFileToServer plainCiphers (secondMatches.start c))
      secondMatches.replies ∧
    tryUpTo (retriesLeft c) (matching [7] secondMatches.replies) = ⟨2, true⟩ := by
  have hc : Settled (secondMatches.start c) := ⟨h.settled.inbox, h.settled.pos, h.settled.le⟩
  have houtcome : tryUpTo (retriesLeft c) (matching [7] secondMatches.replies) = ⟨2, true⟩ := by
    obtain ⟨left, hsucc⟩ := Nat.exists_eq_add_of_le' hleft
    rw [hsucc, tryUpTo_of_rejected matching_secondMatches.1,
      tryUpTo_of_accepted matching_secondMatches.2]
  have hsame : outcomeOf (secondMatches.start c) [7] secondMatches.replies = ⟨2, true⟩ := houtcome
  refine ⟨followed_of_codes hc (fileToSend_start h rfl) ?_ ?_, houtcome⟩
  · rw [hsame]
    intro k hk
    rcases k with _ | _ | k
    · rfl
    · rfl
    · exact absurd hk (by simp)
  · rw [hsame]
    rfl

theorem followed_noneMatches (h : Kept keyedA c) (hleft : retriesLeft c = 2) :
    Followed plainCiphers (sendFileToServer plainCiphers (noneMatches.start c))
      noneMatches.replies := by
  have hc : Settled (noneMatches.start c) := ⟨h.settled.inbox, h.settled.pos, h.settled.le⟩
  have hsame : outcomeOf (noneMatches.start c) [7] noneMatches.replies = ⟨3, false⟩ := by
    have houtcome : tryUpTo (retriesLeft c) (matching [7] noneMatches.replies) = ⟨3, false⟩ := by
      rw [hleft]
      simp [tryUpTo, matching_noneMatches]
    exact houtcome
  refine followed_of_codes hc (fileToSend_start h rfl) ?_ ?_
  · rw [hsame]
    intro k hk
    have hreply : noneMatches.replies k = reportOf 0 := if_pos hk
    rw [hreply]
    rfl
  · rw [hsame]
    rfl

theorem after_secondMatches : Kept keyedA (secondMatches.result plainCiphers keyedA) ∧
    retriesLeft (secondMatches.result plainCiphers keyedA) = 2 := by
  have hthree : retriesLeft keyedA = 3 := by rw [retriesLeft, keyedA_ready.2.1]; rfl
  have hfile : fileToSend (secondMatches.start keyedA) = some [7] := fileToSend_start kept_keyedA rfl
  obtain ⟨hfollowed, houtcome⟩ := followed_secondMatches kept_keyedA (by omega)
  refine ⟨Call.kept_result reached_keyedA.settled hfollowed hfile, ?_⟩
  rw [Call.retriesLeft_result reached_keyedA.settled hfollowed hfile, leftAfter, houtcome, hthree]
  rfl

theorem followed_twice : AllFollowed plainCiphers keyedA [secondMatches, secondMatches] := by
  obtain ⟨hkept, hleft⟩ := after_secondMatches
  have hthree : retriesLeft keyedA = 3 := by rw [retriesLeft, keyedA_ready.2.1]; rfl
  exact ⟨(followed_secondMatches kept_keyedA (by omega)).1,
    (followed_secondMatches hkept (by omega)).1, trivial⟩

theorem protocol_iff_twice : Protocol plainCiphers keyedA [secondMatches, secondMatches] ↔
    Spares (numberOfFileSending - 1) (retriesLeft keyedA)
      ([secondMatches, secondMatches].filterMap fun call => call.pattern keyedA) :=
  protocol_iff reached_keyedA keyedA_ready.1 followed_twice

/-- The second file is given up after three uploads. -/
theorem given_up_early : Reached plainCiphers keyedA ∧ keyedA.awaiting = false ∧
    AllFollowed plainCiphers keyedA [secondMatches, noneMatches] ∧
    ¬ Protocol plainCiphers keyedA [secondMatches, noneMatches] := by
  obtain ⟨hkept, hleft⟩ := after_secondMatches
  have hthree : retriesLeft keyedA = 3 := by rw [retriesLeft, keyedA_ready.2.1]; rfl
  obtain ⟨hfirst, -⟩ := followed_secondMatches kept_keyedA (by omega)
  have hsecond := followed_noneMatches hkept hleft
  have hfile : fileToSend (noneMatches.start (secondMatches.result plainCiphers keyedA)) =
    some [7] := fileToSend_start hkept rfl
  refine ⟨reached_keyedA, keyedA_ready.1, ⟨hfirst, hsecond, trivial⟩, ?_⟩
  rintro ⟨-, hsent, -⟩
  have hsame : tryUpTo (retriesLeft (secondMatches.result plainCiphers keyedA))
      (matching [7] noneMatches.replies) =
        tryUpTo (numberOfFileSending - 1) (matching [7] noneMatches.replies) :=
    (Call.sent_result_iff hkept.settled hsecond hfile).mp hsent
  rw [hleft, tryUpTo_eq_iff (by decide)] at hsame
  rcases hsame with hmore | ⟨k, -, hk⟩
  · exact absurd hmore (by decide)
  · rw [matching_noneMatches] at hk
    cases hk

end Examples

end EncryptedTransfer.RetryProtocol
