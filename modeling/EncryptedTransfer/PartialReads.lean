import EncryptedTransfer.ClientReactions

/-!
# What is taken for a response

`SocketHandler::receive` makes one call of `read_some` into a zeroed buffer and reports whether
anything was read. `receiveResponseFromServer` and `handleFileResponse` do not look at that: they
act on the buffers, and the first returns true.
-/
namespace EncryptedTransfer.PartialReads
open ServerStores hiding Client Client.new
open ByteFormats ServerCalls ServerHandlers ServerEffects CryptoLaws ClientProcess ClientMessages
open KeyAgreement ServerReplies ClientReactions

/-- The bytes that have yet to be read, and how much the calls of `read_some` to come return: one
byte more than this, unless less was asked for or is there. -/
structure Reception where
  outcomes : ℕ → ℕ
  stream : Bytes

/-- What the next `read_some` of `n` bytes returns. At the end of the stream it fails. -/
def Reception.data (n : ℕ) (r : Reception) : Bytes := r.stream.take (min n (r.outcomes 0 + 1))

def Reception.receive (n : ℕ) (r : Reception) : Bool × Bytes × Reception :=
  (!(r.data n).isEmpty, resize n (r.data n),
    ⟨fun k => r.outcomes (k + 1), r.stream.drop (r.data n).length⟩)

/-- What a call acts on: the response, and for a report its content size, name and checksum. -/
structure Act where
  response : Response
  report : Option (ℕ × Bytes × ℕ)

/-- A call of `receiveResponseFromServer`: what it returns, what it acts on, and what is left. -/
structure Handled where
  result : Bool
  act : Option Act
  rest : Reception
  client : Client

section Calls

variable (E : Externals)

def handleFileResponse (response : Response) (r : Reception) (c : Client) :
    Act × Reception × Client :=
  let (_, contentSize, r) := r.receive 4
  let (_, filename, r) := r.receive 255
  let (_, cksum, r) := r.receive 4
  (⟨response, some (ofLe contentSize, filename, ofLe cksum)⟩, r,
    compareCksums E filename (ofLe cksum) c)

def handleResponse (response : Response) (r : Reception) (c : Client) : Act × Reception × Client :=
  if response.code = serverCodeRegistrationOk then
    (⟨response, none⟩, r, saveRegistrationDetails response.clientId c)
  else if response.code = serverCodeSwitchingKeys then
    (⟨response, none⟩, r, handleAESKeyFromServer E response.payload c)
  else if response.code = serverCodeCksumReady then handleFileResponse E response r c
  else (⟨response, none⟩, r, c)

def receiveResponseFromServer (r : Reception) (c : Client) : Handled :=
  let (_, head, r) := r.receive 7
  let code := ofLe ((head.drop 1).take 2)
  let payloadSize := ofLe (head.drop 3)
  let (_, clientId, r) := r.receive 16
  let (_, payload, r) := if 0 < payloadSize then r.receive payloadSize else (true, [], r)
  let response : Response := ⟨ofLe (head.take 1), code, clientId, payload, payload.length⟩
  let (act, r, c) := handleResponse E response r { c with
    awaiting := false
    responseCodes := c.responseCodes ++ [code] }
  ⟨true, some act, r, c⟩

/-- Calls one after another, the `k`-th by the client as it is then. -/
def calls : Reception → (ℕ → Client) → ℕ → List Handled
  | _, _, 0 => []
  | r, clients, n + 1 =>
    let handled := receiveResponseFromServer E r (clients 0)
    handled :: calls handled.rest (fun k => clients (k + 1)) n

end Calls

/-- The sizes that are asked for to read a response with a payload of this size. -/
def responseSizes (payloadSize : ℕ) : List ℕ :=
  [7, 16] ++ if 0 < payloadSize then [payloadSize] else []

/-- A response that is sent, of any version. -/
structure Sent where
  version : ℕ
  reply : Reply
  version_lt : version < 256

namespace Sent

def encode (sent : Sent) : Bytes :=
  leBytes 1 sent.version ++ (leBytes 2 sent.reply.code ++ (leBytes 4 sent.reply.payload.length ++
    (sent.reply.clientId ++ (sent.reply.payload ++ sent.reply.tail))))

def act (sent : Sent) : Act where
  response := ⟨sent.version, sent.reply.code, sent.reply.clientId, sent.reply.payload,
    sent.reply.payload.length⟩
  report := sent.reply.report.map fun report => (report.contentSize, report.filename, report.cksum)

def sizes (sent : Sent) : List ℕ :=
  responseSizes sent.reply.payload.length ++
    if sent.reply.code = serverCodeCksumReady then [4, 255, 4] else []

end Sent

def encoded (responses : List Sent) : Bytes := responses.flatMap Sent.encode

/-- A call that acts has read, after these responses, just the bytes of its own, and acts on the
values in it. -/
def Acts (before : List Sent) (sent : Sent) (stream : Bytes) (handled : Handled) : Prop :=
  ∀ act, handled.act = some act →
    stream = encoded before ++ (sent.encode ++ handled.rest.stream) ∧ act = sent.act

/-- The stream ends inside the response after these. -/
def EndsInside (before : List Sent) (sent : Sent) (stream : Bytes) : Prop :=
  (encoded before).length < stream.length ∧
    stream.length < (encoded before ++ sent.encode).length

/-- The calls are for these responses, in turn: each acts only on all of its response, and returns
false if the stream ends inside it. -/
def Exact (responses : List Sent) (stream : Bytes) (handled : List Handled) : Prop :=
  ∀ k sent h, responses[k]? = some sent → handled[k]? = some h →
    Acts (responses.take k) sent stream h ∧
      (EndsInside (responses.take k) sent stream → h.result = false)

/-- Every call of `read_some` may return all it is asked for. -/
def AllFull (outcomes : ℕ → ℕ) (sizes : List ℕ) : Prop :=
  ∀ k n, sizes[k]? = some n → n ≤ outcomes k + 1

def readResponse (r : Reception) : Response × Reception :=
  let (_, head, r) := r.receive 7
  let code := ofLe ((head.drop 1).take 2)
  let payloadSize := ofLe (head.drop 3)
  let (_, clientId, r) := r.receive 16
  let (_, payload, r) := if 0 < payloadSize then r.receive payloadSize else (true, [], r)
  (⟨ofLe (head.take 1), code, clientId, payload, payload.length⟩, r)

def readReport (r : Reception) : (ℕ × Bytes × ℕ) × Reception :=
  let (_, contentSize, r) := r.receive 4
  let (_, filename, r) := r.receive 255
  let (_, cksum, r) := r.receive 4
  ((ofLe contentSize, filename, ofLe cksum), r)

section Call

variable {r : Reception} {outcomes : ℕ → ℕ} {stream rest : Bytes} {n : ℕ}

theorem allFull_cons {ns : List ℕ} : AllFull outcomes (n :: ns) ↔
    n ≤ outcomes 0 + 1 ∧ AllFull (fun k => outcomes (k + 1)) ns := by
  constructor
  · exact fun h => ⟨h 0 n rfl, fun k m hm => h (k + 1) m hm⟩
  · rintro ⟨hfirst, hrest⟩ k m hm
    cases k with
    | zero =>
      obtain rfl := Option.some.inj hm
      exact hfirst
    | succ k => exact hrest k m hm

theorem allFull_nil : AllFull outcomes [] := fun _ _ h => by simp at h

theorem allFull_append {ns ms : List ℕ} : AllFull outcomes (ns ++ ms) ↔
    AllFull outcomes ns ∧ AllFull (fun k => outcomes (k + ns.length)) ms := by
  induction ns generalizing outcomes with
  | nil => simp [allFull_nil]
  | cons n ns ih =>
    have hrest := @ih fun k => outcomes (k + 1)
    have hshift : (fun k => outcomes (k + ns.length + 1)) =
      fun k => outcomes (k + (n :: ns).length) := rfl
    rw [List.cons_append, allFull_cons, allFull_cons, hrest, hshift, and_assoc]

theorem receive_full (outcomes : ℕ → ℕ) {data : Bytes} (rest : Bytes) (hdata : data.length = n)
    (hfull : n ≤ outcomes 0 + 1) : ∃ got, Reception.receive n ⟨outcomes, data ++ rest⟩ =
      (got, data, ⟨fun k => outcomes (k + 1), rest⟩) := by
  have hread : Reception.data n ⟨outcomes, data ++ rest⟩ = data := by
    simp only [Reception.data, min_eq_left hfull, List.take_left' hdata]
  refine ⟨!data.isEmpty, ?_⟩
  simp only [Reception.receive, hread, List.drop_left, resize_of_length hdata]

theorem receive_length {got : Bool} {data : Bytes} {r' : Reception}
    (h : r.receive n = (got, data, r')) : data.length = n ∧
      r'.outcomes = (fun k => r.outcomes (k + 1)) ∧
      r.stream.length ≤ r'.stream.length + n ∧
      (r.stream.length = r'.stream.length + n → n ≤ r.outcomes 0 + 1) := by
  obtain ⟨-, hdata⟩ := Prod.mk.inj h
  obtain ⟨rfl, rfl⟩ := Prod.mk.inj hdata
  refine ⟨length_resize _ _, rfl, ?_, ?_⟩
  all_goals
    simp only [Reception.data, List.length_drop, List.length_take]
    omega

theorem readResponse_full {sent : Sent} (rest : Bytes)
    (hfull : AllFull outcomes (responseSizes sent.reply.payload.length)) :
    readResponse ⟨outcomes, leBytes 1 sent.version ++ (leBytes 2 sent.reply.code ++
      (leBytes 4 sent.reply.payload.length ++ (sent.reply.clientId ++
        (sent.reply.payload ++ rest))))⟩ =
    (sent.act.response,
      ⟨fun k => outcomes (k + (responseSizes sent.reply.payload.length).length), rest⟩) := by
  have hversion : ofLe (leBytes 1 sent.version) = sent.version := ofLe_leBytes_of_lt sent.version_lt
  have hcode : ofLe (leBytes 2 sent.reply.code) = sent.reply.code :=
    ofLe_leBytes_of_lt sent.reply.code_lt
  have hsize : ofLe (leBytes 4 sent.reply.payload.length) = sent.reply.payload.length :=
    ofLe_leBytes_of_lt sent.reply.payload_lt
  obtain ⟨head, hhead⟩ : ∃ head, head = leBytes 1 sent.version ++ (leBytes 2 sent.reply.code ++
    leBytes 4 sent.reply.payload.length) := ⟨_, rfl⟩
  have hstream : leBytes 1 sent.version ++ (leBytes 2 sent.reply.code ++
      (leBytes 4 sent.reply.payload.length ++ (sent.reply.clientId ++
        (sent.reply.payload ++ rest)))) =
          head ++ (sent.reply.clientId ++ (sent.reply.payload ++ rest)) := by
    simp [hhead]
  have hlength : head.length = 7 := by simp [hhead]
  have hfirst : head.take 1 = leBytes 1 sent.version := by
    rw [hhead, List.take_left' (leBytes_length _ _)]
  have hsecond : (head.drop 1).take 2 = leBytes 2 sent.reply.code := by
    rw [hhead, List.drop_left' (leBytes_length _ _), List.take_left' (leBytes_length _ _)]
  have hthird : head.drop 3 = leBytes 4 sent.reply.payload.length := by
    rw [hhead, ← List.append_assoc, List.drop_left' (by simp)]
  rw [responseSizes, List.cons_append, List.cons_append, List.nil_append, allFull_cons,
    allFull_cons] at hfull
  obtain ⟨hseven, hsixteen, hpayload⟩ := hfull
  obtain ⟨got, hread⟩ := receive_full outcomes (sent.reply.clientId ++ (sent.reply.payload ++ rest))
    hlength hseven
  obtain ⟨got', hread'⟩ := receive_full (fun k => outcomes (k + 1)) (sent.reply.payload ++ rest)
    sent.reply.clientId_length hsixteen
  rw [hstream]
  simp only [readResponse, responseSizes, hread, hread', hfirst, hsecond, hthird, hversion, hcode,
    hsize]
  split_ifs at hpayload ⊢ with hpos
  · obtain ⟨got'', hread''⟩ := receive_full (fun k => outcomes (k + 1 + 1)) rest rfl
      (allFull_cons.mp hpayload).1
    rw [hread'']
    rfl
  · have hnil : sent.reply.payload = [] := List.eq_nil_of_length_eq_zero (by omega)
    simp only [Sent.act, hnil]
    rfl

theorem readReport_full {report : Report} (hfull : AllFull outcomes [4, 255, 4]) :
    readReport ⟨outcomes, report.encode ++ rest⟩ =
      ((report.contentSize, report.filename, report.cksum), ⟨fun k => outcomes (k + 3), rest⟩) := by
  rw [allFull_cons, allFull_cons, allFull_cons] at hfull
  obtain ⟨hfirst, hsecond, hthird, -⟩ := hfull
  have hstream : report.encode ++ rest = leBytes 4 report.contentSize ++ (report.filename ++
      (leBytes 4 report.cksum ++ rest)) := by
    simp [Report.encode]
  obtain ⟨got, hread⟩ := receive_full outcomes (report.filename ++ (leBytes 4 report.cksum ++ rest))
    (leBytes_length 4 report.contentSize) hfirst
  obtain ⟨got', hread'⟩ := receive_full (fun k => outcomes (k + 1)) (leBytes 4 report.cksum ++ rest)
    report.filename_length hsecond
  obtain ⟨got'', hread''⟩ := receive_full (fun k => outcomes (k + 1 + 1)) rest
    (leBytes_length 4 report.cksum) hthird
  have hsize : ofLe (leBytes 4 report.contentSize) = report.contentSize :=
    ofLe_leBytes_of_lt report.contentSize_lt
  have hcksum : ofLe (leBytes 4 report.cksum) = report.cksum := ofLe_leBytes_of_lt report.cksum_lt
  rw [hstream]
  simp only [readReport, hread, hread', hread'', hsize, hcksum]

theorem readResponse_length {response : Response} {r' : Reception}
    (h : readResponse r = (response, r')) :
    r'.outcomes = (fun k => r.outcomes (k + (responseSizes response.payload.length).length)) ∧
    r.stream.length ≤ r'.stream.length + (23 + response.payload.length) ∧
    (r.stream.length = r'.stream.length + (23 + response.payload.length) →
      AllFull r.outcomes (responseSizes response.payload.length)) := by
  rcases hread : r.receive 7 with ⟨got, head, r₁⟩
  rcases hread' : r₁.receive 16 with ⟨got', clientId, r₂⟩
  obtain ⟨-, houtcomes, hle, hfull⟩ := receive_length hread
  obtain ⟨-, houtcomes', hle', hfull'⟩ := receive_length hread'
  rw [houtcomes] at houtcomes' hfull'
  simp only [readResponse, hread, hread'] at h
  split_ifs at h with hpos
  · rcases hread'' : r₂.receive (ofLe (head.drop 3)) with ⟨got'', payload, r₃⟩
    obtain ⟨hlength, houtcomes'', hle'', hfull''⟩ := receive_length hread''
    rw [houtcomes'] at houtcomes'' hfull''
    simp only [hread''] at h
    obtain ⟨rfl, rfl⟩ := Prod.mk.inj h
    simp only [hlength, responseSizes, if_pos hpos]
    refine ⟨houtcomes'', by omega, fun heq => ?_⟩
    exact allFull_cons.mpr ⟨hfull (by omega), allFull_cons.mpr ⟨hfull' (by omega),
      allFull_cons.mpr ⟨hfull'' (by omega), allFull_nil⟩⟩⟩
  · obtain ⟨rfl, rfl⟩ := Prod.mk.inj h
    refine ⟨houtcomes', ?_, fun heq => ?_⟩
    · simp only [List.length_nil]
      omega
    · simp only [List.length_nil] at heq
      exact allFull_cons.mpr ⟨hfull (by omega), allFull_cons.mpr ⟨hfull' (by omega), allFull_nil⟩⟩

theorem readReport_length {report : ℕ × Bytes × ℕ} {r' : Reception}
    (h : readReport r = (report, r')) : r'.outcomes = (fun k => r.outcomes (k + 3)) ∧
      r.stream.length ≤ r'.stream.length + 263 ∧
      (r.stream.length = r'.stream.length + 263 → AllFull r.outcomes [4, 255, 4]) := by
  rcases hread : r.receive 4 with ⟨got, contentSize, r₁⟩
  rcases hread' : r₁.receive 255 with ⟨got', filename, r₂⟩
  rcases hread'' : r₂.receive 4 with ⟨got'', cksum, r₃⟩
  obtain ⟨-, houtcomes, hle, hfull⟩ := receive_length hread
  obtain ⟨-, houtcomes', hle', hfull'⟩ := receive_length hread'
  obtain ⟨-, houtcomes'', hle'', hfull''⟩ := receive_length hread''
  rw [houtcomes] at houtcomes' hfull'
  rw [houtcomes'] at houtcomes'' hfull''
  simp only [readReport, hread, hread', hread''] at h
  obtain ⟨-, rfl⟩ := Prod.mk.inj h
  refine ⟨houtcomes'', by omega, fun heq => ?_⟩
  exact allFull_cons.mpr ⟨hfull (by omega), allFull_cons.mpr ⟨hfull' (by omega),
    allFull_cons.mpr ⟨hfull'' (by omega), allFull_nil⟩⟩⟩

/-- The reads of a call, and what it acts on. -/
theorem receiveResponseFromServer_reads (E : Externals) (r : Reception) (c : Client) :
    let handled := receiveResponseFromServer E r c
    let read := readResponse r
    handled.result = true ∧
    if read.1.code = serverCodeCksumReady then
      handled.act = some ⟨read.1, some (readReport read.2).1⟩ ∧
        handled.rest = (readReport read.2).2
    else handled.act = some ⟨read.1, none⟩ ∧ handled.rest = read.2 := by
  have hcall : receiveResponseFromServer E r c =
      let (act, rest, c) := handleResponse E (readResponse r).1 (readResponse r).2 { c with
        awaiting := false
        responseCodes := c.responseCodes ++ [(readResponse r).1.code] }
      ⟨true, some act, rest, c⟩ := rfl
  refine ⟨by rw [hcall], ?_⟩
  rw [hcall, handleResponse]
  by_cases hready : (readResponse r).1.code = serverCodeCksumReady
  · have hok : (readResponse r).1.code ≠ serverCodeRegistrationOk := by
      rw [hready]
      decide
    have hkeys : (readResponse r).1.code ≠ serverCodeSwitchingKeys := by
      rw [hready]
      decide
    rw [if_neg hok, if_neg hkeys, if_pos hready, if_pos hready]
    exact ⟨rfl, rfl⟩
  · rw [if_neg hready, if_neg hready]
    split_ifs <;> exact ⟨rfl, rfl⟩

end Call

section Exact

variable {E : Externals} {sent : Sent} {r : Reception} {c : Client} {outcomes : ℕ → ℕ}

theorem call_full (E : Externals) (rest : Bytes) (hfull : AllFull outcomes sent.sizes)
    (c : Client) :
    (receiveResponseFromServer E ⟨outcomes, sent.encode ++ rest⟩ c).act = some sent.act ∧
      (receiveResponseFromServer E ⟨outcomes, sent.encode ++ rest⟩ c).rest =
        ⟨fun k => outcomes (k + sent.sizes.length), rest⟩ := by
  rw [Sent.sizes, allFull_append] at hfull
  obtain ⟨hresponse, hreport⟩ := hfull
  have hstream : sent.encode ++ rest = leBytes 1 sent.version ++ (leBytes 2 sent.reply.code ++
      (leBytes 4 sent.reply.payload.length ++ (sent.reply.clientId ++
        (sent.reply.payload ++ (sent.reply.tail ++ rest))))) := by
    simp [Sent.encode]
  have hread := readResponse_full (sent.reply.tail ++ rest) hresponse
  rw [← hstream] at hread
  obtain ⟨-, hcall⟩ := receiveResponseFromServer_reads E ⟨outcomes, sent.encode ++ rest⟩ c
  have hcode : sent.act.response.code = sent.reply.code := rfl
  rw [hread, hcode] at hcall
  rw [Sent.sizes, List.length_append]
  by_cases hready : sent.reply.code = serverCodeCksumReady
  · obtain ⟨report, hsome⟩ := Option.isSome_iff_exists.mp (sent.reply.report_iff.mpr hready)
    have htail : sent.reply.tail = report.encode := by rw [Reply.tail, hsome]; rfl
    rw [if_pos hready] at hreport hcall ⊢
    rw [htail, readReport_full hreport] at hcall
    have hshift (k : ℕ) : k + 3 + (responseSizes sent.reply.payload.length).length =
        k + ((responseSizes sent.reply.payload.length).length + [4, 255, 4].length) := by
      simp only [List.length_cons, List.length_nil]
      omega
    rw [hcall.1, hcall.2, Sent.act, hsome]
    simp only [hshift, and_true]
    rfl
  · have hnone : sent.reply.report = none := by
      rw [← Option.not_isSome_iff_eq_none, sent.reply.report_iff]
      exact hready
    have htail : sent.reply.tail = [] := by rw [Reply.tail, hnone]; rfl
    rw [if_neg hready] at hcall ⊢
    rw [htail] at hcall
    rw [hcall.1, hcall.2, Sent.act, hnone]
    exact ⟨rfl, rfl⟩

theorem length_encode (sent : Sent) : sent.encode.length = 23 + sent.reply.payload.length +
    if sent.reply.code = serverCodeCksumReady then 263 else 0 := by
  have htail : sent.reply.tail.length =
      if sent.reply.code = serverCodeCksumReady then 263 else 0 := by
    split_ifs with hready
    · obtain ⟨report, hsome⟩ := Option.isSome_iff_exists.mp (sent.reply.report_iff.mpr hready)
      simp [Reply.tail, hsome, Report.encode, report.filename_length]
    · have hnone : sent.reply.report = none := by
        rw [← Option.not_isSome_iff_eq_none, sent.reply.report_iff]
        exact hready
      simp [Reply.tail, hnone]
  simp only [Sent.encode, List.length_append, leBytes_length, sent.reply.clientId_length, htail]
  omega

/-- A call that has taken just the bytes of its response, and acts on its values, has been given
all it asked for. -/
theorem call_exact (hact : (receiveResponseFromServer E r c).act = some sent.act)
    (hstream : r.stream = sent.encode ++ (receiveResponseFromServer E r c).rest.stream) :
    AllFull r.outcomes sent.sizes := by
  obtain ⟨-, hcall⟩ := receiveResponseFromServer_reads E r c
  rcases hread : readResponse r with ⟨response, r'⟩
  obtain ⟨houtcomes, hle, hfull⟩ := readResponse_length hread
  have hlength := congrArg List.length hstream
  rw [List.length_append, length_encode] at hlength
  rw [hread] at hcall
  rw [Sent.sizes, allFull_append]
  by_cases hready : response.code = serverCodeCksumReady
  · rw [if_pos hready] at hcall
    rcases hreport : readReport r' with ⟨report, r''⟩
    rw [hreport, hact] at hcall
    obtain ⟨houtcomes', hle', hfull'⟩ := readReport_length hreport
    have hresponse : sent.act.response = response :=
      congrArg Act.response (Option.some.inj hcall.1)
    have hcode : sent.reply.code = serverCodeCksumReady :=
      (congrArg Response.code hresponse).trans hready
    have hpayload : sent.reply.payload = response.payload := congrArg Response.payload hresponse
    have hrest : (receiveResponseFromServer E r c).rest = r'' := hcall.2
    rw [hrest, hpayload, if_pos hcode] at hlength
    rw [hpayload, if_pos hcode, ← houtcomes]
    exact ⟨hfull (by omega), hfull' (by omega)⟩
  · rw [if_neg hready, hact] at hcall
    have hresponse : sent.act.response = response :=
      congrArg Act.response (Option.some.inj hcall.1)
    have hcode : ¬ sent.reply.code = serverCodeCksumReady :=
      fun h => hready ((congrArg Response.code hresponse).symm.trans h)
    have hpayload : sent.reply.payload = response.payload := congrArg Response.payload hresponse
    have hrest : (receiveResponseFromServer E r c).rest = r' := hcall.2
    rw [hrest, hpayload, if_neg hcode] at hlength
    rw [hpayload, if_neg hcode]
    exact ⟨hfull (by omega), allFull_nil⟩

theorem encoded_cons (sent : Sent) (responses : List Sent) :
    encoded (sent :: responses) = sent.encode ++ encoded responses := List.flatMap_cons

theorem call_acts_iff (sent : Sent) (r : Reception) (c : Client) :
    Acts [] sent r.stream (receiveResponseFromServer E r c) ↔
      sent.encode <+: r.stream ∧ AllFull r.outcomes sent.sizes := by
  obtain ⟨outcomes, stream⟩ := r
  constructor
  · intro h
    obtain ⟨act, hact⟩ : ∃ act, (receiveResponseFromServer E ⟨outcomes, stream⟩ c).act = some act :=
      ⟨_, rfl⟩
    obtain ⟨hstream, rfl⟩ := h act hact
    exact ⟨⟨_, hstream.symm⟩, call_exact hact hstream⟩
  · rintro ⟨⟨rest, rfl⟩, hfull⟩ act hact
    obtain ⟨hact', hrest⟩ := call_full E rest hfull c
    rw [hact'] at hact
    exact ⟨congrArg (sent.encode ++ ·) (congrArg Reception.stream hrest).symm,
      (Option.some.inj hact).symm⟩

theorem calls_act_iff (responses : List Sent) (r : Reception) (clients : ℕ → Client) :
    (∀ k sent handled, responses[k]? = some sent →
      (calls E r clients responses.length)[k]? = some handled →
        Acts (responses.take k) sent r.stream handled) ↔
      encoded responses <+: r.stream ∧ AllFull r.outcomes (responses.flatMap Sent.sizes) := by
  induction responses generalizing r clients with
  | nil =>
    have hnil : encoded [] <+: r.stream := List.nil_prefix
    simp [hnil, allFull_nil]
  | cons sent responses ih =>
    have hfirst := call_acts_iff (E := E) sent r (clients 0)
    have hcalls : calls E r clients (sent :: responses).length =
        receiveResponseFromServer E r (clients 0) :: calls E
          (receiveResponseFromServer E r (clients 0)).rest (fun k => clients (k + 1))
          responses.length := rfl
    rw [hcalls, encoded_cons, List.flatMap_cons, allFull_append]
    constructor
    · intro h
      obtain ⟨⟨rest, hstream⟩, hfull⟩ := hfirst.mp (h 0 sent _ rfl rfl)
      obtain ⟨outcomes, stream⟩ := r
      subst hstream
      obtain ⟨-, hrest⟩ := call_full E rest hfull (clients 0)
      rw [hrest] at h
      obtain ⟨hstarts, hfull'⟩ := (ih ⟨fun k => outcomes (k + sent.sizes.length), rest⟩
          fun k => clients (k + 1)).mp <| by
        intro k other handled hother hhandled act hact
        obtain ⟨hstream, hsame⟩ := h (k + 1) other handled hother hhandled act hact
        rw [List.take_succ_cons, encoded_cons, List.append_assoc] at hstream
        exact ⟨List.append_cancel_left hstream, hsame⟩
      exact ⟨(List.prefix_append_right_inj sent.encode).mpr hstarts, hfull, hfull'⟩
    · rintro ⟨hstarts, hfull, hfull'⟩
      have hsent : sent.encode <+: r.stream := (List.prefix_append _ _).trans hstarts
      have hacts := hfirst.mpr ⟨hsent, hfull⟩
      obtain ⟨rest, hstream⟩ := hsent
      obtain ⟨outcomes, stream⟩ := r
      subst hstream
      obtain ⟨-, hrest⟩ := call_full E rest hfull (clients 0)
      have hothers := (ih ⟨_, rest⟩ fun k => clients (k + 1)).mpr
        ⟨(List.prefix_append_right_inj sent.encode).mp hstarts, hfull'⟩
      rw [hrest]
      intro k other handled hother hhandled
      cases k with
      | zero =>
        obtain rfl := Option.some.inj hother
        obtain rfl := Option.some.inj hhandled
        exact hacts
      | succ k =>
        intro act hact
        obtain ⟨hstream, hsame⟩ := hothers k other handled hother hhandled act hact
        refine ⟨?_, hsame⟩
        rw [List.take_succ_cons, encoded_cons, List.append_assoc, ← hstream]

/-- Reception is exact where the stream has all of the responses and every read may return all it
asks for. -/
theorem reception_exact_iff (E : Externals) (responses : List Sent) (r : Reception)
    (clients : ℕ → Client) : Exact responses r.stream (calls E r clients responses.length) ↔
      encoded responses <+: r.stream ∧ AllFull r.outcomes (responses.flatMap Sent.sizes) := by
  rw [← calls_act_iff (E := E) responses r clients]
  constructor
  · exact fun h k sent handled hsent hhandled => (h k sent handled hsent hhandled).1
  · intro h k sent handled hsent hhandled
    refine ⟨h k sent handled hsent hhandled, fun hinside => absurd hinside.2 ?_⟩
    obtain ⟨hstarts, -⟩ := (calls_act_iff responses r clients).mp h
    have hsplit : encoded responses = (encoded (responses.take k) ++ sent.encode) ++
        encoded (responses.drop (k + 1)) := by
      conv_lhs => rw [← List.take_append_drop (k + 1) responses, List.take_add_one, hsent]
      simp [encoded]
    have hle := hstarts.length_le
    rw [hsplit, List.length_append] at hle
    omega

end Exact

theorem serverVersion_lt : serverVersion < 256 := by decide

def acknowledged : Sent := ⟨3, acknowledgement, serverVersion_lt⟩

/-- Three bytes of an acknowledgement are acted on, and all of it is misread byte by byte. -/
theorem acknowledgement_misread :
    ¬ Exact [acknowledged] (acknowledged.encode.take 3) (calls plainCiphers
      ⟨fun _ => 300, acknowledged.encode.take 3⟩ (fun _ => Client.new filesOfA true) 1) ∧
    ¬ Exact [acknowledged] acknowledged.encode (calls plainCiphers
      ⟨fun _ => 0, acknowledged.encode⟩ (fun _ => Client.new filesOfA true) 1) := by
  constructor
  · intro h
    obtain ⟨-, hact⟩ := (h 0 _ _ rfl rfl).1 _ rfl
    have hid := congrArg (fun act => act.response.clientId) hact
    revert hid
    decide
  · intro h
    obtain ⟨-, hact⟩ := (h 0 _ _ rfl rfl).1 _ rfl
    have hid := congrArg (fun act => act.response.clientId) hact
    revert hid
    decide

/-- Every read may return all of the stream. -/
def Prompt (r : Reception) : Prop := ∀ k, r.stream.length ≤ r.outcomes k + 1

def withInput (inbox : Bytes) (starved : Bool) (c : Client) : Client :=
  { c with inbox := inbox, starved := starved }

section Prompt

variable {E : Externals} {r : Reception} {c : Client} {inbox : Bytes} {starved : Bool} {n : ℕ}

theorem receive_prompt (h : Prompt r) (hc : c.inbox = r.stream) : ∃ got r',
    r.receive n = (got, (ClientProcess.receive n c).1, r') ∧ Prompt r' ∧
      ∃ starved, (ClientProcess.receive n c).2 = withInput r'.stream starved c := by
  have hdata : r.data n = r.stream.take n := by
    have hall := h 0
    rw [Reception.data, List.take_eq_take_iff]
    omega
  have hrest : r.stream.drop (r.stream.take n).length = r.stream.drop n := by
    rw [List.length_take, List.drop_eq_drop_iff]
    omega
  refine ⟨!(r.data n).isEmpty, ⟨fun k => r.outcomes (k + 1), r.stream.drop n⟩, ?_, ?_, ?_⟩
  · rw [Reception.receive, hdata, hrest, ClientProcess.receive, hc]
  · intro k
    have hall := h (k + 1)
    simp only [List.length_drop]
    omega
  · exact ⟨_, by rw [ClientProcess.receive, hc]; rfl⟩

theorem saveRegistrationDetails_withInput (clientId : Bytes) :
    saveRegistrationDetails clientId (withInput inbox starved c) =
      withInput inbox starved (saveRegistrationDetails clientId c) := by
  have hfiles : (withInput inbox starved c).files = c.files := rfl
  rw [saveRegistrationDetails, saveRegistrationDetails, hfiles]
  split_ifs <;> rfl

theorem handleAESKeyFromServer_withInput (payload : Bytes) :
    handleAESKeyFromServer E payload (withInput inbox starved c) =
      withInput inbox starved (handleAESKeyFromServer E payload c) := by
  have hkey : (withInput inbox starved c).privateKey = c.privateKey := rfl
  rw [handleAESKeyFromServer, handleAESKeyFromServer, hkey]
  split <;> rfl

theorem reSendFileToServer_withInput (c : Client) :
    reSendFileToServer E (withInput inbox starved c) =
      withInput inbox starved (reSendFileToServer E c) := by
  have hload : loadFileContent E (withInput inbox starved c) =
      (loadFileContent E c).map fun loaded => (loaded.1, withInput inbox starved loaded.2) := by
    have hkey (content : Bytes) : encryptContent E content (withInput inbox starved c) =
      encryptContent E content c := rfl
    have hfile : (withInput inbox starved c).files (withInput inbox starved c).filePath =
      c.files c.filePath := rfl
    rw [loadFileContent, loadFileContent, hfile]
    cases c.files c.filePath with
    | none => rfl
    | some file =>
      simp only [Option.bind_some, hkey, Option.map_map]
      rfl
  rw [reSendFileToServer, reSendFileToServer, hload]
  cases loadFileContent E c <;> rfl

theorem compareCksums_withInput (filename : Bytes) (cksum : ℕ) :
    compareCksums E filename cksum (withInput inbox starved c) =
      withInput inbox starved (compareCksums E filename cksum c) := by
  have hnoted : (withInput inbox starved c).cksumOfLastFile = c.cksumOfLastFile := rfl
  have htrials : (withInput inbox starved c).numberOfTrialsTOSendFile =
    c.numberOfTrialsTOSendFile := rfl
  rw [compareCksums, compareCksums, hnoted, htrials]
  split_ifs
  · rfl
  · exact reSendFileToServer_withInput (sendRequestToServer
      ⟨c.clientIdBytes, clientCodeCksumErr, filename, []⟩
        { c with numberOfTrialsTOSendFile := c.numberOfTrialsTOSendFile + 1 })
  · rfl

theorem withInput_withInput (inbox' : Bytes) (starved' : Bool) (c : Client) :
    withInput inbox' starved' (withInput inbox starved c) = withInput inbox' starved' c := rfl

theorem readResponse_prompt (h : Prompt r) (hc : c.inbox = r.stream) : ∃ r',
    readResponse r = ((ClientMessages.readResponse c).1, r') ∧ Prompt r' ∧
      ∃ starved, (ClientMessages.readResponse c).2 =
        withInput r'.stream starved { c with awaiting := false } := by
  have hidle : ({ c with awaiting := false } : Client).inbox = r.stream := hc
  obtain ⟨got, r₁, hread, hprompt, starved, hrest⟩ := receive_prompt (n := 7) h hidle
  obtain ⟨got', r₂, hread', hprompt', starved', hrest'⟩ := receive_prompt (n := 16)
    (c := withInput r₁.stream starved { c with awaiting := false }) hprompt rfl
  obtain ⟨head, hhead⟩ : ∃ head, (ClientProcess.receive 7 { c with awaiting := false }).1 = head :=
    ⟨_, rfl⟩
  simp only [readResponse, ClientMessages.readResponse, hread, hrest, hread', hrest', hhead]
  split_ifs with hpos
  · obtain ⟨got'', r₃, hread'', hprompt'', starved'', hrest''⟩ := receive_prompt
      (n := ofLe (head.drop 3))
      (c := withInput r₂.stream starved' (withInput r₁.stream starved { c with awaiting := false }))
      hprompt' rfl
    rw [hread'', hrest'']
    exact ⟨r₃, rfl, hprompt'', starved'', rfl⟩
  · exact ⟨r₂, rfl, hprompt', starved', rfl⟩

theorem readReport_prompt (h : Prompt r) (hc : c.inbox = r.stream) : ∃ r',
    readReport r = ((ClientMessages.readReport c).1, r') ∧
      ∃ starved, (ClientMessages.readReport c).2 = withInput r'.stream starved c := by
  obtain ⟨got, r₁, hread, hprompt, starved, hrest⟩ := receive_prompt (n := 4) h hc
  obtain ⟨got', r₂, hread', hprompt', starved', hrest'⟩ := receive_prompt (n := 255)
    (c := withInput r₁.stream starved c) hprompt rfl
  obtain ⟨got'', r₃, hread'', -, starved'', hrest''⟩ := receive_prompt (n := 4)
    (c := withInput r₂.stream starved' (withInput r₁.stream starved c)) hprompt' rfl
  simp only [readReport, ClientMessages.readReport, hread, hrest, hread', hrest', hread'', hrest'']
  exact ⟨r₃, rfl, starved'', rfl⟩

/-- Where every read returns all that is there, the client is the one that reads from its inbox. -/
theorem receiveResponseFromServer_prompt (h : Prompt r) (hc : c.inbox = r.stream) :
    ∃ starved, ClientProcess.receiveResponseFromServer E c =
      withInput (receiveResponseFromServer E r c).rest.stream starved
        (receiveResponseFromServer E r c).client := by
  obtain ⟨r', hread, hprompt, starved, hrest⟩ := readResponse_prompt h hc
  obtain ⟨response, hresponse⟩ : ∃ response, (ClientMessages.readResponse c).1 = response :=
    ⟨_, rfl⟩
  obtain ⟨told, htold⟩ : ∃ told : Client, told = { c with
    awaiting := false
    responseCodes := c.responseCodes ++ [response.code] } := ⟨_, rfl⟩
  have hcall : receiveResponseFromServer E r c =
      let (act, rest, c) := handleResponse E response r' told
      ⟨true, some act, rest, c⟩ := by
    have hunfold : receiveResponseFromServer E r c =
        let (act, rest, c) := handleResponse E (readResponse r).1 (readResponse r).2 { c with
          awaiting := false
          responseCodes := c.responseCodes ++ [(readResponse r).1.code] }
        ⟨true, some act, rest, c⟩ := rfl
    rw [hunfold, hread, hresponse, htold]
  have hbase : ClientProcess.receiveResponseFromServer E c =
      ClientProcess.handleResponse E response (withInput r'.stream starved told) := by
    rw [receiveResponseFromServer_read, hrest, hresponse, htold]
    rfl
  rw [hbase, hcall, ClientProcess.handleResponse, handleResponse]
  split_ifs
  · exact ⟨starved, saveRegistrationDetails_withInput response.clientId⟩
  · exact ⟨starved, handleAESKeyFromServer_withInput response.payload⟩
  · obtain ⟨r'', hreport, starved', hrest'⟩ :=
      readReport_prompt (c := withInput r'.stream starved told) hprompt rfl
    have hhandled : handleFileResponse E response r' told =
        (⟨response, some (readReport r').1⟩, (readReport r').2,
          compareCksums E (readReport r').1.2.1 (readReport r').1.2.2 told) := rfl
    rw [handleFileResponse_read, hhandled, hreport, hrest', withInput_withInput,
      compareCksums_withInput]
    exact ⟨starved', rfl⟩
  · exact ⟨starved, rfl⟩

end Prompt

end EncryptedTransfer.PartialReads
