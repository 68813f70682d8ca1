import EncryptedTransfer.BitSerialCksum
import EncryptedTransfer.Confirmations
import EncryptedTransfer.UploadDialogue

/-!
# Bursts

Two contents that differ in a window as wide as the register have different checksums: what
follows the window cannot undo a difference. A client whose file was damaged so on its way does
not confirm it.
-/
namespace EncryptedTransfer.BurstErrors
open ServerStores hiding Client Client.new
open ByteFormats ServerCalls ServerHandlers CryptoLaws ClientProcess ClientMessages ClientReactions
open UploadDialogue Histories Confirmations PolynomialRemainders BitSerialCksum

/-- Two contents of one length whose bits differ, and only within 32 in a row. -/
structure Damaged (content content' : Bytes) : Prop where
  length_eq : content'.length = content.length
  ne : content' ≠ content
  window : ∃ i, ∀ k, k < i ∨ i + 32 ≤ k → (bits content')[k]? = (bits content)[k]?

theorem exists_window {α : Type*} {l m : List α} (hlen : m.length = l.length) {i n : ℕ}
    (h : ∀ k, k < i ∨ i + n ≤ k → m[k]? = l[k]?) : ∃ before window window' after,
      l = before ++ window ++ after ∧ m = before ++ window' ++ after ∧
        window.length = window'.length ∧ window.length ≤ n := by
  have hcut (l : List α) : l = l.take i ++ (l.drop i).take n ++ l.drop (i + n) := by
    rw [List.append_assoc, ← List.drop_drop, List.take_append_drop, List.take_append_drop]
  have hbefore : m.take i = l.take i := by
    refine List.ext_getElem? fun k => ?_
    rw [List.getElem?_take, List.getElem?_take]
    split_ifs with hk
    · exact h k (.inl hk)
    · rfl
  have hafter : m.drop (i + n) = l.drop (i + n) := by
    refine List.ext_getElem? fun k => ?_
    rw [List.getElem?_drop, List.getElem?_drop]
    exact h _ (.inr (by omega))
  refine ⟨l.take i, (l.drop i).take n, (m.drop i).take n, l.drop (i + n), hcut l, ?_, ?_, ?_⟩
  · rw [← hbefore, ← hafter]
    exact hcut m
  · simp [hlen]
  · exact List.length_take_le _ _

theorem bitsOf_injective : Function.Injective bitsOf := by
  intro c c' h
  refine UInt8.toBitVec_inj.mp (BitVec.eq_of_getMsbD_eq fun i hi => ?_)
  exact List.map_inj_left.mp h i (List.mem_range.mpr hi)

theorem length_bits (content : Bytes) : (bits content).length = 8 * content.length := by
  induction content with
  | nil => rfl
  | cons c content ih =>
    have hbits : bits (c :: content) = bitsOf c ++ bits content := List.flatMap_cons
    rw [hbits, List.length_append, length_bitsOf, ih, List.length_cons]
    omega

theorem bits_injective : Function.Injective bits := by
  intro content content' h
  induction content generalizing content' with
  | nil =>
    have hlen := congrArg List.length h
    rw [length_bits, length_bits, List.length_nil] at hlen
    exact (List.length_eq_zero_iff.mp (by omega)).symm
  | cons c content ih =>
    cases content' with
    | nil =>
      have hlen := congrArg List.length h
      simp [length_bits] at hlen
    | cons c' content' =>
      have hsplit : bitsOf c ++ bits content = bitsOf c' ++ bits content' := h
      have hbyte : (bitsOf c).length = (bitsOf c').length := by rw [length_bitsOf, length_bitsOf]
      obtain ⟨hfirst, hrest⟩ := List.append_inj hsplit hbyte
      rw [bitsOf_injective hfirst, ih hrest]

section Damaged

variable {content content' : Bytes} (h : Damaged content content')
include h

theorem Damaged.posixCksum_ne : posixCksum content' ≠ posixCksum content := by
  obtain ⟨hlength, hne, i, hwindow⟩ := h
  have hbits : (bits content').length = (bits content).length := by
    rw [length_bits, length_bits, hlength]
  obtain ⟨before, window, window', after, hl, hm, hlen, hle⟩ := exists_window hbits hwindow
  have hdiffer : window ≠ window' := by
    rintro rfl
    exact hne (bits_injective (hm.trans hl.symm))
  have hmessage : messageBits content =
      before ++ window ++ (after ++ bits (lengthBytes content.length)) := by
    rw [messageBits, hl, List.append_assoc _ after]
  have hmessage' : messageBits content' =
      before ++ window' ++ (after ++ bits (lengthBytes content.length)) := by
    rw [messageBits, hlength, hm, List.append_assoc _ after]
  intro hsame
  have hregister : register generator (messageBits content') =
      register generator (messageBits content) :=
    BitVec.not_inj.mp (congrArg UInt32.toBitVec hsame)
  rw [hmessage, hmessage'] at hregister
  exact register_ne_of_window (by decide) hlen hle hdiffer hregister.symm

variable (hlen : content.length < 2 ^ 32)
include hlen

theorem Damaged.cksumCalc_ne {cksum : ℕ} (hcksum : Cksum.Server.cksumCalc content' = some cksum) :
    UInt32.ofNat cksum ≠ posixCksum content := by
  have hlen' : content'.length < 2 ^ 32 := h.length_eq ▸ hlen
  rw [cksumCalc_posix hlen'] at hcksum
  rw [← Option.some.inj hcksum, UInt32.ofNat_toNat]
  exact h.posixCksum_ne

end Damaged

theorem cksumOf_posix {content : Bytes} (hlen : content.length < 2 ^ 32) :
    cksumOf content = posixCksum content := by
  rw [cksumOf, Nat.mod_eq_of_lt hlen, List.take_length, calculateCksum_eq hlen]

theorem compareCksums_other {E : Externals} {c : Client} {cksum : ℕ} (filename : Bytes)
    (hne : c.cksumOfLastFile ≠ UInt32.ofNat cksum) :
    clientCodeCksumOk ∉ sentBy c (compareCksums E filename cksum c) := by
  rw [compareCksums, if_neg hne]
  split_ifs
  · rw [sentBy, reSendFileToServer_codes]
    simp [sendRequestToServer, post, clientCodeCksumOk, clientCodeCksumErr, clientCodeSendFile]
  · simp [sentBy, await, sendRequestToServer, post, clientCodeCksumOk, clientCodeCksumErrFinal]

theorem receive_other {E : Externals} {course : Course} (h : Kept course) {report : Bytes × ℕ}
    (hread : reportRead course.client = some report)
    (hne : course.client.cksumOfLastFile ≠ UInt32.ofNat report.2) (request : Bytes)
    (plain : Option Bytes) :
    .sent clientCodeCksumOk request plain ∉ Step.events E course.client .receive := by
  obtain ⟨requests, htook, -, hrequests⟩ := took_report (E := E) h.clientId hread
  rw [if_neg hne] at hrequests
  rw [Step.events]
  split_ifs with hawait
  · have hrun : Step.run E course.client .receive = receiveResponseFromServer E course.client := by
      rw [Step.run, if_pos hawait]
    rw [hrun, sentEvents_eq htook.written, List.mem_cons]
    rintro (heq | hmem)
    · cases heq
    · obtain ⟨sent, hsent, heq⟩ := List.mem_map.mp hmem
      exact hrequests sent hsent (Event.sent.inj heq).1
  · exact List.not_mem_nil

/-- The content of the client's last upload, which it has not given up. -/
def InTransfer (events : List Event) (content : Bytes) : Prop :=
  ∃ upload since, LastOf IsUpload events (.sent clientCodeSendFile upload (some content)) since ∧
    ∀ event ∈ since, ¬ IsGivenUp event

theorem noted_inTransfer {course : Course} (h : Kept course) {content : Bytes}
    (htransfer : InTransfer course.events content) :
    course.client.cksumOfLastFile = cksumOf content := by
  obtain ⟨upload, since, hlast, hnone⟩ := htransfer
  rw [h.noted, noted_since hlast, if_neg]
  rintro ⟨event, hevent, hup⟩
  exact hnone event hevent hup

theorem kept_after (E : Externals) (files : Bytes → Option Bytes) (connects : Bool) (stream : Bytes)
    (steps : List Step) : Kept ((Course.start files connects stream).after E steps) := by
  have hstep (course : Course) (step : Step) (hkept : Kept course) := kept_step (E := E) hkept step
  have hstart : Justified Sound (Course.start files connects stream).events := justified_nil
  exact (justified_run hstep (kept_start files connects stream) hstart steps).1

/-- A burst changes the digests of both classes. A client that has noted the checksum of its file
does not confirm a report of what the burst has made of it, and in no run does one whose file is
in transfer. -/
theorem bursts_detected {content content' : Bytes} (hlen : content.length < 2 ^ 32)
    (h : Damaged content content') :
    (∀ calls calls', Cuts calls content → Cuts calls' content' →
      clientDigest calls' ≠ clientDigest calls) ∧
    (∀ chunks chunks', chunks.flatten = content → chunks'.flatten = content' →
      serverDigest chunks' ≠ serverDigest chunks) ∧
    (∀ cksum, Cksum.Server.cksumCalc content' = some cksum → ∀ E : Externals,
      (∀ c : Client, c.cksumOfLastFile = cksumOf content → ∀ size filename rest,
        filename.length = 255 →
        c.inbox = leBytes 4 size ++ (filename ++ (leBytes 4 cksum ++ rest)) →
          clientCodeCksumOk ∉ sentBy c (handleFileResponse E c)) ∧
      ∀ files connects stream steps,
        let course := (Course.start files connects stream).after E steps
        InTransfer course.events content →
        ∀ filename, reportRead course.client = some (filename, cksum) →
        ∀ request plain,
          .sent clientCodeCksumOk request plain ∉ Step.events E course.client .receive) := by
  have hlen' : content'.length < 2 ^ 32 := h.length_eq ▸ hlen
  refine ⟨?_, ?_, ?_⟩
  · intro calls calls' hcalls hcalls'
    rw [clientDigest_eq hcalls hlen, clientDigest_eq hcalls' hlen']
    exact h.posixCksum_ne
  · rintro chunks chunks' rfl rfl hsame
    rw [serverDigest_eq hlen, serverDigest_eq hlen'] at hsame
    exact h.posixCksum_ne (UInt32.toNat_inj.mp (Option.some.inj hsame))
  · intro cksum hcksum E
    have hother : cksumOf content ≠ UInt32.ofNat cksum := by
      rw [cksumOf_posix hlen]
      exact (h.cksumCalc_ne hlen hcksum).symm
    have hlt : cksum < 4294967296 := by
      rw [cksumCalc_posix hlen'] at hcksum
      rw [← Option.some.inj hcksum]
      exact UInt32.toNat_lt _
    constructor
    · intro c hnoted size filename rest hname hin
      have hsent (c' : Client) (hcodes : c'.requestCodes = c.requestCodes) (c'' : Client) :
        sentBy c c'' = sentBy c' c'' := by rw [sentBy, sentBy, hcodes]
      rw [handleFileResponse_read, readReport_eq hname hlt hin, hsent { c with inbox := rest } rfl]
      exact compareCksums_other filename (hnoted.trans_ne hother)
    · intro files connects stream steps course htransfer filename hread
      have hkept : Kept course := kept_after E files connects stream steps
      refine receive_other hkept hread ?_
      exact (noted_inTransfer hkept htransfer).trans_ne hother

/-- A burst of 32 bits over five bytes: from the last bit of the first to the last but one of the
fifth. -/
theorem damaged_five : Damaged [1, 2, 3, 4, 5] [0, 2, 3, 4, 251] := by
  have hwithin : ∀ k < 40, k < 7 ∨ 7 + 32 ≤ k →
      (bits [0, 2, 3, 4, 251])[k]? = (bits [1, 2, 3, 4, 5])[k]? := by decide
  refine ⟨rfl, by decide, 7, fun k hk => ?_⟩
  rcases Nat.lt_or_ge k 40 with hlt | hge
  · exact hwithin k hlt hk
  · rw [List.getElem?_eq_none (by rwa [length_bits]), List.getElem?_eq_none (by rwa [length_bits])]

theorem bursts_detected_five :
    (∀ calls calls', Cuts calls [1, 2, 3, 4, 5] → Cuts calls' [0, 2, 3, 4, 251] →
      clientDigest calls' ≠ clientDigest calls) ∧
    (∀ chunks chunks', chunks.flatten = [1, 2, 3, 4, 5] → chunks'.flatten = [0, 2, 3, 4, 251] →
      serverDigest chunks' ≠ serverDigest chunks) ∧
    (∀ cksum, Cksum.Server.cksumCalc [0, 2, 3, 4, 251] = some cksum → ∀ E : Externals,
      (∀ c : Client, c.cksumOfLastFile = cksumOf [1, 2, 3, 4, 5] → ∀ size filename rest,
        filename.length = 255 →
        c.inbox = leBytes 4 size ++ (filename ++ (leBytes 4 cksum ++ rest)) →
          clientCodeCksumOk ∉ sentBy c (handleFileResponse E c)) ∧
      ∀ files connects stream steps,
        let course := (Course.start files connects stream).after E steps
        InTransfer course.events [1, 2, 3, 4, 5] →
        ∀ filename, reportRead course.client = some (filename, cksum) →
        ∀ request plain,
          .sent clientCodeCksumOk request plain ∉ Step.events E course.client .receive) :=
  bursts_detected (by decide) damaged_five

end EncryptedTransfer.BurstErrors
