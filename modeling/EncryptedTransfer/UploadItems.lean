import EncryptedTransfer.ClientUploads

/-!
# The items of the uploads

`sendFileToServer` sends an item only where a file was loaded, `reSendFileToServer` in any case.
-/
namespace EncryptedTransfer.UploadItems
open ServerStores hiding Client Client.new
open ByteFormats ServerCalls ServerHandlers CryptoLaws ClientProcess Network ClientMessages
open KeyAgreement ServerReplies ClientReactions Histories ClientUploads

/-- An item that is passed has a name of the length that is sent of it, the client's own id, and
the size of its content. -/
def WellFormed : Event → Prop
  | .decrypted _ _ => True
  | .uploaded clientId item _ => item.filename.length = 255 ∧ item.clientId = clientId ∧
    item.contentSize = item.messageContent.length

/-- A file that is sent again can be loaded, and the encryption of one that is loaded has a length
in 32 bits. -/
def Loadable (s : Session) (step : Step) : Prop :=
  ∀ path, s.loads step = some path →
    (step.Resends → s.client.aesKey.length = 16 ∧ (step.env.files path).isSome = true) ∧
      (s.client.aesKey.length = 16 →
        ∀ file, step.env.files path = some file → fileSize file < 2 ^ 32 - 16)

section Claims

variable {E : Externals} {s s' : Session} {step : Step}

theorem not_wellFormed_empty (clientId : Bytes) (read : Option Bytes) :
    ¬ WellFormed (.uploaded clientId .empty read) := by
  rintro ⟨hname, -⟩
  exact absurd hname (by decide)

theorem wellFormed_new (hE : AesLaws E) {clientId name key buffer : Bytes} (hkey : key.length = 16)
    (hbuffer : buffer.length < 2 ^ 32) (read : Option Bytes) :
    WellFormed (.uploaded clientId (.new clientId name (E.aesEncrypt key buffer)) read) ↔
      buffer.length < 2 ^ 32 - 16 := by
  have hlen := hE.length_encrypt key buffer hkey
  have hname : (resize 255 name).length = 255 := length_resize 255 name
  simp only [WellFormed, FileItem.new, hname, true_and]
  omega

theorem effect_wellFormed (hE : AesLaws E) (h : Effect E s step s') :
    Justified (fun _ => WellFormed) s'.events ↔
      Justified (fun _ => WellFormed) s.events ∧ Loadable s step := by
  cases h with
  | quiet c hc hload =>
    refine (and_iff_left ?_).symm
    intro path hpath
    obtain ⟨honce, hno⟩ := hload path hpath
    refine ⟨fun hresends => absurd hresends honce, fun hkey file hfile => ?_⟩
    exact absurd ⟨hkey, by rw [hfile, Option.isSome_some]⟩ hno
  | keyed payload key c hc hload =>
    rw [justified_concat]
    refine and_congr_right fun _ => iff_of_true trivial ?_
    intro path hpath
    rw [hload] at hpath
    cases hpath
  | loaded c file buffer hc hload hkey hfile hbuffer =>
    have hlen := (buffer_eq hfile hbuffer).1
    have hlt : fileSize file < 2 ^ 32 := Nat.mod_lt _ (by decide)
    simp only [Surroundings.upload]
    rw [justified_concat, wellFormed_new hE hkey (hlen ▸ hlt), hlen]
    refine and_congr_right fun _ => ?_
    constructor
    · intro hsmall path hpath
      obtain rfl := Option.some.inj (hload.symm.trans hpath)
      refine ⟨fun _ => ⟨hkey, by rw [hfile, Option.isSome_some]⟩, fun _ file' hfile' => ?_⟩
      obtain rfl := Option.some.inj (hfile.symm.trans hfile')
      exact hsmall
    · exact fun hloadable => (hloadable c.filePath hload).2 hkey file hfile
  | unloaded c hc hload hresends hno =>
    simp only [Surroundings.upload]
    rw [justified_concat]
    refine and_congr_right fun _ => iff_of_false (not_wellFormed_empty _ _) ?_
    exact fun hloadable => hno ((hloadable c.filePath hload).1 hresends)

/-- In every run all items are well formed, exactly where every file that is sent again is there
and none that is loaded is too large. -/
theorem items_wellFormed_iff (hE : AesLaws E) (files : Bytes → Option Bytes) (connects : Bool)
    (steps : List Step) :
    (∀ event ∈ ((Session.start files connects).after E steps).events, WellFormed event) ↔
      Justified (fun past step => Loadable ((Session.start files connects).after E past) step)
        steps := by
  have hstep (s : Session) (step : Step) (hs : Kept s) : Kept (s.step E step) ∧
      (Justified (fun _ => WellFormed) (s.step E step).events ↔
        Justified (fun _ => WellFormed) s.events ∧ Loadable s step) := by
    have heffect := effect_step (E := E) hs.inbox step
    exact ⟨heffect.kept hs, effect_wellFormed hE heffect⟩
  have hrun := (justified_run hstep (kept_start files connects) justified_nil steps).2
  rw [← justified_always]
  exact hrun

end Claims

def emptiedMachine : Surroundings :=
  { openMachine with files := Function.update filesOfA [102] none }

/-- The client `a` sends its file, and a report of another checksum comes when the file is gone. -/
def removedRun : List Step :=
  [.call .registerToServer openMachine,
    .respond (told (List.replicate 16 1) serverCodeRegistrationOk tells_registrationOk) openMachine,
    .call (.generateRSAKeyPair keyPairOfA) openMachine,
    .respond keyReply openMachine,
    .call .sendFileToServer openMachine,
    .respond (reportOf 0) emptiedMachine]

theorem items_wellFormed_iff_removed :
    (∀ event ∈ ((Session.start filesOfA true).after plainCiphers removedRun).events,
        WellFormed event) ↔
      Justified (fun past step =>
        Loadable ((Session.start filesOfA true).after plainCiphers past) step) removedRun :=
  items_wellFormed_iff aesLaws_plainCiphers filesOfA true removedRun

/-- An item without a name is passed where 255 bytes of the name are sent. -/
theorem nameless_item_sent : ¬ ∀ event ∈
    ((Session.start filesOfA true).after plainCiphers removedRun).events, WellFormed event := by
  have hnameless : ((Session.start filesOfA true).after plainCiphers removedRun).events.any
      (fun event => match event with
        | .decrypted _ _ => false
        | .uploaded _ item _ => item.filename.isEmpty) = true := by
    decide +kernel
  obtain ⟨event, hmem, hevent⟩ := List.any_eq_true.mp hnameless
  intro h
  have hformed := h event hmem
  cases event with
  | decrypted payload key => cases hevent
  | uploaded clientId item read =>
    have hlen := hformed.1
    rw [List.isEmpty_iff.mp hevent] at hlen
    exact absurd hlen (by decide)

end EncryptedTransfer.UploadItems
