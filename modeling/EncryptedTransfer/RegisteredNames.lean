import EncryptedTransfer.CryptoLaws
import EncryptedTransfer.ServerThreads

/-!
# The names the threads register

Names are kept apart by a check and an insert that are two calls.
-/
namespace EncryptedTransfer.RegisteredNames
open ByteFormats Text ServerStores ServerCalls ServerHandlers ServerFootprints ServerThreads
open CryptoLaws ThreadPools Interaction Program

variable {δ α : Type}

/-- The name a thread has found free and not yet inserted. -/
def nameMonitor : Monitor calls PyError (Option Str) where
  allowed g c :=
    match c with
    | .host (.insertNewClient clientName _) => g = some clientName
    | _ => True
  after g c r :=
    match c, r with
    | .host (.clientExistsByName clientName), .ok found =>
      if found = some true then none else some clientName
    | .host (.insertNewClient _ _), _ => none
    | _, .error _ => none
    | _, _ => g

theorem obeys_guarded {p : Proc Unit} {g : Option Str}
    (h : Obeys nameMonitor p g (fun _ _ => True)) :
    Obeys nameMonitor (guarded p) g (fun _ _ => True) := by
  apply Obeys.attempt
  apply h.mono
  intro g o _
  cases o <;> trivial

theorem obeys_of_footprint {p : Proc α} {reads : Prop} {A : HostCall → Prop}
    (hp : Issues (Within reads A) p) (hA : ∀ clientName clientId,
      ¬ A (.insertNewClient clientName clientId)) (g : Option Str) :
    Obeys nameMonitor p g (fun _ _ => True) := by
  refine hp.obeys (fun g c hc => ?_) g
  cases c with
  | host c =>
    cases c with
    | insertNewClient clientName clientId => exact absurd hc (hA clientName clientId)
    | _ => trivial
  | _ => trivial

theorem obeys_handleClientRegistration (payload : Bytes) (g : Option Str) :
    Obeys nameMonitor (handleClientRegistration payload) g (fun _ _ => True) := by
  have hrespond (code : ℕ) (clientId : Bytes) (g : Option Str) :
      Obeys nameMonitor (respond code clientId) g (fun _ _ => True) := by
    have hwithin : Issues (Within True fun _ => False) (respond code clientId) :=
      within_respond code clientId
    exact obeys_of_footprint hwithin (fun _ _ => id) g
  apply obeys_guarded
  refine .seq (.ofOption (fun clientName _ => ?_) nofun)
  rintro _ ⟨⟩
  refine .seq (.issue trivial fun r => ?_)
  rintro found rfl
  by_cases hfound : found = some true
  · simp only [hfound, ↓reduceIte]
    exact hrespond _ _ _
  · simp only [hfound, ↓reduceIte]
    refine .seq (.issue trivial fun r => ?_)
    rintro clientId rfl
    refine .seq (.ofOption (fun response _ => ?_) nofun)
    rintro _ ⟨⟩
    refine .seq (.issue trivial fun r => ?_)
    rintro _ rfl
    refine .seq (.issue (by simp [nameMonitor, hfound]) fun r => ?_)
    rintro _ rfl
    exact .seq (.ofOption (fun data _ => by rintro _ ⟨⟩; exact ⟨trivial, fun _ => trivial⟩) nofun)

theorem obeys_handleRequest (E : Externals) (request : Request) (payload : Bytes)
    (g : Option Str) : Obeys nameMonitor (handleRequest E request payload) g fun _ _ => True := by
  by_cases hcode : request.code = clientCodeRegister
  · have hgate : turnedAway request = .done (.ok false) := by
      rw [turnedAway, if_pos hcode]
      rfl
    have hrequest : handleRequest E request payload = handleClientRegistration payload := by
      rw [handleRequest, hgate, dispatch, if_pos hcode]
      rfl
    rw [hrequest]
    exact obeys_handleClientRegistration payload g
  · refine obeys_of_footprint (footprint_handleRequest E request payload) ?_ g
    intro clientName clientId hfoot
    cases hkind : kindOf request.code with
    | register => exact hcode (kindOf_eq_register.mp hkind)
    | _ => rw [hkind] at hfoot; exact hfoot

theorem obeys_sessionTurn (E : Externals) (g : Option Str) :
    Obeys nameMonitor (sessionTurn E) g fun _ _ => True := by
  refine .seq ((obeys_of_footprint footprint_receiveRequest (fun _ _ => id) g).mono ?_)
  intro g o _ received _
  cases received with
  | none => trivial
  | some received =>
    exact .seq ((obeys_handleRequest E received.1 received.2 g).mono fun _ _ _ _ _ => trivial)

def names (s : Server δ) : List Str := s.database.clients.map ClientRow.clientName

theorem hostCall_names [FileSystem δ] (E : Externals) (env : Draws) {c : HostCall}
    (hc : ∀ clientName clientId, c ≠ .insertNewClient clientName clientId) (s : Server δ) :
    names (hostCall E env c s).2 = names s := by
  cases c with
  | insertNewClient clientName clientId => exact absurd rfl (hc clientName clientId)
  | insertKeysOfClient clientName publicKey aesKey =>
    simp only [hostCall, names, Database.insertKeysOfClient, List.map_map]
    refine List.map_congr_left fun row _ => ?_
    simp only [Function.comp_apply]
    split_ifs <;> rfl
  | insertFileDetails clientId filename pathname verified =>
    simp only [hostCall, names, Database.insertFileDetails, Database.updateLastSeen]
    split_ifs
    · rfl
    · rw [List.map_map]
      refine List.map_congr_left fun row _ => ?_
      simp only [Function.comp_apply]
      split_ifs <;> rfl
  | updateCksumVerification clientId filename verified
  | deleteFileOfClient clientId filename =>
    simp only [hostCall, names, Database.updateCksumVerification, Database.deleteFileOfClient,
      Database.updateLastSeen, List.map_map]
    refine List.map_congr_left fun row _ => ?_
    simp only [Function.comp_apply]
    split_ifs <;> rfl
  | mkdir path | writeFile path content | remove path =>
    simp only [hostCall, names, onDisk_database]
  | clientAddFile clientId filePath file | fileMapPop filePath =>
    simp only [hostCall]
    split <;> rfl
  | clientRemoveFile clientId filePath =>
    simp only [hostCall]
    split
    · split_ifs <;> rfl
    · rfl
  | _ => rfl

theorem nameMonitor_after {c : Call} (hc : ∀ clientName, c ≠ .host (.clientExistsByName clientName))
    {g : Option Str} {r : Except PyError c.Answer} {clientName : Str}
    (h : nameMonitor.after g c r = some clientName) : g = some clientName := by
  simp only [nameMonitor] at h
  split at h
  · exact absurd rfl (hc _)
  · cases h
  · cases h
  · exact h

/-- No two rows have the same name, and a name a thread has found free is free, and held by no
other thread. -/
structure NamesApart (s : Server δ) (t : Trace calls PyError) : Prop where
  unique : (names s).Nodup
  free : ∀ i clientName, seen nameMonitor none i t = some clientName → clientName ∉ names s
  single : ∀ i j clientName, seen nameMonitor none i t = some clientName →
    seen nameMonitor none j t = some clientName → i = j

/-- A name is checked only while no other thread is between its own check of that name, which
has found it free, and its insert. -/
def OneAtATime : Demand calls PyError (Server δ) := fun _ t i c =>
  ∀ clientName, c = .host (.clientExistsByName clientName) →
    ∀ j, j ≠ i → seen nameMonitor none j t ≠ some clientName

variable {s s' : Server δ} {t : Trace calls PyError} {i : ℕ} {c : Call}
  {r : Except PyError c.Answer}

theorem NamesApart.quiet (h : NamesApart s t) (hnames : names s' = names s)
    (hheld : ∀ clientName, nameMonitor.after (seen nameMonitor none i t) c r = some clientName →
      seen nameMonitor none i t = some clientName) : NamesApart s' (⟨i, c, r⟩ :: t) := by
  have hseen (j : ℕ) (clientName : Str)
      (hj : seen nameMonitor none j (⟨i, c, r⟩ :: t) = some clientName) :
      seen nameMonitor none j t = some clientName := by
    by_cases hji : j = i
    · subst hji
      rw [seen_self] at hj
      exact hheld clientName hj
    · rwa [seen_other hji] at hj
  refine ⟨hnames ▸ h.unique, ?_, ?_⟩
  · intro j clientName hj
    rw [hnames]
    exact h.free j clientName (hseen j clientName hj)
  · intro j k clientName hj hk
    exact h.single j k clientName (hseen j clientName hj) (hseen k clientName hk)

theorem NamesApart.check (h : NamesApart s t) {clientName : Str}
    (hfree : clientName ∉ names s)
    (hone : ∀ j, j ≠ i → seen nameMonitor none j t ≠ some clientName)
    (hheld : nameMonitor.after (seen nameMonitor none i t) c r = some clientName) :
    NamesApart s (⟨i, c, r⟩ :: t) := by
  have hseen (j : ℕ) (name : Str)
      (hj : seen nameMonitor none j (⟨i, c, r⟩ :: t) = some name) :
      (j = i ∧ name = clientName) ∨ (j ≠ i ∧ seen nameMonitor none j t = some name) := by
    by_cases hji : j = i
    · subst hji
      rw [seen_self, hheld, Option.some.injEq] at hj
      exact .inl ⟨rfl, hj.symm⟩
    · rw [seen_other hji] at hj
      exact .inr ⟨hji, hj⟩
  refine ⟨h.unique, ?_, ?_⟩
  · intro j name hj
    rcases hseen j name hj with ⟨-, rfl⟩ | ⟨-, hj⟩
    · exact hfree
    · exact h.free j name hj
  · intro j k name hj hk
    rcases hseen j name hj with ⟨rfl, rfl⟩ | ⟨hji, hj'⟩
    · rcases hseen k name hk with ⟨rfl, -⟩ | ⟨hki, hk'⟩
      · rfl
      · exact absurd hk' (hone k hki)
    · rcases hseen k name hk with ⟨rfl, rfl⟩ | ⟨hki, hk'⟩
      · exact absurd hj' (hone j hji)
      · exact h.single j k name hj' hk'

theorem NamesApart.insert (h : NamesApart s t) {clientName : Str}
    (hi : seen nameMonitor none i t = some clientName)
    (hnames : names s' = names s ∨ names s' = names s ++ [clientName])
    (hheld : nameMonitor.after (seen nameMonitor none i t) c r = none) :
    NamesApart s' (⟨i, c, r⟩ :: t) := by
  have hseen (j : ℕ) (name : Str)
      (hj : seen nameMonitor none j (⟨i, c, r⟩ :: t) = some name) :
      name ≠ clientName ∧ seen nameMonitor none j t = some name := by
    by_cases hji : j = i
    · subst hji
      rw [seen_self, hheld] at hj
      cases hj
    · rw [seen_other hji] at hj
      refine ⟨?_, hj⟩
      rintro rfl
      exact hji (h.single j i name hj hi)
  have hfree := h.free i clientName hi
  refine ⟨?_, ?_, ?_⟩
  · rcases hnames with hn | hn
    · exact hn ▸ h.unique
    · rw [hn, List.nodup_append]
      refine ⟨h.unique, by simp, ?_⟩
      rintro name hmem other hother rfl
      rw [List.mem_singleton] at hother
      exact hfree (hother ▸ hmem)
  · intro j name hj
    obtain ⟨hne, hj⟩ := hseen j name hj
    have hold := h.free j name hj
    rcases hnames with hn | hn
    · rwa [hn]
    · rw [hn, List.mem_append, List.mem_singleton]
      rintro (hmem | he)
      · exact hold hmem
      · exact hne he
  · intro j k name hj hk
    exact h.single j k name (hseen j name hj).2 (hseen k name hk).2

/-- What one call of any thread preserves. -/
theorem NamesApart.call [FileSystem δ] (E : Externals) (h : NamesApart s t) (x : Input)
    (hallowed : nameMonitor.allowed (seen nameMonitor none i t) c) (hD : OneAtATime s t i c) :
    NamesApart (shared E x c s).2 (⟨i, c, (shared E x c s).1⟩ :: t) := by
  cases c with
  | recv n => exact h.quiet rfl fun name hname => nameMonitor_after (by simp) hname
  | send data => exact h.quiet rfl fun name hname => nameMonitor_after (by simp) hname
  | host c =>
    by_cases hcheck : ∃ clientName, c = .clientExistsByName clientName
    · obtain ⟨clientName, rfl⟩ := hcheck
      by_cases hmem : clientName ∈ names s
      · have hfound : s.database.clientExistsByName clientName = true := by
          simpa [Database.clientExistsByName_iff, names] using hmem
        refine h.quiet rfl fun name hname => ?_
        simp [nameMonitor, shared, hostCall, hfound] at hname
      · have hfound : s.database.clientExistsByName clientName = false := by
          rw [← Bool.not_eq_true, Database.clientExistsByName_iff]
          simpa [names] using hmem
        refine h.check hmem (hD clientName rfl) ?_
        simp [nameMonitor, shared, hostCall, hfound]
    · have hquiet (name : Str) : (Call.host c) ≠ .host (.clientExistsByName name) := by
        rintro ⟨⟩
        exact hcheck ⟨name, rfl⟩
      by_cases hinsert : ∃ clientName clientId, c = .insertNewClient clientName clientId
      · obtain ⟨clientName, clientId, rfl⟩ := hinsert
        refine h.insert hallowed ?_ rfl
        simp only [shared, hostCall, names, Database.insertNewClient]
        split_ifs
        · exact .inl rfl
        · exact .inr (by rw [List.map_append]; rfl)
      · refine h.quiet (hostCall_names E x.env ?_ s) fun name hname => ?_
        · rintro clientName clientId rfl
          exact hinsert ⟨clientName, clientId, rfl⟩
        · exact nameMonitor_after hquiet hname

/-- In every run in which a name is checked by one thread at a time, names are unique. -/
theorem names_unique [FileSystem δ] (E : Externals) {s : Server δ} (hs : (names s).Nodup)
    {p : Pool calls PyError (Server δ)}
    (h : Run (shared E) (sessionTurn E) OneAtATime s p) : (names p.state).Nodup := by
  have hstart : NamesApart s ([] : Trace calls PyError) := ⟨hs, nofun, nofun⟩
  have hrun := h.invariant (W := nameMonitor) (g := none) (obeys_sessionTurn E) NamesApart hstart
    fun s t i c x hallowed hD hinv => hinv.call E x hallowed hD
  exact hrun.unique

def checkedName : Call → Option Str
  | .host (.clientExistsByName clientName) => some clientName
  | _ => none

theorem checkedName_eq_some {clientName : Str} :
    checkedName c = some clientName ↔ c = .host (.clientExistsByName clientName) := by
  unfold checkedName
  split <;> simp_all

/-- Only the threads that have issued calls can hold a name. -/
theorem oneAtATime_iff : OneAtATime s t i c ↔ ∀ clientName ∈ checkedName c, ∀ e ∈ t,
    e.thread ≠ i → seen nameMonitor none e.thread t ≠ some clientName := by
  constructor
  · intro h clientName hmem e _ hne
    exact h clientName (checkedName_eq_some.mp hmem) e.thread hne
  · intro h clientName hc j hj hheld
    by_cases hmem : ∃ e ∈ t, e.thread = j
    · obtain ⟨e, he, rfl⟩ := hmem
      exact h clientName (checkedName_eq_some.mpr hc) e he hj hheld
    · push Not at hmem
      rw [seen_of_forall_ne hmem] at hheld
      cases hheld

instance (s : Server δ) (t : Trace calls PyError) (i : ℕ) (c : Call) :
    Decidable (OneAtATime s t i c) :=
  decidable_of_iff _ oneAtATime_iff.symm

/-- A registration of a name of one letter, call by call: two reads, the check, the draw of an
id, the map, the insert, and the answer. -/
def registering (b letter : UInt8) : List Input :=
  let header : Bytes := List.replicate 16 0 ++ [3, 76, 4, 1, 0, 0, 0]
  [⟨constantDraws b, .ok header, .ok ()⟩, ⟨constantDraws b, .ok [letter], .ok ()⟩,
    ⟨constantDraws b, .ok [], .ok ()⟩, ⟨constantDraws b, .ok [], .ok ()⟩,
    ⟨constantDraws b, .ok [], .ok ()⟩, ⟨constantDraws b, .ok [], .ok ()⟩,
    ⟨constantDraws b, .ok [], .ok ()⟩]

/-- Two threads register `a` and `b` call by call in turn, then the second asks for `a`. -/
def inTurn : List (ℕ × Input) :=
  ((registering 1 97).zip (registering 2 98)).flatMap (fun inputs => [(0, inputs.1), (1, inputs.2)])
    ++ ((⟨constantDraws 3, .ok [], .ok ()⟩ : Input) :: (registering 3 97).take 4).map (Prod.mk 1)

theorem names_unique_inTurn :
    ∃ p, Run (shared plainCiphers) (sessionTurn plainCiphers) OneAtATime Server.empty p ∧
      names p.state = [['a'], ['b']] ∧ (names p.state).Nodup := by
  have hstart : Run (shared plainCiphers) (sessionTurn plainCiphers) OneAtATime Server.empty
    (.start (sessionTurn plainCiphers) Server.empty) := .start
  have hfollows : Follows (shared plainCiphers) (sessionTurn plainCiphers) OneAtATime
      (.start (sessionTurn plainCiphers) Server.empty) inTurn := by
    decide +kernel
  have hrun := hstart.play hfollows
  exact ⟨_, hrun, by decide +kernel, names_unique plainCiphers (by decide) hrun⟩

/-- Two threads check the name `a` before either inserts it: it is registered twice. -/
theorem name_registered_twice :
    ∃ p, Run (shared plainCiphers) (sessionTurn plainCiphers) (fun _ _ _ _ => True)
        Server.empty p ∧
      names p.state = [['a'], ['a']] ∧ ¬ (names p.state).Nodup := by
  have hstart : Run (shared plainCiphers) (sessionTurn plainCiphers) (fun _ _ _ _ => True)
    Server.empty (.start (sessionTurn plainCiphers) Server.empty) := .start
  have hrun := hstart.play (follows_free _ (((registering 1 97).take 3).map (Prod.mk 0) ++
      (((registering 2 97).take 3).map (Prod.mk 1) ++
        (((registering 1 97).drop 3).map (Prod.mk 0) ++
          ((registering 2 97).drop 3).map (Prod.mk 1)))))
  exact ⟨_, hrun, by decide, by decide⟩

end EncryptedTransfer.RegisteredNames
