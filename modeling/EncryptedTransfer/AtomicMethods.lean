import EncryptedTransfer.Transactions
import Mathlib.Data.Set.Insert

/-!
# Interleaved transactions are atomic

Threads carry out their methods access by access, in any order and with any failures. Each
run is matched by one of the same threads in which every method is a single step, with the same
state and the same other calls. A query takes effect when it selects, but how it will end is
open then; so all the programs a thread may be left with are followed at once.
-/
namespace EncryptedTransfer.Transactions
open Interaction Program ThreadPools

variable {K : Engine} {I : Interface} {ε σ T ι : Type}
variable (L : Place K σ) (errors : Errors ε)
variable (method : (c : I.Call) → Option (Method K ε T (I.Answer c)))

/-- The first writes of an update are done, and nobody but their connection sees them. -/
def Progress (s : Connections K σ) (conn : ℕ) (executed : List K.Write) : Prop :=
  (executed = [] ∧ s.writes conn = false) ∨
    ∃ data, s.writer = some (conn, data) ∧ K.writeAll executed (L.get s.state) = some data

def rest {c : I.Call} (next : Except ε (I.Answer c) → Program I ε Bool) (conn : ℕ)
    (fallback : I.Answer c) (body : Program (accesses K I T) ε (I.Answer c)) :
    Program (accesses K I T) ε Bool :=
  settle (closing conn fallback body) fun r => expand errors method (next r)

/-- The connection a thread has open, its remaining accesses, and what may remain of its program
once the effect of the method it is in has been counted. -/
inductive Stage (s : Connections K σ) :
    Option ℕ → Program (accesses K I T) ε Bool → Set (Program I ε Bool) → Prop
  | free (p : Program I ε Bool) : Stage s none (expand errors method p) {p}
  | timed {c : I.Call} (next : Except ε (I.Answer c) → Program I ε Bool) (now : T)
      {statements : T → List K.Write} {finished : I.Answer c}
      (h : method c = some (.update statements finished)) :
      Stage s none (settle (usingConnection errors finished fun conn =>
        updateBody finished conn (statements now)) fun r => expand errors method (next r))
        {.call c next}
  | reading {c : I.Call} (next : Except ε (I.Answer c) → Program I ε Bool) (conn : ℕ)
      {statement : K.Query} {result : List K.Row → Except ε (I.Answer c)}
      {fallback : I.Answer c} (h : method c = some (.query statement result fallback))
      (idle : s.writes conn = false) :
      Stage s (some conn) (rest errors method next conn fallback
        (queryBody statement result conn)) {.call c next}
  | selected {c : I.Call} (next : Except ε (I.Answer c) → Program I ε Bool) (conn : ℕ)
      (result : List K.Row → Except ε (I.Answer c)) (fallback : I.Answer c) (rows : List K.Row)
      (h : s.cursor conn = rows) (idle : s.writes conn = false) :
      Stage s (some conn) (rest errors method next conn fallback (do
        issue (I := accesses K I T) (.commit conn)
        let rows ← issue (I := accesses K I T) (.fetchall conn)
        .done (result rows)))
        {next (.ok (answerTo result fallback rows)), next (.ok fallback)}
  | fetching {c : I.Call} (next : Except ε (I.Answer c) → Program I ε Bool) (conn : ℕ)
      (result : List K.Row → Except ε (I.Answer c)) (fallback : I.Answer c) (rows : List K.Row)
      (h : s.cursor conn = rows) :
      Stage s (some conn) (rest errors method next conn fallback (do
        let rows ← issue (I := accesses K I T) (.fetchall conn)
        .done (result rows)))
        {next (.ok (answerTo result fallback rows)), next (.ok fallback)}
  | writing {c : I.Call} (next : Except ε (I.Answer c) → Program I ε Bool) (conn : ℕ) (now : T)
      (executed remaining : List K.Write) {statements : T → List K.Write}
      {finished : I.Answer c} (h : method c = some (.update statements finished))
      (split : statements now = executed ++ remaining) (progress : Progress L s conn executed) :
      Stage s (some conn) (rest errors method next conn finished
        (updateBody finished conn remaining)) {.call c next}
  | leaving {c : I.Call} (next : Except ε (I.Answer c) → Program I ε Bool) (conn : ℕ)
      (fallback a : I.Answer c) :
      Stage s (some conn) (rest errors method next conn fallback (pure a)) {next (.ok a)}

variable {L errors method} {s s' : Connections K σ} {k : Option ℕ}
variable {low : Program (accesses K I T) ε Bool} {possible : Set (Program I ε Bool)}

theorem Stage.undisturbed (h : Stage L errors method s k low possible)
    (hk : ∀ conn, k = some conn → Undisturbed L conn s s') :
    Stage L errors method s' k low possible := by
  cases h with
  | free p => exact .free p
  | timed next now h => exact .timed next now h
  | reading next conn h idle => exact .reading next conn h ((hk conn rfl).idle idle)
  | selected next conn result fallback rows h idle =>
    exact .selected next conn result fallback rows ((hk conn rfl).cursor.trans h)
      ((hk conn rfl).idle idle)
  | fetching next conn result fallback rows h =>
    exact .fetching next conn result fallback rows ((hk conn rfl).cursor.trans h)
  | writing next conn now executed remaining h split progress =>
    apply Stage.writing next conn now executed remaining h split
    rcases progress with ⟨hnone, hidle⟩ | ⟨data, hdata, hall⟩
    · exact .inl ⟨hnone, (hk conn rfl).idle hidle⟩
    · obtain ⟨hsame, hget⟩ := (hk conn rfl).writer data hdata
      exact .inr ⟨data, hsame, hget ▸ hall⟩
  | leaving next conn fallback a => exact .leaving next conn fallback a

theorem Stage.nonempty (h : Stage L errors method s k low possible) : possible.Nonempty := by
  cases h <;> first | exact Set.singleton_nonempty _ | exact Set.insert_nonempty _ _

def shown (method : (c : I.Call) → Option (Method K ε T (I.Answer c))) (e : Event I ε) :
    Option (Event I ε) :=
  if (method e.call).isSome then none else some e

def told : Event (accesses K I T) ε → Option (Event I ε)
  | ⟨i, .plain c, r⟩ => some ⟨i, c, r⟩
  | _ => none

variable (L errors method) (plain : ι → Machine I ε σ)

/-- What is left of a program after an access is what was left before, or it has made one step. -/
def Reaches (s s' : σ) (e : Event (accesses K I T) ε) (p p' : Program I ε Bool) : Prop :=
  (p' = p ∧ s' = s ∧ told e = none) ∨
    ∃ c next x, p = .call c next ∧ p' = next (atomic L errors method plain x c s).1 ∧
      s' = (atomic L errors method plain x c s).2 ∧
      shown method ⟨e.thread, c, (atomic L errors method plain x c s).1⟩ = told e

/-- The effect of a thread's next access on its stage. -/
structure Stepped (s s' : Connections K σ) (k k' : Option ℕ)
    (possible possible' : Set (Program I ε Bool)) (e : Event (accesses K I T) ε) : Prop where
  own : ∀ conn, e.call.conn? = some conn → k = some conn
  outside : ∀ c, e.call.plain? = some c → method c = none
  kept : ∀ conn, k' = some conn → k = some conn ∨ conn = s.next ∧ s'.next = s.next + 1
  reaches : ∀ p' ∈ possible', ∃ p ∈ possible,
    Reaches L errors method plain s.state s'.state e p p'

variable {L errors method plain} {e : Event (accesses K I T) ε}

theorem told_eq_none (h : e.call.plain? = none) : told e = none := by
  obtain ⟨i, c, r⟩ := e
  cases c with
  | plain c => cases h
  | _ => rfl

theorem Stepped.silent {k k' : Option ℕ} {possible' : Set (Program I ε Bool)}
    (own : ∀ conn, e.call.conn? = some conn → k = some conn) (outside : e.call.plain? = none)
    (kept : ∀ conn, k' = some conn → k = some conn ∨ conn = s.next ∧ s'.next = s.next + 1)
    (state : s'.state = s.state) (sub : possible' ⊆ possible) :
    Stepped L errors method plain s s' k k' possible possible' e where
  own := own
  outside c h := by rw [outside] at h; cases h
  kept := kept
  reaches p' hp' := ⟨p', sub hp', .inl ⟨rfl, state, told_eq_none outside⟩⟩

theorem expand_plain {c : I.Call} (h : method c = none)
    (next : Except ε (I.Answer c) → Program I ε Bool) :
    expand errors method (.call c next) =
      .call (I := accesses K I T) (.plain c) fun r => expand errors method (next r) := by
  simp only [expand, h]

theorem expand_method {c : I.Call} {m : Method K ε T (I.Answer c)} (h : method c = some m)
    (next : Except ε (I.Answer c) → Program I ε Bool) :
    expand errors method (.call c next) =
      settle (m.program errors) fun r => expand errors method (next r) := by
  simp only [expand, h]

section Steps

variable {c : I.Call} {next : Except ε (I.Answer c) → Program I ε Bool}

theorem Stepped.effect (x : Input T ι) {k k' : Option ℕ} {m : Method K ε T (I.Answer c)}
    (hm : method c = some m) {possible' : Set (Program I ε Bool)}
    (own : ∀ conn, e.call.conn? = some conn → k = some conn) (outside : e.call.plain? = none)
    (kept : ∀ conn, k' = some conn → k = some conn ∨ conn = s.next ∧ s'.next = s.next + 1)
    (ends : ∀ p' ∈ possible', ∃ ending now,
      p' = next (m.atomically L errors ending now s.state).1 ∧
        s'.state = (m.atomically L errors ending now s.state).2) :
    Stepped L errors method plain s s' k k' {.call c next} possible' e where
  own := own
  outside c h := by rw [outside] at h; cases h
  kept := kept
  reaches p' hp' := by
    obtain ⟨ending, now, hp, hs⟩ := ends p' hp'
    have hstep : atomic L errors method plain (ending, now, x.other) c s.state =
        m.atomically L errors ending now s.state := by
      simp only [atomic, hm]
    refine ⟨_, rfl, .inr ⟨c, next, (ending, now, x.other), rfl, ?_, ?_, ?_⟩⟩
    · rw [hstep, hp]
    · rw [hstep, hs]
    · rw [told_eq_none outside]
      simp only [shown, hm, Option.isSome_some, if_true]

def Continues (L : Place K σ) (errors : Errors ε)
    (method : (c : I.Call) → Option (Method K ε T (I.Answer c))) (plain : ι → Machine I ε σ)
    (s s' : Connections K σ) (k : Option ℕ) (possible : Set (Program I ε Bool))
    (e : Event (accesses K I T) ε) (low : Program (accesses K I T) ε Bool) : Prop :=
  ∃ k' possible', Stage L errors method s' k' low possible' ∧
    Stepped L errors method plain s s' k k' possible possible' e

theorem continues_failed (x : Input T ι) {m : Method K ε T (I.Answer c)} (hm : method c = some m)
    {conn : ℕ} (hs : s'.state = s.state) (own : e.call.conn? = some conn)
    (outside : e.call.plain? = none) :
    Continues L errors method plain s s' (some conn) {.call c next} e
      (rest errors method next conn m.fallback (pure m.fallback)) := by
  refine ⟨_, _, .leaving next conn _ _, .effect x hm (fun _ h => own ▸ h) outside
    (fun _ h => .inl h) (fun p' hp' => ⟨.prints, x.time, ?_, ?_⟩)⟩
  · rw [Set.mem_singleton_iff.mp hp']
    rfl
  · exact hs

variable {x : Input T ι} {i conn : ℕ} {statement : K.Query}
  {result : List K.Row → Except ε (I.Answer c)} {fallback finished : I.Answer c}

theorem continues_reading {r : Except ε _ × Connections K σ}
    (hr : access L errors plain x (.select conn statement) s = r)
    (hm : method c = some (.query statement result fallback))
    (idle : s.writes conn = false) :
    Continues L errors method plain s r.2 (some conn) {.call c next} ⟨i, .select conn statement, r.1⟩
      (rest errors method next conn fallback (match r.1 with
        | .ok _ => do
          issue (I := accesses K I T) (.commit conn)
          let rows ← issue (I := accesses K I T) (.fetchall conn)
          .done (result rows)
        | .error e => .done (.error e))) := by
  subst hr
  rw [access_select]
  split_ifs
  · exact continues_failed x hm (failed_state x s conn) rfl rfl
  · refine ⟨_, _, .selected next conn result fallback _ (Function.update_self ..) idle,
      .effect x hm (fun _ h => h) rfl (fun _ h => .inl h) ?_⟩
    rw [Connections.sees_idle idle]
    rintro p' (rfl | rfl)
    · exact ⟨.works, x.time, rfl, rfl⟩
    · exact ⟨.prints, x.time, rfl, rfl⟩

variable (fallback) in
theorem continues_leaving {a : I.Answer c} {possible : Set (Program I ε Bool)}
    (hs : s'.state = s.state) (own : e.call.conn? = some conn) (outside : e.call.plain? = none)
    (ha : next (.ok a) ∈ possible) :
    Continues L errors method plain s s' (some conn) possible e
      (rest errors method next conn fallback (pure a)) :=
  ⟨_, _, .leaving next conn _ _, .silent (fun _ h => own ▸ h) outside (fun _ h => .inl h) hs
    (Set.singleton_subset_iff.mpr ha)⟩

theorem continues_selected {r : Except ε _ × Connections K σ}
    (hr : access L errors plain x (.commit conn) s = r) {rows : List K.Row} (h : s.cursor conn = rows)
    (idle : s.writes conn = false) :
    Continues L errors method plain s r.2 (some conn)
      {next (.ok (answerTo result fallback rows)), next (.ok fallback)} ⟨i, .commit conn, r.1⟩
      (rest errors method next conn fallback (match r.1 with
        | .ok _ => do
          let rows ← issue (I := accesses K I T) (.fetchall conn)
          .done (result rows)
        | .error e => .done (.error e))) := by
  subst hr
  rw [access_commit, Connections.committed_idle idle]
  split_ifs
  · exact continues_leaving fallback (failed_state x s conn) rfl rfl (.inr rfl)
  · exact ⟨_, _, .fetching next conn result fallback rows h,
      .silent (fun _ h => h) rfl (fun _ h => .inl h) rfl subset_rfl⟩

theorem continues_fetching {r : Except ε _ × Connections K σ}
    (hr : access L errors plain x (.fetchall conn) s = r) {rows : List K.Row}
    (h : s.cursor conn = rows) :
    Continues L errors method plain s r.2 (some conn)
      {next (.ok (answerTo result fallback rows)), next (.ok fallback)} ⟨i, .fetchall conn, r.1⟩
      (rest errors method next conn fallback (match r.1 with
        | .ok rows => .done (result rows)
        | .error e => .done (.error e))) := by
  subst hr
  rw [access_fetchall, h]
  split_ifs
  · exact continues_leaving fallback (failed_state x s conn) rfl rfl (.inr rfl)
  · dsimp only
    cases hr : result rows with
    | ok a =>
      have ha : answerTo result fallback rows = a := by simp only [answerTo, hr]
      exact continues_leaving fallback rfl rfl rfl (ha ▸ Set.mem_insert _ _)
    | error e => exact continues_leaving fallback rfl rfl rfl (.inr rfl)

theorem writeAll_concat (executed : List K.Write) (statement : K.Write) (data : K.Data) :
    K.writeAll (executed ++ [statement]) data =
      (K.writeAll executed data).bind (K.write statement) := by
  rw [Engine.writeAll, Engine.writeAll, List.foldlM_append]
  cases executed.foldlM (fun data statement => K.write statement data) data with
  | none => rfl
  | some data =>
    rw [Option.bind_some, ← bind_pure (K.write statement data)]
    rfl

theorem Progress.writeAll {executed : List K.Write} (h : Progress L s conn executed) :
    K.writeAll executed (L.get s.state) = some (s.sees L conn) := by
  rcases h with ⟨rfl, hidle⟩ | ⟨data, hdata, hall⟩
  · rw [Connections.sees_idle hidle]
    rfl
  · rw [Connections.sees_writer hdata, hall]

theorem continues_writing {statements : T → List K.Write} {now : T} {statement : K.Write}
    {executed remaining : List K.Write} {r : Except ε _ × Connections K σ}
    (hr : access L errors plain x (.execute conn statement) s = r)
    (hm : method c = some (.update statements finished))
    (hsplit : statements now = executed ++ statement :: remaining)
    (progress : Progress L s conn executed) :
    Continues L errors method plain s r.2 (some conn) {.call c next} ⟨i, .execute conn statement, r.1⟩
      (rest errors method next conn finished (match r.1 with
        | .ok _ => updateBody finished conn remaining
        | .error e => .done (.error e))) := by
  subst hr
  rw [access_execute]
  split_ifs
  · exact continues_failed x hm (failed_state x s conn) rfl rfl
  · dsimp only
    cases hwrite : K.write statement (s.sees L conn) with
    | none => exact continues_failed x hm rfl rfl rfl
    | some data =>
      have hall : K.writeAll (executed ++ [statement]) (L.get s.state) = some data := by
        rw [writeAll_concat, progress.writeAll, Option.bind_some, hwrite]
      refine ⟨_, _, .writing next conn now (executed ++ [statement]) remaining hm ?_
        (.inr ⟨data, rfl, hall⟩), .silent (fun _ h => h) rfl (fun _ h => .inl h) rfl subset_rfl⟩
      rw [hsplit, List.append_assoc, List.singleton_append]

theorem continues_committing {r : Except ε _ × Connections K σ}
    (hr : access L errors plain x (.commit conn) s = r) {statements : T → List K.Write} {now : T}
    (hm : method c = some (.update statements finished))
    (progress : Progress L s conn (statements now)) :
    Continues L errors method plain s r.2 (some conn) {.call c next} ⟨i, .commit conn, r.1⟩
      (rest errors method next conn finished (match r.1 with
        | .ok _ => pure finished
        | .error e => .done (.error e))) := by
  subst hr
  rw [access_commit]
  split_ifs
  · exact continues_failed x hm (failed_state x s conn) rfl rfl
  · refine ⟨_, _, .leaving next conn _ _, .effect x hm (fun _ h => h) rfl (fun _ h => .inl h)
      fun p' hp' => ⟨.works, now, ?_, ?_⟩⟩
    · rw [Set.mem_singleton_iff.mp hp']
      rfl
    · simp only [Connections.committed_state, Method.atomically, progress.writeAll, Option.getD_some]

theorem continues_connect {r : Except ε _ × Connections K σ}
    (hr : access L errors plain x .connect s = r) {m : Method K ε T (I.Answer c)}
    (hm : method c = some m)
    (body : ℕ → Program (accesses K I T) ε (I.Answer c))
    (hstage : Stage L errors method { s with next := s.next + 1 } (some s.next)
      (rest errors method next s.next m.fallback (body s.next)) {.call c next}) :
    Continues L errors method plain s r.2 none {.call c next} ⟨i, .connect, r.1⟩
      (settle (match r.1 with
        | .ok conn => closing conn m.fallback (body conn)
        | .error _ => raise errors.unconnected) fun r => expand errors method (next r)) := by
  subst hr
  rw [access_connect]
  split_ifs
  · refine ⟨_, _, .free _, .effect x hm (fun _ h => h) rfl (fun _ h => .inl h)
      fun p' hp' => ⟨.raises, x.time, ?_, rfl⟩⟩
    rw [Set.mem_singleton_iff.mp hp']
    rfl
  · exact ⟨_, _, hstage, .silent (fun _ h => h) rfl
      (fun _ h => .inr ⟨(Option.some.inj h).symm, rfl⟩) rfl subset_rfl⟩

theorem continues_close {r : Except ε _ × Connections K σ}
    (hr : access L errors plain x (.close conn) s = r) {a : I.Answer c} :
    Continues L errors method plain s r.2 (some conn) {next (.ok a)} ⟨i, .close conn, r.1⟩
      (expand errors method (next (.ok a))) := by
  subst hr
  exact ⟨_, _, .free _, .silent (fun _ h => h) rfl (fun _ h => by cases h)
    (Connections.released_state s conn) subset_rfl⟩

theorem continues_plain {r : Except ε _ × Connections K σ}
    (hr : access L errors plain x (.plain c) s = r) (hm : method c = none) :
    Continues L errors method plain s r.2 none {.call c next} ⟨i, .plain c, r.1⟩
      (expand errors method (next r.1)) := by
  subst hr
  have hstep (y : Ending × T) : atomic L errors method plain (y.1, y.2, x.other) c s.state =
      plain x.other c s.state := by
    simp only [atomic, hm]
  refine ⟨_, _, .free _, ⟨fun _ h => (by cases h), fun c' h => ?_, fun _ h => (by cases h), ?_⟩⟩
  · exact Option.some.inj h ▸ hm
  · intro p' hp'
    refine ⟨_, rfl, .inr ⟨c, next, (.works, x.time, x.other), rfl, ?_, ?_, ?_⟩⟩
    · rw [hstep (.works, x.time), Set.mem_singleton_iff.mp hp']
      rfl
    · rw [hstep (.works, x.time)]
      rfl
    · rw [hstep (.works, x.time)]
      simp only [shown, hm, Option.isSome_none]
      rfl

theorem continues_clock {r : Except ε _ × Connections K σ}
    (hr : access L errors plain x .clock s = r) {statements : T → List K.Write}
    (hm : method c = some (.update statements finished)) :
    Continues L errors method plain s r.2 none {.call c next} ⟨i, .clock, r.1⟩
      (settle (usingConnection errors finished fun conn =>
        updateBody finished conn (statements x.time)) fun r => expand errors method (next r)) := by
  subst hr
  exact ⟨_, _, .timed next x.time hm,
    .silent (fun _ h => h) rfl (fun _ h => .inl h) rfl subset_rfl⟩

end Steps

theorem Stage.continues (h : Stage L errors method s k low possible)
    (below : ∀ conn data, s.writer = some (conn, data) → conn < s.next)
    {c : Access K I.Call} {after : Except ε (c.Answer K I T) → Program (accesses K I T) ε Bool}
    (hlow : low = .call c after) {x : Input T ι} {i : ℕ}
    {r : Except ε (c.Answer K I T) × Connections K σ} (hr : access L errors plain x c s = r) :
    Continues L errors method plain s r.2 k possible ⟨i, c, r.1⟩ (after r.1) := by
  have unused : s.writes s.next = false := by
    by_contra hw
    obtain ⟨data, hdata⟩ := Connections.writes_iff.mp (Bool.not_eq_false _ ▸ hw)
    exact absurd (below _ _ hdata) (lt_irrefl _)
  cases h with
  | free p =>
    cases p with
    | done o => cases hlow
    | call c next =>
      cases hm : method c with
      | none =>
        rw [expand_plain hm] at hlow
        cases hlow
        exact continues_plain hr hm
      | some m =>
        rw [expand_method hm] at hlow
        cases m with
        | query statement result fallback =>
          cases hlow
          have hc := continues_connect (i := i) hr hm (queryBody statement result)
            (.reading next s.next hm unused)
          obtain ⟨r | r, s'⟩ := r <;> exact hc
        | update statements finished =>
          cases hlow
          cases hr
          exact continues_clock rfl hm
  | @timed c next now statements finished hm =>
    cases hlow
    have hc := continues_connect (i := i) hr hm
      (fun conn => updateBody finished conn (statements now))
      (.writing next s.next now [] _ hm rfl (.inl ⟨rfl, unused⟩))
    obtain ⟨r | r, s'⟩ := r <;> exact hc
  | reading next conn hm idle =>
    cases hlow
    obtain ⟨r | r, s'⟩ := r <;> exact continues_reading hr hm idle
  | selected next conn result fallback rows h idle =>
    cases hlow
    obtain ⟨r | r, s'⟩ := r <;> exact continues_selected hr h idle
  | fetching next conn result fallback rows h =>
    cases hlow
    obtain ⟨r | r, s'⟩ := r <;> exact continues_fetching hr h
  | writing next conn now executed remaining hm split progress =>
    cases remaining with
    | nil =>
      cases hlow
      rw [List.append_nil] at split
      subst split
      obtain ⟨r | r, s'⟩ := r <;> exact continues_committing hr hm progress
    | cons statement remaining =>
      cases hlow
      obtain ⟨r | r, s'⟩ := r <;> exact continues_writing hr hm split progress
  | leaving next conn fallback a =>
    cases hlow
    obtain ⟨r | r, s'⟩ := r
    · cases hr
    · exact continues_close hr

theorem Stage.ended {o : Except ε Bool} (h : Stage L errors method s k low possible)
    (hlow : low = .done o) : k = none ∧ possible = {.done o} := by
  cases h with
  | free p =>
    cases p with
    | done o' =>
      cases hlow
      exact ⟨rfl, rfl⟩
    | call c next =>
      cases hm : method c with
      | none =>
        rw [expand_plain hm] at hlow
        cases hlow
      | some m =>
        rw [expand_method hm] at hlow
        cases m <;> cases hlow
  | writing next conn now executed remaining hm split progress =>
    cases remaining <;> cases hlow
  | _ => cases hlow

theorem access_next (c : Access K I.Call) (x : Input T ι) (s : Connections K σ) :
    s.next ≤ (access L errors plain x c s).2.next := by
  have hreleased (conn : ℕ) : (s.released conn).next = s.next := by
    unfold Connections.released
    split_ifs <;> rfl
  have hfailed (conn : ℕ) : (failed x s conn).next = s.next := by
    unfold failed
    split_ifs
    · exact hreleased conn
    · rfl
  cases c with
  | clock | plain => exact le_rfl
  | connect =>
    rw [access_connect]
    split_ifs
    · exact le_rfl
    · exact Nat.le_succ _
  | select conn statement =>
    rw [access_select]
    split_ifs
    · exact (hfailed conn).ge
    · exact le_rfl
  | execute conn statement =>
    rw [access_execute]
    split_ifs
    · exact (hfailed conn).ge
    · split <;> exact le_rfl
  | commit conn =>
    rw [access_commit, Connections.committed]
    split_ifs
    · exact (hfailed conn).ge
    · exact le_rfl
    · exact le_rfl
  | fetchall conn =>
    rw [access_fetchall]
    split_ifs
    · exact (hfailed conn).ge
    · exact le_rfl
  | close conn => exact (hreleased conn).ge

theorem access_writer {c : Access K I.Call} {x : Input T ι} {conn : ℕ} {data : K.Data}
    (h : (access L errors plain x c s).2.writer = some (conn, data)) :
    s.writer = some (conn, data) ∨ c.conn? = some conn := by
  have hreleased {conn' : ℕ} (h : (s.released conn').writer = some (conn, data)) :
      s.writer = some (conn, data) := by
    unfold Connections.released at h
    split_ifs at h
    exact h
  have hfailed {conn' : ℕ} (h : (failed x s conn').writer = some (conn, data)) :
      s.writer = some (conn, data) := by
    unfold failed at h
    split_ifs at h
    · exact hreleased h
    · exact h
  cases c with
  | clock | plain => exact .inl h
  | connect =>
    rw [access_connect] at h
    split_ifs at h <;> exact .inl h
  | select conn' statement =>
    rw [access_select] at h
    split_ifs at h
    · exact .inl (hfailed h)
    · exact .inl h
  | execute conn' statement =>
    rw [access_execute] at h
    split_ifs at h
    · exact .inl (hfailed h)
    · split at h
      · exact .inr (congrArg some (congrArg Prod.fst (Option.some.inj h)))
      · exact .inr (congrArg some (congrArg Prod.fst (Option.some.inj h)))
  | commit conn' =>
    rw [access_commit, Connections.committed] at h
    split_ifs at h
    · exact .inl (hfailed h)
    · exact .inl h
  | fetchall conn' =>
    rw [access_fetchall] at h
    split_ifs at h
    · exact .inl (hfailed h)
    · exact .inl h
  | close conn' => exact .inl (hreleased h)

/-- The invariant of a run: every thread is at a stage, with a connection of its own, and
whatever may remain of the threads' programs is reached by a run of single steps. -/
structure Matched (L : Place K σ) (errors : Errors ε)
    (method : (c : I.Call) → Option (Method K ε T (I.Answer c))) (plain : ι → Machine I ε σ)
    (body : Program I ε Bool) (s₀ : σ) (p : Pool (accesses K I T) ε (Connections K σ))
    (conns : ℕ → Option ℕ) (possible : ℕ → Set (Program I ε Bool)) : Prop where
  stage : ∀ i, Stage L errors method p.state (conns i) (p.thread i) (possible i)
  distinct : ∀ i j conn, conns i = some conn → conns j = some conn → i = j
  used : ∀ i conn, conns i = some conn → conn < p.state.next
  below : ∀ conn data, p.state.writer = some (conn, data) → conn < p.state.next
  run : ∀ threads, (∀ i, threads i ∈ possible i) → ∃ trace,
    Run (atomic L errors method plain) body (fun _ _ _ _ => True) s₀
      ⟨p.state.state, threads, trace⟩ ∧
    trace.filterMap (shown method) = p.trace.filterMap told

variable {body : Program I ε Bool} {s₀ : σ} {p : Pool (accesses K I T) ε (Connections K σ)}
  {conns : ℕ → Option ℕ} {programs : ℕ → Set (Program I ε Bool)}

theorem Matched.call (hp : Matched L errors method plain body s₀ p conns programs)
    (hplain : ∀ x c s, method c = none → L.get (plain x c s).2 = L.get s) {i : ℕ}
    {c : Access K I.Call} {after : Except ε (c.Answer K I T) → Program (accesses K I T) ε Bool}
    (hthread : p.thread i = .call c after) (x : Input T ι) :
    ∃ conns' programs', Matched L errors method plain body s₀
      ⟨(access L errors plain x c p.state).2,
        Function.update p.thread i (after (access L errors plain x c p.state).1),
        ⟨i, c, (access L errors plain x c p.state).1⟩ :: p.trace⟩ conns' programs' := by
  have hcontinues : Continues L errors method plain p.state (access L errors plain x c p.state).2
      (conns i) (programs i) ⟨i, c, (access L errors plain x c p.state).1⟩
      (after (access L errors plain x c p.state).1) :=
    (hp.stage i).continues hp.below hthread rfl
  obtain ⟨k', possible', hstage, hstep⟩ := hcontinues
  have hmine (conn : ℕ) (h : Function.update conns i k' i = some conn) :
      conns i = some conn ∨ conn = p.state.next ∧
        (access L errors plain x c p.state).2.next = p.state.next + 1 := by
    rw [Function.update_self] at h
    exact hstep.kept conn h
  have hother {j : ℕ} (hj : j ≠ i) : Function.update conns i k' j = conns j :=
    Function.update_of_ne hj _ _
  refine ⟨Function.update conns i k', Function.update programs i possible', ?_, ?_, ?_, ?_, ?_⟩
  · intro j
    rcases eq_or_ne j i with rfl | hj
    · simp only [Function.update_self]
      exact hstage
    · simp only [Function.update_of_ne hj]
      refine (hp.stage j).undisturbed fun conn hconn => access_undisturbed ?_ ?_
      · intro hown
        exact hj (hp.distinct j i conn hconn (hstep.own conn hown))
      · exact fun c' hc' => hplain x.other c' p.state.state (hstep.outside c' hc')
  · -- a connection of the thread itself is its old one or a new one
    have hfresh {j : ℕ} (hj : j ≠ i) {conn : ℕ} (hconn : conns j = some conn)
        (hi : Function.update conns i k' i = some conn) : False := by
      rcases hmine conn hi with h | ⟨rfl, _⟩
      · exact hj (hp.distinct j i conn hconn h)
      · exact absurd (hp.used j _ hconn) (lt_irrefl _)
    intro j l conn hj hl
    rcases eq_or_ne j i with rfl | hji <;> rcases eq_or_ne l j with rfl | hlj
    · rfl
    · exact (hfresh hlj (hother hlj ▸ hl) hj).elim
    · rfl
    · rcases eq_or_ne l i with rfl | hli
      · exact (hfresh hji (hother hji ▸ hj) hl).elim
      · exact hp.distinct j l conn (hother hji ▸ hj) (hother hli ▸ hl)
  · intro j conn hconn
    rcases eq_or_ne j i with rfl | hj
    · rcases hmine conn hconn with h | ⟨rfl, hnext⟩
      · exact (hp.used j conn h).trans_le (access_next c x p.state)
      · exact hnext ▸ Nat.lt_succ_self _
    · exact (hp.used j conn (hother hj ▸ hconn)).trans_le (access_next c x p.state)
  · intro conn data hdata
    have hold : conn < p.state.next := by
      rcases access_writer hdata with h | h
      · exact hp.below conn data h
      · exact hp.used i conn (hstep.own conn h)
    exact hold.trans_le (access_next c x p.state)
  · intro threads hthreads
    have hi : threads i ∈ possible' := by
      have h := hthreads i
      rwa [Function.update_self] at h
    obtain ⟨q, hq, hreach⟩ := hstep.reaches (threads i) hi
    -- before the access the thread had `q` left, and the others what they have now
    obtain ⟨trace, hrun, htrace⟩ := hp.run (Function.update threads i q) (fun j => by
      rcases eq_or_ne j i with rfl | hj
      · rwa [Function.update_self]
      · have h := hthreads j
        rw [Function.update_of_ne hj] at h ⊢
        exact h)
    rcases hreach with ⟨rfl, hstate, htold⟩ | ⟨c', next', y, rfl, hnext, hstate, hshown⟩
    · refine ⟨trace, ?_, ?_⟩
      · rw [Function.update_eq_self] at hrun
        rwa [hstate]
      · rw [List.filterMap_cons_none htold]
        exact htrace
    · have hnew := hrun.step_free i y
      rw [Pool.step_call _ (Function.update_self ..), Function.update_idem, ← hnext, ← hstate,
        Function.update_eq_self] at hnew
      refine ⟨_, hnew, ?_⟩
      rw [List.filterMap_cons, List.filterMap_cons, hshown, htrace]

theorem Matched.again (hp : Matched L errors method plain body s₀ p conns programs) {i : ℕ}
    (hthread : p.thread i = .done (.ok true)) (x : Input T ι) :
    Matched L errors method plain body s₀
      { p with thread := Function.update p.thread i (expand errors method body) } conns
      (Function.update programs i {body}) := by
  obtain ⟨hnone, hpossible⟩ := (hp.stage i).ended hthread
  refine ⟨fun j => ?_, hp.distinct, hp.used, hp.below, fun threads hthreads => ?_⟩
  · rcases eq_or_ne j i with rfl | hj
    · simp only [Function.update_self, hnone]
      exact .free body
    · simp only [Function.update_of_ne hj]
      exact hp.stage j
  · have hi : threads i = body := by
      have h := hthreads i
      rwa [Function.update_self, Set.mem_singleton_iff] at h
    obtain ⟨trace, hrun, htrace⟩ := hp.run (Function.update threads i (.done (.ok true)))
      (fun j => by
        rcases eq_or_ne j i with rfl | hj
        · rw [Function.update_self, hpossible]
          rfl
        · have h := hthreads j
          rw [Function.update_of_ne hj] at h ⊢
          exact h)
    have hnew := hrun.step_free i (.works, x.time, x.other)
    have hthreads : Function.update threads i body = threads := by rw [← hi, Function.update_eq_self]
    rw [Pool.step_again _ (Function.update_self ..), Function.update_idem, hthreads] at hnew
    exact ⟨trace, hnew, htrace⟩

theorem matched_of_run (hplain : ∀ x c s, method c = none → L.get (plain x c s).2 = L.get s)
    (h : Run (access L errors plain) (expand errors method body) (fun _ _ _ _ => True)
      (Connections.fresh s₀) p) :
    ∃ conns programs, Matched L errors method plain body s₀ p conns programs := by
  induction h with
  | start =>
    refine ⟨fun _ => none, fun _ => {body}, fun i => .free body, fun i j conn h => (by cases h),
      fun i conn h => (by cases h), fun conn data h => (by cases h), fun threads hthreads => ?_⟩
    have hall : threads = fun _ => body := funext hthreads
    exact ⟨[], hall ▸ .start, rfl⟩
  | @step p _ i x _ ih =>
    obtain ⟨conns, programs, hp⟩ := ih
    cases hthread : p.thread i with
    | call c after =>
      rw [Pool.step_call x hthread]
      exact hp.call hplain hthread x
    | done o =>
      by_cases ho : o = .ok true
      · subst ho
        rw [Pool.step_again x hthread]
        exact ⟨conns, _, hp.again hthread x⟩
      · rw [Pool.step_ended x hthread ho]
        exact ⟨conns, programs, hp⟩

/-- Every run by accesses has a run by single steps with the same state and the same calls that
are no methods. A thread that has ended has ended there in the same way. -/
theorem exists_run_atomic
    (hplain : ∀ x c s, method c = none → L.get (plain x c s).2 = L.get s)
    (h : Run (access L errors plain) (expand errors method body) (fun _ _ _ _ => True)
      (Connections.fresh s₀) p) :
    ∃ q, Run (atomic L errors method plain) body (fun _ _ _ _ => True) s₀ q ∧
      q.state = p.state.state ∧ q.trace.filterMap (shown method) = p.trace.filterMap told ∧
      ∀ i o, p.thread i = .done o → q.thread i = .done o := by
  obtain ⟨conns, programs, hp⟩ := matched_of_run hplain h
  choose threads hthreads using fun i => (hp.stage i).nonempty
  obtain ⟨trace, hrun, htrace⟩ := hp.run threads hthreads
  refine ⟨_, hrun, rfl, htrace, fun i o ho => ?_⟩
  have hi := hthreads i
  rwa [((hp.stage i).ended ho).2] at hi

variable (L errors method plain body s₀) in
/-- One thread can take another state of the engine's connections and its program there. -/
def Leads (i : ℕ) (s : Connections K σ) (low : Program (accesses K I T) ε Bool)
    (s' : Connections K σ) (low' : Program (accesses K I T) ε Bool) : Prop :=
  ∀ p, Run (access L errors plain) (expand errors method body) (fun _ _ _ _ => True)
      (Connections.fresh s₀) p → p.state = s → p.thread i = low →
    ∃ p', Run (access L errors plain) (expand errors method body) (fun _ _ _ _ => True)
      (Connections.fresh s₀) p' ∧ p'.state = s' ∧ p'.thread = Function.update p.thread i low' ∧
      p'.trace.filterMap told = p.trace.filterMap told

section Leads

variable {i : ℕ} {low' low'' : Program (accesses K I T) ε Bool} {s'' : Connections K σ}

theorem Leads.trans (h : Leads L errors method plain body s₀ i s low s' low')
    (h' : Leads L errors method plain body s₀ i s' low' s'' low'') :
    Leads L errors method plain body s₀ i s low s'' low'' := by
  intro p hp hs hlow
  obtain ⟨q, hq, hqs, hqt, hqtold⟩ := h p hp hs hlow
  obtain ⟨r, hr, hrs, hrt, hrtold⟩ := h' q hq hqs (by rw [hqt, Function.update_self])
  refine ⟨r, hr, hrs, ?_, hrtold.trans hqtold⟩
  rw [hrt, hqt, Function.update_idem]

theorem Leads.access (x : Input T ι) {c : Access K I.Call} (hc : c.plain? = none)
    {after : Except ε (c.Answer K I T) → Program (accesses K I T) ε Bool}
    {r : Except ε (c.Answer K I T)} (h : access L errors plain x c s = (r, s')) :
    Leads L errors method plain body s₀ i s (.call c after) s' (after r) := by
  intro p hp hs hlow
  subst hs
  refine ⟨_, hp.step_free i x, ?_, ?_, ?_⟩ <;> rw [Pool.step_call x hlow, h]
  rw [List.filterMap_cons_none]
  exact told_eq_none hc

/-- The input under which an access succeeds, or fails. -/
def calm (fails : Bool) (now : T) (o : ι) : Input T ι := ⟨fails, false, now, o⟩

variable {c : I.Call} {next : Except ε (I.Answer c) → Program I ε Bool} {conn : ℕ}

theorem released_writer (hmine : ∀ w, s.writer = some w → w.1 = conn) :
    (s.released conn).writer = none := by
  unfold Connections.released
  split_ifs with h
  · rfl
  · cases hw : s.writer with
    | none => rfl
    | some w =>
      obtain ⟨c, data⟩ := w
      exact absurd (Connections.writes_iff.mpr ⟨data, hmine _ hw ▸ hw⟩) h

theorem leads_closing (now : T) (o : ι) (fallback a : I.Answer c) :
    Leads L errors method plain body s₀ i s (rest errors method next conn fallback (pure a))
      (s.released conn) (expand errors method (next (.ok a))) :=
  .access (calm false now o) rfl rfl

theorem leads_connect (now : T) (o : ι) {fallback : I.Answer c}
    (inside : ℕ → Program (accesses K I T) ε (I.Answer c)) :
    Leads L errors method plain body s₀ i s
      (settle (usingConnection errors fallback inside) fun r => expand errors method (next r))
      { s with next := s.next + 1 }
      (rest errors method next s.next fallback (inside s.next)) :=
  .access (calm false now o) rfl rfl

def LeadsOut (L : Place K σ) (errors : Errors ε)
    (method : (c : I.Call) → Option (Method K ε T (I.Answer c))) (plain : ι → Machine I ε σ)
    (body : Program I ε Bool) (s₀ : σ) (i : ℕ) (s : Connections K σ)
    (low : Program (accesses K I T) ε Bool) (state : σ) (high : Program I ε Bool) : Prop :=
  ∃ s', Leads L errors method plain body s₀ i s low s' (expand errors method high) ∧
    s'.state = state ∧ s'.writer = none

theorem Leads.out {state : σ} {high : Program I ε Bool}
    (h : Leads L errors method plain body s₀ i s low s' low')
    (h' : LeadsOut L errors method plain body s₀ i s' low' state high) :
    LeadsOut L errors method plain body s₀ i s low state high := by
  obtain ⟨s'', hleads, hstate, hwriter⟩ := h'
  exact ⟨s'', h.trans hleads, hstate, hwriter⟩

theorem leadsOut_closing (now : T) (o : ι) (fallback a : I.Answer c)
    (hmine : ∀ w, s.writer = some w → w.1 = conn) :
    LeadsOut L errors method plain body s₀ i s (rest errors method next conn fallback (pure a))
      s.state (next (.ok a)) :=
  ⟨_, leads_closing now o fallback a, Connections.released_state s conn, released_writer hmine⟩

theorem leadsOut_query (now : T) (o : ι) (hs : s.writer = none) (statement : K.Query)
    (result : List K.Row → Except ε (I.Answer c)) (fallback : I.Answer c) :
    LeadsOut L errors method plain body s₀ i s
      (rest errors method next conn fallback (queryBody statement result conn)) s.state
      (next (.ok (answerTo result fallback (K.select statement (L.get s.state))))) := by
  have hsees : s.sees L conn = L.get s.state := by simp only [Connections.sees, hs]
  let s₁ : Connections K σ :=
    { s with cursor := Function.update s.cursor conn (K.select statement (L.get s.state)) }
  have hidle : s₁.writes conn = false := by simp only [s₁, Connections.writes, hs, Option.any_none]
  have hselect : Leads L errors method plain body s₀ i s
      (rest errors method next conn fallback (queryBody statement result conn)) s₁
      (rest errors method next conn fallback (do
        issue (I := accesses K I T) (.commit conn)
        let rows ← issue (I := accesses K I T) (.fetchall conn)
        .done (result rows))) :=
    .access (r := .ok ()) (calm false now o) rfl (by rw [access_select, hsees]; rfl)
  have hcommit : Leads L errors method plain body s₀ i s₁
      (rest errors method next conn fallback (do
        issue (I := accesses K I T) (.commit conn)
        let rows ← issue (I := accesses K I T) (.fetchall conn)
        .done (result rows))) s₁
      (rest errors method next conn fallback (do
        let rows ← issue (I := accesses K I T) (.fetchall conn)
        .done (result rows))) :=
    .access (r := .ok ()) (calm false now o) rfl (by
      rw [access_commit, Connections.committed_idle hidle]
      rfl)
  have hfetch : Leads L errors method plain body s₀ i s₁
      (rest errors method next conn fallback (do
        let rows ← issue (I := accesses K I T) (.fetchall conn)
        .done (result rows))) s₁
      (rest errors method next conn fallback
        (.done (result (K.select statement (L.get s.state))))) :=
    .access (r := .ok _) (calm false now o) rfl (by
      rw [access_fetchall]
      simp only [s₁, Function.update_self]
      rfl)
  refine (hselect.trans (hcommit.trans hfetch)).out ?_
  have hmine : ∀ w, s₁.writer = some w → w.1 = conn := by
    intro w hw
    rw [hs] at hw
    cases hw
  cases hr : result (K.select statement (L.get s.state)) with
  | ok a =>
    have ha : answerTo result fallback (K.select statement (L.get s.state)) = a := by
      simp only [answerTo, hr]
    rw [ha]
    exact leadsOut_closing now o fallback a hmine
  | error e =>
    have ha : answerTo result fallback (K.select statement (L.get s.state)) = fallback := by
      simp only [answerTo, hr]
    rw [ha]
    exact leadsOut_closing now o fallback fallback hmine

theorem leadsOut_update (now : T) (o : ι) (finished : I.Answer c) {statements : List K.Write}
    (hmine : ∀ w, s.writer = some w → w.1 = conn) :
    LeadsOut L errors method plain body s₀ i s
      (rest errors method next conn finished (updateBody finished conn statements))
      (L.set s.state ((K.writeAll statements (s.sees L conn)).getD (L.get s.state)))
      (next (.ok finished)) := by
  have hfree : s.locked conn = false := by
    cases hw : s.writer with
    | none => simp only [Connections.locked, hw, Option.any_none]
    | some w => simp [Connections.locked, hw, hmine w hw]
  induction statements generalizing s with
  | nil =>
    have hcommit : Leads L errors method plain body s₀ i s
        (rest errors method next conn finished (updateBody finished conn []))
        (s.committed L conn) (rest errors method next conn finished (pure finished)) :=
      .access (r := .ok ()) (calm false now o) rfl rfl
    have hwriter : ∀ w, (s.committed L conn).writer = some w → w.1 = conn := by
      unfold Connections.committed
      split_ifs
      · exact fun w hw => by cases hw
      · exact hmine
    have hout : LeadsOut L errors method plain body s₀ i s
        (rest errors method next conn finished (updateBody finished conn []))
        (s.committed L conn).state (next (.ok finished)) :=
      hcommit.out (leadsOut_closing now o finished finished hwriter)
    rwa [Connections.committed_state] at hout
  | cons statement statements ih =>
    cases hwrite : K.write statement (s.sees L conn) with
    | none =>
      have hall : K.writeAll (statement :: statements) (s.sees L conn) = none := by
        simp only [Engine.writeAll, List.foldlM_cons, hwrite]
        rfl
      rw [hall, Option.getD_none, L.set_get]
      have hrefused : Leads L errors method plain body s₀ i s
          (rest errors method next conn finished
            (updateBody finished conn (statement :: statements)))
          { s with writer := some (conn, s.sees L conn) }
          (rest errors method next conn finished (pure finished)) :=
        .access (r := .error errors.engine) (calm false now o) rfl (by
          rw [access_execute, hfree, hwrite]
          rfl)
      exact hrefused.out (leadsOut_closing now o finished finished
        fun w hw => congrArg Prod.fst (Option.some.inj hw).symm)
    | some data =>
      have hall : K.writeAll (statement :: statements) (s.sees L conn) =
          K.writeAll statements data := by
        simp only [Engine.writeAll, List.foldlM_cons, hwrite]
        rfl
      have hexecute : Leads L errors method plain body s₀ i s
          (rest errors method next conn finished
            (updateBody finished conn (statement :: statements)))
          { s with writer := some (conn, data) }
          (rest errors method next conn finished (updateBody finished conn statements)) :=
        .access (r := .ok ()) (calm false now o) rfl (by
          rw [access_execute, hfree, hwrite]
          rfl)
      have hmine' : ∀ w, ({ s with writer := some (conn, data) } : Connections K σ).writer =
          some w → w.1 = conn := fun w hw => congrArg Prod.fst (Option.some.inj hw).symm
      have hout := ih hmine' (by simp [Connections.locked])
      rw [hall]
      exact hexecute.out (by simpa [Connections.sees] using hout)

theorem Leads.refl : Leads L errors method plain body s₀ i s low s low := by
  intro p hp hs hlow
  refine ⟨p, hp, hs, ?_, rfl⟩
  rw [← hlow, Function.update_eq_self]

def Method.inside {α : Type} (m : Method K ε T α) (now : T) (conn : ℕ) :
    Program (accesses K I T) ε α :=
  match m with
  | query statement result _ => queryBody statement result conn
  | update statements finished => updateBody finished conn (statements now)

variable {m : Method K ε T (I.Answer c)}

theorem leads_begin (hm : method c = some m) (now : T) (o : ι) :
    Leads L errors method plain body s₀ i s (expand errors method (.call c next)) s
      (settle (usingConnection errors m.fallback (m.inside now)) fun r =>
        expand errors method (next r)) := by
  rw [expand_method hm]
  cases m with
  | query statement result fallback => exact .refl
  | update statements finished =>
    exact .access (c := .clock) (r := .ok now) (calm false now o) rfl rfl

theorem leads_failed (now : T) (o : ι) :
    Leads L errors method plain body s₀ i s
      (rest errors method next conn m.fallback (m.inside now conn)) s
      (rest errors method next conn m.fallback (pure m.fallback)) := by
  cases m with
  | query statement result fallback =>
    exact .access (r := .error errors.engine) (calm true now o) rfl rfl
  | update statements finished =>
    simp only [Method.inside, Method.fallback]
    cases statements now with
    | nil => exact .access (r := .error errors.engine) (calm true now o) rfl rfl
    | cons statement statements =>
      exact .access (r := .error errors.engine) (calm true now o) rfl rfl

theorem leadsOut_method (hm : method c = some m) (ending : Ending) (now : T) (o : ι)
    (hs : s.writer = none) :
    LeadsOut L errors method plain body s₀ i s (expand errors method (.call c next))
      (m.atomically L errors ending now s.state).2
      (next (m.atomically L errors ending now s.state).1) := by
  have hmine : ∀ w, ({ s with next := s.next + 1 } : Connections K σ).writer = some w →
      w.1 = s.next := by
    intro w hw
    rw [hs] at hw
    cases hw
  refine (leads_begin hm now o).out ?_
  cases ending with
  | raises =>
    have hconnect : Leads L errors method plain body s₀ i s
        (settle (usingConnection errors m.fallback (m.inside now)) fun r =>
          expand errors method (next r)) s
        (expand errors method (next (.error errors.unconnected))) :=
      .access (r := .error errors.engine) (calm true now o) rfl rfl
    exact ⟨s, hconnect, rfl, hs⟩
  | prints =>
    refine (leads_connect now o (m.inside now)).out ((leads_failed now o).out ?_)
    exact leadsOut_closing now o m.fallback m.fallback hmine
  | works =>
    refine (leads_connect now o (m.inside now)).out ?_
    cases m with
    | query statement result fallback =>
      exact leadsOut_query (s := { s with next := s.next + 1 }) now o hs statement result fallback
    | update statements finished =>
      have hsees : Connections.sees L { s with next := s.next + 1 } s.next = L.get s.state := by
        simp only [Connections.sees, hs]
      have hout : LeadsOut L errors method plain body s₀ i { s with next := s.next + 1 }
          (rest errors method next s.next finished
            (updateBody finished s.next (statements now)))
          (L.set s.state ((K.writeAll (statements now)
            (Connections.sees L { s with next := s.next + 1 } s.next)).getD (L.get s.state)))
          (next (.ok finished)) := leadsOut_update now o finished hmine
      rw [hsees] at hout
      exact hout

end Leads

/-- Every run by single steps is carried out by accesses. -/
theorem exists_run_access {q : Pool I ε σ}
    (h : Run (atomic L errors method plain) body (fun _ _ _ _ => True) s₀ q) :
    ∃ p, Run (access L errors plain) (expand errors method body) (fun _ _ _ _ => True)
      (Connections.fresh s₀) p ∧ p.state.state = q.state ∧ p.state.writer = none ∧
      p.thread = (fun i => expand errors method (q.thread i)) ∧
      p.trace.filterMap told = q.trace.filterMap (shown method) := by
  induction h with
  | start => exact ⟨_, .start, rfl, rfl, rfl, rfl⟩
  | @step q _ i x _ ih =>
    obtain ⟨p, hp, hstate, hwriter, hthread, htrace⟩ := ih
    have hi : p.thread i = expand errors method (q.thread i) := congrFun hthread i
    have hmoved (high : Program I ε Bool) :
        Function.update p.thread i (expand errors method high) =
          fun j => expand errors method (Function.update q.thread i high j) := by
      funext j
      rcases eq_or_ne j i with rfl | hj
      · simp only [Function.update_self]
      · simp only [Function.update_of_ne hj, hthread]
    obtain ⟨ending, now, o⟩ := x
    cases hq : q.thread i with
    | done r =>
      by_cases hr : r = .ok true
      · subst hr
        rw [Pool.step_again _ hq]
        have hlow : p.thread i = .done (.ok true) := by rw [hi, hq]; rfl
        have hnew := hp.step_free i (calm false now o)
        rw [Pool.step_again _ hlow] at hnew
        exact ⟨_, hnew, hstate, hwriter, hmoved body, htrace⟩
      · rw [Pool.step_ended _ hq hr]
        exact ⟨p, hp, hstate, hwriter, hthread, htrace⟩
    | call c next =>
      rw [Pool.step_call _ hq]
      rw [hq] at hi
      cases hm : method c with
      | none =>
        have hstep : atomic L errors method plain (ending, now, o) c q.state =
            plain o c q.state := by
          simp only [atomic, hm]
        rw [expand_plain hm] at hi
        have hnew := hp.step_free i (calm false now o)
        rw [Pool.step_call _ hi] at hnew
        refine ⟨_, hnew, ?_, hwriter, ?_, ?_⟩
        · rw [hstep]
          simp only [access, calm, hstate]
        · rw [hstep]
          simp only [access, calm, hstate, hmoved]
        · have hshown : shown method ⟨i, c, (atomic L errors method plain (ending, now, o) c
              q.state).1⟩ = told ⟨i, .plain c, (access L errors plain (calm false now o) (.plain c)
                p.state).1⟩ := by
            simp only [shown, hm, Option.isSome_none, hstep, access, calm, hstate]
            rfl
          rw [List.filterMap_cons, List.filterMap_cons, hshown, htrace]
      | some m =>
        have hstep : atomic L errors method plain (ending, now, o) c q.state =
            m.atomically L errors ending now q.state := by
          simp only [atomic, hm]
        have hout : LeadsOut L errors method plain body s₀ i p.state
            (expand errors method (.call c next)) _ _ :=
          leadsOut_method hm ending now o hwriter
        obtain ⟨s', hleads, hs', hwriter'⟩ := hout
        obtain ⟨p', hp', rfl, hthread', htrace'⟩ := hleads p hp rfl hi
        refine ⟨p', hp', ?_, hwriter', ?_, ?_⟩
        · rw [hs', hstep, hstate]
        · rw [hthread', hmoved, hstep, hstate]
        · have hnone : shown method ⟨i, c, (atomic L errors method plain (ending, now, o) c
              q.state).1⟩ = none := by
            simp only [shown, hm, Option.isSome_some, if_true]
          rw [List.filterMap_cons_none hnone, htrace', htrace]

/-- By accesses and by single steps the same states are reached with the same other calls. -/
theorem run_access_iff
    (hplain : ∀ x c s, method c = none → L.get (plain x c s).2 = L.get s) {state : σ}
    {trace : Trace I ε} :
    (∃ p, Run (access L errors plain) (expand errors method body) (fun _ _ _ _ => True)
        (Connections.fresh s₀) p ∧ p.state.state = state ∧ p.trace.filterMap told = trace) ↔
      ∃ q, Run (atomic L errors method plain) body (fun _ _ _ _ => True) s₀ q ∧
        q.state = state ∧ q.trace.filterMap (shown method) = trace := by
  constructor
  · rintro ⟨p, hp, rfl, rfl⟩
    obtain ⟨q, hq, hstate, htrace, _⟩ := exists_run_atomic hplain hp
    exact ⟨q, hq, hstate, htrace⟩
  · rintro ⟨q, hq, rfl, rfl⟩
    obtain ⟨p, hp, hstate, _, _, htrace⟩ := exists_run_access hq
    exact ⟨p, hp, hstate, htrace⟩

end EncryptedTransfer.Transactions
