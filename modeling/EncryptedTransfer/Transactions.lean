import EncryptedTransfer.ThreadPools

/-!
# Methods that run one transaction each

A method opens a connection of its own, executes its statements, commits and closes the
connection; an error on the way is caught and answered with a value of the method's own. One
connection at a time has uncommitted changes, and nobody else sees them. Beside this a
machine on which every method is a single step.
-/
namespace EncryptedTransfer.Transactions
open Interaction Program ThreadPools

/-- The data of an engine with its statements. A write that is `none` is refused and changes
nothing. -/
structure Engine where
  Data : Type
  Write : Type
  Query : Type
  Row : Type
  write : Write → Data → Option Data
  select : Query → Data → List Row

/-- Writes one after another, all of them or none. -/
def Engine.writeAll (K : Engine) (statements : List K.Write) (data : K.Data) : Option K.Data :=
  statements.foldlM (fun data statement => K.write statement data) data

/-- A state with the data of an engine in it. -/
structure Place (K : Engine) (σ : Type) where
  get : σ → K.Data
  set : σ → K.Data → σ
  get_set : ∀ s data, get (set s data) = data
  set_get : ∀ s, set s (get s) = s

/-- What a program does to the engine, and its other calls. -/
inductive Access (K : Engine) (C : Type) where
  | clock
  | connect
  | select (conn : ℕ) (statement : K.Query)
  | execute (conn : ℕ) (statement : K.Write)
  | commit (conn : ℕ)
  | fetchall (conn : ℕ)
  | close (conn : ℕ)
  | plain (c : C)

section Accesses

variable (K : Engine) (I : Interface) (T : Type)

abbrev Access.Answer : Access K I.Call → Type
  | clock => T
  | connect => ℕ
  | fetchall _ => List K.Row
  | plain c => I.Answer c
  | _ => Unit

abbrev accesses : Interface := ⟨Access K I.Call, Access.Answer K I T⟩

end Accesses

/-- The shared state, the connections given out so far, the connection with uncommitted changes,
and the rows each connection has selected. -/
structure Connections (K : Engine) (σ : Type) where
  state : σ
  next : ℕ
  writer : Option (ℕ × K.Data)
  cursor : ℕ → List K.Row

namespace Connections

variable {K : Engine} {σ : Type}

def fresh (s : σ) : Connections K σ := ⟨s, 0, none, fun _ => []⟩

def writes (s : Connections K σ) (conn : ℕ) : Bool := s.writer.any fun w => w.1 = conn

/-- Whether another connection has uncommitted changes. -/
def locked (s : Connections K σ) (conn : ℕ) : Bool := s.writer.any fun w => w.1 ≠ conn

/-- The data as one connection sees it. -/
def sees (L : Place K σ) (s : Connections K σ) (conn : ℕ) : K.Data :=
  match s.writer with
  | some (conn', data) => if conn' = conn then data else L.get s.state
  | none => L.get s.state

def released (s : Connections K σ) (conn : ℕ) : Connections K σ :=
  if s.writes conn then { s with writer := none } else s

def committed (L : Place K σ) (s : Connections K σ) (conn : ℕ) : Connections K σ :=
  if s.writes conn then { s with state := L.set s.state (s.sees L conn), writer := none } else s

end Connections

/-- What the surroundings decide at one access: whether it fails, whether the engine then drops
the connection's changes by itself, the time, and what the other calls need. -/
structure Input (T ι : Type) where
  fails : Bool
  drops : Bool
  time : T
  other : ι

/-- The errors an access raises, and the one of a method that has no connection to close. -/
structure Errors (ε : Type) where
  engine : ε
  unconnected : ε

section Machine

variable {K : Engine} {I : Interface} {ε σ T ι : Type}

def failed (x : Input T ι) (s : Connections K σ) (conn : ℕ) : Connections K σ :=
  if x.drops then s.released conn else s

/-- One access. A write waits for no other connection for ever: it fails where one has
uncommitted changes. -/
def access (L : Place K σ) (errors : Errors ε) (plain : ι → Machine I ε σ) (x : Input T ι) :
    Machine (accesses K I T) ε (Connections K σ)
  | .clock, s => (.ok x.time, s)
  | .connect, s =>
    if x.fails then (.error errors.engine, s) else (.ok s.next, { s with next := s.next + 1 })
  | .select conn statement, s =>
    if x.fails then (.error errors.engine, failed x s conn)
    else (.ok (), { s with
      cursor := Function.update s.cursor conn (K.select statement (s.sees L conn)) })
  | .execute conn statement, s =>
    if x.fails || s.locked conn then (.error errors.engine, failed x s conn)
    else match K.write statement (s.sees L conn) with
      | some data => (.ok (), { s with writer := some (conn, data) })
      | none => (.error errors.engine, { s with writer := some (conn, s.sees L conn) })
  | .commit conn, s =>
    if x.fails then (.error errors.engine, failed x s conn) else (.ok (), s.committed L conn)
  | .fetchall conn, s =>
    if x.fails then (.error errors.engine, failed x s conn) else (.ok (s.cursor conn), s)
  | .close conn, s => (.ok (), s.released conn)
  | .plain c, s => ((plain x.other c s.state).1, { s with state := (plain x.other c s.state).2 })

variable (L : Place K σ) (errors : Errors ε) (plain : ι → Machine I ε σ) (x : Input T ι)
variable (s : Connections K σ) (conn : ℕ)

theorem access_connect : access L errors plain x .connect s =
    if x.fails then (.error errors.engine, s) else (.ok s.next, { s with next := s.next + 1 }) :=
  rfl

theorem access_select (statement : K.Query) : access L errors plain x (.select conn statement) s =
    if x.fails then (.error errors.engine, failed x s conn)
    else (.ok (), { s with
      cursor := Function.update s.cursor conn (K.select statement (s.sees L conn)) }) := rfl

theorem access_execute (statement : K.Write) :
    access L errors plain x (.execute conn statement) s =
      if x.fails || s.locked conn then (.error errors.engine, failed x s conn)
      else match K.write statement (s.sees L conn) with
        | some data => (.ok (), { s with writer := some (conn, data) })
        | none => (.error errors.engine, { s with writer := some (conn, s.sees L conn) }) := rfl

theorem access_commit : access L errors plain x (.commit conn) s =
    if x.fails then (.error errors.engine, failed x s conn) else (.ok (), s.committed L conn) :=
  rfl

theorem access_fetchall : access L errors plain x (.fetchall conn) s =
    if x.fails then (.error errors.engine, failed x s conn) else (.ok (s.cursor conn), s) := rfl

end Machine

section Methods

variable (K : Engine) (ε T : Type)

/-- A query turns the rows it has selected into its answer; an update has one answer. -/
inductive Method (α : Type) where
  | query (statement : K.Query) (result : List K.Row → Except ε α) (fallback : α)
  | update (statements : T → List K.Write) (finished : α)

variable {K ε T} {I : Interface} {α β : Type}

def Method.fallback : Method K ε T α → α
  | query _ _ fallback => fallback
  | update _ finished => finished

/-- The remaining body of a method that has a connection: errors are caught, and the connection
is closed in any case. -/
def closing (conn : ℕ) (fallback : α) (body : Program (accesses K I T) ε α) :
    Program (accesses K I T) ε α := do
  let result ← body.attempt fun _ => pure fallback
  issue (I := accesses K I T) (.close conn)
  pure result

/-- `conn = None; try: conn = connect(); … except: … finally: conn.close()`. Where connecting has
failed there is nothing to close, and `None.close()` raises. -/
def usingConnection (errors : Errors ε) (fallback : α)
    (body : ℕ → Program (accesses K I T) ε α) : Program (accesses K I T) ε α :=
  .call (I := accesses K I T) .connect fun
    | .ok conn => closing conn fallback (body conn)
    | .error _ => raise errors.unconnected

def queryBody (statement : K.Query) (result : List K.Row → Except ε α) (conn : ℕ) :
    Program (accesses K I T) ε α := do
  issue (I := accesses K I T) (.select conn statement)
  issue (I := accesses K I T) (.commit conn)
  let rows ← issue (I := accesses K I T) (.fetchall conn)
  .done (result rows)

def updateBody (finished : α) (conn : ℕ) : List K.Write → Program (accesses K I T) ε α
  | [] => do
    issue (I := accesses K I T) (.commit conn)
    pure finished
  | statement :: statements => do
    issue (I := accesses K I T) (.execute conn statement)
    updateBody finished conn statements

/-- The accesses of a method. An update reads the clock before it connects. -/
def Method.program (errors : Errors ε) : Method K ε T α → Program (accesses K I T) ε α
  | query statement result fallback =>
    usingConnection errors fallback (queryBody statement result)
  | update statements finished => do
    let now ← issue (I := accesses K I T) .clock
    usingConnection errors finished fun conn => updateBody finished conn (statements now)

/-- How a method ends: it does its work, it prints an error it has caught, or it raises. -/
inductive Ending where
  | works
  | prints
  | raises
  deriving DecidableEq

def answerTo (result : List K.Row → Except ε α) (fallback : α) (rows : List K.Row) : α :=
  match result rows with
  | .ok a => a
  | .error _ => fallback

variable {σ ι : Type} (L : Place K σ) (errors : Errors ε)

def Method.atomically (m : Method K ε T α) (ending : Ending) (now : T) (s : σ) :
    Except ε α × σ :=
  match ending with
  | .raises => (.error errors.unconnected, s)
  | .prints => (.ok m.fallback, s)
  | .works =>
    match m with
    | query statement result fallback =>
      (.ok (answerTo result fallback (K.select statement (L.get s))), s)
    | update statements finished =>
      (.ok finished, L.set s ((K.writeAll (statements now) (L.get s)).getD (L.get s)))

/-- The machine on which the methods are single steps. -/
def atomic (method : (c : I.Call) → Option (Method K ε T (I.Answer c)))
    (plain : ι → Machine I ε σ) (x : Ending × T × ι) : Machine I ε σ := fun c s =>
  match method c with
  | some m => m.atomically L errors x.1 x.2.1 s
  | none => plain x.2.2 c s

def settle (p : Program I ε α) (f : Except ε α → Program I ε β) : Program I ε β :=
  match p with
  | .done o => f o
  | .call c next => .call c fun r => settle (next r) f

/-- The program whose methods are carried out access by access. -/
def expand (method : (c : I.Call) → Option (Method K ε T (I.Answer c))) :
    Program I ε β → Program (accesses K I T) ε β
  | .done o => .done o
  | .call c next =>
    match method c with
    | some m => settle (m.program errors) fun r => expand method (next r)
    | none => .call (I := accesses K I T) (.plain c) fun r => expand method (next r)

end Methods

section Others

variable {K : Engine} {I : Interface} {ε σ T ι : Type} {L : Place K σ}
variable {s s' : Connections K σ} {conn conn' : ℕ}

theorem Connections.writes_iff :
    s.writes conn = true ↔ ∃ data, s.writer = some (conn, data) := by
  cases h : s.writer with
  | none => simp [writes, h]
  | some w =>
    obtain ⟨c, data⟩ := w
    simp [writes, h]

theorem Connections.sees_writer {data : K.Data} (h : s.writer = some (conn, data)) :
    s.sees L conn = data := by
  simp [sees, h]

theorem Connections.sees_idle (h : s.writes conn = false) : s.sees L conn = L.get s.state := by
  cases hw : s.writer with
  | none => simp [sees, hw]
  | some w =>
    obtain ⟨c, data⟩ := w
    have hne : c ≠ conn := by simpa [writes, hw] using h
    simp [sees, hw, hne]

theorem Connections.committed_idle (h : s.writes conn = false) : s.committed L conn = s := by
  simp [committed, h]

theorem Connections.committed_state (s : Connections K σ) (conn : ℕ) :
    (s.committed L conn).state = L.set s.state (s.sees L conn) := by
  unfold committed
  split_ifs with h
  · rfl
  · rw [sees_idle (by simpa using h), L.set_get]

@[simp] theorem Connections.released_state (s : Connections K σ) (conn : ℕ) :
    (s.released conn).state = s.state := by
  unfold released
  split_ifs <;> rfl

@[simp] theorem failed_state (x : Input T ι) (s : Connections K σ) (conn : ℕ) :
    (failed x s conn).state = s.state := by
  unfold failed
  split_ifs <;> simp

/-- A connection is as it was: its rows, and its uncommitted changes with the data below. -/
structure Undisturbed (L : Place K σ) (conn : ℕ) (s s' : Connections K σ) : Prop where
  cursor : s'.cursor conn = s.cursor conn
  idle : s.writes conn = false → s'.writes conn = false
  writer : ∀ data, s.writer = some (conn, data) →
    s'.writer = some (conn, data) ∧ L.get s'.state = L.get s.state

theorem Undisturbed.refl (s : Connections K σ) : Undisturbed L conn s s :=
  ⟨rfl, fun h => h, fun _ h => ⟨h, rfl⟩⟩

theorem Connections.not_writes_of_writes (h : s.writes conn' = true) (hne : conn' ≠ conn) :
    s.writes conn = false := by
  obtain ⟨data, hdata⟩ := writes_iff.mp h
  simp [writes, hdata, hne]

theorem undisturbed_released (hne : conn' ≠ conn) :
    Undisturbed L conn s (s.released conn') := by
  unfold Connections.released
  split_ifs with h
  · have hidle := Connections.not_writes_of_writes h hne
    refine ⟨rfl, fun _ => rfl, fun data hdata => ?_⟩
    rw [Connections.writes_iff.mpr ⟨data, hdata⟩] at hidle
    cases hidle
  · exact .refl s

theorem undisturbed_committed (hne : conn' ≠ conn) :
    Undisturbed L conn s (s.committed L conn') := by
  unfold Connections.committed
  split_ifs with h
  · have hidle := Connections.not_writes_of_writes h hne
    refine ⟨rfl, fun _ => rfl, fun data hdata => ?_⟩
    rw [Connections.writes_iff.mpr ⟨data, hdata⟩] at hidle
    cases hidle
  · exact .refl s

theorem undisturbed_failed (x : Input T ι) (hne : conn' ≠ conn) :
    Undisturbed L conn s (failed x s conn') := by
  unfold failed
  split_ifs
  · exact undisturbed_released hne
  · exact .refl s

theorem undisturbed_writer (hne : conn' ≠ conn) (hfree : s.locked conn' = false)
    (data : K.Data) : Undisturbed L conn s { s with writer := some (conn', data) } := by
  refine ⟨rfl, fun _ => by simp [Connections.writes, hne], fun d hd => ?_⟩
  simp [Connections.locked, hd, Ne.symm hne] at hfree

def Access.conn? {C : Type} : Access K C → Option ℕ
  | select conn _ | execute conn _ | commit conn | fetchall conn | close conn => some conn
  | _ => none

def Access.plain? {C : Type} : Access K C → Option C
  | plain c => some c
  | _ => none

variable {errors : Errors ε} {plain : ι → Machine I ε σ} {x : Input T ι}

/-- An access leaves the other connections alone. -/
theorem access_undisturbed {c : Access K I.Call} (hc : c.conn? ≠ some conn)
    (hplain : ∀ c', c.plain? = some c' → L.get (plain x.other c' s.state).2 = L.get s.state) :
    Undisturbed L conn s (access L errors plain x c s).2 := by
  cases c with
  | clock => exact .refl s
  | connect =>
    rw [access_connect]
    split_ifs
    · exact .refl s
    · exact ⟨rfl, fun h => h, fun _ h => ⟨h, rfl⟩⟩
  | select conn' statement =>
    have hne : conn' ≠ conn := fun h => hc (congrArg some h)
    rw [access_select]
    split_ifs
    · exact undisturbed_failed x hne
    · exact ⟨Function.update_of_ne (Ne.symm hne) _ _, fun h => h, fun _ h => ⟨h, rfl⟩⟩
  | execute conn' statement =>
    have hne : conn' ≠ conn := fun h => hc (congrArg some h)
    rw [access_execute]
    split_ifs with hfails
    · exact undisturbed_failed x hne
    · have hfree : s.locked conn' = false := by
        simp only [Bool.or_eq_true, not_or, Bool.not_eq_true] at hfails
        exact hfails.2
      split
      · exact undisturbed_writer hne hfree _
      · exact undisturbed_writer hne hfree _
  | commit conn' =>
    have hne : conn' ≠ conn := fun h => hc (congrArg some h)
    rw [access_commit]
    split_ifs
    · exact undisturbed_failed x hne
    · exact undisturbed_committed hne
  | fetchall conn' =>
    have hne : conn' ≠ conn := fun h => hc (congrArg some h)
    rw [access_fetchall]
    split_ifs
    · exact undisturbed_failed x hne
    · exact .refl s
  | close conn' =>
    have hne : conn' ≠ conn := fun h => hc (congrArg some h)
    exact undisturbed_released hne
  | plain c' => exact ⟨rfl, fun h => h, fun _ h => ⟨h, hplain c' rfl⟩⟩

end Others

end EncryptedTransfer.Transactions
