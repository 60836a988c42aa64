import OpenHalo.Course
import OpenHalo.Session.StatementTable

namespace OpenHalo
open Octets Memory Machine

variable {c : Connection} {g : Grammar} {payload : Bytes} {junk : Mem}

/-- The variables of `mys_uservar.c`: values by name, with NULL as `none`. -/
abbrev UserVars := List (Bytes × Option Bytes)

/-- `clearUserVars` destroys the table. -/
def clearUserVars : UserVars := []

/-- What SQL functions read: user variables, `last_insert_id()`, `found_rows()` and `row_count()`. -/
structure Seen where
  userVars : UserVars
  lastInsertID : Nat
  foundRows : Nat
  affectedRows : Int

/-- The server's part in a command: its verdicts, and the user variables and last insert id it leaves. -/
structure Executor where
  oracle : Seen → Oracle
  leaves : Seen → UserVars × Nat

structure Connection where
  session : Session
  userVars : UserVars
  lastInsertID : Nat

def Connection.logon (foreign : Int → PreStmtInfo) (behindNullBitmap : Nat → UInt8) : Connection :=
  ⟨.logon foreign behindNullBitmap, [], 0⟩

inductive Act
  | command (payload : Bytes) (junk : Mem) (server : Executor)
  | disconnect

/-- The text a command makes the server execute, and what comes back. -/
structure Reply where
  text : Option Bytes
  out : Output

def Dispatch.text : Dispatch → Option Bytes
  | .query _ _ inBuf => some inBuf.stmt
  | .quit _ | .answered _ _ _ | .raised _ _ _ _ | .crashed => none

/-- What the server reads during a command; `resetConnection` first clears user variables and last
insert id. -/
def Connection.seen (c : Connection) (request : Request) (d : Dispatch) : Seen where
  userVars := if request = .resetConn then clearUserVars else c.userVars
  lastInsertID := if request = .resetConn then 0 else c.lastInsertID
  foundRows := (d.adapter c.session.adapter).foundRows
  affectedRows := (d.adapter c.session.adapter).affectedRows

def Connection.step (cfg : Config) (g : Grammar) (c : Connection) (act : Act) : Connection × Reply :=
  if c.session.ended then (c, ⟨none, ⟨[], []⟩⟩)
  else match act with
    | .disconnect =>
      let (session, out) := OpenHalo.step cfg g c.session .disconnect
      ({ c with session := session }, ⟨none, out⟩)
    | .command payload junk server =>
      let d :=
        processCommand cfg c.session.adapter c.session.stmts (readCommand payload junk).1 (readCommand payload junk).2
      let seen := c.seen (Request.ofByte (readCommand payload junk).1) d
      let (session, out) := OpenHalo.step cfg g c.session (.command payload junk (server.oracle seen))
      let (userVars, lastInsertID) := if d.text.isSome then server.leaves seen else (seen.userVars, seen.lastInsertID)
      (⟨session, userVars, lastInsertID⟩, ⟨d.text, out⟩)

/-- The connection is as after logon, in its variables and for whatever comes next. -/
structure Restored (cfg : Config) (g : Grammar) (foreign : Int → PreStmtInfo) (behindNullBitmap : Nat → UInt8)
    (c : Connection) : Prop where
  trx : c.session.adapter.trx = Adapter.logon.trx
  invalid : ∀ i : Int, 0 ≤ i → i < PRE_STMT_NUM_MAX → (c.session.stmts.preStmtInfoes i).isValid = false
  userVars : c.userVars = []
  lastInsertID : c.lastInsertID = 0
  alike : ∀ later, outputs (Connection.step cfg g) c later =
    outputs (Connection.step cfg g) (.logon foreign behindNullBitmap) later

/-- The server rolls back and deallocates, and does nothing else. -/
structure ResetSucceeds (g : Grammar) (server : Executor) (seen : Seen) : Prop where
  converts : (server.oracle seen).conversion = none
  parses : g.rawParse (ascii "deallocate prepare all") = (none, some [.plain])
  rolledBack : ∃ effects tag nprocessed, (server.oracle seen).outcomes 0 = .ok effects tag nprocessed
  deallocated : ∃ nprocessed, (server.oracle seen).outcomes 1 = .ok .nothing .deallocateAll nprocessed
  leaves : server.leaves seen = (seen.userVars, seen.lastInsertID)

/-- What `resetConnection` does not touch has its value of logon already. -/
structure Settled (foreign : Int → PreStmtInfo) (behindNullBitmap : Nat → UInt8) (s : Session) : Prop where
  started : s.adapter.needStartNewTrx = false
  committed : s.adapter.needCommitTrx = false
  prefixed : s.adapter.addBeforeBeforeCurSQL = false
  ignored : s.adapter.isIgnoreStmt = false
  used : s.adapter.setUserSystemVar = 0
  counted : s.adapter.foundRows = 1
  stmts : s.stmts = .initial foreign behindNullBitmap

/-- Session state is reported by SET, once a database has been used. -/
structure Adapter.Tracked (a : Adapter) : Prop where
  unchanged : a.sessionStateChanged = false
  untyped : a.setUserSystemVar = 0 → a.sessionStateType = -1

theorem Adapter.Tracked.standing {a b : Adapter} (tracked : a.Tracked) (standing : a.Standing b) : b.Tracked := by
  refine ⟨standing.changed.trans tracked.unchanged, fun unused => ?_⟩
  rcases standing.used with same | two
  · exact standing.typed.trans (tracked.untyped (same ▸ unused))
  · rw [two] at unused
    cases unused

variable {a : Adapter} {s : Session} {outcomes : Nat → Outcome} (cfg : Config)

theorem Adapter.Tracked.assignAll (tracked : a.Tracked) (assigns : List (Bytes × Bytes)) :
    (assignAll a assigns).Tracked := by
  induction assigns generalizing a with
  | nil => exact tracked
  | cons assign assigns ih =>
    refine ih (a := applySystemVarValue a assign.1 assign.2) ?_
    unfold applySystemVarValue
    split
    · split <;> split <;> exact { tracked with }
    · exact tracked

theorem Adapter.Tracked.executed (tracked : s.adapter.Tracked) (more : Bool) (r : StmtResult) :
    (s.executed more r).adapter.Tracked := by
  have moved : { s.adapter with moreResultsFlag := more }.Tracked := { tracked with }
  have assigned := moved.assignAll r.effects.assigns
  exact { assigned with }

theorem Adapter.Tracked.endCommand (tracked : a.Tracked) (cfg : Config) (t : PreStmts) (tag : CommandTag)
    (nprocessed : Nat) :
    (endCommand cfg t a tag nprocessed).1.Tracked := by
  cases tag with
  | begin | commit | rollback => exact { tracked with }
  | plain tag =>
    cases tag with
    | execute | select | insert | update | delete | deallocateAll | truncateTable | savepoint | release
    | startTransaction | call | other => exact { tracked with }
    | prepare | deallocate | definition =>
      simp only [OpenHalo.endCommand, endPlain]
      split <;> exact { tracked with }
    | set =>
      simp only [OpenHalo.endCommand, endPlain, endSet]
      split
      · exact ⟨rfl, tracked.untyped⟩
      · rename_i some
        split <;> exact ⟨rfl, fun none => absurd none some⟩

theorem Adapter.Tracked.sendErrorMessage (tracked : a.Tracked) (cfg : Config) (edata : ErrorData) :
    (sendErrorMessage cfg a edata).1.Tracked := by
  obtain ⟨_, _, _, _, same, _⟩ := sendErrorMessage_spec cfg a edata
  rw [same]
  exact { tracked with }

theorem Adapter.Tracked.execStmts {stmts : List RawStmt} {k : Nat} (tracked : s.adapter.Tracked) (cfg : Config) :
    (execStmts cfg outcomes k stmts s).1.adapter.Tracked := by
  induction stmts generalizing k s with
  | nil => exact tracked
  | cons stmt rest ih =>
    have first := tracked.executed (!rest.isEmpty) (s.block.runStmt stmt (outcomes k))
    cases answered : (s.block.runStmt stmt (outcomes k)).answer with
    | ok completion =>
      rw [execStmts_ok rfl answered]
      exact ih (first.endCommand cfg _ _ _)
    | error edata =>
      rw [execStmts_error rfl answered]
      exact first.sendErrorMessage cfg edata

theorem Adapter.Tracked.exec_simple_query (tracked : s.adapter.Tracked) (cfg : Config) (g : Grammar) (oracle : Oracle)
    (text : Bytes) : (exec_simple_query cfg g oracle s text).1.adapter.Tracked := by
  have ignoring : ∀ ignore, (s.ignoring ignore).adapter.Tracked := fun _ => { tracked with }
  unfold OpenHalo.exec_simple_query execParsed
  split
  · exact tracked.sendErrorMessage cfg _
  split
  · exact (ignoring _).sendErrorMessage cfg _
  · exact ignoring _
  · exact (ignoring _).execStmts cfg

theorem Adapter.Tracked.dispatch {d : Dispatch} (tracked : (d.adapter s.adapter).Tracked) (cfg : Config) (g : Grammar)
    (oracle : Oracle) : (s.dispatch cfg g oracle d).1.adapter.Tracked := by
  cases d with
  | query a t inBuf =>
      exact Adapter.Tracked.exec_simple_query (s := { s with adapter := a, stmts := t }) tracked cfg g _ _
  | raised a t packets edata => exact tracked.sendErrorMessage cfg edata
  | quit | answered | crashed => exact tracked

theorem Adapter.Tracked.step (tracked : s.adapter.Tracked) (cfg : Config) (g : Grammar) (input : Input) :
    (step cfg g s input).1.adapter.Tracked := by
  rcases Bool.eq_false_or_eq_true s.ended with finished | alive
  · simp only [OpenHalo.step, finished, if_true]
    exact tracked
  cases input with
  | disconnect =>
    simp only [OpenHalo.step, alive]
    exact tracked
  | command payload junk oracle =>
    simp only [OpenHalo.step, alive]
    exact Adapter.Tracked.dispatch (tracked.standing (processCommand_standing cfg s.adapter s.stmts _ _)) cfg g oracle

theorem Connection.tracked_step (tracked : c.session.adapter.Tracked) (cfg : Config) (g : Grammar)
    (act : Act) : (c.step cfg g act).1.session.adapter.Tracked := by
  rcases Bool.eq_false_or_eq_true c.session.ended with finished | alive
  · simp only [Connection.step, finished, if_true]
    exact tracked
  cases act with
  | disconnect =>
    simp only [Connection.step, alive]
    exact tracked.step cfg g .disconnect
  | command payload junk server =>
    simp only [Connection.step, alive]
    exact tracked.step cfg g (.command payload junk _)

def Adapter.afterReset (a : Adapter) : Adapter :=
  { Adapter.logon with
    foundRows := a.foundRows, needCommitTrx := a.needCommitTrx, needStartNewTrx := a.needStartNewTrx
    addBeforeBeforeCurSQL := a.addBeforeBeforeCurSQL, setUserSystemVar := a.setUserSystemVar
    sessionStateChanged := a.sessionStateChanged, sessionStateType := a.sessionStateType
    isIgnoreStmt := a.isIgnoreStmt }

theorem runStmt_rollback_accepted (b : TBlock) {outcome : Outcome} {effects : Effects} {tag : PlainTag}
    {nprocessed : Nat} (accepted : outcome = .ok effects tag nprocessed) :
    ∃ events, b.runStmt (.rollback false) outcome = ⟨.idle, events, .nothing, .ok (.rollback, nprocessed)⟩ := by
  subst accepted
  cases b <;> exact ⟨_, rfl⟩

theorem execStmts_reset (manual : s.adapter.autoCommit = true)
    (rolledBack : ∃ effects tag nprocessed, outcomes 0 = .ok effects tag nprocessed)
    (deallocated : ∃ nprocessed, outcomes 1 = .ok .nothing .deallocateAll nprocessed) :
    (execStmts cfg outcomes 0 [.rollback false, .plain] s).1 = { s with
      block := .idle
      adapter := { s.adapter with
        moreResultsFlag := false, inTransactionFlag := false, addCommitOrRollBackBeforeCurSQL := false
        trxNotCommit := false, needAddCommitOrRollbackAfterCurSQL := .commit, isResetConnStmt := false } } := by
  obtain ⟨effects, tag, n, first⟩ := rolledBack
  obtain ⟨m, second⟩ := deallocated
  obtain ⟨events, result⟩ := runStmt_rollback_accepted s.block first
  rw [execStmts_ok result rfl]
  dsimp only
  have last : TBlock.idle.runStmt .plain (outcomes 1) =
      ⟨.idle, [.ran false], .nothing, .ok (.plain .deallocateAll, m)⟩ := by
    rw [second]
    rfl
  rw [execStmts_ok last rfl]
  simp only [execStmts, Session.executed, Session.applyEffects, Effects.nothing, assignAll, List.foldl_nil, endCommand,
    endRollback, endPlain, manual, if_true, Option.getD_none, setColumnInfoes, List.zipIdx_nil]
  rfl

theorem step_reset {oracle : Oracle} (alive : s.ended = false)
    (request : Request.ofByte (readCommand payload junk).1 = .resetConn) (converts : oracle.conversion = none)
    (parses : g.rawParse (ascii "deallocate prepare all") = (none, some [.plain]))
    (rolledBack : ∃ effects tag nprocessed, oracle.outcomes 0 = .ok effects tag nprocessed)
    (deallocated : ∃ nprocessed, oracle.outcomes 1 = .ok .nothing .deallocateAll nprocessed) :
    (step cfg g s (.command payload junk oracle)).1 = { s with
      adapter := s.adapter.afterReset, block := .idle
      stmts := { invalidate s.stmts s.stmts.preStmtInfoNum with preStmtInfoNum := 0 } } := by
  have parsed := g.parse_rollback (ascii "deallocate prepare all")
  rw [parses] at parsed
  have text := resetConnection_stmt (startCommand s.adapter) s.stmts (readCommand payload junk).2
  simp only [step, alive, Bool.false_eq_true, if_false, processCommand, request, Session.dispatch, exec_simple_query,
    converts, text, parsed, Option.map_some]
  rw [execParsed_cons _ _ _ (by simp), execStmts_reset cfg rfl rolledBack deallocated]
  rfl

theorem Connection.step_reset {foreign : Int → PreStmtInfo} {behindNullBitmap : Nat → UInt8} {server : Executor}
    (alive : c.session.ended = false)
    (request : Request.ofByte (readCommand payload junk).1 = .resetConn) (tracked : c.session.adapter.Tracked)
    (settled : Settled foreign behindNullBitmap c.session)
    (succeeds : ResetSucceeds g server ⟨clearUserVars, 0, c.session.adapter.foundRows, -1⟩) :
    (c.step cfg g (.command payload junk server)).1 = .logon foreign behindNullBitmap := by
  have seen : c.seen .resetConn (processCommand cfg c.session.adapter c.session.stmts (readCommand payload junk).1
      (readCommand payload junk).2) = ⟨clearUserVars, 0, c.session.adapter.foundRows, -1⟩ := by
    simp only [processCommand, request]
    rfl
  have sent : (processCommand cfg c.session.adapter c.session.stmts (readCommand payload junk).1
      (readCommand payload junk).2).text.isSome = true := by
    simp only [processCommand, request]
    rfl
  have session := OpenHalo.step_reset cfg alive request succeeds.converts succeeds.parses succeeds.rolledBack
    succeeds.deallocated
  have adapter : c.session.adapter.afterReset = .logon := by
    simp only [Adapter.afterReset, settled.started, settled.committed, settled.prefixed, settled.ignored, settled.used,
      settled.counted, tracked.unchanged, tracked.untyped settled.used]
    rfl
  have stmts : { invalidate c.session.stmts c.session.stmts.preStmtInfoNum with preStmtInfoNum := 0 } =
      PreStmts.initial foreign behindNullBitmap := by
    rw [settled.stmts]
    rfl
  rw [adapter, stmts] at session
  simp only [Connection.step, alive, request, seen, session, sent, succeeds.leaves]
  rfl

/-- After every run, a successful reset of a settled connection restores it. -/
theorem reset_restores (cfg : Config) (g : Grammar) (foreign : Int → PreStmtInfo) (behindNullBitmap : Nat → UInt8)
    (acts : List Act) (payload : Bytes) (junk : Mem) (server : Executor)
    (request : Request.ofByte (readCommand payload junk).1 = .resetConn) :
    let c := exec (Connection.step cfg g) (.logon foreign behindNullBitmap) acts
    c.session.ended = false → ResetSucceeds g server ⟨clearUserVars, 0, c.session.adapter.foundRows, -1⟩ →
      Settled foreign behindNullBitmap c.session →
        Restored cfg g foreign behindNullBitmap (c.step cfg g (.command payload junk server)).1 := by
  intro c alive succeeds settled
  have start : (Connection.logon foreign behindNullBitmap).session.adapter.Tracked := ⟨rfl, fun _ => rfl⟩
  have tracked : c.session.adapter.Tracked := @exec_invariant _ _ _ (Connection.step cfg g)
    (fun c => c.session.adapter.Tracked) (fun _ act tracked => Connection.tracked_step tracked cfg g act) acts _ start
  rw [Connection.step_reset cfg alive request tracked settled succeeds]
  refine ⟨rfl, fun i lower upper => ?_, rfl, rfl, fun _ => rfl⟩
  exact congrArg PreStmtInfo.isValid (PreStmts.initial_inside foreign behindNullBitmap lower upper)

/-- A server that accepts everything with one tag, and leaves these variables. -/
def Executor.accepting (tag : PlainTag) (assigns : List (Bytes × Bytes)) (userVars : UserVars) (lastInsertID : Nat) :
    Executor :=
  ⟨fun _ => .accepting tag assigns, fun _ => (userVars, lastInsertID)⟩

/-- A reset behind a call that has set a variable. -/
theorem reset_restores_called : Restored .standard plainGrammar (fun _ => .initial) (fun _ => 0)
      (exec (Connection.step .standard plainGrammar) (.logon (fun _ => .initial) (fun _ => 0))
        [.command (3 :: ascii "call p") (fun _ => 0) (.accepting .call [] [(ascii "x", some (ascii "1"))] 7),
         .command [31] (fun _ => 0) (.accepting .deallocateAll [] [] 0)]) :=
  reset_restores .standard plainGrammar (fun _ => .initial) (fun _ => 0)
    [.command (3 :: ascii "call p") (fun _ => 0) (.accepting .call [] [(ascii "x", some (ascii "1"))] 7)] [31]
    (fun _ => 0) (.accepting .deallocateAll [] [] 0) rfl rfl
    ⟨rfl, by decide, ⟨_, _, _, rfl⟩, ⟨_, rfl⟩, rfl⟩ ⟨rfl, rfl, rfl, rfl, rfl, rfl, rfl⟩

/-- With autocommit off the reset leaves a transaction owed. -/
theorem reset_leaves_transaction_owed :
    ResetSucceeds plainGrammar (.accepting .deallocateAll [] [] 0) ⟨[], 0, 1, -1⟩ ∧
    ¬Restored .standard plainGrammar (fun _ => .initial) (fun _ => 0)
      (exec (Connection.step .standard plainGrammar) (.logon (fun _ => .initial) (fun _ => 0))
        [.command (3 :: ascii "set autocommit=0") (fun _ => 0)
           (.accepting .set [(ascii "autocommit", ascii "0")] [] 0),
         .command [31] (fun _ => 0) (.accepting .deallocateAll [] [] 0)]) := by
  refine ⟨⟨rfl, by decide, ⟨_, _, _, rfl⟩, ⟨_, rfl⟩, rfl⟩, fun restored => ?_⟩
  have owed : _ = Adapter.logon.needStartNewTrx := congrArg Trx.needStartNewTrx restored.trx
  cases owed

end OpenHalo
