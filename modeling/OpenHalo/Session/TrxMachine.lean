import OpenHalo.Course

namespace OpenHalo
open Octets Memory

/-- The value an assignment gives to `autocommit`, if it is one. -/
def autocommitValue (assign : Bytes × Bytes) : Option Bool :=
  if startsWith assign.1 (ascii "autocommit") then
    some (startsWith assign.2 (ascii "1") || startsWith assign.2 (ascii "on"))
  else none

/-- SET autocommit, as the four branches of `applySystemVarValue` have it. -/
def Trx.switch (x : Trx) (on : Bool) : Trx :=
  { x with
    needCommitTrx := on && !x.autoCommit
    needStartNewTrx := !on && x.autoCommit
    autoCommit := on }

/-- What the statement sets `autocommit` to, one after the other. -/
def Effects.switches (e : Effects) : List Bool := e.assigns.filterMap autocommitValue

/-- The bookkeeping of `endCommand`. -/
def Trx.complete (x : Trx) : CommandTag → Trx
  | .begin =>
    { x with
      inTransactionFlag := true, addBeforeBeforeCurSQL := false, needStartNewTrx := false
      trxNotCommit := true }
  | .commit =>
    { x with
      inTransactionFlag := false, addCommitOrRollBackBeforeCurSQL := false
      needStartNewTrx := if x.autoCommit then x.needStartNewTrx else true
      trxNotCommit := false }
  | .rollback =>
    { x with
      inTransactionFlag := false, addCommitOrRollBackBeforeCurSQL := false
      needStartNewTrx := if x.autoCommit then x.needStartNewTrx else true
      trxNotCommit := false
      needAddCommitOrRollbackAfterCurSQL := .commit }
  | .plain _ => x

/-- The bookkeeping of an error. -/
def Trx.fail (auto : Bool) (x : Trx) : Trx :=
  if auto && x.inTransactionFlag then
    { x with needStartNewTrx := true, needAddCommitOrRollbackAfterCurSQL := .rollback }
  else x

/-- SET autocommit leaves the block and its end alone. -/
theorem switches_kept (x : Trx) (switches : List Bool) :
    (switches.foldl Trx.switch x).trxNotCommit = x.trxNotCommit ∧
      (switches.foldl Trx.switch x).inTransactionFlag = x.inTransactionFlag ∧
      (switches.foldl Trx.switch x).needAddCommitOrRollbackAfterCurSQL = x.needAddCommitOrRollbackAfterCurSQL := by
  induction switches generalizing x with
  | nil => exact ⟨rfl, rfl, rfl⟩
  | cons on rest ih => exact ih (x.switch on)

theorem Trx.fail_fields (auto : Bool) (x : Trx) :
    (x.fail auto).autoCommit = x.autoCommit ∧ (x.fail auto).trxNotCommit = x.trxNotCommit ∧
      (x.fail auto).needCommitTrx = x.needCommitTrx ∧
      (x.needStartNewTrx = true → (x.fail auto).needStartNewTrx = true) := by
  unfold Trx.fail
  split
  · exact ⟨rfl, rfl, rfl, fun _ => rfl⟩
  · exact ⟨rfl, rfl, rfl, id⟩

theorem Trx.fail_inTransactionFlag (auto : Bool) (x : Trx) : (x.fail auto).inTransactionFlag = x.inTransactionFlag := by
  unfold Trx.fail
  split <;> rfl

/-- What decides on transactions: the bookkeeping and the server's block. -/
structure Frame where
  trx : Trx
  block : TBlock
deriving DecidableEq

def Session.frame (s : Session) : Frame := ⟨s.adapter.trx, s.block⟩

/-- A statement has completed. -/
def Frame.after (f : Frame) (r : StmtResult) (tag : CommandTag) : Frame :=
  ⟨(r.effects.switches.foldl Trx.switch f.trx).complete tag, r.block⟩

/-- The statements of a command, up to the first that fails. -/
def Frame.exec (auto : Bool) (outcomes : Nat → Outcome) : Nat → List RawStmt → Frame → Frame × List Event
  | _, [], f => (f, [])
  | k, stmt :: rest, f =>
    let r := f.block.runStmt stmt (outcomes k)
    match r.answer with
    | .ok (tag, _) =>
      let later := Frame.exec auto outcomes (k + 1) rest (f.after r tag)
      (later.1, r.events ++ later.2)
    | .error _ => (⟨(r.effects.switches.foldl Trx.switch f.trx).fail auto, r.block⟩, r.events)

/-- An error outside of all statements. -/
def Frame.raise (auto : Bool) (f : Frame) : Frame × List Event :=
  (⟨f.trx.fail auto, f.block.abort.1⟩, f.block.abort.2)

variable {s : Session} (cfg : Config) (a : Adapter)

theorem applySystemVarValue_trx (assign : Bytes × Bytes) :
    (applySystemVarValue a assign.1 assign.2).trx =
      ((autocommitValue assign).map a.trx.switch).getD a.trx := by
  unfold applySystemVarValue autocommitValue
  split
  · split
    · rename_i on
      rw [on]
      split <;>
      · simp_all [Trx.switch, Adapter.trx]
    · split <;> simp_all [Trx.switch, Adapter.trx]
  · rfl

theorem assignAll_trx (assigns : List (Bytes × Bytes)) :
    (assignAll a assigns).trx = (assigns.filterMap autocommitValue).foldl Trx.switch a.trx := by
  induction assigns generalizing a with
  | nil => rfl
  | cons assign assigns ih =>
    have one := applySystemVarValue_trx a assign
    have rest := ih (applySystemVarValue a assign.1 assign.2)
    rw [one] at rest
    rw [List.filterMap_cons]
    cases value : autocommitValue assign with
    | none | some =>
      rw [value] at rest
      exact rest

theorem endCommand_kept (t : PreStmts) (a : Adapter) (tag : CommandTag) (nprocessed : Nat) :
    (endCommand cfg t a tag nprocessed).1.trx = a.trx.complete tag ∧
      (endCommand cfg t a tag nprocessed).1.isIgnoreStmt = a.isIgnoreStmt := by
  cases tag with
  | begin | commit | rollback => exact ⟨rfl, rfl⟩
  | plain tag =>
    cases tag with
    | execute | select | insert | update | delete | deallocateAll | truncateTable | savepoint | release
    | startTransaction | call | other => exact ⟨rfl, rfl⟩
    | prepare | deallocate | definition =>
      simp only [endCommand, endPlain]
      split <;> exact ⟨rfl, rfl⟩
    | set =>
      simp only [endCommand, endPlain, endSet]
      split
      · exact ⟨rfl, rfl⟩
      · split <;> exact ⟨rfl, rfl⟩

/-- An error message changes the bookkeeping as `Trx.fail` says. -/
theorem sendErrorMessage_trx (edata : ErrorData) :
    (sendErrorMessage cfg a edata).1.trx = a.trx.fail cfg.halo_mysql_auto_rollback_tx_on_error := by
  unfold sendErrorMessage Trx.fail
  cases a.isIgnoreStmt <;> cases cfg.halo_mysql_auto_rollback_tx_on_error <;>
    cases flag : a.inTransactionFlag <;> simp [flag, Adapter.trx, sendErrPacket]

theorem executed_trx (s : Session) (more : Bool) (r : StmtResult) :
    (s.executed more r).adapter.trx = r.effects.switches.foldl Trx.switch s.adapter.trx :=
  assignAll_trx { s.adapter with moreResultsFlag := more } r.effects.assigns

theorem endCommand_frame (cfg : Config) (s : Session) (more : Bool) (r : StmtResult) (tag : CommandTag)
    (nprocessed : Nat) :
    Session.frame { s.executed more r with
      adapter := (endCommand cfg (s.executed more r).stmts (s.executed more r).adapter tag nprocessed).1 } =
        s.frame.after r tag := by
  simp only [Session.frame, endCommand_kept, executed_trx]
  rfl

/-- On frames the loop over the statements is `Frame.exec`. -/
theorem execStmts_frame (outcomes : Nat → Outcome) (k : Nat) (stmts : List RawStmt) (s : Session) :
    ((execStmts cfg outcomes k stmts s).1.frame, (execStmts cfg outcomes k stmts s).2.events) =
      Frame.exec cfg.halo_mysql_auto_rollback_tx_on_error outcomes k stmts s.frame := by
  induction stmts generalizing k s with
  | nil => rfl
  | cons stmt rest ih =>
    generalize ran : s.block.runStmt stmt (outcomes k) = r
    cases answered : r.answer with
    | ok completion =>
      have later := ih (k + 1) { s.executed (!rest.isEmpty) r with
        adapter := (endCommand cfg (s.executed (!rest.isEmpty) r).stmts (s.executed (!rest.isEmpty) r).adapter
          completion.1 completion.2).1 }
      rw [endCommand_frame] at later
      rw [execStmts_ok ran answered, Frame.exec]
      simp only [Session.frame] at later ⊢
      simp only [ran, answered]
      rw [← later]
    | error edata =>
      rw [execStmts_error ran answered, Frame.exec]
      simp only [Session.frame, sendErrorMessage_trx, executed_trx, ran, answered]
      rfl

/-- The frame behind a command, whether the session is over, and the events. -/
structure FrameTurn where
  frame : Frame
  ended : Bool
  events : List Event

def FrameTurn.of (ended : Bool) (r : Frame × List Event) : FrameTurn := ⟨r.1, ended, r.2⟩

/-- The command on its course, as far as frames tell. -/
def Frame.turn (auto : Bool) (g : Grammar) (oracle : Oracle) (f : Frame) : Course → FrameTurn
  | .answered => ⟨f, false, []⟩
  | .granted => ⟨⟨f.trx.forward, f.block⟩, false, []⟩
  | .raised => .of false (f.raise auto)
  | .finished => ⟨⟨f.trx, .idle⟩, true, if f.block = .idle then [.ended] else [.rolledBack, .ended]⟩
  | .query route text =>
    match oracle.conversion, (g.rawParse text).2 with
    | none, some client =>
      .of false (Frame.exec auto oracle.outcomes 0 (route.added f.trx ++ client) ⟨route.trx f.trx, f.block⟩)
    | _, _ => .of false (Frame.raise auto ⟨route.trx f.trx, f.block⟩)

def turned (r : Session × Output) : FrameTurn := ⟨r.1.frame, r.1.ended, r.2.events⟩

theorem raise_turned (packets : List Packet) (edata : ErrorData) (alive : s.ended = false) :
    turned (s.raise cfg packets edata) = .of false (s.frame.raise cfg.halo_mysql_auto_rollback_tx_on_error) := by
  have frame : (s.raise cfg packets edata).1.frame =
      (Frame.raise cfg.halo_mysql_auto_rollback_tx_on_error s.frame).1 := by
    simp only [Session.raise, Session.frame, Frame.raise, sendErrorMessage_trx]
  have going : (s.raise cfg packets edata).1.ended = false := alive
  simp only [turned, frame, going]
  rfl

theorem execParsed_turned (oracle : Oracle) (stmts : List RawStmt) (alive : s.ended = false) :
    turned (execParsed cfg oracle s (some stmts)) =
      .of false (Frame.exec cfg.halo_mysql_auto_rollback_tx_on_error oracle.outcomes 0 stmts s.frame) := by
  cases stmts with
  | nil => simp only [turned, execParsed, Frame.exec, FrameTurn.of, alive]
  | cons stmt rest =>
    have frame := execStmts_frame cfg oracle.outcomes 0 (stmt :: rest) s
    have ended := execStmts_ended cfg oracle.outcomes 0 (stmt :: rest) s
    rw [execParsed, ← frame]
    simp only [turned, FrameTurn.of, ended, alive]
    simp

theorem exec_simple_query_turned (g : Grammar) (oracle : Oracle) {added : List RawStmt} {text full : Bytes}
    (parsed : Parsed g added text full) (alive : s.ended = false) :
    turned (exec_simple_query cfg g oracle s full) =
      match oracle.conversion, (g.rawParse text).2 with
      | none, some client =>
        .of false (Frame.exec cfg.halo_mysql_auto_rollback_tx_on_error oracle.outcomes 0 (added ++ client) s.frame)
      | _, _ => .of false (Frame.raise cfg.halo_mysql_auto_rollback_tx_on_error s.frame) := by
  unfold exec_simple_query
  cases oracle.conversion with
  | some edata => exact raise_turned cfg [] edata alive
  | none =>
    rw [parsed]
    cases (g.rawParse text).2 with
    | none => exact raise_turned cfg [] oracle.parseError alive
    | some client => exact execParsed_turned cfg oracle (added ++ client) alive

/-- The course of a command in this session. -/
def Input.course (cfg : Config) (s : Session) (payload : Bytes) (junk : Mem) : Course :=
  OpenHalo.course cfg s.stmts (readCommand payload junk).1 (readCommand payload junk).2

/-- A command is dispatched as its course says. -/
theorem step_handed (g : Grammar) (alive : s.ended = false) (payload : Bytes) (junk : Mem) (oracle : Oracle) :
    ∃ d, processCommand cfg s.adapter s.stmts (readCommand payload junk).1 (readCommand payload junk).2 = d ∧
      step cfg g s (.command payload junk oracle) = s.dispatch cfg g oracle d ∧
      Handed g s.adapter.trx (Input.course cfg s payload junk) d := by
  refine ⟨_, rfl, ?_, processCommand_handed cfg g s.adapter s.stmts _ _ rfl⟩
  rw [step, if_neg (by simp [alive])]

/-- On frames a command is a turn on its course: the refinement. -/
theorem step_turned (g : Grammar) (alive : s.ended = false) (payload : Bytes) (junk : Mem) (oracle : Oracle) :
    turned (step cfg g s (.command payload junk oracle)) =
      s.frame.turn cfg.halo_mysql_auto_rollback_tx_on_error g oracle (Input.course cfg s payload junk) := by
  obtain ⟨d, _, turn, handed⟩ := step_handed cfg g alive payload junk oracle
  rw [turn]
  generalize Input.course cfg s payload junk = c at handed
  cases handed with
  | answered same | granted same =>
    simp only [turned, Session.dispatch, Frame.turn, Session.frame, same, alive]
  | @raised b t packets edata same =>
    have going : Session.ended { s with adapter := b, stmts := t } = false := alive
    show turned (Session.raise cfg { s with adapter := b, stmts := t } packets edata) = _
    rw [raise_turned cfg packets edata going]
    simp only [Frame.turn, Session.frame, same]
  | @quit b same =>
    have kept : Session.frame { s with adapter := b, block := .idle, ended := true } = ⟨s.frame.trx, .idle⟩ := by
      simp [Session.frame, same]
    simp only [turned, Session.dispatch, Session.finish, kept]
    rfl
  | crashed => rfl
  | @query b t inBuf route text trx parsed =>
    have going : Session.ended { s with adapter := b, stmts := t } = false := alive
    show turned (exec_simple_query cfg g oracle { s with adapter := b, stmts := t } inBuf.stmt) = _
    rw [exec_simple_query_turned cfg g oracle parsed going]
    simp only [Frame.turn, Session.frame, trx]

end OpenHalo
