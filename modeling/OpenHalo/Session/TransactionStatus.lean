import OpenHalo.Session.StatementTable
import OpenHalo.Session.TrxMachine

namespace OpenHalo
open Octets Memory Machine List

def TBlock.isOpen (b : TBlock) : Bool := b != .idle

structure Truthful (f : Frame) : Prop where
  flag : f.trx.inTransactionFlag = f.block.isOpen
  tracked : f.trx.trxNotCommit = f.block.isOpen

/-- Statements that complete without telling what becomes of the block: START TRANSACTION, AND CHAIN,
ROLLBACK TO, PREPARE TRANSACTION, and the end of a block that fails. -/
def misleads (b : TBlock) : RawStmt → Outcome → Bool
  | .start, .ok _ _ _ => b == .idle
  | .commit chain, .ok _ _ _ | .rollback chain, .ok _ _ _ => chain && b.isOpen
  | .rollbackTo, .ok _ _ _ => b.isOpen
  | .prepareTransaction, .ok _ _ _ => b == .inProgress
  | .commit _, .error _ _ | .rollback _, .error _ _ | .prepareTransaction, .error _ _ => b.isOpen
  | _, _ => false

def HonestStmts (outcomes : Nat → Outcome) : Nat → List RawStmt → TBlock → Prop
  | _, [], _ => True
  | k, stmt :: rest, b =>
    misleads b stmt (outcomes k) = false ∧ ∀ completion, (b.runStmt stmt (outcomes k)).answer = .ok completion →
      HonestStmts outcomes (k + 1) rest (b.runStmt stmt (outcomes k)).block

def HonestCourse (g : Grammar) (oracle : Oracle) (f : Frame) : Course → Prop
  | .query route text =>
    oracle.conversion = none → ∀ client, (g.rawParse text).2 = some client →
      HonestStmts oracle.outcomes 0 (route.added f.trx ++ client) f.block
  | .answered | .granted | .raised | .finished => True

def Honest (cfg : Config) (g : Grammar) (s : Session) : Input → Prop
  | .disconnect => True
  | .command payload junk oracle => HonestCourse g oracle s.frame (Input.course cfg s payload junk)

def CommandTag.leaves (b : TBlock) : CommandTag → Bool
  | .begin => true
  | .commit | .rollback => false
  | .plain _ => b.isOpen

variable {outcome : Outcome} {stmt : RawStmt} {f : Frame} {s : Session} {oracle : Oracle} {g : Grammar}
  (flag : Bool) (cfg : Config) (a : Adapter) (t : PreStmts)

theorem runStmt_leaves {b : TBlock} {tag : CommandTag} {nprocessed : Nat} (honest : misleads b stmt outcome = false)
    (answered : (b.runStmt stmt outcome).answer = .ok (tag, nprocessed)) :
    (b.runStmt stmt outcome).block.isOpen = tag.leaves b := by
  cases stmt with
  | commit chain | rollback chain =>
    cases chain <;> cases b <;> cases outcome <;> cases answered <;> first | rfl | cases honest
  | begin | start | rollbackTo | savepoint | release | prepareTransaction | plain =>
    cases b <;> cases outcome <;> cases answered <;> first | rfl | cases honest

theorem runStmt_failed {b : TBlock} {edata : ErrorData} (honest : misleads b stmt outcome = false)
    (failed : (b.runStmt stmt outcome).answer = .error edata) : (b.runStmt stmt outcome).block = b.abort.1 := by
  cases stmt with
  | commit chain | rollback chain =>
    cases chain <;> cases b <;> cases outcome <;> cases failed <;> first | rfl | cases honest
  | begin | start | rollbackTo | savepoint | release | prepareTransaction | plain =>
    cases b <;> cases outcome <;> cases failed <;> first | rfl | cases honest

theorem TBlock.abort_isOpen (b : TBlock) : b.abort.1.isOpen = b.isOpen := by
  cases b <;> rfl

/-- What honest statements, errors and the ways to the server keep. -/
structure Kept (auto : Bool) (inv : Frame → Prop) : Prop where
  after : ∀ {f : Frame} {stmt : RawStmt} {outcome : Outcome} {tag : CommandTag} {nprocessed : Nat},
    inv f → misleads f.block stmt outcome = false → (f.block.runStmt stmt outcome).answer = .ok (tag, nprocessed) →
      inv (f.after (f.block.runStmt stmt outcome) tag)
  abort : ∀ {f : Frame} (switches : List Bool),
    inv f → inv ⟨(switches.foldl Trx.switch f.trx).fail auto, f.block.abort.1⟩
  route : ∀ {f : Frame} (route : Route), inv f → inv ⟨route.trx f.trx, f.block⟩

section kept
variable {auto : Bool} {inv : Frame → Prop} (kept : Kept auto inv)
include kept

theorem Kept.exec {outcomes : Nat → Outcome} {stmts : List RawStmt} {k : Nat} (holds : inv f)
    (honest : HonestStmts outcomes k stmts f.block) : inv (Frame.exec auto outcomes k stmts f).1 := by
  induction stmts generalizing k f with
  | nil => exact holds
  | cons stmt rest ih =>
    obtain ⟨first, later⟩ := honest
    unfold Frame.exec
    dsimp only
    split
    · rename_i tag nprocessed answered
      exact ih (kept.after holds first answered) (later _ answered)
    · rename_i failed
      rw [runStmt_failed first failed]
      exact kept.abort _ holds

theorem Kept.turn (holds : inv f) {c : Course}
    (honest : HonestCourse g oracle f c) (going : (f.turn auto g oracle c).ended = false) :
    inv (f.turn auto g oracle c).frame := by
  cases c with
  | answered => exact holds
  | granted => exact kept.route .forwarded holds
  | raised => exact kept.abort [] holds
  | finished => cases going
  | query route text =>
    have routed := kept.route route holds
    dsimp only [Frame.turn]
    split
    · rename_i client converts list
      exact kept.exec routed (honest converts client list)
    · exact kept.abort [] routed

theorem Kept.step {cfg : Config} (configured : cfg.halo_mysql_auto_rollback_tx_on_error = auto)
    {payload : Bytes} {junk : Mem} (alive : s.ended = false) (holds : inv s.frame)
    (honest : HonestCourse g oracle s.frame (Input.course cfg s payload junk))
    (going : (OpenHalo.step cfg g s (.command payload junk oracle)).1.ended = false) :
    inv (OpenHalo.step cfg g s (.command payload junk oracle)).1.frame := by
  have turn := step_turned cfg g alive payload junk oracle
  obtain ⟨frame, ended, _⟩ := FrameTurn.mk.inj turn
  rw [frame, configured]
  rw [configured] at ended
  exact kept.turn holds honest (ended ▸ going)

end kept

theorem Truthful.after {tag : CommandTag} {nprocessed : Nat} (truthful : Truthful f)
    (honest : misleads f.block stmt outcome = false)
    (answered : (f.block.runStmt stmt outcome).answer = .ok (tag, nprocessed)) :
    Truthful (f.after (f.block.runStmt stmt outcome) tag) := by
  have leaves := runStmt_leaves honest answered
  obtain ⟨open', flag, _⟩ := switches_kept f.trx (f.block.runStmt stmt outcome).effects.switches
  cases tag with
  | begin | commit | rollback => exact ⟨leaves.symm, leaves.symm⟩
  | plain tag => exact ⟨(flag.trans truthful.flag).trans leaves.symm, (open'.trans truthful.tracked).trans leaves.symm⟩

theorem Truthful.abort (truthful : Truthful f) (auto : Bool) (switches : List Bool) :
    Truthful ⟨(switches.foldl Trx.switch f.trx).fail auto, f.block.abort.1⟩ := by
  refine ⟨?_, ?_⟩
  · rw [Trx.fail_inTransactionFlag, (switches_kept f.trx switches).2.1, TBlock.abort_isOpen]
    exact truthful.flag
  · rw [(Trx.fail_fields auto _).2.1, (switches_kept f.trx switches).1, TBlock.abort_isOpen]
    exact truthful.tracked

theorem Route.trx_flags (route : Route) (x : Trx) :
    (route.trx x).inTransactionFlag = x.inTransactionFlag ∧ (route.trx x).trxNotCommit = x.trxNotCommit := by
  cases route <;> exact ⟨rfl, rfl⟩

theorem Truthful.route (truthful : Truthful f) (route : Route) : Truthful ⟨route.trx f.trx, f.block⟩ := by
  obtain ⟨flag, tracked⟩ := route.trx_flags f.trx
  exact ⟨flag.trans truthful.flag, tracked.trans truthful.tracked⟩

theorem truthful_kept (auto : Bool) : Kept auto Truthful where
  after truthful honest answered := truthful.after honest answered
  abort switches truthful := truthful.abort auto switches
  route route truthful := truthful.route route

def Packet.status? : Packet → Option Status
  | .ok status _ | .eof status => some status
  | .err _ _ _ | .prepareOk _ _ _ | .data => none

def Told (inTransaction : Bool) (packets : List Packet) : Prop :=
  ∀ packet ∈ packets, ∀ status, packet.status? = some status → status.inTransaction = inTransaction

theorem told_nil : Told flag [] := nofun

theorem Told.cons {flag : Bool} {packet : Packet} {packets : List Packet}
    (first : ∀ status, packet.status? = some status → status.inTransaction = flag)
    (rest : Told flag packets) : Told flag (packet :: packets) :=
  forall_mem_cons.mpr ⟨first, rest⟩

theorem Told.append {flag : Bool} {front back : List Packet} (first : Told flag front) (second : Told flag back) :
    Told flag (front ++ back) :=
  forall_mem_append.mpr ⟨first, second⟩

theorem told_rows (rows : Nat) : Told flag (List.replicate rows .data) := by
  intro packet member
  rw [eq_of_mem_replicate member]
  nofun

theorem told_ok : Told a.inTransactionFlag [sendOKPacket a] := by
  refine .cons (fun status same => ?_) (told_nil _)
  cases same
  rfl

theorem told_eof : Told a.inTransactionFlag [sendEOFPacketFlush a] := by
  refine .cons (fun status same => ?_) (told_nil _)
  cases same
  rfl

theorem told_err (errCode : Nat) (errMsg sqlState : Bytes) : Told flag [.err errCode errMsg sqlState] :=
  .cons nofun (told_nil _)

theorem told_eofNoFlush : Told flag (sendEOFPacketNoFlush cfg) := by
  unfold sendEOFPacketNoFlush
  split
  · exact told_nil flag
  · exact told_rows flag 1

theorem told_endExtendPreStmt : Told flag (endExtendPreStmt cfg t) := by
  have definitions : ∀ n : Nat, Told flag
      (if 0 < n ∧ !cfg.optionalMetadata then List.replicate n .data ++ sendEOFPacketNoFlush cfg else []) := by
    intro n
    split
    · exact (told_rows flag n).append (told_eofNoFlush flag cfg)
    · exact told_nil flag
  exact .cons nofun ((definitions _).append (definitions _))

theorem endCommand_told (a : Adapter) (tag : CommandTag) (nprocessed : Nat) :
    Told (endCommand cfg t a tag nprocessed).1.inTransactionFlag (endCommand cfg t a tag nprocessed).2 := by
  cases tag with
  | begin =>
    simp only [endCommand, endBegin]
    split
    · exact told_nil _
    · exact told_ok { a with inTransactionFlag := true }
  | commit =>
    simp only [endCommand, endCommit]
    split
    · exact told_nil _
    · exact told_ok { a with inTransactionFlag := false, affectedRows := nprocessed }
  | rollback =>
    simp only [endCommand, endRollback]
    split
    · exact told_nil _
    · exact told_ok { a with inTransactionFlag := false }
  | plain tag =>
    cases tag with
    | execute | other => exact told_eof a
    | select => exact told_eof { a with foundRows := nprocessed, affectedRows := -1 }
    | insert | update | delete => exact told_ok { a with foundRows := 1, affectedRows := nprocessed }
    | truncateTable | savepoint | release | startTransaction => exact told_ok { a with affectedRows := nprocessed }
    | call => exact told_ok a
    | deallocateAll => exact told_ok { a with isResetConnStmt := false }
    | prepare =>
      simp only [endCommand, endPlain]
      split
      · exact told_endExtendPreStmt _ cfg t
      · exact told_ok a
    | deallocate | definition =>
      simp only [endCommand, endPlain]
      split
      · exact told_nil _
      · exact told_ok { a with affectedRows := nprocessed }
    | set =>
      simp only [endCommand, endPlain, endSet]
      split
      · exact told_ok { a with sessionStateChanged := false, affectedRows := nprocessed }
      · split <;> exact told_ok _

theorem sendErrorMessage_told (edata : ErrorData) : Told a.inTransactionFlag (sendErrorMessage cfg a edata).2 := by
  obtain ⟨_, _, _, packet, same, sent⟩ := sendErrorMessage_spec cfg a edata
  rw [same]
  split at sent <;> cases sent
  · exact told_ok { a with affectedRows := -1 }
  · exact told_err _ _ _ _

def Dispatch.packets : Dispatch → List Packet
  | .answered _ _ packets | .raised _ _ packets _ => packets
  | .query _ _ _ | .quit _ | .crashed => []

theorem told_forward (inBuf : StringInfo) : Told flag (forward a t inBuf).packets := by
  unfold forward
  split <;> exact told_nil flag

theorem told_simulated (columns : Nat) (stmt : Bytes) :
    Told a.inTransactionFlag (simulated a t stmt (simulateTableList cfg a columns stmt)).packets := by
  have header := (told_rows a.inTransactionFlag columns).append (told_eofNoFlush _ cfg)
  unfold simulateTableList
  cases tableListRows cfg.database_name stmt with
  | refused => exact header
  | overflow => exact told_nil _
  | rows tableNum => exact (header.append (told_rows _ tableNum)).append (told_eof a)

theorem told_processQuery (origLen : Int) (inBuf : StringInfo) :
    Told a.inTransactionFlag (processQuery cfg a t origLen inBuf).packets := by
  have grants : Told a.inTransactionFlag (simulateShowGrants cfg a) :=
    (((told_rows _ 2).append (told_eofNoFlush _ cfg)).append (told_rows _ 1)).append (told_eof a)
  unfold processQuery
  cases queryWord inBuf with
  | manipulate | other => exact told_forward _ _ _ _
  | begin | finish | set => exact told_nil _
  | use =>
    dsimp only
    split
    · exact told_nil _
    split
    · exact told_nil _
    · exact told_err _ _ _ _
  | showGrants =>
    dsimp only
    split <;> exact grants
  | showWarnings =>
    refine (((told_rows _ 4).append (told_eofNoFlush _ cfg)).append ?_).append (told_eof a)
    split
    · exact told_rows _ 1
    · exact told_nil _
  | alterDatabase => exact told_err _ _ _ _
  | semicolon =>
    dsimp only
    split
    · split
      · exact told_ok a
      · exact told_err _ _ _ _
    · exact told_err _ _ _ _
  | checksum => exact told_simulated cfg a t 3 _
  | maintain => exact told_simulated cfg a t 5 _
  | acknowledge => exact told_ok a

theorem told_processRewritten (a done : Adapter) (t : PreStmts) (r : Rewritten) :
    Told flag (processRewritten a done t r).packets := by
  cases r with
  | done t' next => exact told_forward flag _ _ _
  | refused | raised => exact told_nil flag

theorem told_processCommand (firstChar : UInt8) (inBuf : StringInfo) :
    Told a.inTransactionFlag (processCommand cfg a t firstChar inBuf).packets := by
  unfold processCommand
  cases Request.ofByte firstChar with
  | execute | close => exact told_processRewritten _ _ _ _ _
  | query =>
    dsimp only [processComQuery]
    cases rectifyCommand cfg.halo_mysql_version inBuf with
    | refused | raised => exact told_nil _
    | accepted next skip =>
      dsimp only
      split
      · unfold emptyQuery
        split
        · exact told_ok { startCommand a with skipUtf8Verify := skip }
        · exact told_err _ _ _ _
      · exact told_processQuery cfg { startCommand a with skipUtf8Verify := skip } t _ _
  | prepare =>
    dsimp only [processComPrepare]
    cases rectifyCommand cfg.halo_mysql_version inBuf with
    | refused | raised => exact told_nil _
    | accepted next skip =>
      dsimp only
      cases rewriteExtendPreStmt t next with
      | prepare t' text => exact told_forward _ _ _ _
      | «local» t' => exact told_endExtendPreStmt _ cfg t'
      | unsupported => exact told_err _ _ _ _
      | refused t' data => exact told_nil _
  | useDatabase =>
    dsimp only [processUseDatabase]
    split
    · exact told_forward _ _ _ _
    · exact told_err _ _ _ _
  | fieldList => exact told_eof (startCommand a)
  | sleep | ping | reset => exact told_ok (startCommand a)
  | quit | resetConn => exact told_nil _
  | unsupported => exact told_err _ _ _ _

/-- The block behind statement `j` of a list that starts with number `k`. -/
def blockAfter (outcomes : Nat → Outcome) : Nat → List RawStmt → TBlock → Nat → TBlock
  | _, [], b, _ => b
  | k, stmt :: rest, b, j =>
    if j ≤ k then (b.runStmt stmt (outcomes k)).block
    else blockAfter outcomes (k + 1) rest (b.runStmt stmt (outcomes k)).block j

theorem execStmts_told {outcomes : Nat → Outcome} {k : Nat} {stmts : List RawStmt} (truthful : Truthful s.frame)
    (honest : HonestStmts outcomes k stmts s.block) :
    ∀ sent ∈ (execStmts cfg outcomes k stmts s).2.sent, ∀ status, sent.packet.status? = some status →
      ∃ j, sent.origin = some j ∧ k ≤ j ∧ status.inTransaction = (blockAfter outcomes k stmts s.block j).isOpen := by
  induction stmts generalizing k s with
  | nil => nofun
  | cons stmt rest ih =>
    obtain ⟨first, later⟩ := honest
    have after {tag n} (done : (s.block.runStmt stmt (outcomes k)).answer = .ok (tag, n)) :
      Truthful (s.frame.after (s.block.runStmt stmt (outcomes k)) tag) := truthful.after (f := s.frame) first done
    have failed {edata} (failed : (s.block.runStmt stmt (outcomes k)).answer = .error edata) :=
      runStmt_failed first failed
    generalize ran : s.block.runStmt stmt (outcomes k) = r at after failed later
    have here : ∀ packets : List Packet, Told r.block.isOpen packets → ∀ sent ∈ byStmt k packets, ∀ status,
        sent.packet.status? = some status → ∃ j, sent.origin = some j ∧ k ≤ j ∧
          status.inTransaction = (blockAfter outcomes k (stmt :: rest) s.block j).isOpen := by
      intro packets told sent member status same
      obtain ⟨packet, listed, rfl⟩ := mem_map.mp member
      refine ⟨k, rfl, Nat.le_refl k, ?_⟩
      rw [blockAfter, if_pos (Nat.le_refl k), ran]
      exact told packet listed status same
    cases answered : r.answer with
    | ok completion =>
      have kept := after answered
      rw [← endCommand_frame cfg s (!rest.isEmpty) r completion.1 completion.2] at kept
      have told :=
        endCommand_told cfg (s.executed (!rest.isEmpty) r).stmts (s.executed (!rest.isEmpty) r).adapter completion.1
        completion.2
      rw [show (endCommand cfg _ _ completion.1 completion.2).1.inTransactionFlag =
        r.block.isOpen from kept.flag] at told
      rw [execStmts_ok ran answered]
      intro sent member status same
      rcases mem_append.mp member with now | behind
      · exact here _ ((told_rows _ _).append told) sent now status same
      obtain ⟨j, origin, beyond, open'⟩ := ih kept (later _ answered) sent behind status same
      refine ⟨j, origin, by omega, ?_⟩
      rw [blockAfter, if_neg (by omega), ran]
      exact open'
    | error edata =>
      have told := sendErrorMessage_told cfg (s.executed (!rest.isEmpty) r).adapter edata
      have trx := congrArg Trx.inTransactionFlag (executed_trx s (!rest.isEmpty) r)
      have block : r.block.isOpen = s.block.isOpen := by rw [failed answered, TBlock.abort_isOpen]
      rw [(switches_kept _ _).2.1] at trx
      rw [show (s.executed (!rest.isEmpty) r).adapter.inTransactionFlag =
        _ from (trx.trans truthful.flag).trans block.symm] at told
      rw [execStmts_error ran answered]
      exact here _ ((told_rows _ _).append told)

def Fits : TBlock → List RawStmt → Prop
  | _, [] => True
  | b, stmt :: rest =>
    (stmt = .begin → b.isOpen = false) ∧ (stmt = .commit false → b.isOpen = true) ∧
      Fits (if stmt = .begin then .inProgress else .idle) rest

theorem Truthful.fits (truthful : Truthful f) (route : Route) : Fits f.block (route.added f.trx) := by
  have tracked := truthful.tracked
  cases route with
  | direct | reset => trivial
  | begun =>
    simp only [Route.added, Trx.previousEnd]
    cases opened : f.trx.trxNotCommit with
    | false => trivial
    | true =>
      rw [opened] at tracked
      cases f.trx.needAddCommitOrRollbackAfterCurSQL with
      | commit => exact ⟨nofun, fun _ => tracked.symm, trivial⟩
      | rollback => exact ⟨nofun, nofun, trivial⟩
  | forwarded =>
    simp only [Route.added, Trx.additional]
    cases f.trx.needAddCommitOrRollbackAfterCurSQL with
    | rollback => exact ⟨nofun, nofun, fun _ => rfl, nofun, trivial⟩
    | commit =>
      cases opened : f.trx.trxNotCommit with
      | false =>
        rw [opened] at tracked
        simp only [Bool.and_false]
        split
        · exact ⟨fun _ => tracked.symm, nofun, trivial⟩
        · trivial
      | true =>
        rw [opened] at tracked
        simp only [Bool.not_true, Bool.and_false, Bool.false_eq_true, if_false]
        split
        · exact ⟨nofun, fun _ => tracked.symm, trivial⟩
        · trivial

def blockAt (cfg : Config) (g : Grammar) (s : Session) (payload : Bytes) (junk : Mem) (oracle : Oracle) :
    Option Nat → TBlock
  | none => s.block
  | some j =>
    match Input.course cfg s payload junk with
    | .query route text =>
      blockAfter oracle.outcomes 0 (route.added s.adapter.trx ++ ((g.rawParse text).2.getD [])) s.block j
    | .answered | .granted | .raised | .finished => s.block

/-- After the command the adapter knows the block, every packet told it, and what was put in front
fitted it. -/
structure TruthfulTurn (cfg : Config) (g : Grammar) (s : Session) (payload : Bytes) (junk : Mem) (oracle : Oracle) :
    Prop where
  frame : (step cfg g s (.command payload junk oracle)).1.ended = false →
    Truthful (step cfg g s (.command payload junk oracle)).1.frame
  told : ∀ sent ∈ (step cfg g s (.command payload junk oracle)).2.sent, ∀ status, sent.packet.status? = some status →
    status.inTransaction = (blockAt cfg g s payload junk oracle sent.origin).isOpen
  fits : ∀ route text, Input.course cfg s payload junk = .query route text → Fits s.block (route.added s.adapter.trx)

def TruthfulStep (cfg : Config) (g : Grammar) (s : Session) : Input → Prop
  | .disconnect => True
  | .command payload junk oracle => s.ended = false → TruthfulTurn cfg g s payload junk oracle

theorem byAdapter_told {flag : Bool} {packets : List Packet} (told : Told flag packets) :
    ∀ sent ∈ byAdapter packets, ∀ status, sent.packet.status? = some status →
      sent.origin = none ∧ status.inTransaction = flag := by
  intro sent member status same
  obtain ⟨packet, listed, rfl⟩ := mem_map.mp member
  exact ⟨rfl, told packet listed status same⟩

theorem raise_told {packets : List Packet} (edata : ErrorData) (told : Told s.adapter.inTransactionFlag packets) :
    ∀ sent ∈ (s.raise cfg packets edata).2.sent, ∀ status, sent.packet.status? = some status →
      sent.origin = none ∧ status.inTransaction = s.adapter.inTransactionFlag :=
  byAdapter_told (told.append (sendErrorMessage_told cfg s.adapter edata))

theorem exec_simple_query_told (g : Grammar) {added : List RawStmt} {text full : Bytes}
    (parsed : Parsed g added text full) (truthful : Truthful s.frame)
    (honest : oracle.conversion = none → ∀ client, (g.rawParse text).2 = some client →
      HonestStmts oracle.outcomes 0 (added ++ client) s.block) :
    ∀ sent ∈ (exec_simple_query cfg g oracle s full).2.sent, ∀ status, sent.packet.status? = some status →
      (sent.origin = none ∧ status.inTransaction = s.block.isOpen) ∨
        ∃ j, sent.origin = some j ∧ status.inTransaction =
          (blockAfter oracle.outcomes 0 (added ++ ((g.rawParse text).2.getD [])) s.block j).isOpen := by
  have flag : s.adapter.inTransactionFlag = s.block.isOpen := truthful.flag
  intro sent member status same
  unfold exec_simple_query at member
  cases converts : oracle.conversion with
  | some edata =>
    rw [converts] at member
    have told := raise_told cfg edata (told_nil s.adapter.inTransactionFlag) sent member status same
    rw [flag] at told
    exact .inl told
  | none =>
    rw [converts, parsed] at member
    cases list : (g.rawParse text).2 with
    | none =>
      rw [list] at member
      have told :=
        raise_told cfg oracle.parseError (told_nil (s.ignoring (g.rawParse text).1).adapter.inTransactionFlag)
        sent member status same
      rw [show (s.ignoring (g.rawParse text).1).adapter.inTransactionFlag = s.block.isOpen from flag] at told
      exact .inl told
    | some client =>
      rw [list] at member
      dsimp only [Option.map_some] at member
      cases all : added ++ client with
      | nil =>
        rw [all] at member
        have told := byAdapter_told (told_ok (s.ignoring (g.rawParse text).1).adapter) sent member status same
        rw [show (s.ignoring (g.rawParse text).1).adapter.inTransactionFlag = s.block.isOpen from flag] at told
        exact .inl told
      | cons stmt rest =>
        rw [all] at member
        have steady := honest converts client list
        rw [all] at steady
        obtain ⟨j, origin, _, told⟩ := execStmts_told (s := s.ignoring (g.rawParse text).1) cfg
          { truthful with } steady sent member status same
        rw [Option.getD_some, all]
        exact .inr ⟨j, origin, told⟩

theorem step_told {cfg : Config} {payload : Bytes} {junk : Mem} (alive : s.ended = false) (truthful : Truthful s.frame)
    (honest : HonestCourse g oracle s.frame (Input.course cfg s payload junk)) :
    ∀ sent ∈ (step cfg g s (.command payload junk oracle)).2.sent, ∀ status, sent.packet.status? = some status →
      status.inTransaction = (blockAt cfg g s payload junk oracle sent.origin).isOpen := by
  obtain ⟨d, processed, turn, handed⟩ := step_handed cfg g alive payload junk oracle
  have packets := told_processCommand cfg s.adapter s.stmts (readCommand payload junk).1 (readCommand payload junk).2
  have flag : s.adapter.inTransactionFlag = s.block.isOpen := truthful.flag
  intro sent member status same
  have own : sent.origin = none ∧ status.inTransaction = s.adapter.inTransactionFlag →
      status.inTransaction = (blockAt cfg g s payload junk oracle sent.origin).isOpen := by
    rintro ⟨origin, told⟩
    rw [origin, told, flag]
    rfl
  rw [turn] at member
  rw [processed] at packets
  generalize taken : Input.course cfg s payload junk = c at handed honest
  cases handed with
  | answered unchanged | granted unchanged => exact own (byAdapter_told packets sent member status same)
  | @raised b t packets' edata unchanged =>
    have here : b.inTransactionFlag = s.adapter.inTransactionFlag := congrArg Trx.inTransactionFlag unchanged
    rw [← here] at packets own
    exact own (raise_told (s := { s with adapter := b, stmts := t }) cfg edata packets sent member status same)
  | quit | crashed => cases member
  | @query b t inBuf route text trx parsed =>
    have routed := truthful.route route
    have start : Session.frame { s with adapter := b, stmts := t } = ⟨route.trx s.frame.trx, s.frame.block⟩ := by
      simp [Session.frame, trx]
    rw [← start] at routed
    rcases exec_simple_query_told (s := { s with adapter := b, stmts := t }) cfg g parsed routed honest sent member
      status same with ⟨origin, told⟩ | ⟨j, origin, told⟩
    · exact own ⟨origin, told.trans flag.symm⟩
    · rw [origin, told]
      simp only [blockAt, taken]

theorem step_truthful {cfg : Config} {payload : Bytes} {junk : Mem} (alive : s.ended = false)
    (truthful : Truthful s.frame)
    (honest : HonestCourse g oracle s.frame (Input.course cfg s payload junk)) : TruthfulTurn cfg g s payload junk
    oracle := by
  refine ⟨fun going => ?_, step_told alive truthful honest, fun route text _ => truthful.fits route⟩
  exact (truthful_kept _).step rfl alive truthful honest going

theorem along_of_commands {cfg : Config} {good proper : Session → Input → Prop} {inv : Session → Prop}
    (command : ∀ {s : Session} {payload : Bytes} {junk : Mem} {oracle : Oracle}, s.ended = false → inv s →
      good s (.command payload junk oracle) → proper s (.command payload junk oracle) ∧
        ((step cfg g s (.command payload junk oracle)).1.ended = false →
          inv (step cfg g s (.command payload junk oracle)).1))
    (rest : ∀ s input, s.ended = true ∨ input = .disconnect → proper s input) {inputs : List Input}
    (run : Along (step cfg g) good s inputs) (start : inv s) : Along (step cfg g) proper s inputs := by
  refine Along.of_invariant (fun s input (holds : s.ended = false → inv s) fine => ?_) run (fun _ => start)
  rcases Bool.eq_false_or_eq_true s.ended with finished | alive
  · have same : (step cfg g s input).1 = s := by simp only [step, finished, if_true]
    rw [same]
    exact ⟨rest s input (.inl finished), holds⟩
  · cases input with
    | disconnect =>
      refine ⟨rest s .disconnect (.inr rfl), fun going => ?_⟩
      simp only [step, alive] at going
      cases going
    | command payload junk oracle => exact command alive (holds alive) fine

/-- In every run of honest statements the transaction status is truthful. -/
theorem status_truthful (cfg : Config) (g : Grammar) (foreign : Int → PreStmtInfo) (behindNullBitmap : Nat → UInt8)
    (inputs : List Input) (honest : Along (step cfg g) (Honest cfg g) (.logon foreign behindNullBitmap) inputs) :
    Along (step cfg g) (TruthfulStep cfg g) (.logon foreign behindNullBitmap) inputs := by
  have start : Truthful (Session.logon foreign behindNullBitmap).frame := ⟨rfl, rfl⟩
  refine along_of_commands (fun {s payload junk oracle} alive (truthful : Truthful s.frame) good => ?_)
    (fun s input rest => ?_) honest start
  · have turn := step_truthful alive truthful good
    exact ⟨fun _ => turn, turn.frame⟩
  · rcases rest with finished | rfl
    · cases input with
      | disconnect => trivial
      | command payload junk oracle =>
        intro alive
        rw [finished] at alive
        cases alive
    · trivial

def acceptedQuery (text : String) : Input := .command (3 :: ascii text) (fun _ => 0) (.accepting .select [])

/-- A transaction with one statement. -/
theorem status_truthful_committed :
    Along (step .standard plainGrammar) (TruthfulStep .standard plainGrammar) .fresh
      [acceptedQuery "begin", acceptedQuery "select 1", acceptedQuery "commit"] := by
  refine status_truthful .standard plainGrammar (fun _ => .initial) (fun _ => 0) _ ⟨?_, ?_, ?_, trivial⟩ <;>
  · intro _ client list
    cases list
    exact ⟨rfl, fun _ _ => trivial⟩

/-- START TRANSACTION opens a block that the adapter does not know of. -/
theorem status_untruthful_start :
    ¬Along (step .standard plainGrammar) (TruthfulStep .standard plainGrammar) .fresh
      [acceptedQuery "start transaction"] := by
  intro told
  have known := ((told.1 rfl).frame rfl).flag
  cases known

end OpenHalo
