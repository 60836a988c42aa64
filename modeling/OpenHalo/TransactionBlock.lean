import OpenHalo.PreStmtRewrite

namespace OpenHalo
open Octets

/-- The transaction block between two commands: none, open, or open after an error. -/
inductive TBlock
  | idle
  | inProgress
  | aborted
deriving Repr, DecidableEq

/-- The tags that `endCommand` tells apart; `definition` stands for CREATE, ALTER, DROP, COMMENT and
SELECT INTO, `other` for those it does not mention. -/
inductive PlainTag
  | execute | select | insert | update | delete | prepare | deallocate | deallocateAll | truncateTable
  | savepoint | release | startTransaction | call | set | definition | other
deriving Repr, DecidableEq

inductive CommandTag
  | begin | commit | rollback
  | plain (tag : PlainTag)
deriving Repr, DecidableEq

/-- Transaction statements by kind, everything else as `plain`. -/
inductive RawStmt
  | begin | start | commit (chain : Bool) | rollback (chain : Bool) | rollbackTo | savepoint | release
  | prepareTransaction | plain
deriving Repr, DecidableEq

/-- What a statement does besides completing: packets sent, variables assigned, `isIgnoreStmt` behind a
nested parse, and columns a PREPARE registers. -/
structure Effects where
  rows : Nat
  assigns : List (Bytes × Bytes)
  ignore : Option Bool
  columns : List (Nat × Nat)
deriving Repr, DecidableEq

def Effects.nothing : Effects := ⟨0, [], none, []⟩

/-- The executor's verdict. Tag and effects count for plain statements only. -/
inductive Outcome
  | ok (effects : Effects) (tag : PlainTag) (nprocessed : Nat)
  | error (effects : Effects) (edata : ErrorData)
deriving Repr, DecidableEq

/-- A plain statement took effect, inside a block or not; a block was committed, rolled back, aborted or
left to two-phase commit; the session ended. -/
inductive Event
  | ran (inBlock : Bool)
  | committed | rolledBack | aborted | prepared | ended
deriving Repr, DecidableEq

structure StmtResult where
  block : TBlock
  events : List Event
  effects : Effects
  answer : Except ErrorData (CommandTag × Nat)

/-- `AbortCurrentTransaction`. -/
def TBlock.abort : TBlock → TBlock × List Event
  | .idle => (.idle, [])
  | .inProgress => (.aborted, [.aborted])
  | .aborted => (.aborted, [])

def TBlock.failed (b : TBlock) (effects : Effects) (edata : ErrorData) : StmtResult :=
  ⟨b.abort.1, b.abort.2, effects, .error edata⟩

def abortedError : ErrorData :=
  ⟨33685826, ascii "current transaction is aborted, commands ignored until end of transaction block"⟩

def requireBlockError (stmtType : String) : ErrorData :=
  ⟨16908610, ascii stmtType ++ ascii " can only be used in transaction blocks"⟩

/-- The end of the open block: a failure at commit time leaves no block behind. -/
def TBlock.finish (tag : CommandTag) (next : TBlock) (event : List Event) : Outcome → StmtResult
  | .ok _ _ nprocessed => ⟨next, event, .nothing, .ok (tag, nprocessed)⟩
  | .error _ edata => ⟨.idle, [.rolledBack], .nothing, .error edata⟩

/-- A statement that leaves the block in state `next`, or fails in state `b`. -/
def TBlock.advance (b : TBlock) (tag : CommandTag) (next : TBlock) (event : List Event) :
    Outcome → StmtResult
  | .ok _ _ nprocessed => ⟨next, event, .nothing, .ok (tag, nprocessed)⟩
  | .error _ edata => b.failed .nothing edata

/-- The block that `AND CHAIN` leaves. -/
def chained (chain : Bool) : TBlock := if chain then .inProgress else .idle

/-- One statement of `exec_simple_query` against the block state of xact.c. -/
def TBlock.runStmt (b : TBlock) (stmt : RawStmt) (outcome : Outcome) : StmtResult :=
  match stmt, b with
  | .begin, .aborted | .start, .aborted | .savepoint, .aborted | .release, .aborted | .plain, .aborted =>
    b.failed .nothing abortedError
  | .begin, _ => b.advance .begin .inProgress [] outcome
  | .start, _ => b.advance (.plain .startTransaction) .inProgress [] outcome
  | .commit false, .idle => b.advance .commit .idle [] outcome
  | .commit true, .idle => b.failed .nothing (requireBlockError "COMMIT AND CHAIN")
  | .commit chain, .inProgress => TBlock.finish .commit (chained chain) [.committed] outcome
  | .commit chain, .aborted => TBlock.finish .rollback (chained chain) [.rolledBack] outcome
  | .rollback false, .idle => b.advance .rollback .idle [] outcome
  | .rollback true, .idle => b.failed .nothing (requireBlockError "ROLLBACK AND CHAIN")
  | .rollback chain, _ => TBlock.finish .rollback (chained chain) [.rolledBack] outcome
  | .rollbackTo, .idle => b.failed .nothing (requireBlockError "ROLLBACK TO SAVEPOINT")
  | .rollbackTo, _ => b.advance .rollback .inProgress [] outcome
  | .savepoint, .idle => b.failed .nothing (requireBlockError "SAVEPOINT")
  | .savepoint, .inProgress => b.advance (.plain .savepoint) .inProgress [] outcome
  | .release, .idle => b.failed .nothing (requireBlockError "RELEASE SAVEPOINT")
  | .release, .inProgress => b.advance (.plain .release) .inProgress [] outcome
  | .prepareTransaction, .idle => b.advance .rollback .idle [] outcome
  | .prepareTransaction, .inProgress => TBlock.finish (.plain .other) .idle [.prepared] outcome
  | .prepareTransaction, .aborted => TBlock.finish .rollback .idle [.rolledBack] outcome
  | .plain, _ =>
    match outcome with
    | .ok effects tag nprocessed =>
      ⟨b, [.ran (b == .inProgress)], effects, .ok (.plain tag, nprocessed)⟩
    | .error effects edata => b.failed effects edata

variable {b : TBlock} {nprocessed : Nat} {outcome : Outcome} {tag : CommandTag}

theorem runStmt_begin_ok (done : (b.runStmt .begin outcome).answer = .ok (tag, nprocessed)) :
    b ≠ .aborted ∧ b.runStmt .begin outcome = ⟨.inProgress, [], .nothing, .ok (.begin, nprocessed)⟩ := by
  cases b <;> cases outcome <;> cases done <;> exact ⟨by decide, rfl⟩

theorem runStmt_commit_ok (done : (b.runStmt (.commit false) outcome).answer = .ok (tag, nprocessed)) :
    (tag = .commit ∨ tag = .rollback) ∧ (b.runStmt (.commit false) outcome).block = .idle ∧
      (b.runStmt (.commit false) outcome).effects = .nothing := by
  cases b <;> cases outcome <;> cases done
  · exact ⟨.inl rfl, rfl, rfl⟩
  · exact ⟨.inl rfl, rfl, rfl⟩
  · exact ⟨.inr rfl, rfl, rfl⟩

theorem runStmt_rollback_ok (done : (b.runStmt (.rollback false) outcome).answer = .ok (tag, nprocessed)) :
    tag = .rollback ∧ (b.runStmt (.rollback false) outcome).block = .idle ∧
      (b.runStmt (.rollback false) outcome).effects = .nothing := by
  cases b <;> cases outcome <;> cases done <;> exact ⟨rfl, rfl, rfl⟩

/-- The block behind statements that all succeed, `none` if one of them fails. -/
def runBlocks (outcomes : Nat → Outcome) : Nat → List RawStmt → TBlock → Option TBlock
  | _, [], b => some b
  | k, stmt :: rest, b =>
    match (b.runStmt stmt (outcomes k)).answer with
    | .ok _ => runBlocks outcomes (k + 1) rest (b.runStmt stmt (outcomes k)).block
    | .error _ => none

theorem runBlocks_cons {outcomes : Nat → Outcome} {k : Nat} {stmt : RawStmt} {rest : List RawStmt} {b last : TBlock}
    (ran : runBlocks outcomes k (stmt :: rest) b = some last) :
    ∃ tag nprocessed, (b.runStmt stmt (outcomes k)).answer = .ok (tag, nprocessed) ∧
      runBlocks outcomes (k + 1) rest (b.runStmt stmt (outcomes k)).block = some last := by
  unfold runBlocks at ran
  split at ran
  · rename_i completion answered
    exact ⟨completion.1, completion.2, answered, ran⟩
  · cases ran

end OpenHalo
