import OpenHalo.TransactionBlock

namespace OpenHalo
open Octets

/-- The answer to COM_STMT_PREPARE: id and counts, then the definitions for clients that want them. -/
def endExtendPreStmt (cfg : Config) (t : PreStmts) : List Packet :=
  let id := t.curExtendPreStmtId
  let pSI := t.preStmtInfoes id
  let definitions := fun n =>
    if 0 < n ∧ !cfg.optionalMetadata then List.replicate n Packet.data ++ sendEOFPacketNoFlush cfg else []
  .prepareOk id (pSI.columnNum % 65536) (pSI.paramNum % 65536) ::
    (definitions pSI.paramNum ++ definitions pSI.columnNum)

def endNormalPreStmt (a : Adapter) : List Packet := [sendOKPacket a]

/-- BEGIN, COMMIT and ROLLBACK report nothing when the flag says they were prepended, and clear it. -/
def endBegin (a : Adapter) : Adapter × List Packet :=
  let a := { a with inTransactionFlag := true }
  let packets := if a.addBeforeBeforeCurSQL then [] else [sendOKPacket a]
  ({ a with addBeforeBeforeCurSQL := false, needStartNewTrx := false, trxNotCommit := true }, packets)

def endCommit (a : Adapter) (nprocessed : Nat) : Adapter × List Packet :=
  let silent := a.addCommitOrRollBackBeforeCurSQL
  let a := { a with
    inTransactionFlag := false, affectedRows := if silent then a.affectedRows else nprocessed }
  ({ a with
      addCommitOrRollBackBeforeCurSQL := false
      needStartNewTrx := if a.autoCommit then a.needStartNewTrx else true
      trxNotCommit := false },
    if silent then [] else [sendOKPacket a])

def endRollback (a : Adapter) : Adapter × List Packet :=
  let silent := a.addCommitOrRollBackBeforeCurSQL
  let a := { a with inTransactionFlag := false }
  ({ a with
      addCommitOrRollBackBeforeCurSQL := false
      needStartNewTrx := if a.autoCommit then a.needStartNewTrx else true
      trxNotCommit := false
      needAddCommitOrRollbackAfterCurSQL := .commit },
    if silent || a.isResetConnStmt then [] else [sendOKPacket a])

/-- The three ways of answering a SET, by the value of `setUserSystemVar`. -/
def endSet (a : Adapter) (nprocessed : Nat) : Adapter × List Packet :=
  let a :=
    if a.setUserSystemVar = 0 then { a with sessionStateChanged := false, affectedRows := nprocessed }
    else if a.setUserSystemVar = 1 then
      { a with sessionStateChanged := isSsTrackStateChangeOn || inSsTrackSystemVariables
               sessionStateType := 0 }
    else
      { a with sessionStateChanged := isSsTrackStateChangeOn || isSsTrackSchemaOn, sessionStateType := 1 }
  ({ a with sessionStateChanged := false }, [sendOKPacket a])

def endCounted (a : Adapter) (nprocessed : Nat) : Adapter × List Packet :=
  let a := { a with affectedRows := nprocessed }
  (a, [sendOKPacket a])

def endPlain (cfg : Config) (t : PreStmts) (a : Adapter) (tag : PlainTag) (nprocessed : Nat) :
    Adapter × List Packet :=
  match tag with
  | .execute => ({ a with isExtendExeStmt := false }, [sendEOFPacketFlush a])
  | .select =>
    let a := { a with foundRows := nprocessed, affectedRows := -1 }
    (a, [sendEOFPacketFlush a])
  | .insert | .update | .delete => endCounted { a with foundRows := 1 } nprocessed
  | .prepare =>
    if a.isExtendPreStmt then ({ a with isExtendPreStmt := false }, endExtendPreStmt cfg t)
    else (a, endNormalPreStmt a)
  | .deallocate =>
    if a.isExtendCloseStmt then ({ a with isExtendCloseStmt := false }, []) else endCounted a nprocessed
  | .deallocateAll =>
    let a := { a with isResetConnStmt := false }
    (a, [sendOKPacket a])
  | .truncateTable | .savepoint | .release | .startTransaction => endCounted a nprocessed
  | .call => (a, [sendOKPacket a])
  | .set => endSet a nprocessed
  | .definition =>
    if 0 < a.preOrPostSQLNum then ({ a with preOrPostSQLNum := a.preOrPostSQLNum - 1 }, [])
    else endCounted a nprocessed
  | .other => (a, [sendEOFPacketFlush a])

def endCommand (cfg : Config) (t : PreStmts) (a : Adapter) (tag : CommandTag) (nprocessed : Nat) :
    Adapter × List Packet :=
  match tag with
  | .begin => endBegin a
  | .commit => endCommit a nprocessed
  | .rollback => endRollback a
  | .plain tag => endPlain cfg t a tag nprocessed

end OpenHalo
