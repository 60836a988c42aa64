import OpenHalo.Lib.Memory

namespace OpenHalo
open Octets

/-- The bits of the status word of OK and EOF packets that the adapter ever sets. -/
structure Status where
  sessionStateChanged : Bool
  moreResults : Bool
  autoCommit : Bool
  inTransaction : Bool
deriving Repr, DecidableEq

/-- The packets the adapter sends; column counts and definitions, the EOF behind them and rows are all
`data`. -/
inductive Packet
  | ok (status : Status) (affectedRows : Int)
  | err (errCode : Nat) (errMsg sqlState : Bytes)
  | eof (status : Status)
  | prepareOk (stmtId : Int) (columnNum paramNum : Nat)
  | data
deriving Repr, DecidableEq

/-- The client stops reading behind it: an error, or an OK or EOF without the MORE_RESULTS bit. -/
def Packet.final : Packet → Bool
  | .ok status _ => !status.moreResults
  | .err _ _ _ => true
  | .eof status => !status.moreResults
  | .prepareOk _ _ _ => false
  | .data => false

/-- What an `elog(ERROR, ..)` or `ereport(ERROR, ..)` carries to the client. -/
structure ErrorData where
  sqlerrcode : Nat
  message : Bytes
deriving Repr, DecidableEq

/-- `elog(ERROR, ..)`, whose SQLSTATE is XX000. -/
def elogError (message : Bytes) : ErrorData := ⟨2600, message⟩

/-- The statement put in front of the next one: values 1 and 2 of `needAddCommitOrRollbackAfterCurSQL`. -/
inductive PendingEnd
  | commit
  | rollback
deriving Repr, DecidableEq

structure Config where
  halo_mysql_version : Bytes
  halo_mysql_auto_rollback_tx_on_error : Bool
  deprecateEof : Bool
  optionalMetadata : Bool
  database_name : Bytes

/-- The session variables of adapter.c, postgres.c and systemVar.c that the modelled functions use.
Flags of two values are booleans: `autoCommit` for 2 and 0, `moreResultsFlag` for 8 and 0,
`inTransactionFlag` for 1 and 0, `sessionStateChanged` for 0x4000 and 0. -/
structure Adapter where
  moreResultsFlag : Bool
  foundRows : Nat
  affectedRows : Int
  needCommitTrx : Bool
  needStartNewTrx : Bool
  trxNotCommit : Bool
  addBeforeBeforeCurSQL : Bool
  needAddCommitOrRollbackAfterCurSQL : PendingEnd
  addCommitOrRollBackBeforeCurSQL : Bool
  isResetConnStmt : Bool
  isExtendPreStmt : Bool
  isExtendExeStmt : Bool
  isExtendCloseStmt : Bool
  inTransactionFlag : Bool
  setUserSystemVar : Nat
  sessionStateChanged : Bool
  sessionStateType : Int
  warnErrCode : Nat
  preOrPostSQLNum : Nat
  skipUtf8Verify : Bool
  autoCommit : Bool
  isIgnoreStmt : Bool
deriving Repr, DecidableEq

def Adapter.logon : Adapter where
  moreResultsFlag := false
  foundRows := 1
  affectedRows := -1
  needCommitTrx := false
  needStartNewTrx := false
  trxNotCommit := false
  addBeforeBeforeCurSQL := false
  needAddCommitOrRollbackAfterCurSQL := .commit
  addCommitOrRollBackBeforeCurSQL := false
  isResetConnStmt := false
  isExtendPreStmt := false
  isExtendExeStmt := false
  isExtendCloseStmt := false
  inTransactionFlag := false
  setUserSystemVar := 0
  sessionStateChanged := false
  sessionStateType := -1
  warnErrCode := 0
  preOrPostSQLNum := 0
  skipUtf8Verify := false
  autoCommit := true
  isIgnoreStmt := false

def inSsTrackSystemVariables : Bool := false
def isSsTrackSchemaOn : Bool := true
def isSsTrackStateChangeOn : Bool := false

/-- `sessionStateChanged | moreResultsFlag | autoCommit | inTransactionFlag`. -/
def Adapter.serverStatus (a : Adapter) : Status where
  sessionStateChanged := a.sessionStateChanged
  moreResults := a.moreResultsFlag
  autoCommit := a.autoCommit
  inTransaction := a.inTransactionFlag

def sendOKPacket (a : Adapter) : Packet := .ok a.serverStatus a.affectedRows

def sendEOFPacketFlush (a : Adapter) : Packet := .eof a.serverStatus

def sendEOFPacketNoFlush (cfg : Config) : List Packet :=
  if cfg.deprecateEof then [] else [.data]

def errorCodes : List (Nat × Nat) :=
  [(1064, 1265), (1292, 1366), (1364, 1048), (1411, 1049), (2600, 1292), (16777248, 1264),
   (16777346, 1406), (16801924, 1478), (16908420, 1146), (33575106, 1048), (33685634, 1064),
   (50331778, 1264), (50352322, 1452), (50360452, 1054), (67391682, 1264), (83906754, 1062),
   (117571716, 1050)]

def convertErrorCode (haloErrorCode : Nat) : Nat :=
  (errorCodes.lookup haloErrorCode).getD haloErrorCode

def sendErrPacket (a : Adapter) (errCode : Nat) (errMsg sqlState : Bytes) : Adapter × Packet :=
  let mySQLErrorCode := convertErrorCode errCode
  ({ a with warnErrCode := mySQLErrorCode }, .err mySQLErrorCode errMsg sqlState)

/-- The `send_message` hook: an error, or OK for an IGNORE statement; it may schedule a rollback. -/
def sendErrorMessage (cfg : Config) (a : Adapter) (edata : ErrorData) : Adapter × List Packet :=
  let a := { a with affectedRows := -1 }
  let (a, packet) :=
    if !a.isIgnoreStmt then sendErrPacket a edata.sqlerrcode edata.message (ascii "HY000")
    else (a, sendOKPacket a)
  if cfg.halo_mysql_auto_rollback_tx_on_error && a.inTransactionFlag then
    ({ a with needStartNewTrx := true, needAddCommitOrRollbackAfterCurSQL := .rollback }, [packet])
  else (a, [packet])

theorem sendErrorMessage_spec (cfg : Config) (a : Adapter) (edata : ErrorData) : ∃ code start pending packet,
    sendErrorMessage cfg a edata = ({ a with
      affectedRows := -1, warnErrCode := code, needStartNewTrx := start,
        needAddCommitOrRollbackAfterCurSQL := pending }, [packet]) ∧
      if a.isIgnoreStmt then packet = sendOKPacket { a with affectedRows := -1 }
      else packet = .err (convertErrorCode edata.sqlerrcode) edata.message (ascii "HY000") := by
  cases ignored : a.isIgnoreStmt with
  | false =>
    simp only [sendErrorMessage, ignored, Bool.not_false, if_true]
    split <;> exact ⟨_, _, _, _, rfl, rfl⟩
  | true =>
    simp only [sendErrorMessage, ignored, Bool.not_true, Bool.false_eq_true, if_false]
    split <;> exact ⟨_, _, _, _, rfl, rfl⟩

/-- The `autocommit` branch of `applySystemVarValue`; transactions depend on no other variable. -/
def applySystemVarValue (a : Adapter) (varName varValue : Bytes) : Adapter :=
  if startsWith varName (ascii "autocommit") then
    if startsWith varValue (ascii "1") || startsWith varValue (ascii "on") then
      if !a.autoCommit then
        { a with needCommitTrx := true, needStartNewTrx := false, autoCommit := true }
      else
        { a with needCommitTrx := false, needStartNewTrx := false, autoCommit := true }
    else
      if !a.autoCommit then
        { a with needCommitTrx := false, needStartNewTrx := false, autoCommit := false }
      else
        { a with needCommitTrx := false, needStartNewTrx := true, autoCommit := false }
  else a

end OpenHalo
