import OpenHalo.EndCommand

namespace OpenHalo
open Octets Memory

/-- How `processCommand` hands a command on: to the server as a query, as the end of the session,
answered already, or raising after it has sent `packets`. `crashed` is the copy of SIZE_MAX bytes in the
`use` branch, or a table list that runs over its arrays. -/
inductive Dispatch
  | query (a : Adapter) (t : PreStmts) (inBuf : StringInfo)
  | quit (a : Adapter)
  | answered (a : Adapter) (t : PreStmts) (packets : List Packet)
  | raised (a : Adapter) (t : PreStmts) (packets : List Packet) (edata : ErrorData)
  | crashed

def StringInfo.prepend (inBuf : StringInfo) (text : Bytes) : StringInfo :=
  { inBuf with
    data := write inBuf.data (inBuf.offset - text.length) text
    offset := inBuf.offset - text.length
    len := inBuf.len + text.length }

/-- What `addAdditionalSQL` does once there is room in front of the statement. -/
def addPrefix (a : Adapter) (inBuf : StringInfo) : Adapter × StringInfo :=
  let (a, inBuf) :=
    if a.needAddCommitOrRollbackAfterCurSQL = .commit then
      let (a, inBuf) :=
        if a.needStartNewTrx && !a.trxNotCommit then
          ({ a with addBeforeBeforeCurSQL := true }, inBuf.prepend (ascii "begin;"))
        else (a, inBuf)
      if a.needCommitTrx && a.trxNotCommit then
        ({ a with addCommitOrRollBackBeforeCurSQL := true }, inBuf.prepend (ascii "commit;"))
      else (a, inBuf)
    else
      ({ a with addBeforeBeforeCurSQL := true, addCommitOrRollBackBeforeCurSQL := true },
        (inBuf.prepend (ascii "begin;")).prepend (ascii "rollback;"))
  ({ a with needCommitTrx := false }, inBuf)

def addAdditionalSQL (a : Adapter) (inBuf : StringInfo) : Except ErrorData (Adapter × StringInfo) :=
  if RESERVED_FOR_ADDITIONAL_SQL ≤ inBuf.offset then .ok (addPrefix a inBuf)
  else .error (elogError (ascii "internal error in addAdditionalSQL!"))

/-- `sendSyntaxError`, which raises. -/
def syntaxError (command : Bytes) : ErrorData := elogError (ascii "Systax error. " ++ command)

def simulateShowWarnErrReturn (cfg : Config) (a : Adapter) : List Packet :=
  List.replicate 4 .data ++ sendEOFPacketNoFlush cfg ++
    (if 0 < a.warnErrCode then [.data] else []) ++ [sendEOFPacketFlush a]

def simulateShowGrants (cfg : Config) (a : Adapter) : List Packet :=
  List.replicate 2 .data ++ sendEOFPacketNoFlush cfg ++ [.data] ++ [sendEOFPacketFlush a]

def tableListEnds (rest : Bytes) : Bool :=
  [" FOR", " UPGRADE", " QUICK", " FAST", " MEDIUM", " EXTENDED", " CHANGED", " USE_FRM"].any
    fun w => startsWith rest (ascii w)

/-- What a table list comes to: an error, a store behind an array, or rows. -/
inductive TableList
  | refused
  | overflow
  | rows (tableNum : Nat)

/-- A name of `j` bytes, blanks left out, has to fit `schemaNameTableNames[tableNum]`. -/
def nameOverflows (database_name : Bytes) (hasDot : Bool) (j : Nat) : Bool :=
  256 ≤ if hasDot then j else database_name.length + 1 + j

def countTables (database_name : Bytes) : Bytes → Bool → Nat → Nat → TableList
  | [], hasDot, j, tableNum => if nameOverflows database_name hasDot j then .overflow else .rows (tableNum + 1)
  | c :: rest, hasDot, j, tableNum =>
    if c = 44 || c = 59 || tableListEnds (c :: rest) then
      if nameOverflows database_name hasDot j then .overflow
      else if c = 44 then
        if 128 ≤ tableNum + 1 then .refused else countTables database_name rest false 0 (tableNum + 1)
      else .rows (tableNum + 1)
    else countTables database_name rest (hasDot || c = 46) (if c = 32 then j else j + 1) tableNum

/-- The suffix behind the first ` table `. -/
def tableNameSection : Bytes → Option Bytes
  | [] => none
  | c :: rest =>
    if startsWith (c :: rest) (ascii " table ") then some ((c :: rest).drop 7) else tableNameSection rest

/-- The word in front is copied to `operation`, an array of 128 bytes. -/
def tableListRows (database_name stmt : Bytes) : TableList :=
  if stmt.headD 32 = 32 ∨ 32 ∉ stmt then .refused
  else if 128 ≤ (stmt.takeWhile (· != 32)).length then .overflow
  else
    match tableNameSection stmt with
    | none => .refused
    | some section' => countTables database_name section' false 0 0

/-- `simulateChecksumTable` and `simulateAnalyzeCheckOptimizeRepairTable`, by their `columns` and rows;
a row fits `payloadBuf` if its name fits its array. -/
def simulateTableList (cfg : Config) (a : Adapter) (columns : Nat) (stmt : Bytes) : Option (List Packet × Bool) :=
  let header := List.replicate columns Packet.data ++ sendEOFPacketNoFlush cfg
  match tableListRows cfg.database_name stmt with
  | .overflow => none
  | .refused => some (header, false)
  | .rows tableNum => some (header ++ List.replicate tableNum .data ++ [sendEOFPacketFlush a], true)

def simulateChecksumTable (cfg : Config) (a : Adapter) : Bytes → Option (List Packet × Bool) :=
  simulateTableList cfg a 3

def simulateAnalyzeCheckOptimizeRepairTable (cfg : Config) (a : Adapter) : Bytes → Option (List Packet × Bool) :=
  simulateTableList cfg a 5

/-- Skip blanks and NULs. The source goes on behind the terminator; `len` is then not positive, and how
far it gets does not matter. -/
def skipBlanks : Nat → StringInfo → StringInfo
  | 0, inBuf => inBuf
  | fuel + 1, inBuf =>
    let c := inBuf.data inBuf.offset
    if c = 32 || c = 9 || c = 10 || c = 13 || c = 0 then
      skipBlanks fuel { inBuf with offset := inBuf.offset + 1, len := inBuf.len - 1 }
    else inBuf

def skipSpaces (m : Mem) : Nat → Nat → Nat
  | 0, secondWord => secondWord
  | fuel + 1, secondWord =>
    if m secondWord = 32 || m secondWord = 10 || m secondWord = 9 then skipSpaces m fuel (secondWord + 1)
    else secondWord

inductive QueryWord
  | manipulate | begin | finish | set | use | showGrants | showWarnings | alterDatabase | semicolon
  | checksum | maintain | acknowledge | other
deriving Repr, DecidableEq

def queryWord (inBuf : StringInfo) : QueryWord :=
  let stmt := inBuf.offset
  let at' := fun w => wordAt inBuf.data stmt (ascii w)
  let second := fun k w => wordAt inBuf.data (skipSpaces inBuf.data inBuf.maxlen (stmt + k)) (ascii w)
  if at' "select" || at' "insert" || at' "replace" || at' "update" || at' "delete" then .manipulate
  else if at' "begin" then .begin
  else if at' "commit" || at' "rollback" then .finish
  else if at' "set" then .set
  else if at' "use" then .use
  else if at' "show" then
    if second 5 "grants" then .showGrants
    else if second 5 "warnings" || second 5 "errors" then .showWarnings
    else .other
  else if at' "alter" then if second 6 "database" then .alterDatabase else .other
  else if at' ";" then .semicolon
  else if at' "checksum" then .checksum
  else if at' "analyze" || at' "check" || at' "optimize" || at' "repair" then .maintain
  else if at' "flush" || at' "reset" then .acknowledge
  else .other

/-- `addAdditionalSQL` followed by the return to the server. -/
def forward (a : Adapter) (t : PreStmts) (inBuf : StringInfo) : Dispatch :=
  match addAdditionalSQL a inBuf with
  | .ok added => .query added.1 t added.2
  | .error edata => .raised a t [] edata

/-- `sendErrPacket` followed by `return 1`. -/
def refuse (a : Adapter) (t : PreStmts) (errCode : Nat) (errMsg sqlState : String) : Dispatch :=
  let (a, packet) := sendErrPacket a errCode (ascii errMsg) (ascii sqlState)
  .answered a t [packet]

def acknowledge (a : Adapter) (t : PreStmts) : Dispatch :=
  .answered { a with warnErrCode := 0 } t [sendOKPacket a]

def endPrevious (a : Adapter) (inBuf : StringInfo) : Adapter × StringInfo :=
  if a.trxNotCommit then
    ({ a with addCommitOrRollBackBeforeCurSQL := true },
      match a.needAddCommitOrRollbackAfterCurSQL with
      | .commit => inBuf.prepend (ascii "commit;")
      | .rollback => inBuf.prepend (ascii "rollback;"))
  else (a, inBuf)

def simulated (a : Adapter) (t : PreStmts) (stmt : Bytes) : Option (List Packet × Bool) → Dispatch
  | some (packets, true) => .answered { a with warnErrCode := 0 } t packets
  | some (packets, false) => .raised a t packets (syntaxError stmt)
  | none => .crashed

def nearSemicolon : String :=
  "You have an error in your SQL syntax; check the manual that corresponds to your MySQL server version for " ++
    "the right syntax to use near ';select 123 as abc' at line 1"

def processQuery (cfg : Config) (a : Adapter) (t : PreStmts) (origLen : Int) (inBuf : StringInfo) : Dispatch :=
  let noted := { a with warnErrCode := 0 }
  let stmt := cstr (read inBuf.data inBuf.offset inBuf.len)
  match queryWord inBuf with
  | .manipulate | .other => forward noted t inBuf
  | .begin =>
    let added := endPrevious noted inBuf
    .query added.1 t added.2
  | .finish | .set => .query noted t inBuf
  | .use =>
    if inBuf.len < 5 then .crashed
    else if inBuf.len - 5 ≤ 1024 then .query { a with setUserSystemVar := 2 } t inBuf
    else refuse a t 1049 "Invalid client data" "42000"
  | .showGrants =>
    match addAdditionalSQL a inBuf with
    | .ok added => .answered { added.1 with warnErrCode := 0 } t (simulateShowGrants cfg a)
    | .error edata => .raised a t (simulateShowGrants cfg a) edata
  | .showWarnings => .answered a t (simulateShowWarnErrReturn cfg a)
  | .alterDatabase => refuse a t 1049 "\"alter database\" is forbidden in Halo-MySQL" "42000"
  | .semicolon =>
    if (read inBuf.data inBuf.offset inBuf.len).all fun c => c = 59 || c = 32 || c = 10 || c = 0 then
      if inBuf.len + 4 ≤ origLen then acknowledge a t else refuse a t 1065 "Query was empty" "42000"
    else refuse a t 1064 nearSemicolon "42000"
  | .checksum => simulated a t stmt (simulateChecksumTable cfg a stmt)
  | .maintain => simulated a t stmt (simulateAnalyzeCheckOptimizeRepairTable cfg a stmt)
  | .acknowledge => acknowledge a t

/-- The command bytes `processCommand` knows. -/
inductive Request
  | sleep | quit | useDatabase | query | fieldList | ping | prepare | execute | close | reset | resetConn
  | unsupported
deriving Repr, DecidableEq

def Request.ofByte (b : UInt8) : Request :=
  match b with
  | 0 => .sleep
  | 1 => .quit
  | 2 => .useDatabase
  | 3 => .query
  | 4 => .fieldList
  | 14 => .ping
  | 22 => .prepare
  | 23 => .execute
  | 25 => .close
  | 26 => .reset
  | 31 => .resetConn
  | _ => .unsupported

def startCommand (a : Adapter) : Adapter :=
  { a with
    moreResultsFlag := false, preOrPostSQLNum := 0, skipUtf8Verify := false, isExtendPreStmt := false
    isExtendExeStmt := false, isExtendCloseStmt := false, isResetConnStmt := false }

def emptyQuery (a : Adapter) (t : PreStmts) (origLen : Int) : Dispatch :=
  if 4 < origLen then acknowledge a t else refuse a t 1065 "Query was empty" "42000"

/-- `stmt` as sendSyntaxError prints it. -/
def stmtAt (data : Mem) (inBuf : StringInfo) : Bytes := cstr (read data inBuf.offset inBuf.len)

def processComQuery (cfg : Config) (a : Adapter) (t : PreStmts) (inBuf : StringInfo) : Dispatch :=
  let origLen : Int := inBuf.len - 1
  match rectifyCommand cfg.halo_mysql_version inBuf with
  | .refused data => .raised a t [] (syntaxError (stmtAt data inBuf))
  | .raised edata => .raised a t [] edata
  | .accepted inBuf skipUtf8Verify =>
    let a := { a with skipUtf8Verify := skipUtf8Verify }
    let inBuf := skipBlanks inBuf.len inBuf
    if inBuf.len = 0 then emptyQuery a t origLen else processQuery cfg a t origLen inBuf

def processComPrepare (cfg : Config) (a : Adapter) (t : PreStmts) (inBuf : StringInfo) : Dispatch :=
  match rectifyCommand cfg.halo_mysql_version inBuf with
  | .refused data => .raised a t [] (syntaxError (stmtAt data inBuf))
  | .raised edata => .raised a t [] edata
  | .accepted inBuf skipUtf8Verify =>
    let a := { a with skipUtf8Verify := skipUtf8Verify }
    match rewriteExtendPreStmt t inBuf with
    | .prepare t inBuf => forward { a with isExtendPreStmt := true, warnErrCode := 0 } t inBuf
    | .local t => .answered { a with warnErrCode := 0 } t (endExtendPreStmt cfg t)
    | .unsupported =>
      refuse a t 1295 "This command is not supported in the prepared statement protocol yet" "HY000"
    | .refused t data => .raised a t [] (syntaxError (stmtAt data inBuf))

/-- EXECUTE and CLOSE, whose `stmt` is still NULL when they complain. -/
def processRewritten (a done : Adapter) (t : PreStmts) : Rewritten → Dispatch
  | .done t inBuf => forward { done with warnErrCode := 0 } t inBuf
  | .refused => .raised a t [] (syntaxError (ascii "(null)"))
  | .raised edata => .raised a t [] edata

/-- The name of a COM_INIT_DB between backticks, behind `use`. -/
def useDatabaseText (inBuf : StringInfo) : StringInfo :=
  let inBuf := inBuf.prepend (ascii "use \x60")
  { inBuf with
    data := write inBuf.data (inBuf.offset + inBuf.len - 1) [96, 0]
    len := inBuf.len + 1 }

def processUseDatabase (a : Adapter) (t : PreStmts) (inBuf : StringInfo) : Dispatch :=
  if inBuf.len - 1 ≤ 1024 then forward { a with setUserSystemVar := 2 } t (useDatabaseText inBuf)
  else refuse a t 1049 "Invalid client data" "42000"

def resetConnection (a : Adapter) (t : PreStmts) (inBuf : StringInfo) : Adapter × PreStmts × StringInfo :=
  let text := ascii "rollback;" ++ ascii "deallocate prepare all"
  ({ a with isResetConnStmt := true, autoCommit := true, affectedRows := -1 },
    { invalidate t t.preStmtInfoNum with preStmtInfoNum := 0 },
    { inBuf with data := write inBuf.data inBuf.offset (text ++ [0]), len := text.length + 1 })

def processCommand (cfg : Config) (a : Adapter) (t : PreStmts) (firstChar : UInt8) (inBuf : StringInfo) :
    Dispatch :=
  let a := startCommand a
  match Request.ofByte firstChar with
  | .execute =>
    let a := { a with isExtendExeStmt := true }
    processRewritten a a t (rewriteExtendExeStmt t inBuf)
  | .query => processComQuery cfg a t inBuf
  | .prepare => processComPrepare cfg a t inBuf
  | .close => processRewritten a { a with isExtendCloseStmt := true } t (rewriteExtendCloseStmt t inBuf)
  | .useDatabase => processUseDatabase a t inBuf
  | .fieldList => .answered { a with warnErrCode := 0 } t [sendEOFPacketFlush a]
  | .sleep | .ping | .reset => acknowledge a t
  | .quit => .quit a
  | .resetConn =>
    let reset := resetConnection a t inBuf
    .query { reset.1 with warnErrCode := 0 } reset.2.1 reset.2.2
  | .unsupported => refuse a t 1047 "Unknown command" "08S01"

end OpenHalo
