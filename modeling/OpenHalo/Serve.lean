import OpenHalo.ProcessCommand

namespace OpenHalo
open Octets Memory

variable {cfg : Config} {outcomes : Nat → Outcome} {k nprocessed : Nat} {stmt : RawStmt} {rest : List RawStmt}
  {s : Session}
variable {r : StmtResult}

/-- The raw parser: what `isIgnoreStmt` becomes, and the statements of a well-formed text. A transaction
statement and a semicolon may stand in front of any text. -/
structure Grammar where
  rawParse : Bytes → Option Bool × Option (List RawStmt)
  parse_begin : ∀ text, rawParse (ascii "begin;" ++ text) =
    ((rawParse text).1, (rawParse text).2.map (RawStmt.begin :: ·))
  parse_commit : ∀ text, rawParse (ascii "commit;" ++ text) =
    ((rawParse text).1, (rawParse text).2.map (RawStmt.commit false :: ·))
  parse_rollback : ∀ text, rawParse (ascii "rollback;" ++ text) =
    ((rawParse text).1, (rawParse text).2.map (RawStmt.rollback false :: ·))

def splitStatements : Bytes → List Bytes
  | [] => [[]]
  | c :: rest =>
    if c = 59 then [] :: splitStatements rest
    else match splitStatements rest with
      | [] => [[c]]
      | piece :: pieces => (c :: piece) :: pieces

/-- A statement by its first word; blank pieces are none, a stray closing parenthesis is an error. -/
def rawStmtOf (piece : Bytes) : Option (Option RawStmt) :=
  let stmt := piece.dropWhile (· = 32)
  if stmt = [] then some none
  else if 41 ∈ stmt ∧ 40 ∉ stmt then none
  else if startsWith stmt (ascii "begin") then some (some .begin)
  else if startsWith stmt (ascii "start transaction") then some (some .start)
  else if startsWith stmt (ascii "commit") then some (some (.commit false))
  else if startsWith stmt (ascii "rollback") then some (some (.rollback false))
  else some (some .plain)

def parseStatements (text : Bytes) : Option (List RawStmt) :=
  ((splitStatements text).mapM rawStmtOf).map (List.filterMap id)

theorem parseStatements_cons (word text : Bytes) (stmt : RawStmt)
    (splits : splitStatements (word ++ text) = word.dropLast :: splitStatements text)
    (known : rawStmtOf word.dropLast = some (some stmt)) :
    parseStatements (word ++ text) = (parseStatements text).map (stmt :: ·) := by
  unfold parseStatements
  rw [splits, List.mapM_cons, known]
  cases (splitStatements text).mapM rawStmtOf <;> rfl

def plainGrammar : Grammar where
  rawParse text := (none, parseStatements text)
  parse_begin text := by rw [parseStatements_cons (ascii "begin;") text .begin rfl (by decide)]
  parse_commit text := by rw [parseStatements_cons (ascii "commit;") text (.commit false) rfl (by decide)]
  parse_rollback text := by rw [parseStatements_cons (ascii "rollback;") text (.rollback false) rfl (by decide)]

/-- What the server says to a command: an error of the conversion, of a text that does not parse, and a
verdict on each statement. -/
structure Oracle where
  conversion : Option ErrorData
  parseError : ErrorData
  outcomes : Nat → Outcome

def Oracle.accepting (tag : PlainTag) (assigns : List (Bytes × Bytes)) : Oracle :=
  ⟨none, elogError [], fun _ => .ok ⟨0, assigns, none, []⟩ tag 0⟩

/-- The settings left alone, for a client that asks for neither of the two capabilities. -/
def Config.standard : Config := ⟨ascii "5.7.32-log", false, false, false, ascii "halo0root"⟩

/-- A packet and the number of the statement that sent it, if it was one. -/
structure Sent where
  origin : Option Nat
  packet : Packet
deriving Repr, DecidableEq

structure Output where
  sent : List Sent
  events : List Event
deriving Repr, DecidableEq

structure Session where
  adapter : Adapter
  block : TBlock
  stmts : PreStmts
  ended : Bool

def Session.logon (foreign : Int → PreStmtInfo) (behindNullBitmap : Nat → UInt8) : Session :=
  ⟨.logon, .idle, .initial foreign behindNullBitmap, false⟩

def Session.fresh : Session := .logon (fun _ => .initial) (fun _ => 0)

inductive Input
  | command (payload : Bytes) (junk : Mem) (oracle : Oracle)
  | disconnect

def byAdapter (packets : List Packet) : List Sent := packets.map (⟨none, ·⟩)
def byStmt (k : Nat) (packets : List Packet) : List Sent := packets.map (⟨some k, ·⟩)

/-- `enlargeStringInfo`: doubling until the text fits. -/
def enlarge (needed : Nat) : Nat → Nat → Nat
  | 0, newlen => newlen
  | fuel + 1, newlen => if newlen < needed then enlarge needed fuel (2 * newlen) else newlen

theorem le_enlarge (needed fuel newlen : Nat) : newlen ≤ enlarge needed fuel newlen := by
  induction fuel generalizing newlen with
  | zero => exact Nat.le_refl _
  | succ fuel ih =>
    have later := ih (2 * newlen)
    rw [enlarge]
    split <;> omega

theorem needed_le_enlarge {needed fuel newlen : Nat} (bound : needed ≤ newlen * 2 ^ fuel) :
    needed ≤ enlarge needed fuel newlen := by
  induction fuel generalizing newlen with
  | zero => simpa [enlarge] using bound
  | succ fuel ih =>
    rw [enlarge]
    split
    · apply ih
      rwa [Nat.pow_succ', ← Nat.mul_assoc, Nat.mul_comm newlen 2] at bound
    · omega

/-- The payload stands at 128 in front of a terminator, and the command byte is taken off. -/
def readCommand (payload : Bytes) (junk : Mem) : UInt8 × StringInfo :=
  let data := load (payload ++ [0]) 128 junk
  let maxlen := if 1024 - 128 < payload.length then enlarge (payload.length + 129) 32 1024 else 1024
  (data 128, ⟨data, maxlen, payload.length, 129⟩)

theorem readCommand_firstChar (c : UInt8) (body : Bytes) (junk : Mem) : (readCommand (c :: body) junk).1 = c := by
  simp [readCommand, load, write]

def assignAll (a : Adapter) (assigns : List (Bytes × Bytes)) : Adapter :=
  assigns.foldl (fun a assign => applySystemVarValue a assign.1 assign.2) a

def Session.applyEffects (s : Session) (e : Effects) : Session :=
  let a := assignAll s.adapter e.assigns
  { s with
    adapter := { a with isIgnoreStmt := e.ignore.getD a.isIgnoreStmt }
    stmts := setColumnInfoes s.stmts e.columns }

def Session.raise (cfg : Config) (s : Session) (packets : List Packet) (edata : ErrorData) : Session × Output :=
  let answer := sendErrorMessage cfg s.adapter edata
  ({ s with adapter := answer.1, block := s.block.abort.1 },
    ⟨byAdapter (packets ++ answer.2), s.block.abort.2⟩)

/-- The session once the statement with result `r` has been executed. -/
def Session.executed (s : Session) (more : Bool) (r : StmtResult) : Session :=
  { { s with adapter := { s.adapter with moreResultsFlag := more } }.applyEffects r.effects with
    block := r.block }

/-- The loop of `exec_simple_query`: each statement is executed and reported, up to the first failure. -/
def execStmts (cfg : Config) (outcomes : Nat → Outcome) : Nat → List RawStmt → Session → Session × Output
  | _, [], s => (s, ⟨[], []⟩)
  | k, stmt :: rest, s =>
    let r := s.block.runStmt stmt (outcomes k)
    let s := s.executed (!rest.isEmpty) r
    let rows := List.replicate r.effects.rows Packet.data
    match r.answer with
    | .ok (tag, nprocessed) =>
      let (a, answer) := endCommand cfg s.stmts s.adapter tag nprocessed
      let (s, out) := execStmts cfg outcomes (k + 1) rest { s with adapter := a }
      (s, ⟨byStmt k (rows ++ answer) ++ out.sent, r.events ++ out.events⟩)
    | .error edata =>
      let (a, answer) := sendErrorMessage cfg s.adapter edata
      ({ s with adapter := a }, ⟨byStmt k (rows ++ answer), r.events⟩)

theorem execStmts_ok {tag : CommandTag}
    (ran : s.block.runStmt stmt (outcomes k) = r) (answered : r.answer = .ok (tag, nprocessed)) :
    execStmts cfg outcomes k (stmt :: rest) s =
      let t := s.executed (!rest.isEmpty) r
      let answer := endCommand cfg t.stmts t.adapter tag nprocessed
      let later := execStmts cfg outcomes (k + 1) rest { t with adapter := answer.1 }
      (later.1, ⟨byStmt k (List.replicate r.effects.rows .data ++ answer.2) ++ later.2.sent,
        r.events ++ later.2.events⟩) := by
  rw [execStmts, ran]
  simp [answered]

theorem execStmts_error {edata : ErrorData}
    (ran : s.block.runStmt stmt (outcomes k) = r) (failed : r.answer = .error edata) :
    execStmts cfg outcomes k (stmt :: rest) s =
      let t := s.executed (!rest.isEmpty) r
      let answer := sendErrorMessage cfg t.adapter edata
      ({ t with adapter := answer.1 },
        ⟨byStmt k (List.replicate r.effects.rows .data ++ answer.2), r.events⟩) := by
  rw [execStmts, ran]
  simp [failed]

/-- `exec_simple_query` from the parse tree list on. -/
def execParsed (cfg : Config) (oracle : Oracle) (s : Session) : Option (List RawStmt) → Session × Output
  | none => s.raise cfg [] oracle.parseError
  | some [] => (s, ⟨byAdapter [sendOKPacket s.adapter], []⟩)
  | some stmts => execStmts cfg oracle.outcomes 0 stmts s

/-- The grammar's assignment to `isIgnoreStmt`. -/
def Session.ignoring (s : Session) (ignore : Option Bool) : Session :=
  { s with adapter := { s.adapter with isIgnoreStmt := ignore.getD s.adapter.isIgnoreStmt } }

def exec_simple_query (cfg : Config) (g : Grammar) (oracle : Oracle) (s : Session) (query_string : Bytes) :
    Session × Output :=
  match oracle.conversion with
  | some edata => s.raise cfg [] edata
  | none => execParsed cfg oracle (s.ignoring (g.rawParse query_string).1) (g.rawParse query_string).2

def Session.finish (s : Session) : Session × Output :=
  ({ s with block := .idle, ended := true },
    ⟨[], if s.block = .idle then [.ended] else [.rolledBack, .ended]⟩)

/-- What the main loop does with the verdict of `processCommand`. -/
def Session.dispatch (cfg : Config) (g : Grammar) (oracle : Oracle) (s : Session) : Dispatch → Session × Output
  | .query a t inBuf => exec_simple_query cfg g oracle { s with adapter := a, stmts := t } inBuf.stmt
  | .quit a => { s with adapter := a }.finish
  | .answered a t packets => ({ s with adapter := a, stmts := t }, ⟨byAdapter packets, []⟩)
  | .raised a t packets edata => { s with adapter := a, stmts := t }.raise cfg packets edata
  | .crashed => s.finish

def step (cfg : Config) (g : Grammar) (s : Session) (input : Input) : Session × Output :=
  if s.ended then (s, ⟨[], []⟩)
  else match input with
    | .disconnect => s.finish
    | .command payload junk oracle =>
      let (firstChar, inBuf) := readCommand payload junk
      s.dispatch cfg g oracle (processCommand cfg s.adapter s.stmts firstChar inBuf)

theorem execStmts_ended (cfg : Config) (outcomes : Nat → Outcome) (k : Nat) (stmts : List RawStmt) (s : Session) :
    (execStmts cfg outcomes k stmts s).1.ended = s.ended := by
  induction stmts generalizing k s with
  | nil => rfl
  | cons stmt rest ih =>
    cases answered : (s.block.runStmt stmt (outcomes k)).answer with
    | ok completion =>
      rw [execStmts_ok rfl answered]
      exact ih _ _
    | error edata =>
      rw [execStmts_error rfl answered]
      rfl

theorem exec_simple_query_ended (cfg : Config) (g : Grammar) (oracle : Oracle) (s : Session) (text : Bytes) :
    (exec_simple_query cfg g oracle s text).1.ended = s.ended := by
  unfold exec_simple_query execParsed
  split
  · rfl
  split
  · rfl
  · rfl
  · exact execStmts_ended _ _ _ _ _

end OpenHalo
