import OpenHalo.Session.TrxMachine
import OpenHalo.Lib.Machine

namespace OpenHalo
open Octets Memory Machine List

variable {g : Grammar} {s : Session}

/-- UPDATE and DELETE say IGNORE among their options, whose rules assign `isIgnoreStmt`; other
statements that know the word leave it alone. -/
inductive Modifier
  | options (ignore : Bool)
  | other (ignore : Bool)
deriving Repr, DecidableEq

def Modifier.carried : Modifier → Bool
  | .options ignore | .other ignore => ignore

def Modifier.assigned : Modifier → Option Bool
  | .options ignore => some ignore
  | .other _ => none

def lastAssigned (modifiers : List Modifier) : Option Bool := modifiers.reverse.findSome? Modifier.assigned

/-- The modifiers of the statements of a text, as the grammar's actions see
them. -/
structure Modifiers (g : Grammar) where
  of : Bytes → List Modifier
  each : ∀ {text client}, (g.rawParse text).2 = some client → (of text).length = client.length
  last : ∀ {text client}, (g.rawParse text).2 = some client → (g.rawParse text).1 = lastAssigned (of text)

/-- The statement of a list that fails, counted from `k`. -/
def failedStmt (outcomes : Nat → Outcome) : Nat → List RawStmt → TBlock → Option Nat
  | _, [], _ => none
  | k, stmt :: rest, b =>
    match (b.runStmt stmt (outcomes k)).answer with
    | .ok _ => failedStmt outcomes (k + 1) rest (b.runStmt stmt (outcomes k)).block
    | .error _ => some k

/-- Whether the last UPDATE or DELETE said IGNORE after these statements; those they parse in turn
count, too. -/
def ignoredStmts (outcomes : Nat → Outcome) : Nat → List RawStmt → TBlock → Bool → Bool
  | _, [], _, ignored => ignored
  | k, stmt :: rest, b, ignored =>
    let r := b.runStmt stmt (outcomes k)
    match r.answer with
    | .ok _ => ignoredStmts outcomes (k + 1) rest r.block (r.effects.ignore.getD ignored)
    | .error _ => r.effects.ignore.getD ignored

section course
variable {g : Grammar} (m : Modifiers g) (oracle : Oracle) (f : Frame)

/-- Whether a command fails, and whether the failing statement carries IGNORE, which what is rejected
unparsed does not. -/
def failure : Course → Option Bool
  | .answered | .granted | .finished => none
  | .raised => some false
  | .query route text =>
    match oracle.conversion, (g.rawParse text).2 with
    | none, some client =>
      (failedStmt oracle.outcomes 0 (route.added f.trx ++ client) f.block).map fun k =>
        (((route.added f.trx).map (fun _ => Modifier.other false) ++ m.of text)[k]?.map Modifier.carried).getD false
    | _, _ => some false

/-- Whether the last UPDATE or DELETE parsed said IGNORE, behind a command; an ill-formed text counts as
far as it was read. -/
def ignoredBy (ignored : Bool) : Course → Bool
  | .answered | .granted | .finished | .raised => ignored
  | .query route text =>
    match oracle.conversion, (g.rawParse text).2 with
    | none, some client =>
      ignoredStmts oracle.outcomes 0 (route.added f.trx ++ client) f.block ((lastAssigned (m.of text)).getD ignored)
    | none, none => (g.rawParse text).1.getD ignored
    | some _, _ => ignored

end course

/-- A session, and whether the last UPDATE or DELETE parsed in it said IGNORE. -/
structure Noted where
  session : Session
  ignored : Bool

section step
variable {g : Grammar} (m : Modifiers g) (cfg : Config)

def Noted.note (x : Noted) : Input → Bool
  | .disconnect => x.ignored
  | .command payload junk oracle =>
    if x.session.ended then x.ignored
    else ignoredBy m oracle x.session.frame x.ignored (Input.course cfg x.session payload junk)

def Noted.step (x : Noted) (input : Input) : Noted × Output :=
  let r := OpenHalo.step cfg g x.session input
  (⟨r.1, x.note m cfg input⟩, r.2)

def Noted.logon (foreign : Int → PreStmtInfo) (behindNullBitmap : Nat → UInt8) : Noted :=
  ⟨.logon foreign behindNullBitmap, false⟩

end step

def Packet.isErr : Packet → Bool
  | .err _ _ _ => true
  | _ => false

def Output.reportsError (out : Output) : Prop := ∃ sent, out.sent.getLast? = some sent ∧ sent.packet.isErr = true

/-- A command that fails at something without IGNORE is answered with an
error. -/
def ReportsErrors {g : Grammar} (m : Modifiers g) (cfg : Config) (s : Session) (payload : Bytes) (junk : Mem)
    (oracle : Oracle) : Prop :=
  s.ended = false → failure m oracle s.frame (Input.course cfg s payload junk) = some false →
    (step cfg g s (.command payload junk oracle)).2.reportsError

def NothingIgnored {g : Grammar} (m : Modifiers g) (cfg : Config) (x : Noted) (payload : Bytes) (junk : Mem)
    (oracle : Oracle) : Prop :=
  x.session.ended = false → failure m oracle x.session.frame (Input.course cfg x.session payload junk) = some false →
    ignoredBy m oracle x.session.frame x.ignored (Input.course cfg x.session payload junk) = false

theorem assignAll_isIgnoreStmt (a : Adapter) (assigns : List (Bytes × Bytes)) :
    (assignAll a assigns).isIgnoreStmt = a.isIgnoreStmt := by
  induction assigns generalizing a with
  | nil => rfl
  | cons assign assigns ih =>
    have one : (applySystemVarValue a assign.1 assign.2).isIgnoreStmt = a.isIgnoreStmt := by
      unfold applySystemVarValue
      split
      · split <;> split <;> rfl
      · rfl
    exact (ih (applySystemVarValue a assign.1 assign.2)).trans one

theorem executed_isIgnoreStmt (s : Session) (more : Bool) (r : StmtResult) :
    (s.executed more r).adapter.isIgnoreStmt = r.effects.ignore.getD s.adapter.isIgnoreStmt := by
  have assigned := assignAll_isIgnoreStmt { s.adapter with moreResultsFlag := more } r.effects.assigns
  simp only [Session.executed, Session.applyEffects, assigned]

theorem sendErrorMessage_isIgnoreStmt (cfg : Config) (a : Adapter) (edata : ErrorData) :
    (sendErrorMessage cfg a edata).1.isIgnoreStmt = a.isIgnoreStmt ∧
      ∃ packet, (sendErrorMessage cfg a edata).2 = [packet] ∧ packet.isErr = !a.isIgnoreStmt := by
  obtain ⟨_, _, _, packet, same, sent⟩ := sendErrorMessage_spec cfg a edata
  rw [same]
  refine ⟨rfl, packet, rfl, ?_⟩
  cases ignored : a.isIgnoreStmt <;> rw [ignored] at sent <;> cases sent <;> rfl

def Output.Answers (out : Output) (ignored : Bool) : Prop :=
  ∃ sent, out.sent.getLast? = some sent ∧ sent.packet.isErr = !ignored

theorem Output.Answers.reportsError_iff {out : Output} {ignored : Bool} (answers : out.Answers ignored) :
    out.reportsError ↔ ignored = false := by
  obtain ⟨sent, last, told⟩ := answers
  constructor
  · rintro ⟨other, same, err⟩
    have equal : sent = other := Option.some.inj (last.symm.trans same)
    rw [← equal, told] at err
    simpa using err
  · intro clear
    exact ⟨sent, last, by rw [told, clear]; rfl⟩

/-- The loop ends with the variable as its parses left it, and the answer to a failure. -/
theorem execStmts_ignored (cfg : Config) (outcomes : Nat → Outcome) (k : Nat) (stmts : List RawStmt) (s : Session) :
    (execStmts cfg outcomes k stmts s).1.adapter.isIgnoreStmt =
        ignoredStmts outcomes k stmts s.block s.adapter.isIgnoreStmt ∧
      ∀ j, failedStmt outcomes k stmts s.block = some j →
        (execStmts cfg outcomes k stmts s).2.Answers
        (ignoredStmts outcomes k stmts s.block s.adapter.isIgnoreStmt) := by
  induction stmts generalizing k s with
  | nil => exact ⟨rfl, fun j failed => by cases failed⟩
  | cons stmt rest ih =>
    generalize ran : s.block.runStmt stmt (outcomes k) = r
    have executed := executed_isIgnoreStmt s (!rest.isEmpty) r
    cases answered : r.answer with
    | ok completion =>
      obtain ⟨left, answers⟩ := ih (k + 1) { s.executed (!rest.isEmpty) r with
        adapter := (endCommand cfg (s.executed (!rest.isEmpty) r).stmts (s.executed (!rest.isEmpty) r).adapter
          completion.1 completion.2).1 }
      rw [(endCommand_kept cfg _ _ _ _).2, executed] at left answers
      rw [execStmts_ok ran answered]
      simp only [ignoredStmts, failedStmt, ran, answered]
      refine ⟨left, fun j failed => ?_⟩
      obtain ⟨sent, last, told⟩ := answers j failed
      exact ⟨sent, by rw [List.getLast?_append, last]; rfl, told⟩
    | error edata =>
      obtain ⟨left, packet, only, told⟩ :=
        sendErrorMessage_isIgnoreStmt cfg (s.executed (!rest.isEmpty) r).adapter edata
      rw [executed] at left told
      rw [execStmts_error ran answered]
      simp only [ignoredStmts, ran, answered]
      refine ⟨left, fun j _ => ⟨⟨some k, packet⟩, ?_, told⟩⟩
      simp only [only, byStmt, map_append, List.getLast?_append, map_cons, map_nil,
        List.getLast?_singleton, Option.some_or]

theorem raise_ignored (cfg : Config) (s : Session) (packets : List Packet) (edata : ErrorData) :
    (s.raise cfg packets edata).1.adapter.isIgnoreStmt = s.adapter.isIgnoreStmt ∧
      (s.raise cfg packets edata).2.Answers s.adapter.isIgnoreStmt := by
  obtain ⟨left, packet, only, told⟩ := sendErrorMessage_isIgnoreStmt cfg s.adapter edata
  refine ⟨left, ⟨none, packet⟩, ?_, told⟩
  simp only [Session.raise, only, byAdapter, map_append, List.getLast?_append, map_cons, map_nil,
    List.getLast?_singleton, Option.some_or]

theorem exec_simple_query_ignored (m : Modifiers g) (cfg : Config) (oracle : Oracle) {x : Trx}
    {route : Route} {text full : Bytes} (parsed : Parsed g (route.added x) text full) (f : Frame) (same : f.trx = x)
    (block : f.block = s.block) :
    (exec_simple_query cfg g oracle s full).1.adapter.isIgnoreStmt =
        ignoredBy m oracle f s.adapter.isIgnoreStmt (.query route text) ∧
      ∀ carried, failure m oracle f (.query route text) = some carried →
        (exec_simple_query cfg g oracle s full).2.Answers
          (ignoredBy m oracle f s.adapter.isIgnoreStmt (.query route text)) := by
  subst same
  unfold exec_simple_query failure ignoredBy
  cases oracle.conversion with
  | some edata =>
    obtain ⟨left, answers⟩ := raise_ignored cfg s [] edata
    exact ⟨left, fun _ _ => answers⟩
  | none =>
    rw [parsed]
    cases read : (g.rawParse text).2 with
    | none =>
      obtain ⟨left, answers⟩ := raise_ignored cfg (s.ignoring (g.rawParse text).1) [] oracle.parseError
      simp only [read]
      exact ⟨left, fun _ _ => answers⟩
    | some client =>
      have loop := execStmts_ignored cfg oracle.outcomes 0 (route.added f.trx ++ client)
        (s.ignoring (lastAssigned (m.of text)))
      rw [m.last read]
      simp only [read, Option.map_some, block]
      generalize route.added f.trx ++ client = stmts at loop
      cases stmts with
      | nil => exact ⟨rfl, fun _ failed => by cases failed⟩
      | cons stmt rest =>
        refine ⟨loop.1, fun carried failed => ?_⟩
        obtain ⟨j, at_j, _⟩ := Option.map_eq_some_iff.mp failed
        exact loop.2 j at_j

theorem step_ignored (m : Modifiers g) (cfg : Config) (alive : s.ended = false)
    (payload : Bytes) (junk : Mem) (oracle : Oracle) :
    (step cfg g s (.command payload junk oracle)).1.adapter.isIgnoreStmt =
        ignoredBy m oracle s.frame s.adapter.isIgnoreStmt (Input.course cfg s payload junk) ∧
      ∀ carried, failure m oracle s.frame (Input.course cfg s payload junk) = some carried →
        (step cfg g s (.command payload junk oracle)).2.Answers
          (ignoredBy m oracle s.frame s.adapter.isIgnoreStmt (Input.course cfg s payload junk)) := by
  obtain ⟨d, processed, turn, handed⟩ := step_handed cfg g alive payload junk oracle
  have standing := (processCommand_standing cfg s.adapter s.stmts (readCommand payload junk).1
    (readCommand payload junk).2).ignored
  rw [processed] at standing
  rw [turn]
  generalize Input.course cfg s payload junk = c at handed
  cases handed with
  | answered | granted | quit | crashed => exact ⟨standing, fun _ failed => by cases failed⟩
  | @raised b t packets edata =>
    have raised := raise_ignored cfg { s with adapter := b, stmts := t } packets edata
    dsimp only [Dispatch.adapter] at raised standing
    rw [standing] at raised
    exact ⟨raised.1, fun _ _ => raised.2⟩
  | @query b t inBuf route text trx parsed =>
    have queried :=
      exec_simple_query_ignored m cfg oracle (s := { s with adapter := b, stmts := t }) parsed s.frame rfl rfl
    dsimp only [Dispatch.adapter] at queried standing
    rw [standing] at queried
    exact queried

theorem Noted.step_agrees (m : Modifiers g) (cfg : Config) (x : Noted) (input : Input)
    (agrees : x.ignored = x.session.adapter.isIgnoreStmt) :
    (x.step m cfg input).1.ignored = (x.step m cfg input).1.session.adapter.isIgnoreStmt := by
  cases input with
  | disconnect =>
    show x.ignored = (OpenHalo.step cfg g x.session .disconnect).1.adapter.isIgnoreStmt
    rw [agrees]
    unfold OpenHalo.step
    split <;> rfl
  | command payload junk oracle =>
    show (if x.session.ended then _ else _) =
        (OpenHalo.step cfg g x.session (.command payload junk oracle)).1.adapter.isIgnoreStmt
    cases ended : x.session.ended with
    | true =>
      rw [OpenHalo.step, ended]
      exact agrees
    | false =>
      rw [(step_ignored m cfg ended payload junk oracle).1, agrees]
      rfl

/-- A command that fails without IGNORE is answered with an error exactly if the last UPDATE or DELETE
parsed says no IGNORE. -/
theorem errors_reported_iff {g : Grammar} (m : Modifiers g) (cfg : Config) (foreign : Int → PreStmtInfo)
    (behindNullBitmap : Nat → UInt8) (inputs : List Input) (payload : Bytes) (junk : Mem) (oracle : Oracle) :
    ReportsErrors m cfg (exec (Noted.step m cfg) (.logon foreign behindNullBitmap) inputs).session payload junk oracle ↔
      NothingIgnored m cfg (exec (Noted.step m cfg) (.logon foreign behindNullBitmap) inputs) payload junk oracle := by
  have agrees : (exec (Noted.step m cfg) (.logon foreign behindNullBitmap) inputs).ignored =
      (exec (Noted.step m cfg) (.logon foreign behindNullBitmap) inputs).session.adapter.isIgnoreStmt :=
    @exec_invariant _ _ _ (Noted.step m cfg) (fun x => x.ignored = x.session.adapter.isIgnoreStmt)
      (Noted.step_agrees m cfg) inputs _ rfl
  refine forall_congr' fun alive => forall_congr' fun failed => ?_
  rw [agrees]
  exact ((step_ignored m cfg alive payload junk oracle).2 false failed).reportsError_iff

/-- A statement by its first words, as `rawStmtOf` reads it. -/
def modifierOf (piece : Bytes) : Modifier :=
  let stmt := piece.dropWhile (· = 32)
  if startsWith stmt (ascii "update ") then .options (startsWith stmt (ascii "update ignore "))
  else if startsWith stmt (ascii "delete ") then .options (startsWith stmt (ascii "delete ignore "))
  else .other (startsWith stmt (ascii "insert ignore "))

def statementsOf (text : Bytes) : List Bytes := (splitStatements text).filter fun piece => piece.dropWhile (· = 32) ≠ []

theorem lastAssigned_cons {modifier : Modifier} (silent : modifier.assigned = none) (modifiers : List Modifier) :
    lastAssigned (modifier :: modifiers) = lastAssigned modifiers := by
  simp [lastAssigned, silent]

theorem statementsOf_cons {word : Bytes} (text : Bytes)
    (splits : splitStatements (word ++ text) = word.dropLast :: splitStatements text)
    (written : word.dropLast.dropWhile (· = 32) ≠ []) (silent : (modifierOf word.dropLast).assigned = none) :
    lastAssigned ((statementsOf (word ++ text)).map modifierOf) =
      lastAssigned ((statementsOf text).map modifierOf) := by
  unfold statementsOf
  rw [splits, filter_cons_of_pos (by simpa using written), map_cons, lastAssigned_cons silent]

/-- Semicolons separate statements, and UPDATE and DELETE assign
`isIgnoreStmt`. -/
def ignoreGrammar : Grammar where
  rawParse text := (lastAssigned ((statementsOf text).map modifierOf), parseStatements text)
  parse_begin text := by
    rw [parseStatements_cons (ascii "begin;") text .begin rfl (by decide),
      statementsOf_cons text rfl (by decide) (by decide)]
  parse_commit text := by
    rw [parseStatements_cons (ascii "commit;") text (.commit false) rfl (by decide),
      statementsOf_cons text rfl (by decide) (by decide)]
  parse_rollback text := by
    rw [parseStatements_cons (ascii "rollback;") text (.rollback false) rfl (by decide),
      statementsOf_cons text rfl (by decide) (by decide)]

theorem rawStmtOf_none_iff {piece : Bytes} {stmt : Option RawStmt} (read : rawStmtOf piece = some stmt) :
    stmt = none ↔ piece.dropWhile (· = 32) = [] := by
  unfold rawStmtOf at read
  by_cases blank : piece.dropWhile (· = 32) = []
  · rw [if_pos blank] at read
    exact ⟨fun _ => blank, fun _ => (Option.some.inj read).symm⟩
  rw [if_neg blank] at read
  refine ⟨fun none => ?_, fun empty => absurd empty blank⟩
  subst none
  repeat' split at read
  all_goals cases read

theorem statements_length {pieces : List Bytes} {stmts : List (Option RawStmt)}
    (read : pieces.mapM rawStmtOf = some stmts) :
    (pieces.filter fun piece => piece.dropWhile (· = 32) ≠ []).length = (stmts.filterMap id).length := by
  induction pieces generalizing stmts with
  | nil =>
    cases read
    rfl
  | cons piece pieces ih =>
    rw [mapM_cons] at read
    obtain ⟨stmt, first, read⟩ := Option.bind_eq_some_iff.mp read
    obtain ⟨later, rest, read⟩ := Option.bind_eq_some_iff.mp read
    cases read
    have blank := rawStmtOf_none_iff first
    have counted := ih rest
    cases stmt with
    | none =>
      rw [filter_cons_of_neg (by simpa using blank.mp rfl)]
      simpa using counted
    | some stmt =>
      have written : piece.dropWhile (· = 32) ≠ [] := fun empty => by cases blank.mpr empty
      rw [filter_cons_of_pos (by simpa using written)]
      simpa using counted

def ignoreGrammar_modifiers : Modifiers ignoreGrammar where
  of text := (statementsOf text).map modifierOf
  each {text client} read := by
    obtain ⟨stmts, all, rfl⟩ := Option.map_eq_some_iff.mp read
    rw [length_map]
    exact statements_length all
  last _ := rfl

def rejecting : Oracle := ⟨none, elogError [], fun _ => .error .nothing (elogError (ascii "relation does not exist"))⟩

/-- A SELECT that fails behind a successful UPDATE IGNORE gets an OK packet. -/
theorem errors_swallowed :
    ¬ReportsErrors ignoreGrammar_modifiers .standard
      (exec (Noted.step ignoreGrammar_modifiers .standard) (.logon (fun _ => .initial) (fun _ => 0))
        [.command (3 :: ascii "update ignore t set a = 1") (fun _ => 0) (.accepting .update [])]).session
      (3 :: ascii "select b from u") (fun _ => 0) rejecting := by
  intro reports
  obtain ⟨sent, last, err⟩ := reports (by decide +kernel) (by decide +kernel)
  have answered : ((step .standard ignoreGrammar
      (exec (Noted.step ignoreGrammar_modifiers .standard) (.logon (fun _ => .initial) (fun _ => 0))
        [.command (3 :: ascii "update ignore t set a = 1") (fun _ => 0) (.accepting .update [])]).session
      (.command (3 :: ascii "select b from u") (fun _ => 0) rejecting)).2.sent.getLast?.map
        fun sent => sent.packet.isErr) = some false := by decide +kernel
  rw [last] at answered
  simp [err] at answered

end OpenHalo
