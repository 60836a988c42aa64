import OpenHalo.Session.Responses
import OpenHalo.Session.TrxMachine

namespace OpenHalo
open Octets Memory Machine

variable {k nprocessed : Nat} {rest stmts : List RawStmt} {s : Session}

/-- What keeps the statements of a client with autocommit off inside a block. -/
structure Guarded (f : Frame) : Prop where
  owed : f.trx.autoCommit = false → f.trx.trxNotCommit = true ∨ f.trx.needStartNewTrx = true
  opened : f.trx.trxNotCommit = true → f.block ≠ .idle
  settled : f.trx.autoCommit = false → f.trx.needCommitTrx = false

def SteadySwitches : Trx → List Bool → Prop
  | _, [] => True
  | x, on :: rest =>
    (on = true ∨ x.autoCommit = true ∨ x.trxNotCommit = true) ∧ SteadySwitches (x.switch on) rest

/-- Statements that end an open block and complete neither as COMMIT nor as ROLLBACK: failing ones, and
PREPARE TRANSACTION. -/
def slipsAway (b : TBlock) : RawStmt → Outcome → Bool
  | .commit _, .error _ _ | .rollback _, .error _ _ | .prepareTransaction, .error _ _ => b != .idle
  | .prepareTransaction, .ok _ _ _ => b == .inProgress
  | _, _ => false

def SteadyStmts (outcomes : Nat → Outcome) : Nat → List RawStmt → Frame → Prop
  | _, [], _ => True
  | k, stmt :: rest, f =>
    SteadySwitches f.trx (f.block.runStmt stmt (outcomes k)).effects.switches ∧
      (f.trx.trxNotCommit = true → slipsAway f.block stmt (outcomes k) = false) ∧
      ∀ tag nprocessed, (f.block.runStmt stmt (outcomes k)).answer = .ok (tag, nprocessed) →
        SteadyStmts outcomes (k + 1) rest (f.after (f.block.runStmt stmt (outcomes k)) tag)

def SteadyCourse (g : Grammar) (oracle : Oracle) (f : Frame) : Course → Prop
  | .query route text =>
    ∀ client, (g.rawParse text).2 = some client →
      SteadyStmts oracle.outcomes 0 (route.added f.trx ++ client) ⟨route.trx f.trx, f.block⟩
  | .answered | .granted | .raised | .finished => True

def Steady (cfg : Config) (g : Grammar) (s : Session) : Input → Prop
  | .disconnect => True
  | .command payload junk oracle => SteadyCourse g oracle s.frame (Input.course cfg s payload junk)

variable {b : TBlock} {outcome : Outcome} {stmt : RawStmt} {f : Frame} {g : Grammar} {cfg : Config} (auto : Bool)
  (outcomes : Nat → Outcome)

theorem Guarded.switches {x : Trx} {switches : List Bool} (guarded : Guarded ⟨x, b⟩)
    (steady : SteadySwitches x switches) :
    Guarded ⟨switches.foldl Trx.switch x, b⟩ := by
  induction switches generalizing x with
  | nil => exact guarded
  | cons on rest ih =>
    obtain ⟨now, later⟩ := steady
    refine ih ⟨?_, guarded.opened, ?_⟩ later
    · intro off
      have turned : on = false := off
      rcases now with up | was | inside
      · simp [turned] at up
      · exact .inr (by simp only [Trx.switch, turned, was, Bool.not_false, Bool.and_self])
      · exact .inl inside
    · intro off
      have turned : on = false := off
      simp [Trx.switch, turned]

theorem Guarded.fail {x : Trx} (guarded : Guarded ⟨x, b⟩) (auto : Bool) : Guarded ⟨x.fail auto, b⟩ := by
  obtain ⟨same, open', due, start⟩ := x.fail_fields auto
  refine ⟨fun off => ?_, fun inside => guarded.opened (open' ▸ inside), fun off => ?_⟩
  · rw [same] at off
    rcases guarded.owed off with inside | fresh
    · exact .inl (open'.trans inside)
    · exact .inr (start fresh)
  · rw [same] at off
    exact due.trans (guarded.settled off)

theorem runStmt_keeps_open (opened : b ≠ .idle) (kept : slipsAway b stmt outcome = false) :
    (b.runStmt stmt outcome).block ≠ .idle ∨
      ∃ nprocessed, (b.runStmt stmt outcome).answer = .ok (.commit, nprocessed) ∨
        (b.runStmt stmt outcome).answer = .ok (.rollback, nprocessed) := by
  cases stmt with
  | begin | start | rollbackTo | savepoint | release | plain =>
    left
    cases b <;> cases outcome <;> first | exact absurd rfl opened | nofun
  | commit chain =>
    cases outcome with
    | ok _ _ nprocessed =>
      cases b with
      | idle => exact absurd rfl opened
      | inProgress => exact .inr ⟨nprocessed, .inl (by cases chain <;> rfl)⟩
      | aborted => exact .inr ⟨nprocessed, .inr (by cases chain <;> rfl)⟩
    | error => cases b <;> first | exact absurd rfl opened | cases kept
  | rollback chain =>
    cases outcome with
    | ok _ _ nprocessed =>
      refine .inr ⟨nprocessed, .inr ?_⟩
      cases b <;> cases chain <;> first | exact absurd rfl opened | rfl
    | error => cases b <;> first | exact absurd rfl opened | cases kept
  | prepareTransaction =>
    cases outcome with
    | ok _ _ nprocessed =>
      cases b with
      | idle => exact absurd rfl opened
      | inProgress => cases kept
      | aborted => exact .inr ⟨nprocessed, .inr rfl⟩
    | error => cases b <;> first | exact absurd rfl opened | cases kept

theorem runStmt_begin_tag (done : (b.runStmt stmt outcome).answer = .ok (.begin, nprocessed)) :
    (b.runStmt stmt outcome).block = .inProgress := by
  cases stmt with
  | begin => rw [(runStmt_begin_ok done).2]
  | commit chain | rollback chain => cases chain <;> cases b <;> cases outcome <;> cases done
  | start | rollbackTo | savepoint | release | prepareTransaction | plain =>
    cases b <;> cases outcome <;> cases done

theorem Guarded.after {tag : CommandTag} (guarded : Guarded f)
    (steady : SteadySwitches f.trx (f.block.runStmt stmt outcome).effects.switches)
    (kept : f.trx.trxNotCommit = true → slipsAway f.block stmt outcome = false)
    (answered : (f.block.runStmt stmt outcome).answer = .ok (tag, nprocessed)) :
    Guarded (f.after (f.block.runStmt stmt outcome) tag) := by
  have switched := guarded.switches steady
  have same := (switches_kept f.trx (f.block.runStmt stmt outcome).effects.switches).1
  unfold Frame.after
  generalize (f.block.runStmt stmt outcome).effects.switches.foldl Trx.switch f.trx = x at switched same
  cases tag with
  | begin =>
    refine ⟨fun _ => .inl rfl, fun _ => ?_, switched.settled⟩
    rw [runStmt_begin_tag answered]
    nofun
  | commit | rollback =>
    refine ⟨fun off => .inr ?_, nofun, switched.settled⟩
    have manual : x.autoCommit = false := off
    simp [Trx.complete, manual]
  | plain tag =>
    refine ⟨switched.owed, fun inside => ?_, switched.settled⟩
    have before : f.trx.trxNotCommit = true := same ▸ inside
    rcases runStmt_keeps_open (guarded.opened before) (kept before) with stays | ⟨_, ended | ended⟩
    · exact stays
    · rw [answered] at ended
      cases ended
    · rw [answered] at ended
      cases ended

theorem Guarded.exec {outcomes : Nat → Outcome} (guarded : Guarded f)
    (steady : SteadyStmts outcomes k stmts f) : Guarded (Frame.exec auto outcomes k stmts f).1 := by
  induction stmts generalizing k f with
  | nil => exact guarded
  | cons stmt rest ih =>
    obtain ⟨switches, kept, later⟩ := steady
    unfold Frame.exec
    dsimp only
    split
    · rename_i tag nprocessed answered
      exact ih (guarded.after switches kept answered) (later tag nprocessed answered)
    rename_i failed
    have switched := guarded.switches switches
    refine Guarded.fail (b := (f.block.runStmt stmt (outcomes k)).block)
      ⟨switched.owed, fun inside => ?_, switched.settled⟩ auto
    have before : f.trx.trxNotCommit = true := (switches_kept f.trx _).1 ▸ inside
    rcases runStmt_keeps_open (guarded.opened before) (kept before) with stays | ⟨_, ended | ended⟩
    · exact stays
    · rw [failed] at ended
      cases ended
    · rw [failed] at ended
      cases ended

theorem Guarded.raise (guarded : Guarded f) (auto : Bool) : Guarded (Frame.raise auto f).1 := by
  have failed := guarded.fail auto
  refine ⟨failed.owed, fun inside => ?_, failed.settled⟩
  have opened := failed.opened inside
  show f.block.abort.1 ≠ .idle
  cases block : f.block with
  | idle => exact absurd block opened
  | inProgress | aborted => decide

theorem Guarded.forward (guarded : Guarded f) : Guarded ⟨f.trx.forward, f.block⟩ :=
  ⟨guarded.owed, guarded.opened, fun _ => rfl⟩

theorem Guarded.route (guarded : Guarded f) (route : Route) : Guarded ⟨route.trx f.trx, f.block⟩ := by
  cases route with
  | forwarded => exact guarded.forward
  | begun => exact { guarded with }
  | direct => exact guarded
  | reset => exact ⟨nofun, guarded.opened, nofun⟩

theorem Guarded.turn (guarded : Guarded f) (auto : Bool) {oracle : Oracle} {c : Course}
    (steady : SteadyCourse g oracle f c)
    (going : (f.turn auto g oracle c).ended = false) : Guarded (f.turn auto g oracle c).frame := by
  cases c with
  | answered => exact guarded
  | granted => exact guarded.forward
  | raised => exact guarded.raise auto
  | finished => cases going
  | query route text =>
    dsimp only [Frame.turn]
    split
    · rename_i client _ list
      exact (guarded.route route).exec auto (steady client list)
    · exact (guarded.route route).raise auto

theorem step_guarded {input : Input} (guarded : s.ended = false → Guarded s.frame) (steady : Steady cfg g s input)
    (going : (step cfg g s input).1.ended = false) : Guarded (step cfg g s input).1.frame := by
  rcases Bool.eq_false_or_eq_true s.ended with finished | alive
  · simp only [step, finished, if_true] at going
    cases going
  cases input with
  | disconnect =>
    simp only [step, alive] at going
    cases going
  | command payload junk oracle =>
    have turn := step_turned cfg g alive payload junk oracle
    obtain ⟨frame, ended, _⟩ := FrameTurn.mk.inj turn
    rw [frame]
    exact (guarded alive).turn _ steady (ended ▸ going)

def RunsInBlock (events : List Event) : Prop :=
  ∀ inBlock, events.find? (fun event => event == .ran true || event == .ran false) = some (.ran inBlock) →
    inBlock = true

theorem Frame.exec_plain_inBlock (k : Nat) (rest : List RawStmt) (opened : f.block ≠ .idle) :
    RunsInBlock (Frame.exec auto outcomes k (.plain :: rest) f).2 := by
  intro inBlock found
  unfold Frame.exec at found
  cases block : f.block with
  | idle => exact absurd block opened
  | inProgress =>
    cases outcome : outcomes k with
    | ok effects tag nprocessed =>
      simp only [block, outcome] at found
      cases found
      rfl
    | error effects edata =>
      simp only [block, outcome] at found
      cases found
  | aborted =>
    simp only [block] at found
    cases found

theorem Frame.exec_before_inBlock {auto : Bool} {outcomes : Nat → Outcome}
    (silent : ∀ inBlock, .ran inBlock ∉ (f.block.runStmt stmt (outcomes k)).events)
    (later : ∀ tag nprocessed, (f.block.runStmt stmt (outcomes k)).answer = .ok (tag, nprocessed) →
      RunsInBlock (Frame.exec auto outcomes (k + 1) rest (f.after (f.block.runStmt stmt (outcomes k)) tag)).2) :
    RunsInBlock (Frame.exec auto outcomes k (stmt :: rest) f).2 := by
  have nothing : (f.block.runStmt stmt (outcomes k)).events.find?
      (fun event => event == .ran true || event == .ran false) = none := by
    rw [List.find?_eq_none]
    intro event member seen
    rcases Bool.or_eq_true_iff.mp seen with inside | outside
    · exact silent true (eq_of_beq inside ▸ member)
    · exact silent false (eq_of_beq outside ▸ member)
  intro inBlock found
  unfold Frame.exec at found
  dsimp only at found
  split at found
  · rename_i tag nprocessed answered
    rw [List.find?_append, nothing] at found
    exact later tag nprocessed answered inBlock found
  · rw [nothing] at found
    cases found

theorem runStmt_silent (control : stmt ≠ .plain) (inBlock : Bool) : .ran inBlock ∉ (b.runStmt stmt outcome).events := by
  -- a statement that controls the block leaves no event, or a single one of another kind
  have single : ∀ {event : Event}, event ≠ .ran inBlock → .ran inBlock ∉ [event] :=
    fun other member => other (List.mem_singleton.mp member).symm
  cases stmt with
  | plain => exact absurd rfl control
  | commit chain | rollback chain =>
    cases chain <;> cases b <;> cases outcome <;> first | exact List.not_mem_nil | exact single (by simp)
  | begin | start | rollbackTo | savepoint | release | prepareTransaction =>
    cases b <;> cases outcome <;> first | exact List.not_mem_nil | exact single (by simp)

theorem Frame.exec_begin_inBlock (k : Nat) (rest : List RawStmt) (f : Frame) :
    RunsInBlock (Frame.exec auto outcomes k (.begin :: .plain :: rest) f).2 := by
  apply exec_before_inBlock (runStmt_silent (by decide))
  intro tag nprocessed answered
  apply exec_plain_inBlock
  rw [(runStmt_begin_ok answered).2]
  nofun

/-- With autocommit off, what is put in front makes a data statement run in a block. -/
theorem Guarded.exec_additional (guarded : Guarded f) (off : f.trx.autoCommit = false) (auto : Bool)
    (outcomes : Nat → Outcome) (rest : List RawStmt) :
    RunsInBlock (Frame.exec auto outcomes 0 (f.trx.additional ++ .plain :: rest) ⟨f.trx.forward, f.block⟩).2 := by
  unfold Trx.additional
  cases pending : f.trx.needAddCommitOrRollbackAfterCurSQL with
  | rollback =>
    apply Frame.exec_before_inBlock (runStmt_silent (by decide))
    intro tag nprocessed answered
    exact Frame.exec_begin_inBlock _ _ _ _ _
  | commit =>
    dsimp only
    rw [guarded.settled off]
    split
    · exact Frame.exec_begin_inBlock _ _ _ _ _
    rename_i inside
    apply Frame.exec_plain_inBlock
    apply guarded.opened
    rcases guarded.owed off with opened | start
    · exact opened
    · simpa [start] using inside

theorem comQueryCourse_some {inBuf text : StringInfo} (found : queryText cfg inBuf = some text) :
    comQueryCourse cfg inBuf = queryCourse cfg text := by
  unfold queryText at found
  unfold comQueryCourse
  split at found
  · rename_i next skip accepted
    rw [accepted]
    dsimp only at found ⊢
    split at found
    · cases found
    rename_i present
    cases found
    rw [if_neg present]
  · cases found
  · cases found

theorem Input.course_query (cfg : Config) (s : Session) (q : Query) :
    Input.course cfg s (3 :: q.text) q.junk = comQueryCourse cfg q.received := by
  rfl

def DataQuery (cfg : Config) (g : Grammar) (q : Query) : Prop :=
  ∃ text rest, queryText cfg q.received = some text ∧ queryWord text = .manipulate ∧
    (g.rawParse text.stmt).2 = some (.plain :: rest)

/-- With autocommit off a transaction is open or owed, and a data statement runs in a block. -/
def OffKeepsBlock (cfg : Config) (g : Grammar) (s : Session) : Prop :=
  s.ended = false → s.adapter.autoCommit = false →
    (s.adapter.trxNotCommit = true ∨ s.adapter.needStartNewTrx = true) ∧
      ∀ q, DataQuery cfg g q → RunsInBlock (serveQuery cfg g s q).2.events

theorem raise_inBlock (f : Frame) : RunsInBlock (Frame.raise auto f).2 := by
  intro inBlock found
  unfold Frame.raise at found
  cases block : f.block <;> rw [block] at found <;> cases found

theorem Guarded.runs_inBlock {q : Query} (guarded : Guarded s.frame) (alive : s.ended = false)
    (off : s.adapter.autoCommit = false) (data : DataQuery cfg g q) : RunsInBlock (serveQuery cfg g s q).2.events := by
  obtain ⟨text, rest, found, word, list⟩ := data
  have events := congrArg FrameTurn.events (step_turned cfg g alive (3 :: q.text) q.junk q.oracle)
  have forwarded : queryCourse cfg text = .query .forwarded text.stmt := by
    unfold queryCourse
    rw [word]
  rw [Input.course_query, comQueryCourse_some found, forwarded] at events
  rw [Frame.turn, list] at events
  show RunsInBlock (turned (serveQuery cfg g s q)).events
  unfold serveQuery
  rw [events]
  split
  · rename_i client _ same
    cases same
    exact guarded.exec_additional off _ _ _
  · exact raise_inBlock cfg.halo_mysql_auto_rollback_tx_on_error ⟨Route.forwarded.trx s.frame.trx, s.frame.block⟩

/-- If SET autocommit=0 is repeated only in a transaction and no open block slips away. -/
theorem autocommit_off_keeps_block (cfg : Config) (g : Grammar) (foreign : Int → PreStmtInfo)
    (behindNullBitmap : Nat → UInt8) (inputs : List Input)
    (steady : Along (step cfg g) (Steady cfg g) (.logon foreign behindNullBitmap) inputs) :
    OffKeepsBlock cfg g (exec (step cfg g) (.logon foreign behindNullBitmap) inputs) := by
  have start : Guarded (Session.logon foreign behindNullBitmap).frame := ⟨nofun, nofun, nofun⟩
  have guarded := steady.invariant (fun _ _ guarded good => step_guarded guarded good) fun _ => start
  intro alive off
  exact ⟨(guarded alive).owed off, fun q data => (guarded alive).runs_inBlock alive off data⟩

def setAutocommit (value : String) : Input :=
  .command (3 :: ascii ("set autocommit=" ++ value)) (fun _ => 0)
    (.accepting .set [(ascii "autocommit", ascii value)])

theorem autocommit_off_keeps_block_once :
    (exec (step .standard plainGrammar) .fresh [setAutocommit "0"]).adapter.autoCommit = false ∧
      OffKeepsBlock .standard plainGrammar (exec (step .standard plainGrammar) .fresh [setAutocommit "0"]) := by
  refine ⟨rfl, ?_⟩
  apply autocommit_off_keeps_block
  refine ⟨?_, trivial⟩
  intro client list
  cases list
  exact ⟨⟨.inr (.inl rfl), trivial⟩, nofun, fun _ _ _ => trivial⟩

/-- The second SET autocommit=0 takes back the transaction the first one owed. -/
theorem autocommit_off_twice_unguarded :
    ¬ OffKeepsBlock .standard plainGrammar
      (exec (step .standard plainGrammar) .fresh [setAutocommit "0", setAutocommit "0"]) := by
  intro kept
  rcases (kept rfl rfl).1 with opened | owed
  · cases opened
  · cases owed

end OpenHalo
