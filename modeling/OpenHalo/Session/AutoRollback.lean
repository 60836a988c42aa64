import OpenHalo.Session.TransactionStatus

namespace OpenHalo
open Octets Memory Machine

def RawStmt.endsTransaction : RawStmt → Bool
  | .commit _ | .rollback _ | .prepareTransaction => true
  | .begin | .start | .rollbackTo | .savepoint | .release | .plain => false

/-- A failed block is ended before the client's statements, by the first or by what is put in front, and
unless the server refuses that, they find no aborted block. -/
def Recovers (outcomes : Nat → Outcome) (added : List RawStmt) (first : RawStmt) : Prop :=
  first.endsTransaction = true ∨
    (∃ stmt ∈ added.head?, stmt.endsTransaction = true) ∧
      ∀ b, runBlocks outcomes 0 added .aborted = some b → b ≠ .aborted

/-- The adapter knows of an open block, and owes a rollback exactly if the block is aborted. -/
structure Armed (f : Frame) : Prop extends Truthful f where
  pending : f.trx.needAddCommitOrRollbackAfterCurSQL = .rollback ↔ f.block = .aborted

/-- A COM_QUERY executed with the block aborted recovers, and the flags fit the block it leaves. -/
def RecoversStep (cfg : Config) (g : Grammar) (s : Session) : Input → Prop
  | .disconnect => True
  | .command payload junk oracle =>
    s.ended = false → s.block = .aborted → (readCommand payload junk).1 = 3 →
      ∀ route text first rest, Input.course cfg s payload junk = .query route text → oracle.conversion = none →
        (g.rawParse text).2 = some (first :: rest) →
          Recovers oracle.outcomes (route.added s.adapter.trx) first ∧
            Armed (step cfg g s (.command payload junk oracle)).1.frame

/-- The statements are honest about the block, and while it is aborted, no SET and no USE is sent. -/
def Recoverable (cfg : Config) (g : Grammar) (s : Session) : Input → Prop
  | .disconnect => True
  | .command payload junk oracle =>
    Honest cfg g s (.command payload junk oracle) ∧
      (s.block = .aborted → ∀ text first rest, Input.course cfg s payload junk = .query .direct text →
        oracle.conversion = none → (g.rawParse text).2 = some (first :: rest) → first.endsTransaction = true)

theorem runStmt_ok_aborted {b : TBlock} {stmt : RawStmt} {outcome : Outcome} {tag : CommandTag} {nprocessed : Nat}
    (answered : (b.runStmt stmt outcome).answer = .ok (tag, nprocessed)) :
    (b.runStmt stmt outcome).block ≠ .aborted ∧ (b = .aborted → tag = .rollback) := by
  cases stmt with
  | commit chain | rollback chain =>
    cases chain <;> cases b <;> cases outcome <;> cases answered <;> exact ⟨nofun, by decide⟩
  | begin | start | rollbackTo | savepoint | release | prepareTransaction | plain =>
    cases b <;> cases outcome <;> cases answered <;> exact ⟨nofun, by simp⟩

theorem Armed.after {f : Frame} {stmt : RawStmt} {outcome : Outcome} {tag : CommandTag} {nprocessed : Nat}
    (armed : Armed f) (honest : misleads f.block stmt outcome = false)
    (answered : (f.block.runStmt stmt outcome).answer = .ok (tag, nprocessed)) :
    Armed (f.after (f.block.runStmt stmt outcome) tag) := by
  obtain ⟨sound, out⟩ := runStmt_ok_aborted answered
  obtain ⟨_, _, owed⟩ := switches_kept f.trx (f.block.runStmt stmt outcome).effects.switches
  refine ⟨armed.toTruthful.after honest answered, ?_⟩
  refine ⟨fun still => ?_, fun aborted => absurd aborted sound⟩
  -- only ROLLBACK leads out of an aborted block, and it settles what is owed
  have aborted : f.block = .aborted := by
    cases tag with
    | rollback => cases still
    | begin | commit | plain => exact armed.pending.mp (owed.symm.trans still)
  rw [out aborted] at still
  cases still

theorem Armed.abort {f : Frame} (armed : Armed f) (switches : List Bool) :
    Armed ⟨(switches.foldl Trx.switch f.trx).fail true, f.block.abort.1⟩ := by
  obtain ⟨_, same, owed⟩ := switches_kept f.trx switches
  have flag := same.trans armed.flag
  refine ⟨armed.toTruthful.abort true switches, ?_⟩
  unfold Trx.fail
  cases block : f.block with
  | idle =>
    rw [block] at flag
    rw [flag, if_neg (by decide), owed, armed.pending, block]
    simp [TBlock.abort]
  | inProgress | aborted =>
    rw [block] at flag
    rw [flag, if_pos (by decide)]
    simp [TBlock.abort]

theorem Armed.route {f : Frame} (armed : Armed f) (route : Route) : Armed ⟨route.trx f.trx, f.block⟩ := by
  have owed : (route.trx f.trx).needAddCommitOrRollbackAfterCurSQL = f.trx.needAddCommitOrRollbackAfterCurSQL := by
    cases route <;> rfl
  refine ⟨armed.toTruthful.route route, ?_⟩
  rw [owed]
  exact armed.pending

theorem armed_kept : Kept true Armed where
  after armed honest answered := armed.after honest answered
  abort switches armed := armed.abort switches
  route route armed := armed.route route

theorem course_query_route {cfg : Config} {s : Session} {payload : Bytes} {junk : Mem} {route : Route} {text : Bytes}
    (query : (readCommand payload junk).1 = 3) (taken : Input.course cfg s payload junk = .query route text) :
    route ≠ .reset := by
  rintro rfl
  have ofByte : Request.ofByte 3 = .query := by decide
  simp only [Input.course, course, query, ofByte, comQueryCourse] at taken
  split at taken
  · cases taken
  · cases taken
  split at taken
  · cases taken
  · unfold queryCourse simulatedCourse at taken
    split at taken <;> first | cases taken | (split at taken <;> first | cases taken | (split at taken <;> cases taken))

theorem Armed.recovers {f : Frame} (armed : Armed f) (aborted : f.block = .aborted) {route : Route}
    (outcomes : Nat → Outcome)
    (first : RawStmt) (reset : route ≠ .reset) (direct : route = .direct → first.endsTransaction = true) :
    Recovers outcomes (route.added f.trx) first := by
  have owed := armed.pending.mpr aborted
  have tracked := armed.tracked
  rw [aborted] at tracked
  cases route with
  | reset => exact absurd rfl reset
  | direct => exact .inl (direct rfl)
  | forwarded =>
    have added : f.trx.additional = [.rollback false, .begin] := by simp only [Trx.additional, owed]
    rw [Route.added, added]
    refine .inr ⟨⟨_, rfl, rfl⟩, fun b ran => ?_⟩
    obtain ⟨_, _, _, ran⟩ := runBlocks_cons ran
    obtain ⟨_, _, begun, ran⟩ := runBlocks_cons ran
    cases ran
    rw [(runStmt_begin_ok begun).2]
    intro other
    cases other
  | begun =>
    have added : f.trx.previousEnd = [.rollback false] := by
      unfold Trx.previousEnd
      rw [tracked, owed]
      rfl
    rw [Route.added, added]
    refine .inr ⟨⟨_, rfl, rfl⟩, fun b ran => ?_⟩
    obtain ⟨_, _, rolled, ran⟩ := runBlocks_cons ran
    cases ran
    rw [(runStmt_rollback_ok rolled).2.1]
    intro other
    cases other

/-- With automatic rollback, every COM_QUERY behind a failure recovers, if no SET or USE is sent to an
aborted block. -/
theorem failures_recovered {cfg : Config} (auto : cfg.halo_mysql_auto_rollback_tx_on_error = true) (g : Grammar)
    (foreign : Int → PreStmtInfo) (behindNullBitmap : Nat → UInt8) (inputs : List Input)
    (recoverable : Along (step cfg g) (Recoverable cfg g) (.logon foreign behindNullBitmap) inputs) :
    Along (step cfg g) (RecoversStep cfg g) (.logon foreign behindNullBitmap) inputs := by
  have start : Armed (Session.logon foreign behindNullBitmap).frame := ⟨⟨rfl, rfl⟩, nofun, nofun⟩
  refine along_of_commands (fun {s payload junk oracle} alive (armed : Armed s.frame) good => ?_)
    (fun s input rest => ?_) recoverable start
  · obtain ⟨honest, ending⟩ := good
    have kept := armed_kept.step (g := g) auto alive armed honest
    refine ⟨fun _ aborted query route text first rest taken converts list => ?_, kept⟩
    have going : (step cfg g s (.command payload junk oracle)).1.ended = false := by
      have turn := congrArg FrameTurn.ended (step_turned cfg g alive payload junk oracle)
      rw [taken] at turn
      simp only [Frame.turn, converts, list] at turn
      exact turn
    refine ⟨armed.recovers aborted oracle.outcomes first (course_query_route query taken) ?_, kept going⟩
    rintro rfl
    exact ending aborted text first rest taken converts list
  · rcases rest with finished | rfl
    · cases input with
      | disconnect => trivial
      | command payload junk oracle =>
        intro alive
        rw [finished] at alive
        cases alive
    · trivial

def recoveringConfig : Config := { Config.standard with halo_mysql_auto_rollback_tx_on_error := true }

def rejectedQuery (text : String) : Input :=
  .command (3 :: ascii text) (fun _ => 0) ⟨none, elogError [],
    fun _ => .error .nothing (elogError (ascii "division by zero"))⟩

/-- A SELECT behind one that failed. -/
theorem failures_recovered_select :
    Along (step recoveringConfig plainGrammar) (RecoversStep recoveringConfig plainGrammar) .fresh
      [acceptedQuery "begin", rejectedQuery "select 1/0", acceptedQuery "select 1"] := by
  refine failures_recovered rfl plainGrammar (fun _ => .initial) (fun _ => 0) _ ⟨⟨?_, ?_⟩, ⟨?_, ?_⟩, ⟨?_, ?_⟩, trivial⟩
  · intro _ client list
    cases list
    exact ⟨rfl, fun _ _ => trivial⟩
  · nofun
  · intro _ client list
    cases list
    exact ⟨rfl, fun _ _ => trivial⟩
  · nofun
  · intro _ client list
    cases list
    exact ⟨rfl, fun _ _ => ⟨rfl, fun _ _ => ⟨rfl, fun _ _ => trivial⟩⟩⟩
  · nofun

/-- A SET behind a statement that failed goes to the aborted block. -/
theorem failures_not_recovered_set :
    ¬Along (step recoveringConfig plainGrammar) (RecoversStep recoveringConfig plainGrammar) .fresh
      [acceptedQuery "begin", rejectedQuery "select 1/0", acceptedQuery "set a = 1"] := by
  intro run
  have third := run.2.2.1
  obtain ⟨recovers, _⟩ :=
    third (by decide +kernel) (by decide +kernel) (by decide +kernel) .direct (ascii "set a = 1") .plain []
    (by decide +kernel) rfl (by decide +kernel)
  rcases recovers with ends | ⟨⟨stmt, head, _⟩, _⟩
  · cases ends
  · cases head

end OpenHalo
