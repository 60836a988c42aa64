import OpenHalo.Session.Autocommit

namespace OpenHalo
open Octets Memory Machine

structure CommitDue (f : Frame) : Prop where
  due : f.trx.needCommitTrx = true
  tracked : f.trx.trxNotCommit = true
  pending : f.trx.needAddCommitOrRollbackAfterCurSQL = .commit
  opened : f.block = .inProgress

def Outcome.succeeds : Outcome → Bool
  | .ok _ _ _ => true
  | .error _ _ => false

/-- The command reaches the server with a COMMIT at its head that goes through. -/
def BringsCommit (g : Grammar) (oracle : Oracle) : Course → Prop
  | .query route text =>
    oracle.conversion = none ∧ (oracle.outcomes 0).succeeds = true ∧
      match route with
      | .forwarded | .begun => (g.rawParse text).2.isSome = true
      | .direct | .reset => ∃ chain rest, (g.rawParse text).2 = some (.commit chain :: rest)
  | .answered | .granted | .raised | .finished => False

def Delivers (cfg : Config) (g : Grammar) : Session → List Input → Prop
  | _, [] => True
  | _, .disconnect :: _ => False
  | s, .command payload junk oracle :: rest =>
    BringsCommit g oracle (Input.course cfg s payload junk) ∨
      Input.course cfg s payload junk = .answered ∧
        Delivers cfg g (step cfg g s (.command payload junk oracle)).1 rest

def CommitsFirst (events : List Event) : Prop := ∀ event, events.head? = some event → event = .committed

variable {f : Frame} {g : Grammar}

theorem Frame.exec_commit_head (auto : Bool) {outcomes : Nat → Outcome} {k : Nat} (chain : Bool) (rest : List RawStmt)
    (opened : f.block = .inProgress) (succeeds : (outcomes k).succeeds = true) :
    (Frame.exec auto outcomes k (.commit chain :: rest) f).2.head? = some .committed := by
  cases outcome : outcomes k with
  | error effects edata =>
    rw [outcome] at succeeds
    cases succeeds
  | ok effects tag nprocessed =>
    have ran : f.block.runStmt (.commit chain) (outcomes k) =
        ⟨chained chain, [.committed], .nothing, .ok (.commit, nprocessed)⟩ := by
      rw [opened, outcome]
      cases chain <;> rfl
    rw [Frame.exec, ran]
    rfl

theorem CommitDue.additional (due : CommitDue f) : f.trx.additional = [.commit false] := by
  simp only [Trx.additional, due.pending, due.tracked, due.due, Bool.not_true, Bool.and_false,
    Bool.false_eq_true, Bool.and_self, if_true, if_false]

theorem CommitDue.previousEnd (due : CommitDue f) : f.trx.previousEnd = [.commit false] := by
  simp only [Trx.previousEnd, due.pending, due.tracked, if_true]

theorem CommitDue.brought (due : CommitDue f) (auto : Bool) {oracle : Oracle} {c : Course}
    (brings : BringsCommit g oracle c) :
    (f.turn auto g oracle c).events.head? = some .committed := by
  cases c with
  | answered | granted | raised | finished => exact brings.elim
  | query route text =>
    obtain ⟨converted, succeeds, parses⟩ := brings
    have commits : ∃ chain rest client, (g.rawParse text).2 = some client ∧
        route.added f.trx ++ client = .commit chain :: rest := by
      cases route with
      | forwarded =>
        obtain ⟨client, list⟩ := Option.isSome_iff_exists.mp parses
        exact ⟨false, client, client, list, by rw [Route.added, due.additional]; rfl⟩
      | begun =>
        obtain ⟨client, list⟩ := Option.isSome_iff_exists.mp parses
        exact ⟨false, client, client, list, by rw [Route.added, due.previousEnd]; rfl⟩
      | direct | reset =>
        obtain ⟨chain, rest, list⟩ := parses
        exact ⟨chain, rest, _, list, rfl⟩
    obtain ⟨chain, rest, client, list, stmts⟩ := commits
    simp only [Frame.turn, converted, list, stmts]
    exact Frame.exec_commit_head auto chain rest due.opened succeeds

theorem commitsFirst_append {events later : List Event} (first : events.head? = some .committed) :
    CommitsFirst (events ++ later) := by
  intro event head
  rw [List.head?_append, first] at head
  cases head
  rfl

theorem Delivers.commits {cfg : Config} {s : Session} {inputs : List Input} (delivers : Delivers cfg g s inputs)
    (alive : s.ended = false) (due : CommitDue s.frame) :
    CommitsFirst ((outputs (step cfg g) s inputs).flatMap (·.events)) := by
  induction inputs generalizing s with
  | nil => nofun
  | cons input rest ih =>
    cases input with
    | disconnect => exact delivers.elim
    | command payload junk oracle =>
      have turn := step_turned cfg g alive payload junk oracle
      have events := congrArg FrameTurn.events turn
      simp only [turned] at events
      rw [outputs, List.flatMap_cons, events]
      rcases delivers with brings | ⟨answered, later⟩
      · exact commitsFirst_append (due.brought _ brings)
      rw [answered] at turn ⊢
      obtain ⟨frame, ended, _⟩ := FrameTurn.mk.inj turn
      exact ih later ended (frame ▸ due)

structure OpenUnderOff (s : Session) : Prop where
  alive : s.ended = false
  off : s.adapter.autoCommit = false
  opened : s.block = .inProgress

/-- The adapter knows about the open block and means to commit it. -/
structure MeansToCommit (s : Session) : Prop where
  tracked : s.adapter.trxNotCommit = true
  pending : s.adapter.needAddCommitOrRollbackAfterCurSQL = .commit

/-- A COM_QUERY whose SET turns autocommit on and is answered with OK. -/
def SetsAutocommitOn (cfg : Config) (g : Grammar) (q : Query) : Prop :=
  ∃ text effects tag nprocessed, queryText cfg q.received = some text ∧ queryWord text = .set ∧
    q.oracle.conversion = none ∧ (g.rawParse text.stmt).2 = some [.plain] ∧
    q.oracle.outcomes 0 = .ok effects tag nprocessed ∧ effects.switches = [true]

theorem SetsAutocommitOn.due {cfg : Config} {s : Session} {q : Query} (set : SetsAutocommitOn cfg g q)
    (opened : OpenUnderOff s)
    (means : MeansToCommit s) : (serveQuery cfg g s q).1.ended = false ∧ CommitDue (serveQuery cfg g s q).1.frame := by
  obtain ⟨text, effects, tag, nprocessed, found, word, converted, list, outcome, on⟩ := set
  have turn := step_turned cfg g opened.alive (3 :: q.text) q.junk q.oracle
  have direct : queryCourse cfg text = .query .direct text.stmt := by
    unfold queryCourse
    rw [word]
  have block : s.frame.block = .inProgress := opened.opened
  have ran : TBlock.runStmt .inProgress .plain (q.oracle.outcomes 0) =
      ⟨.inProgress, [.ran true], effects, .ok (.plain tag, nprocessed)⟩ := by
    rw [outcome]
    rfl
  rw [Input.course_query, comQueryCourse_some found, direct] at turn
  simp only [Frame.turn, converted, list, Route.added, Route.trx, List.nil_append, Frame.exec, block, ran,
    FrameTurn.of, Frame.after, on, List.foldl_cons, List.foldl_nil] at turn
  obtain ⟨frame, ended, _⟩ := FrameTurn.mk.inj turn
  have manual : s.frame.trx.autoCommit = false := opened.off
  refine ⟨ended, ?_⟩
  unfold serveQuery
  rw [frame]
  exact ⟨by simp only [Trx.complete, Trx.switch, manual, Bool.not_false, Bool.and_self], means.tracked,
    means.pending, rfl⟩

/-- Behind SET autocommit=1 in an open block, the first command that reaches the server commits the
block before anything else. -/
theorem set_autocommit_on_commits (cfg : Config) (g : Grammar) (foreign : Int → PreStmtInfo)
    (behindNullBitmap : Nat → UInt8) (before : List Input) (q : Query) (after : List Input)
    (opened : OpenUnderOff (exec (step cfg g) (.logon foreign behindNullBitmap) before))
    (set : SetsAutocommitOn cfg g q)
    (means : MeansToCommit (exec (step cfg g) (.logon foreign behindNullBitmap) before))
    (delivers : Delivers cfg g
      (serveQuery cfg g (exec (step cfg g) (.logon foreign behindNullBitmap) before) q).1 after) :
    CommitsFirst ((outputs (step cfg g)
      (serveQuery cfg g (exec (step cfg g) (.logon foreign behindNullBitmap) before) q).1 after).flatMap
      (·.events)) := by
  obtain ⟨alive, due⟩ := set.due opened means
  exact delivers.commits alive due

def plainQuery (text : String) (tag : PlainTag) : Input :=
  .command (3 :: ascii text) (fun _ => 0) (.accepting tag [])

def autocommitOn : Query := .of "set autocommit=1" (.accepting .set [(ascii "autocommit", ascii "1")])

theorem autocommitOn_sets : SetsAutocommitOn .standard plainGrammar autocommitOn :=
  ⟨_, _, _, _, rfl, by decide, rfl, by decide, rfl, by decide⟩

theorem set_autocommit_on_commits_select :
    CommitsFirst ((outputs (step .standard plainGrammar)
      (serveQuery .standard plainGrammar
        (exec (step .standard plainGrammar) .fresh [setAutocommit "0", plainQuery "select 1" .select])
        autocommitOn).1
      [.command [14] (fun _ => 0) (.accepting .other []), plainQuery "select 2" .select]).flatMap (·.events)) := by
  refine set_autocommit_on_commits .standard plainGrammar _ _ _ _ _ ⟨rfl, rfl, rfl⟩ autocommitOn_sets ⟨rfl, rfl⟩ ?_
  exact .inr ⟨rfl, .inl ⟨rfl, rfl, rfl⟩⟩

/-- A client that quits instead loses the transaction. -/
theorem set_autocommit_on_quit :
    OpenUnderOff (exec (step .standard plainGrammar) .fresh
        [setAutocommit "0", plainQuery "insert into t values (1)" .insert]) ∧
      SetsAutocommitOn .standard plainGrammar autocommitOn ∧
      ¬ CommitsFirst ((outputs (step .standard plainGrammar)
        (serveQuery .standard plainGrammar
          (exec (step .standard plainGrammar) .fresh
            [setAutocommit "0", plainQuery "insert into t values (1)" .insert])
          autocommitOn).1
        [.command [1] (fun _ => 0) (.accepting .other [])]).flatMap (·.events)) := by
  refine ⟨⟨rfl, rfl, rfl⟩, autocommitOn_sets, ?_⟩
  intro commits
  exact absurd (commits .rolledBack rfl) (by decide)

end OpenHalo
