import OpenHalo.Lib.Machine
import OpenHalo.AdditionalSQL

namespace OpenHalo
open Octets Memory Machine List

variable {nprocessed : Nat} {rest stmts xs ys zs : List RawStmt} {stmt : RawStmt} {tag : CommandTag} {text : StringInfo}
variable {origLen : Int}

def finals (sent : List Sent) : Nat := (sent.filter (·.packet.final)).length

@[simp] theorem finals_nil : finals [] = 0 := rfl

theorem finals_append (xs ys : List Sent) : finals (xs ++ ys) = finals xs + finals ys := by
  simp [finals]

theorem finals_byStmt_rows (k rows : Nat) : finals (byStmt k (List.replicate rows .data)) = 0 := by
  simp [finals, byStmt, Packet.final]

def Quiet (a : Adapter) : Prop :=
  a.addBeforeBeforeCurSQL = false ∧ a.addCommitOrRollBackBeforeCurSQL = false

/-- A COM_QUERY is being executed and nothing suppresses its packets. -/
structure Ready (a : Adapter) : Prop where
  quiet : Quiet a
  noScript : a.preOrPostSQLNum = 0
  noPrepare : a.isExtendPreStmt = false
  noClose : a.isExtendCloseStmt = false
  noReset : a.isResetConnStmt = false

variable {a : Adapter} {s : Session} {packets : List Packet} {k : Nat} {outcomes : Nat → Outcome} {cfg : Config}
  {pre : List RawStmt} {oracle : Oracle} {g : Grammar} {t : PreStmts}

theorem startCommand_ready (quiet : Quiet a) : Ready (startCommand a) :=
  ⟨quiet, rfl, rfl, rfl, rfl⟩

/-- One packet was sent, the last unless more statements follow, and nothing is suppressed afterwards. -/
structure Reports (a : Adapter) (r : Adapter × List Packet) : Prop where
  packet : ∃ packet, r.2 = [packet] ∧ packet.final = !a.moreResultsFlag
  ready : Ready r.1
  ignore : r.1.isIgnoreStmt = a.isIgnoreStmt

theorem reports_ok {a b c : Adapter} (ready : Ready c) (same : b.moreResultsFlag = a.moreResultsFlag)
    (ignore : c.isIgnoreStmt = a.isIgnoreStmt) : Reports a (c, [sendOKPacket b]) :=
  ⟨⟨_, rfl, congrArg (!·) same⟩, ready, ignore⟩

theorem reports_eof {a b c : Adapter} (ready : Ready c) (same : b.moreResultsFlag = a.moreResultsFlag)
    (ignore : c.isIgnoreStmt = a.isIgnoreStmt) : Reports a (c, [sendEOFPacketFlush b]) :=
  ⟨⟨_, rfl, congrArg (!·) same⟩, ready, ignore⟩

theorem endPlain_reports (ready : Ready a) (cfg : Config) (t : PreStmts) (tag : PlainTag) (nprocessed : Nat) :
    Reports a (endPlain cfg t a tag nprocessed) := by
  cases tag with
  | execute | select => exact reports_eof { ready with } rfl rfl
  | insert | update | delete | truncateTable | savepoint | release | startTransaction | call =>
    exact reports_ok { ready with } rfl rfl
  | prepare =>
    simp only [endPlain, ready.noPrepare]
    exact reports_ok { ready with } rfl rfl
  | deallocate =>
    simp only [endPlain, ready.noClose]
    exact reports_ok { ready with } rfl rfl
  | deallocateAll => exact reports_ok { ready with noReset := rfl } rfl rfl
  | set =>
    simp only [endPlain, endSet]
    split
    · exact reports_ok { ready with } rfl rfl
    · split <;> exact reports_ok { ready with } rfl rfl
  | definition =>
    simp only [endPlain, ready.noScript]
    exact reports_ok { ready with } rfl rfl
  | other => exact reports_eof { ready with } rfl rfl

theorem endCommand_reports (ready : Ready a) (cfg : Config) (t : PreStmts) (tag : CommandTag) (nprocessed : Nat) :
    Reports a (endCommand cfg t a tag nprocessed) := by
  obtain ⟨begun, ended⟩ := ready.quiet
  cases tag with
  | begin =>
    simp only [endCommand, endBegin, begun]
    exact reports_ok { ready with quiet := ⟨rfl, ended⟩ } rfl rfl
  | commit =>
    simp only [endCommand, endCommit, ended]
    exact reports_ok { ready with quiet := ⟨begun, rfl⟩ } rfl rfl
  | rollback =>
    simp only [endCommand, endRollback, ended, ready.noReset]
    exact reports_ok { ready with quiet := ⟨begun, rfl⟩, noReset := rfl } rfl rfl
  | plain tag => exact endPlain_reports ready cfg t tag _

/-- One packet answers an error; it ends the response unless it is swallowed and more follows. -/
theorem sendErrorMessage_ready (ready : Ready a) (cfg : Config) (edata : ErrorData) :
    ∃ packet, (sendErrorMessage cfg a edata).2 = [packet] ∧
      packet.final = (!a.isIgnoreStmt || !a.moreResultsFlag) ∧ Ready (sendErrorMessage cfg a edata).1 := by
  obtain ⟨_, _, _, packet, same, sent⟩ := sendErrorMessage_spec cfg a edata
  rw [same]
  refine ⟨packet, rfl, ?_, { ready with }⟩
  cases ignored : a.isIgnoreStmt <;> rw [ignored] at sent <;> cases sent <;> rfl

theorem assignAll_ready (ready : Ready a) (assigns : List (Bytes × Bytes)) :
    Ready (assignAll a assigns) ∧ (assignAll a assigns).moreResultsFlag = a.moreResultsFlag ∧
      (assignAll a assigns).isIgnoreStmt = a.isIgnoreStmt := by
  induction assigns generalizing a with
  | nil => exact ⟨ready, rfl, rfl⟩
  | cons assign assigns ih =>
    have one : Ready (applySystemVarValue a assign.1 assign.2) ∧
        (applySystemVarValue a assign.1 assign.2).moreResultsFlag = a.moreResultsFlag ∧
        (applySystemVarValue a assign.1 assign.2).isIgnoreStmt = a.isIgnoreStmt := by
      unfold applySystemVarValue
      split
      · split <;> split <;> exact ⟨{ ready with }, rfl, rfl⟩
      · exact ⟨{ ready with }, rfl, rfl⟩
    obtain ⟨kept, more, ignore⟩ := ih one.1
    exact ⟨kept, more.trans one.2.1, ignore.trans one.2.2⟩

theorem executed_ready (ready : Ready s.adapter) (more : Bool) (r : StmtResult) :
    Ready (s.executed more r).adapter ∧ (s.executed more r).adapter.moreResultsFlag = more ∧
      (s.executed more r).adapter.isIgnoreStmt = r.effects.ignore.getD s.adapter.isIgnoreStmt := by
  have begun : Ready { s.adapter with moreResultsFlag := more } := { ready with }
  obtain ⟨ready, flag, ignore⟩ := assignAll_ready begun r.effects.assigns
  exact ⟨{ ready with }, flag, congrArg (r.effects.ignore.getD ·) ignore⟩

def IgnoredFailure (outcomes : Nat → Outcome) : Nat → List RawStmt → TBlock → Bool → Prop
  | _, [], _, _ => False
  | k, stmt :: rest, block, ignore =>
    let r := block.runStmt stmt (outcomes k)
    let ignore := r.effects.ignore.getD ignore
    match r.answer with
    | .ok _ => IgnoredFailure outcomes (k + 1) rest r.block ignore
    | .error _ => ignore = true ∧ rest ≠ []

/-- What holds of the response to statements `k` and later. -/
structure Responded (k : Nat) (r : Session × Output) : Prop where
  once : finals r.2.sent = 1
  origin : ∀ sent ∈ r.2.sent, ∀ j, sent.origin = some j → k ≤ j
  quiet : Quiet r.1.adapter

theorem finals_rows_packet (k rows : Nat) (packet : Packet) :
    finals (byStmt k (List.replicate rows .data ++ [packet])) = if packet.final then 1 else 0 := by
  unfold byStmt
  rw [map_append, finals_append]
  have none : finals (List.map (Sent.mk (some k)) (List.replicate rows .data)) = 0 := finals_byStmt_rows k rows
  rw [none]
  cases final : packet.final <;> simp [finals, final]

theorem origin_byStmt {k j : Nat} {sent : Sent} (member : sent ∈ byStmt k packets) (origin : sent.origin = some j) :
    k ≤ j := by
  obtain ⟨packet, _, rfl⟩ := mem_map.mp member
  cases origin
  exact Nat.le_refl _

theorem execStmts_responded (cfg : Config) (ready : Ready s.adapter) (present : stmts ≠ [])
    (reported : ¬ IgnoredFailure outcomes k stmts s.block s.adapter.isIgnoreStmt) :
    Responded k (execStmts cfg outcomes k stmts s) := by
  induction stmts generalizing k s with
  | nil => exact absurd rfl present
  | cons stmt rest ih =>
    rw [IgnoredFailure] at reported
    generalize ran : s.block.runStmt stmt (outcomes k) = r at reported
    obtain ⟨executed, more, ignore⟩ := executed_ready ready (!rest.isEmpty) r
    cases answered : r.answer with
    | ok completion =>
      obtain ⟨⟨packet, only, final⟩, kept, same⟩ := endCommand_reports executed cfg
        (s.executed (!rest.isEmpty) r).stmts completion.1 completion.2
      rw [execStmts_ok ran answered]
      dsimp only
      rw [only]
      rw [more] at final
      cases rest with
      | nil =>
        refine ⟨?_, ?_, kept.quiet⟩
        · simp only [execStmts, append_nil]
          rw [finals_rows_packet, final]
          rfl
        · intro sent member j origin
          simp only [execStmts, append_nil] at member
          exact origin_byStmt member origin
      | cons next rest =>
        simp only [answered] at reported
        rw [← ignore, ← same] at reported
        have tail := ih (s := { s.executed true r with adapter := _ }) kept (cons_ne_nil _ _) reported
        refine ⟨?_, ?_, tail.quiet⟩
        · rw [finals_append, finals_rows_packet, final]
          exact (Nat.zero_add _).trans tail.once
        · intro sent member j origin
          rcases mem_append.mp member with first | second
          · exact origin_byStmt first origin
          · exact Nat.le_of_succ_le (tail.origin sent second j origin)
    | error edata =>
      obtain ⟨packet, only, final, kept⟩ := sendErrorMessage_ready executed cfg edata
      rw [execStmts_error ran answered]
      dsimp only
      rw [only]
      have ends : packet.final = true := by
        cases rest <;> simp_all
      refine ⟨?_, ?_, kept.quiet⟩
      · rw [finals_rows_packet, ends]
        rfl
      · intro sent member j origin
        exact origin_byStmt member origin

theorem executed_nothing {more : Bool} {r : StmtResult} (nothing : r.effects = .nothing) :
    s.executed more r =
      { s with adapter := { s.adapter with moreResultsFlag := more }, block := r.block } := by
  rw [Session.executed, nothing]
  rfl

/-- Statements before number `k'` send nothing of the response to `stmts`, and leave `t` to the rest. -/
def SkipsTo (cfg : Config) (outcomes : Nat → Outcome) (k : Nat) (stmts : List RawStmt) (s : Session)
    (k' : Nat) (rest : List RawStmt) (t : Session) : Prop :=
  (execStmts cfg outcomes k stmts s).1 = (execStmts cfg outcomes k' rest t).1 ∧
    (execStmts cfg outcomes k stmts s).2.sent = (execStmts cfg outcomes k' rest t).2.sent

theorem SkipsTo.trans {k k' k'' : Nat} {s t u : Session} (first : SkipsTo cfg outcomes k xs s k' ys t)
    (second : SkipsTo cfg outcomes k' ys t k'' zs u) : SkipsTo cfg outcomes k xs s k'' zs u :=
  ⟨first.1.trans second.1, first.2.trans second.2⟩

theorem execStmts_silent (answered : (s.block.runStmt stmt (outcomes k)).answer = .ok (tag, nprocessed))
    (nothing : (s.block.runStmt stmt (outcomes k)).effects = .nothing)
    (silent : (endCommand cfg s.stmts { s.adapter with moreResultsFlag := !rest.isEmpty } tag nprocessed).2 =
      []) :
    SkipsTo cfg outcomes k (stmt :: rest) s (k + 1) rest
      { s with
        adapter := (endCommand cfg s.stmts { s.adapter with moreResultsFlag := !rest.isEmpty } tag nprocessed).1
        block := (s.block.runStmt stmt (outcomes k)).block } := by
  unfold SkipsTo
  rw [execStmts_ok rfl answered, executed_nothing nothing]
  dsimp only
  rw [silent, nothing]
  exact ⟨rfl, rfl⟩

/-- The flags that go with the statements put in front of a command. -/
inductive Owed : List RawStmt → Bool → Bool → Prop
  | none : Owed [] false false
  | begin : Owed [.begin] true false
  | commit : Owed [.commit false] false true
  | rollback : Owed [.rollback false] false true
  | both : Owed [.rollback false, .begin] true true

/-- A command is about to run behind the statements `pre`. -/
structure Preceded (pre : List RawStmt) (a : Adapter) : Prop where
  owed : Owed pre a.addBeforeBeforeCurSQL a.addCommitOrRollBackBeforeCurSQL
  noScript : a.preOrPostSQLNum = 0
  noPrepare : a.isExtendPreStmt = false
  noClose : a.isExtendCloseStmt = false
  noReset : a.isResetConnStmt = false

theorem Preceded.ready (preceded : Preceded [] a) : Ready a := by
  have owed := preceded.owed
  refine { preceded with quiet := ?_ }
  generalize begun : a.addBeforeBeforeCurSQL = x at owed
  generalize ended : a.addCommitOrRollBackBeforeCurSQL = y at owed
  cases owed
  exact ⟨begun, ended⟩

theorem Preceded.skips (cfg : Config) (rest : List RawStmt)
    (preceded : Preceded (stmt :: pre) s.adapter)
    (answered : (s.block.runStmt stmt (outcomes k)).answer = .ok (tag, nprocessed)) :
    ∃ t, SkipsTo cfg outcomes k (stmt :: rest) s (k + 1) rest t ∧ Preceded pre t.adapter ∧
      t.block = (s.block.runStmt stmt (outcomes k)).block ∧
      t.adapter.isIgnoreStmt = s.adapter.isIgnoreStmt := by
  have owed := preceded.owed
  generalize begun : s.adapter.addBeforeBeforeCurSQL = x at owed
  generalize ended : s.adapter.addCommitOrRollBackBeforeCurSQL = y at owed
  cases owed with
  | begin =>
    obtain ⟨_, result⟩ := runStmt_begin_ok answered
    obtain rfl : tag = .begin := by
      rw [result] at answered
      cases answered
      rfl
    refine ⟨_, execStmts_silent answered (by rw [result]) ?_, { preceded with owed := ?_ }, rfl, rfl⟩
    · simp only [endCommand, endBegin, begun, if_true]
    · simp only [endCommand, endBegin, ended]
      exact .none
  | commit =>
    obtain ⟨tags, _, nothing⟩ := runStmt_commit_ok answered
    rcases tags with rfl | rfl
    all_goals
      refine ⟨_, execStmts_silent answered nothing ?_, { preceded with owed := ?_ }, rfl, rfl⟩
      · simp only [endCommand, endCommit, endRollback, ended, Bool.true_or, if_true]
      · simp only [endCommand, endCommit, endRollback, begun]
        exact .none
  | rollback | both =>
    obtain ⟨rfl, _, nothing⟩ := runStmt_rollback_ok answered
    refine ⟨_, execStmts_silent answered nothing ?_, { preceded with owed := ?_ }, rfl, rfl⟩
    · simp only [endCommand, endRollback, ended, Bool.true_or, if_true]
    · simp only [endCommand, endRollback, begun]
      constructor

theorem Preceded.skipsAll (cfg : Config) (client : List RawStmt) {last : TBlock} (preceded : Preceded pre s.adapter)
    (ran : runBlocks outcomes k pre s.block = some last) :
    ∃ t, SkipsTo cfg outcomes k (pre ++ client) s (k + pre.length) client t ∧ Ready t.adapter ∧
      t.block = last ∧ t.adapter.isIgnoreStmt = s.adapter.isIgnoreStmt := by
  induction pre generalizing k s with
  | nil =>
    cases ran
    exact ⟨s, ⟨rfl, rfl⟩, preceded.ready, rfl, rfl⟩
  | cons stmt pre ih =>
    obtain ⟨tag, nprocessed, answered, later⟩ := runBlocks_cons ran
    obtain ⟨t, first, kept, block, ignore⟩ := preceded.skips cfg (pre ++ client) answered
    rw [← block] at later
    obtain ⟨u, second, ready, final, same⟩ := ih kept later
    refine ⟨u, ?_, ready, final, same.trans ignore⟩
    have count : k + 1 + pre.length = k + (stmt :: pre).length := by
      simp only [length_cons]
      omega
    rw [← count]
    exact first.trans second

/-- When a text behind the statements `pre` is answered properly. -/
structure AnswerableText (g : Grammar) (oracle : Oracle) (block : TBlock) (ignore : Bool)
    (pre : List RawStmt) (text : Bytes) : Prop where
  executed : pre ≠ [] → oracle.conversion = none ∧
    (∃ stmt rest, (g.rawParse text).2 = some (stmt :: rest)) ∧ runBlocks oracle.outcomes 0 pre block ≠ none
  reported : ∀ stmts last, oracle.conversion = none → (g.rawParse text).2 = some stmts →
    runBlocks oracle.outcomes 0 pre block = some last →
    ¬ IgnoredFailure oracle.outcomes pre.length stmts last ((g.rawParse text).1.getD ignore)

theorem finals_byAdapter (packets : List Packet) :
    finals (byAdapter packets) = (packets.filter Packet.final).length := by
  simp [finals, byAdapter, filter_map, Function.comp_def]

theorem responded_byAdapter {events : List Event} (once : (packets.filter Packet.final).length = 1)
    (quiet : Quiet s.adapter) :
    Responded k (s, ⟨byAdapter packets, events⟩) := by
  refine ⟨(finals_byAdapter packets).trans once, ?_, quiet⟩
  intro sent member j origin
  obtain ⟨packet, _, rfl⟩ := mem_map.mp member
  cases origin

theorem raise_responded (ready : Ready s.adapter) (single : s.adapter.moreResultsFlag = false)
    (data : packets.filter Packet.final = []) (edata : ErrorData) : Responded k (s.raise cfg packets edata) := by
  obtain ⟨packet, only, final, kept⟩ := sendErrorMessage_ready ready cfg edata
  rw [single] at final
  refine responded_byAdapter ?_ kept.quiet
  rw [only, filter_append, data]
  simp [final]

theorem execParsed_responded {list : Option (List RawStmt)} (preceded : Preceded pre s.adapter)
    (single : s.adapter.moreResultsFlag = false)
    (executed : pre ≠ [] → (∃ stmt rest, list = some (stmt :: rest)) ∧
      runBlocks oracle.outcomes 0 pre s.block ≠ none)
    (reported : ∀ stmts last, list = some stmts → runBlocks oracle.outcomes 0 pre s.block = some last →
      ¬ IgnoredFailure oracle.outcomes pre.length stmts last s.adapter.isIgnoreStmt) :
    Responded pre.length (execParsed cfg oracle s (list.map (pre ++ ·))) := by
  cases pre with
  | nil =>
    have ready := preceded.ready
    cases list with
    | none => exact raise_responded ready single rfl _
    | some stmts =>
      cases stmts with
      | nil =>
        refine responded_byAdapter ?_ ready.quiet
        simp [Packet.final, sendOKPacket, Adapter.serverStatus, single]
      | cons stmt rest =>
        exact execStmts_responded cfg ready (cons_ne_nil _ _) (reported _ s.block rfl rfl)
  | cons first others =>
    obtain ⟨⟨stmt, rest, rfl⟩, succeeds⟩ := executed (cons_ne_nil _ _)
    obtain ⟨last, ran⟩ := Option.ne_none_iff_exists'.mp succeeds
    obtain ⟨t, ⟨session, sent⟩, ready, block, ignore⟩ := preceded.skipsAll cfg (stmt :: rest) ran
    rw [Nat.zero_add] at session sent
    have heard := reported (stmt :: rest) last rfl ran
    rw [← block, ← ignore] at heard
    have client := execStmts_responded cfg ready (cons_ne_nil stmt rest) heard
    exact ⟨(congrArg finals sent).trans client.once, sent ▸ client.origin, session ▸ client.quiet⟩

theorem exec_simple_query_responded {text full : Bytes} (parsed : Parsed g pre text full)
    (preceded : Preceded pre s.adapter)
    (single : s.adapter.moreResultsFlag = false)
    (answerable : AnswerableText g oracle s.block s.adapter.isIgnoreStmt pre text) :
    Responded pre.length (exec_simple_query cfg g oracle s full) := by
  unfold exec_simple_query
  rw [parsed]
  cases conversion : oracle.conversion with
  | some edata =>
    have alone : pre = [] := by
      by_contra added
      rw [(answerable.executed added).1] at conversion
      cases conversion
    subst alone
    exact raise_responded preceded.ready single rfl edata
  | none =>
    exact execParsed_responded (s := s.ignoring _) { preceded with } single
      (fun added => (answerable.executed added).2)
      (fun stmts last list ran => answerable.reported stmts last conversion list ran)

theorem Trx.additional_owed (quiet : Quiet a) :
    Owed a.trx.additional (a.announce a.trx.additional).addBeforeBeforeCurSQL
      (a.announce a.trx.additional).addCommitOrRollBackBeforeCurSQL := by
  obtain ⟨begun, ended⟩ := quiet
  simp only [Adapter.announce, begun, ended]
  unfold Trx.additional
  split
  · split
    · exact .begin
    · split
      · exact .commit
      · exact .none
  · exact .both

theorem Trx.previousEnd_owed (quiet : Quiet a) :
    Owed a.trx.previousEnd (a.announce a.trx.previousEnd).addBeforeBeforeCurSQL
      (a.announce a.trx.previousEnd).addCommitOrRollBackBeforeCurSQL := by
  obtain ⟨begun, ended⟩ := quiet
  simp only [Adapter.announce, begun, ended]
  unfold Trx.previousEnd
  split
  · split
    · exact .commit
    · exact .rollback
  · exact .none

theorem Ready.direct (ready : Ready a) : Preceded [] a := by
  refine { ready with owed := ?_ }
  rw [ready.quiet.1, ready.quiet.2]
  exact .none

theorem Ready.forward (ready : Ready a) (inBuf : StringInfo) : Preceded a.trx.additional (addPrefix a inBuf).1 := by
  rw [addPrefix_adapter]
  exact { ready with owed := Trx.additional_owed ready.quiet }

theorem Ready.begin (ready : Ready a) (inBuf : StringInfo) : Preceded a.trx.previousEnd (endPrevious a inBuf).1 := by
  rw [endPrevious_adapter]
  exact { ready with owed := Trx.previousEnd_owed ready.quiet }

/-- A `use` names a database, and a list of tables fits its arrays. -/
def QueryWord.Survives (cfg : Config) (text : StringInfo) : QueryWord → Prop
  | .use => 5 ≤ text.len
  | .checksum | .maintain => tableListRows cfg.database_name (cstr (read text.data text.offset text.len)) ≠ .overflow
  | _ => True

/-- A COM_QUERY does not crash the backend, a SHOW GRANTS has nothing in front, and an executed text is
answered properly behind what is put in front. -/
structure AnswerableQuery (cfg : Config) (g : Grammar) (oracle : Oracle) (block : TBlock) (a : Adapter)
    (text : StringInfo) : Prop where
  survives : (queryWord text).Survives cfg text
  granted : queryWord text = .showGrants → a.trx.additional = []
  executed : (queryWord text).executes = true →
    AnswerableText g oracle block a.isIgnoreStmt ((queryWord text).added a.trx) text.stmt

@[simp] theorem Packet.final_data : Packet.data.final = false := rfl

@[simp] theorem filter_final_data (n : Nat) : (List.replicate n Packet.data).filter Packet.final = [] := by
  simp

@[simp] theorem filter_final_sendEOFPacketNoFlush (cfg : Config) :
    (sendEOFPacketNoFlush cfg).filter Packet.final = [] := by
  unfold sendEOFPacketNoFlush
  split <;> rfl

theorem filter_final_sendEOFPacketFlush (single : a.moreResultsFlag = false) :
    [sendEOFPacketFlush a].filter Packet.final = [sendEOFPacketFlush a] := by
  have final : (sendEOFPacketFlush a).final = true := congrArg (!·) single
  rw [filter_cons_of_pos final, filter_nil]

theorem acknowledge_responded (ready : Ready a) (single : a.moreResultsFlag = false) :
    Responded k (s.dispatch cfg g oracle (acknowledge a t)) := by
  refine responded_byAdapter ?_ ready.quiet
  simp [sendOKPacket, Packet.final, Adapter.serverStatus, single]

theorem refuse_responded {k errCode : Nat} {errMsg sqlState : String} (ready : Ready a) :
    Responded k (s.dispatch cfg g oracle (refuse a t errCode errMsg sqlState)) :=
  responded_byAdapter rfl ready.quiet

theorem simulated_responded {k columns : Nat} {stmt : Bytes} (ready : Ready a) (single : a.moreResultsFlag = false)
    (survives : tableListRows cfg.database_name stmt ≠ .overflow) :
    Responded k (s.dispatch cfg g oracle (simulated a t stmt (simulateTableList cfg a columns stmt))) := by
  have header : (List.replicate columns Packet.data ++ sendEOFPacketNoFlush cfg).filter Packet.final = [] := by
    simp
  unfold simulateTableList
  cases list : tableListRows cfg.database_name stmt with
  | overflow => exact absurd list survives
  | refused => exact raise_responded ready single header _
  | rows tableNum =>
    refine responded_byAdapter ?_ ready.quiet
    simp [filter_final_sendEOFPacketFlush single]

theorem processQuery_responded (ready : Ready a) (single : a.moreResultsFlag = false)
    (room : 129 ≤ text.offset) (nonempty : 0 < text.len) (answerable : AnswerableQuery cfg g oracle s.block a text) :
    Responded ((queryWord text).added a.trx).length
      (s.dispatch cfg g oracle (processQuery cfg a t origLen text)) := by
  have space : RESERVED_FOR_ADDITIONAL_SQL ≤ text.offset := Nat.le_trans (by decide) room
  obtain ⟨survives, granted, executed⟩ := answerable
  unfold processQuery
  generalize queryWord text = word at survives granted executed ⊢
  have noted : Ready { a with warnErrCode := 0 } := { ready with }
  cases word with
  | manipulate | other =>
    simp only [forward, addAdditionalSQL, if_pos space]
    exact exec_simple_query_responded (addPrefix_parsed g _ space nonempty) (noted.forward text)
      (by rw [addPrefix_adapter]; exact single) (by rw [addPrefix_adapter]; exact executed rfl)
  | begin =>
    exact exec_simple_query_responded (endPrevious_parsed g _ space nonempty) (noted.begin text)
      (by rw [endPrevious_adapter]; exact single) (by rw [endPrevious_adapter]; exact executed rfl)
  | finish | set =>
    exact exec_simple_query_responded (parsed_refl g _) noted.direct single (executed rfl)
  | use =>
    dsimp only
    rw [if_neg (Nat.not_lt.mpr survives)]
    split
    · exact exec_simple_query_responded (parsed_refl g _)
        (Ready.direct { ready with }) single (executed rfl)
    · exact refuse_responded ready
  | showGrants =>
    simp only [addAdditionalSQL, if_pos space]
    refine responded_byAdapter ?_ ?_
    · simp [simulateShowGrants, Packet.final, filter_final_sendEOFPacketFlush single]
    · rw [addPrefix_adapter, granted rfl, Adapter.announce_nil]
      exact ready.quiet
  | showWarnings =>
    refine responded_byAdapter ?_ ready.quiet
    simp only [simulateShowWarnErrReturn]
    simp [filter_final_sendEOFPacketFlush single]
  | alterDatabase => exact refuse_responded ready
  | semicolon =>
    dsimp only
    split
    · split
      · exact acknowledge_responded ready single
      · exact refuse_responded ready
    · exact refuse_responded ready
  | checksum | maintain => exact simulated_responded ready single survives
  | acknowledge => exact acknowledge_responded ready single

/-- A COM_QUERY, the memory it is received into, and what the server makes of it. -/
structure Query where
  text : Bytes
  junk : Mem
  oracle : Oracle

def Query.of (text : String) (oracle : Oracle) : Query := ⟨ascii text, fun _ => 0, oracle⟩

def Query.received (q : Query) : StringInfo := (readCommand (3 :: q.text) q.junk).2

def serveQuery (cfg : Config) (g : Grammar) (s : Session) (q : Query) : Session × Output :=
  step cfg g s (.command (3 :: q.text) q.junk q.oracle)

def prepended (cfg : Config) (s : Session) (q : Query) : List RawStmt :=
  ((queryText cfg q.received).map fun text => (queryWord text).added s.adapter.trx).getD []

def Answerable (cfg : Config) (g : Grammar) (s : Session) (q : Query) : Prop :=
  ∀ text, queryText cfg q.received = some text → AnswerableQuery cfg g q.oracle s.block s.adapter text

/-- The suppression flags are false at first, one packet ends the response, and prepended statements
send none. -/
structure AnsweredOnce (cfg : Config) (g : Grammar) (s : Session) (q : Query) : Prop where
  quiet : Quiet s.adapter
  once : finals (serveQuery cfg g s q).2.sent = 1
  silent : ∀ sent ∈ (serveQuery cfg g s q).2.sent, ∀ k, sent.origin = some k → (prepended cfg s q).length ≤ k

theorem processQuery_alive (survives : (queryWord text).Survives cfg text) :
    (s.dispatch cfg g oracle (processQuery cfg a t origLen text)).1.ended = s.ended := by
  unfold processQuery
  generalize queryWord text = word at survives
  cases word with
  | manipulate | other =>
    dsimp only [forward]
    split
    · exact exec_simple_query_ended _ _ _ _ _
    · rfl
  | begin | finish | set => exact exec_simple_query_ended _ _ _ _ _
  | use =>
    dsimp only
    rw [if_neg (Nat.not_lt.mpr survives)]
    split
    · exact exec_simple_query_ended _ _ _ _ _
    · rfl
  | showGrants =>
    dsimp only
    split <;> rfl
  | showWarnings | alterDatabase | acknowledge => rfl
  | semicolon =>
    dsimp only
    split
    · split <;> rfl
    · rfl
  | checksum | maintain =>
    dsimp only [simulateChecksumTable, simulateAnalyzeCheckOptimizeRepairTable, simulateTableList]
    split
    · rename_i list
      exact absurd list survives
    all_goals rfl

theorem serveQuery_dispatch {q : Query} (alive : s.ended = false) :
    serveQuery cfg g s q =
      s.dispatch cfg g q.oracle (processComQuery cfg (startCommand s.adapter) s.stmts q.received) := by
  simp only [serveQuery, step, alive, Bool.false_eq_true, if_false]
  rfl

theorem serveQuery_step {q : Query} (alive : s.ended = false) (quiet : Quiet s.adapter)
    (answerable : Answerable cfg g s q) :
    AnsweredOnce cfg g s q ∧ Quiet (serveQuery cfg g s q).1.adapter ∧ (serveQuery cfg g s q).1.ended = false := by
  have served : serveQuery cfg g s q = _ := serveQuery_dispatch alive
  have ready := startCommand_ready quiet
  rcases Option.eq_none_or_eq_some (queryText cfg q.received) with found | ⟨text, found⟩
  · have responded : Responded 0 (serveQuery cfg g s q) ∧ (serveQuery cfg g s q).1.ended = false := by
      rw [served]
      rcases processComQuery_none found with ⟨edata, raised⟩ | ⟨skip, empty⟩
      · rw [raised]
        exact ⟨raise_responded ready rfl rfl edata, alive⟩
      rw [empty]
      unfold emptyQuery
      split
      · exact ⟨acknowledge_responded { ready with } rfl, alive⟩
      · exact ⟨refuse_responded { ready with }, alive⟩
    have nothing : prepended cfg s q = [] := by
      simp [prepended, found]
    exact ⟨⟨quiet, responded.1.once, nothing ▸ responded.1.origin⟩, responded.1.quiet, responded.2⟩
  · obtain ⟨skip, query⟩ := processComQuery_some (a := startCommand s.adapter) (t := s.stmts) found
    obtain ⟨room, nonempty⟩ := queryText_bounds found
    obtain ⟨survives, granted, executed⟩ := answerable text found
    have responded : Responded ((queryWord text).added s.adapter.trx).length (serveQuery cfg g s q) := by
      rw [served, query]
      have started : Ready { startCommand s.adapter with skipUtf8Verify := skip } :=
        { ready with }
      exact processQuery_responded started rfl room nonempty ⟨survives, granted, executed⟩
    have added : prepended cfg s q = (queryWord text).added s.adapter.trx := by
      simp [prepended, found]
    refine ⟨⟨quiet, responded.once, added ▸ responded.origin⟩, responded.quiet, ?_⟩
    rw [served, query, processQuery_alive survives]
    exact alive

/-- Each answerable COM_QUERY gets exactly one final packet, the prepended text none. -/
theorem serveQuery_answered_once (cfg : Config) (g : Grammar) (foreign : Int → PreStmtInfo)
    (behindNullBitmap : Nat → UInt8) (queries : List Query)
    (proper : Along (serveQuery cfg g) (Answerable cfg g) (.logon foreign behindNullBitmap) queries) :
    Along (serveQuery cfg g) (AnsweredOnce cfg g) (.logon foreign behindNullBitmap) queries := by
  have start : (Session.logon foreign behindNullBitmap).ended = false ∧
      Quiet (Session.logon foreign behindNullBitmap).adapter := ⟨rfl, rfl, rfl⟩
  refine Along.of_invariant (fun s q (quiet : s.ended = false ∧ Quiet s.adapter) answerable => ?_) proper start
  obtain ⟨answered, still, kept⟩ := serveQuery_step quiet.1 quiet.2 answerable
  exact ⟨answered, kept, still⟩

/-- The first transaction after SET autocommit=0 is opened for the command. -/
theorem serveQuery_answered_once_autocommit :
    Along (serveQuery .standard plainGrammar) (AnsweredOnce .standard plainGrammar) .fresh
      [.of "set autocommit=0" (.accepting .set [(ascii "autocommit", ascii "0")]),
       .of "select 1" (.accepting .select [])] := by
  apply serveQuery_answered_once
  refine ⟨?_, ?_, trivial⟩
  · intro text found
    cases found
    refine ⟨trivial, by decide, fun _ => ⟨fun added => absurd rfl added, ?_⟩⟩
    intro stmts last _ list ran
    cases list
    cases ran
    exact id
  · intro text found
    cases found
    refine ⟨trivial, by decide, fun _ => ⟨fun _ => ⟨rfl, ⟨_, _, rfl⟩, by decide⟩, ?_⟩⟩
    intro stmts last _ list ran
    cases list
    cases ran
    exact id

/-- A failed parse leaves the flag of its BEGIN, and the client's own is never answered. -/
theorem serveQuery_begin_unanswered :
    ¬ Along (serveQuery .standard plainGrammar) (AnsweredOnce .standard plainGrammar) .fresh
      [.of "set autocommit=0" (.accepting .set [(ascii "autocommit", ascii "0")]),
       .of "select )" (.accepting .select []), .of "begin" (.accepting .select [])] := by
  intro answered
  exact absurd answered.2.2.1.once (by decide)

end OpenHalo
