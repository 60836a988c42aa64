import OpenHalo.Lib.Machine
import OpenHalo.AdditionalSQL
import OpenHalo.PreparedInPlace

namespace OpenHalo
open Octets Memory Machine List

variable {outcome : Outcome} {outcomes : Nat → Outcome} {input : Input} {b last : TBlock} {tag : CommandTag}
variable {k nprocessed readWriteType : Nat} {added stmts : List RawStmt} {s : Session}

/-- The table a command hands on; one that ends the session leaves `t`. -/
def Dispatch.table (t : PreStmts) : Dispatch → PreStmts
  | .query _ t _ | .answered _ t _ | .raised _ t _ _ => t
  | .quit _ | .crashed => t

variable {oracle : Oracle} {x : Client} {g : Grammar} (cfg : Config) (a : Adapter) (t : PreStmts) (inBuf : StringInfo)

theorem forward_table (t u : PreStmts) (inBuf : StringInfo) : (forward a t inBuf).table u = t := by
  unfold forward
  split <;> rfl

theorem simulated_table (t : PreStmts) (stmt : Bytes) (answer : Option (List Packet × Bool)) :
    (simulated a t stmt answer).table t = t := by
  match answer with
  | none | some (_, true) | some (_, false) => rfl

theorem processQuery_table (origLen : Int) (inBuf : StringInfo) : (processQuery cfg a t origLen inBuf).table t = t := by
  unfold processQuery
  cases queryWord inBuf with
  | manipulate | other => exact forward_table _ _ _ _
  | begin | finish | set | showWarnings | alterDatabase | acknowledge => rfl
  | use =>
    dsimp only
    split
    · rfl
    · split <;> rfl
  | showGrants =>
    dsimp only
    split <;> rfl
  | semicolon =>
    dsimp only
    split
    · split <;> rfl
    · rfl
  | checksum | maintain => exact simulated_table _ _ _ _

theorem processComQuery_table : (processComQuery cfg a t inBuf).table t = t := by
  unfold processComQuery
  dsimp only
  split
  · rfl
  · rfl
  split
  · unfold emptyQuery
    split <;> rfl
  · exact processQuery_table _ _ _ _ _

def Request.onTable : Request → Bool
  | .prepare | .execute | .close | .resetConn => true
  | .sleep | .quit | .useDatabase | .query | .fieldList | .ping | .reset | .unsupported => false

theorem processCommand_table {firstChar : UInt8} (other : (Request.ofByte firstChar).onTable = false) :
    (processCommand cfg a t firstChar inBuf).table t = t := by
  unfold processCommand
  generalize Request.ofByte firstChar = request at other
  cases request with
  | prepare | execute | close | resetConn => cases other
  | query => exact processComQuery_table _ _ _ _
  | useDatabase =>
    dsimp only [processUseDatabase]
    split
    · exact forward_table _ _ _ _
    · rfl
  | sleep | quit | fieldList | ping | reset | unsupported => rfl

theorem processRewritten_table (a done : Adapter) (t u : PreStmts) (r : Rewritten) :
    (processRewritten a done t r).table u =
      match r with
      | .done t' _ => t'
      | .refused => t
      | .raised _ => t := by
  cases r with
  | done t' next => exact forward_table _ _ _ _
  | refused | raised => rfl

def Outcome.effects : Outcome → Effects
  | .ok effects _ _ => effects
  | .error effects _ => effects

/-- Every statement registers no more columns than an entry has room for. -/
def Oracle.Narrow (oracle : Oracle) : Prop := ∀ k, (oracle.outcomes k).effects.columns.length ≤ 256

theorem runStmt_effects (b : TBlock) (stmt : RawStmt) (outcome : Outcome) :
    (b.runStmt stmt outcome).effects = .nothing ∨ (b.runStmt stmt outcome).effects = outcome.effects := by
  cases stmt with
  | commit chain | rollback chain => cases chain <;> cases b <;> cases outcome <;> exact .inl rfl
  | begin | start | rollbackTo | savepoint | release | prepareTransaction =>
    cases b <;> cases outcome <;> exact .inl rfl
  | plain =>
    cases b <;> cases outcome <;> first | exact .inr rfl | exact .inl rfl

theorem executed_columns (narrow : outcome.effects.columns.length ≤ 256) (s : Session) (more : Bool)
    (stmt : RawStmt) : ∃ columns, columns.length ≤ 256 ∧
      (s.executed more (s.block.runStmt stmt outcome)).stmts = setColumnInfoes s.stmts columns := by
  refine ⟨(s.block.runStmt stmt outcome).effects.columns, ?_, rfl⟩
  rcases runStmt_effects s.block stmt outcome with nothing | own
  · rw [nothing]
    exact Nat.zero_le _
  · rw [own]
    exact narrow

section
variable {P : PreStmts → Prop}
  (keep : ∀ t (columns : List (Nat × Nat)), columns.length ≤ 256 → P t → P (setColumnInfoes t columns))
include keep

variable {s : Session} (cfg : Config)

theorem execStmts_table (narrow : ∀ k, (outcomes k).effects.columns.length ≤ 256) (k : Nat)
    (stmts : List RawStmt) (start : P s.stmts) : P (execStmts cfg outcomes k stmts s).1.stmts := by
  induction stmts generalizing k s with
  | nil => exact start
  | cons stmt rest ih =>
    obtain ⟨columns, room, stored⟩ := executed_columns (narrow k) s (!rest.isEmpty) stmt
    have first : P (s.executed (!rest.isEmpty) (s.block.runStmt stmt (outcomes k))).stmts := by
      rw [stored]
      exact keep s.stmts columns room start
    cases answered : (s.block.runStmt stmt (outcomes k)).answer with
    | ok completion =>
      rw [execStmts_ok rfl answered]
      generalize s.executed (!rest.isEmpty) (s.block.runStmt stmt (outcomes k)) = t at first
      exact ih (k + 1) (s := { t with adapter := (endCommand cfg t.stmts t.adapter _ _).1 }) first
    | error edata =>
      rw [execStmts_error rfl answered]
      exact first

theorem exec_simple_query_table (g : Grammar) (narrow : oracle.Narrow) (start : P s.stmts) (text : Bytes) :
    P (exec_simple_query cfg g oracle s text).1.stmts := by
  unfold exec_simple_query execParsed
  split
  · exact start
  split
  · exact start
  · exact start
  · exact execStmts_table keep cfg narrow 0 _ (s := s.ignoring _) start

theorem dispatch_table (g : Grammar) (narrow : oracle.Narrow) {d : Dispatch} (start : P (d.table s.stmts)) :
    P (s.dispatch cfg g oracle d).1.stmts := by
  cases d with
  | query a t inBuf =>
      exact exec_simple_query_table keep cfg g narrow (s := { s with adapter := a, stmts := t }) start _
  | quit | answered | raised | crashed => exact start

end

theorem dispatch_sameSlots (g : Grammar) (narrow : oracle.Narrow) (s : Session) (d : Dispatch) :
    SameSlots (d.table s.stmts) (s.dispatch cfg g oracle d).1.stmts :=
  dispatch_table (P := SameSlots (d.table s.stmts))
    (fun t _ room same => same.trans (SameSlots.setColumnInfoes t room)) cfg g narrow (.refl _)

def Packet.announces : Packet → Option Int
  | .prepareOk stmtId _ _ => some stmtId
  | .ok _ _ | .err _ _ _ | .eof _ | .data => none

def Output.announces (out : Output) : Option Int := out.sent.findSome? fun sent => sent.packet.announces

/-- The statements a client may use behind a command: announced by PREPARE and not closed since. -/
def Input.opened (opened : Set Int) (out : Output) : Input → Set Int
  | .disconnect => opened
  | .command payload junk _ =>
    match Request.ofByte (readCommand payload junk).1 with
    | .prepare =>
      match out.announces with
      | some id => insert id opened
      | none => opened
    | .close => opened \ {preStmtId (readCommand payload junk).2}
    | .resetConn => ∅
    | .sleep | .quit | .useDatabase | .query | .fieldList | .ping | .execute | .reset | .unsupported => opened

structure Client where
  session : Session
  opened : Set Int

def Client.logon (foreign : Int → PreStmtInfo) (behindNullBitmap : Nat → UInt8) : Client :=
  ⟨.logon foreign behindNullBitmap, ∅⟩

def Client.step (cfg : Config) (g : Grammar) (x : Client) (input : Input) : Client × Output :=
  let (session, out) := OpenHalo.step cfg g x.session input
  (⟨session, if x.session.ended then x.opened else input.opened x.opened out⟩, out)

theorem Client.step_command (cfg : Config) (g : Grammar) (alive : x.session.ended = false) (payload : Bytes)
    (junk : Mem) (oracle : Oracle) :
    let turn := x.session.dispatch cfg g oracle (processCommand cfg x.session.adapter x.session.stmts
      (readCommand payload junk).1 (readCommand payload junk).2)
    (x.step cfg g (.command payload junk oracle)).1 =
      ⟨turn.1, Input.opened x.opened turn.2 (.command payload junk oracle)⟩ := by
  simp only [Client.step, OpenHalo.step, alive, Bool.false_eq_true, if_false]

theorem Client.step_rest (g : Grammar) (x : Client) (input : Input) :
    (x.session.ended = false ∧ ∃ payload junk oracle, input = .command payload junk oracle) ∨
      (x.step cfg g input).1.session.stmts = x.session.stmts ∧ (x.step cfg g input).1.opened = x.opened := by
  rcases Bool.eq_false_or_eq_true x.session.ended with finished | alive
  · simp only [Client.step, OpenHalo.step, finished, if_true, and_self, or_true]
  cases input with
  | command payload junk oracle => exact .inl ⟨alive, payload, junk, oracle, rfl⟩
  | disconnect =>
    simp only [Client.step, OpenHalo.step, alive]
    exact .inr ⟨rfl, rfl⟩

def Client.Agrees (x : Client) : Prop :=
  ∀ i : Int, 0 ≤ i → i < PRE_STMT_NUM_MAX →
    ((x.session.stmts.preStmtInfoes i).isValid = true ↔ i ∈ x.opened)

/-- The text of a PREPARE converts and parses to one statement, and this and those in front of it succeed. -/
def PrepareTaken (g : Grammar) (oracle : Oracle) (s : Session) (text : Bytes) : Prop :=
  oracle.conversion = none ∧ (g.rawParse text).2 = some [.plain] ∧
    (∃ last, runBlocks oracle.outcomes 0 s.adapter.trx.additional s.block = some last ∧ last ≠ .aborted) ∧
    ∃ effects nprocessed, oracle.outcomes s.adapter.trx.additional.length = .ok effects .prepare nprocessed

/-- A PREPARE that does not lose its entry: one is free, and a text for the server is short enough and
taken. -/
def OrderlyPrepare (cfg : Config) (g : Grammar) (oracle : Oracle) (s : Session) (inBuf : StringInfo) : Prop :=
  ∀ next skip, rectifyCommand cfg.halo_mysql_version inBuf = .accepted next skip → prepareKind next ≠ none →
    s.stmts.HasFree ∧ (prepareKind next = some SRWT_UNKNOWN → next.len - 1 ≤ 24 ∧
      ∀ t text, rewriteExtendPreStmt s.stmts next = .prepare t text → PrepareTaken g oracle s text.stmt)

def Orderly (cfg : Config) (g : Grammar) (x : Client) : Input → Prop
  | .disconnect => True
  | .command payload junk oracle =>
    oracle.Narrow ∧
      match Request.ofByte (readCommand payload junk).1 with
      | .prepare => OrderlyPrepare cfg g oracle x.session (readCommand payload junk).2
      | .execute => (x.session.stmts.preStmtInfoes (preStmtId (readCommand payload junk).2)).paramNum ≤ 256
      | .resetConn => x.opened = ∅
      | .sleep | .quit | .useDatabase | .query | .fieldList | .ping | .close | .reset | .unsupported => True

theorem announces_byAdapter (packets : List Packet) (events : List Event) :
    Output.announces ⟨byAdapter packets, events⟩ = packets.findSome? Packet.announces := by
  simp only [Output.announces, byAdapter, List.findSome?_map]
  rfl

theorem announces_byStmt (k : Nat) (packets : List Packet) (later : List Sent) (events events' : List Event) :
    Output.announces ⟨byStmt k packets ++ later, events⟩ =
      (packets.findSome? Packet.announces).or (Output.announces ⟨later, events'⟩) := by
  simp only [Output.announces, byStmt, List.findSome?_append, List.findSome?_map]
  rfl

theorem findSome_rows (rows : Nat) (packets : List Packet) :
    (List.replicate rows Packet.data ++ packets).findSome? Packet.announces = packets.findSome? Packet.announces := by
  have none : (List.replicate rows Packet.data).findSome? Packet.announces = none := by
    rw [List.findSome?_eq_none_iff]
    intro packet member
    rw [eq_of_mem_replicate member]
    rfl
  rw [List.findSome?_append, none]
  rfl

theorem assignAll_isExtendPreStmt (assigns : List (Bytes × Bytes)) :
    (assignAll a assigns).isExtendPreStmt = a.isExtendPreStmt := by
  induction assigns generalizing a with
  | nil => rfl
  | cons assign assigns ih =>
    refine (ih (applySystemVarValue a assign.1 assign.2)).trans ?_
    unfold applySystemVarValue
    split
    · split <;> split <;> rfl
    · rfl

def RawStmt.ofAdapter (stmt : RawStmt) : Prop := stmt = .begin ∨ stmt = .commit false ∨ stmt = .rollback false

theorem additional_ofAdapter (x : Trx) : ∀ stmt ∈ x.additional, stmt.ofAdapter := by
  unfold Trx.additional RawStmt.ofAdapter
  split
  · split
    · simp
    · split <;> simp
  · simp

theorem runStmt_ofAdapter {stmt : RawStmt}
    (own : stmt.ofAdapter) (done : (b.runStmt stmt outcome).answer = .ok (tag, nprocessed)) :
    (tag = .begin ∨ tag = .commit ∨ tag = .rollback) ∧ (b.runStmt stmt outcome).effects = .nothing := by
  rcases own with rfl | rfl | rfl
  · obtain ⟨_, result⟩ := runStmt_begin_ok done
    rw [result] at done ⊢
    cases done
    exact ⟨.inl rfl, rfl⟩
  · obtain ⟨tags, _, nothing⟩ := runStmt_commit_ok done
    exact ⟨.inr tags, nothing⟩
  · obtain ⟨same, _, nothing⟩ := runStmt_rollback_ok done
    exact ⟨.inr (.inr same), nothing⟩

theorem endCommand_ofAdapter (a : Adapter) (nprocessed : Nat)
    (own : tag = .begin ∨ tag = .commit ∨ tag = .rollback) :
    (endCommand cfg t a tag nprocessed).1.isExtendPreStmt = a.isExtendPreStmt ∧
      (endCommand cfg t a tag nprocessed).2.findSome? Packet.announces = none := by
  rcases own with rfl | rfl | rfl
  · refine ⟨rfl, ?_⟩
    simp only [endCommand, endBegin]
    split <;> rfl
  · refine ⟨rfl, ?_⟩
    simp only [endCommand, endCommit]
    split <;> rfl
  · refine ⟨rfl, ?_⟩
    simp only [endCommand, endRollback]
    split <;> rfl

theorem endCommand_prepare {a : Adapter} (nprocessed : Nat) (preparing : a.isExtendPreStmt = true) :
    (endCommand cfg t a (.plain .prepare) nprocessed).2 = endExtendPreStmt cfg t := by
  simp only [endCommand, endPlain, preparing, if_true]

theorem executed_isExtendPreStmt (s : Session) (more : Bool) (r : StmtResult) :
    (s.executed more r).adapter.isExtendPreStmt = s.adapter.isExtendPreStmt :=
  assignAll_isExtendPreStmt _ _

theorem endExtendPreStmt_announces : (endExtendPreStmt cfg t).findSome? Packet.announces = some t.curExtendPreStmtId :=
  rfl

theorem byStmt_packets (k : Nat) (packets : List Packet) : (byStmt k packets).map Sent.packet = packets := by
  rw [byStmt, map_map]
  exact map_id packets

theorem Output.announces_packets (out : Output) :
    out.announces = (out.sent.map Sent.packet).findSome? Packet.announces := by
  rw [List.findSome?_map]
  rfl

theorem execStmts_prepares (cfg : Config) {effects : Effects} (own : ∀ stmt ∈ added, stmt.ofAdapter)
    (preparing : s.adapter.isExtendPreStmt = true) (ran : runBlocks outcomes k added s.block = some last)
    (live : last ≠ .aborted) (taken : outcomes (k + added.length) = .ok effects .prepare nprocessed) :
    let r := execStmts cfg outcomes k (added ++ [.plain]) s
    r.1.stmts = setColumnInfoes s.stmts effects.columns ∧ ∃ before, before.findSome? Packet.announces = none ∧
      r.2.sent.map Sent.packet = before ++ endExtendPreStmt cfg (setColumnInfoes s.stmts effects.columns) := by
  induction added generalizing k s with
  | nil =>
    cases ran
    have result : s.block.runStmt .plain (outcomes k) =
        ⟨s.block, [.ran (s.block == .inProgress)], effects, .ok (.plain .prepare, nprocessed)⟩ := by
      rw [show outcomes k = _ from taken]
      cases block : s.block with
      | idle | inProgress => rfl
      | aborted => exact absurd block live
    rw [nil_append, execStmts_ok result rfl]
    dsimp only [execStmts]
    refine ⟨rfl, _, findSome_rows effects.rows [], ?_⟩
    rw [append_nil, byStmt_packets, endCommand_prepare cfg _ _ ((executed_isExtendPreStmt s _ _).trans preparing),
      append_nil]
    rfl
  | cons stmt added ih =>
    obtain ⟨tag, n, answered, later⟩ := runBlocks_cons ran
    obtain ⟨tags, nothing⟩ := runStmt_ofAdapter (own stmt mem_cons_self) answered
    generalize ran : s.block.runStmt stmt (outcomes k) = r at answered later nothing
    have kept := executed_isExtendPreStmt s (!(added ++ [RawStmt.plain]).isEmpty) r
    have stmts : (s.executed (!(added ++ [RawStmt.plain]).isEmpty) r).stmts = s.stmts := by
      show setColumnInfoes s.stmts r.effects.columns = s.stmts
      rw [nothing]
      rfl
    have block : (s.executed (!(added ++ [RawStmt.plain]).isEmpty) r).block = r.block := rfl
    rw [cons_append, execStmts_ok ran answered]
    generalize s.executed (!(added ++ [RawStmt.plain]).isEmpty) r = t at kept stmts block
    obtain ⟨flag, silent⟩ := endCommand_ofAdapter cfg t.stmts t.adapter n tags
    rw [length_cons, Nat.add_comm added.length, ← Nat.add_assoc] at taken
    rw [← block] at later
    obtain ⟨table, before, quiet, packets⟩ := ih (s := { t with adapter := (endCommand cfg t.stmts t.adapter tag n).1 })
      (forall_mem_cons.mp own).2 (flag.trans (kept.trans preparing)) later taken
    rw [← stmts]
    refine ⟨table, List.replicate r.effects.rows .data ++ (endCommand cfg t.stmts t.adapter tag n).2 ++ before, ?_, ?_⟩
    · rw [append_assoc, findSome_rows, List.findSome?_append, silent, quiet]
      rfl
    · rw [map_append, byStmt_packets, packets, ← append_assoc]

theorem rewriteExtendExeStmt_table {P : PreStmts → Prop} {t : PreStmts} {inBuf : StringInfo} (start : P t)
    (stored : ∀ types, P (t.storeParamTypes (preStmtId inBuf) types (t.preStmtInfoes (preStmtId inBuf)).paramNum))
    (a done : Adapter) : P ((processRewritten a done t (rewriteExtendExeStmt t inBuf)).table t) := by
  rw [processRewritten_table]
  unfold rewriteExtendExeStmt
  dsimp only
  by_cases beyond : PRE_STMT_NUM_MAX < preStmtId inBuf
  · rw [if_pos beyond]
    exact start
  rw [if_neg beyond]
  by_cases unknown : (t.preStmtInfoes (preStmtId inBuf)).readWriteType = SRWT_UNKNOWN
  · rw [if_pos unknown]
    dsimp only
    split
    · exact stored _
    · exact start
  · split_ifs <;> exact start

theorem rewriteExtendCloseStmt_valid (t : PreStmts) (inBuf : StringInfo) (a done : Adapter) :
    let closed := (processRewritten a done t (rewriteExtendCloseStmt t inBuf)).table t
    closed.preStmtInfoNum = t.preStmtInfoNum ∧ ∀ i, i < PRE_STMT_NUM_MAX →
      (closed.preStmtInfoes i).isValid = if i = preStmtId inBuf then false else (t.preStmtInfoes i).isValid := by
  rw [processRewritten_table]
  unfold rewriteExtendCloseStmt
  by_cases beyond : PRE_STMT_NUM_MAX < preStmtId inBuf
  · rw [if_pos beyond]
    refine ⟨rfl, fun i inside => ?_⟩
    rw [if_neg (by omega)]
  · rw [if_neg beyond]
    refine ⟨rfl, fun i inside => ?_⟩
    dsimp only [PreStmts.set]
    split <;> rfl

theorem resetConnection_table {t : PreStmts} (none : t.preStmtInfoNum = 0) : (resetConnection a t inBuf).2.1 = t := by
  simp only [resetConnection, none, invalidate]
  rw [← none]

theorem cacheExtendPreStmt_agrees {x y : Client} (agrees : x.Agrees)
    (same : SameSlots (cacheExtendPreStmt x.session.stmts readWriteType).1 y.session.stmts)
    (opened : y.opened = insert x.session.stmts.slot x.opened) : y.Agrees := by
  intro i lower upper
  rw [same.valid i, cacheExtendPreStmt_valid, opened]
  by_cases here : i = x.session.stmts.slot
  · simp [here]
  · rw [if_neg here, agrees i lower upper]
    simp [here]

theorem sendErrorMessage_announces (edata : ErrorData) :
    (sendErrorMessage cfg a edata).2.findSome? Packet.announces = none := by
  obtain ⟨_, _, _, packet, same, sent⟩ := sendErrorMessage_spec cfg a edata
  rw [same]
  split at sent <;> cases sent <;> rfl

theorem raise_announces (s : Session) (edata : ErrorData) : (s.raise cfg [] edata).2.announces = none :=
  (announces_byAdapter _ _).trans (sendErrorMessage_announces cfg s.adapter edata)

def Claims (t : PreStmts) (r : Session × Output) : Prop :=
  (SameSlots t r.1.stmts ∧ r.2.announces = none) ∨
    ∃ readWriteType, SameSlots (cacheExtendPreStmt t readWriteType).1 r.1.stmts ∧ r.2.announces = some t.slot

theorem execParsed_cons (oracle : Oracle) (s : Session) (present : stmts ≠ []) :
    execParsed cfg oracle s (some stmts) = execStmts cfg oracle.outcomes 0 stmts s := by
  cases stmts with
  | nil => exact absurd rfl present
  | cons stmt rest => rfl

theorem forward_prepares (cfg : Config) {a : Adapter} {t : PreStmts} {inBuf : StringInfo}
    (preparing : a.isExtendPreStmt = true) (trx : a.trx = s.adapter.trx)
    (bounds : RESERVED_FOR_ADDITIONAL_SQL ≤ inBuf.offset ∧ 0 < inBuf.len) (taken : PrepareTaken g oracle s inBuf.stmt) :
    let columns := (oracle.outcomes s.adapter.trx.additional.length).effects.columns
    let r := s.dispatch cfg g oracle (forward a t inBuf)
    r.1.stmts = setColumnInfoes t columns ∧ ∃ before, before.findSome? Packet.announces = none ∧
      r.2.sent.map Sent.packet = before ++ endExtendPreStmt cfg (setColumnInfoes t columns) := by
  obtain ⟨conversion, parses, ⟨last, ran, live⟩, effects, nprocessed, outcome⟩ := taken
  have parsed := addPrefix_parsed g a bounds.1 bounds.2
  have flag : (addPrefix a inBuf).1.isExtendPreStmt = true := by
    rw [addPrefix_adapter]
    exact preparing
  simp only [forward, addAdditionalSQL, if_pos bounds.1, Session.dispatch, exec_simple_query, conversion]
  rw [parsed, parses, trx, outcome]
  dsimp only [Option.map_some, Outcome.effects]
  rw [← Nat.zero_add (List.length _)] at outcome
  rw [execParsed_cons _ _ _ (by simp)]
  exact execStmts_prepares cfg (additional_ofAdapter _) flag ran live outcome

theorem processComPrepare_claims {cfg : Config} {a : Adapter} {inBuf : StringInfo} (narrow : oracle.Narrow)
    (trx : a.trx = s.adapter.trx) (offset : inBuf.offset = 129) (orderly : OrderlyPrepare cfg g oracle s inBuf) :
    Claims s.stmts (s.dispatch cfg g oracle (processComPrepare cfg a s.stmts inBuf)) := by
  unfold processComPrepare
  cases accepted : rectifyCommand cfg.halo_mysql_version inBuf with
  | refused | raised => exact .inl ⟨.refl _, raise_announces cfg _ _⟩
  | accepted next skip =>
    have place : next.offset = 129 := (rectifyLoop_accepted accepted).1.trans offset
    have prepares := rewriteExtendPreStmt_prepares s.stmts place
    have careful := orderly next skip accepted
    dsimp only
    generalize rewritten : rewriteExtendPreStmt s.stmts next = result at prepares
    cases prepares with
    | unsupported kind => exact .inl ⟨.refl _, rfl⟩
    | @«local» readWriteType kind own =>
      obtain ⟨free, _⟩ := careful (by rw [kind]; nofun)
      have current := congrArg (some ∘ Prod.fst) (PreStmts.findFreeSlot_free free).1
      exact .inr ⟨readWriteType, .refl _,
        ((announces_byAdapter _ _).trans (endExtendPreStmt_announces _ _)).trans current⟩
    | @prepare text kind short =>
      obtain ⟨free, later⟩ := careful (by rw [kind]; nofun)
      have taken := (later kind).2 _ _ rewritten
      have bounds := rewriteExtendPreStmt_done rewritten
      have current := congrArg (some ∘ Prod.fst) (PreStmts.findFreeSlot_free free).1
      refine .inr ⟨SRWT_UNKNOWN, ?_, Eq.trans ?_ current⟩
      · have table := dispatch_sameSlots cfg g narrow s (forward { a with
          skipUtf8Verify := skip, isExtendPreStmt := true, warnErrCode := 0 } s.stmts.prepared text)
        rw [forward_table] at table
        exact s.stmts.prepared_sameSlots.trans table
      · obtain ⟨_, before, quiet, packets⟩ := forward_prepares cfg (t := s.stmts.prepared)
          (a := { a with skipUtf8Verify := skip, isExtendPreStmt := true, warnErrCode := 0 }) rfl trx bounds taken
        rw [Output.announces_packets]
        refine (congrArg (List.findSome? Packet.announces) packets).trans ?_
        rw [List.findSome?_append, quiet, endExtendPreStmt_announces, setColumnInfoes_current]
        rfl
    | refused kind long =>
      obtain ⟨_, later⟩ := careful (by rw [kind]; nofun)
      have short := (later kind).1
      omega

structure Client.InStep (x : Client) : Prop where
  agrees : x.Agrees
  number : x.session.stmts.preStmtInfoNum = 0

theorem Client.InStep.same {x y : Client} (inStep : x.InStep) (same : SameSlots x.session.stmts y.session.stmts)
    (opened : y.opened = x.opened) : y.InStep := by
  refine ⟨fun i lower upper => ?_, same.number.trans inStep.number⟩
  rw [same.valid i, opened]
  exact inStep.agrees i lower upper

theorem Client.InStep.command {cfg : Config} {payload : Bytes} {junk : Mem} (inStep : x.InStep)
    (alive : x.session.ended = false) (orderly : Orderly cfg g x (.command payload junk oracle)) :
    (x.step cfg g (.command payload junk oracle)).1.InStep := by
  have narrow := orderly.1
  replace orderly := orderly.2
  have table := dispatch_sameSlots cfg g narrow x.session (processCommand cfg x.session.adapter x.session.stmts
    (readCommand payload junk).1 (readCommand payload junk).2)
  rw [Client.step_command cfg g alive]
  simp only [Input.opened]
  have kept := @processCommand_table cfg x.session.adapter x.session.stmts (readCommand payload junk).2
  cases request : Request.ofByte (readCommand payload junk).1 with
  | sleep | quit | useDatabase | query | fieldList | ping | reset | unsupported =>
    rw [kept (by rw [request]; rfl)] at table
    exact inStep.same table rfl
  | execute =>
    rw [request] at orderly
    refine inStep.same ?_ rfl
    simp only [processCommand, request] at table ⊢
    refine .trans ?_ table
    exact rewriteExtendExeStmt_table (.refl _) (fun types => .storeParamTypes _ _ types orderly) _ _
  | resetConn =>
    rw [request] at orderly
    refine inStep.same ?_ orderly.symm
    simp only [processCommand, request, resetConnection_table _ _ inStep.number] at table ⊢
    exact table
  | close =>
    simp only [processCommand, request] at table ⊢
    obtain ⟨number, valid⟩ := rewriteExtendCloseStmt_valid x.session.stmts (readCommand payload junk).2
      (startCommand x.session.adapter) { startCommand x.session.adapter with isExtendCloseStmt := true }
    refine ⟨fun i lower upper => ?_, table.number.trans (number.trans inStep.number)⟩
    rw [table.valid i, valid i upper]
    by_cases here : i = preStmtId (readCommand payload junk).2
    · simp [here]
    · rw [if_neg here, inStep.agrees i lower upper]
      simp [here]
  | prepare =>
    rw [request] at orderly
    simp only [processCommand, request] at table ⊢
    have claims : Claims x.session.stmts _ :=
      processComPrepare_claims (a := startCommand x.session.adapter) narrow rfl rfl orderly
    rcases claims with ⟨same, none⟩ | ⟨readWriteType, same, announced⟩
    · rw [none]
      exact inStep.same same rfl
    · rw [announced]
      exact ⟨cacheExtendPreStmt_agrees inStep.agrees same rfl, same.number.trans inStep.number⟩

theorem Client.InStep.step {cfg : Config} (inStep : x.InStep) (orderly : Orderly cfg g x input) :
    (x.step cfg g input).1.InStep := by
  rcases x.step_rest cfg g input with ⟨alive, payload, junk, oracle, rfl⟩ | ⟨stmts, opened⟩
  · exact inStep.command alive orderly
  refine inStep.same ?_ opened
  rw [stmts]
  exact .refl _

theorem Client.logon_inStep (foreign : Int → PreStmtInfo) (behindNullBitmap : Nat → UInt8) :
    (Client.logon foreign behindNullBitmap).InStep := by
  refine ⟨fun i lower upper => ?_, rfl⟩
  simp [Client.logon, Session.logon, PreStmts.initial_inside _ _ lower upper, PreStmtInfo.initial]

/-- In every run of orderly commands the valid entries are the open statements. -/
theorem statements_agree (cfg : Config) (g : Grammar) (foreign : Int → PreStmtInfo) (behindNullBitmap : Nat → UInt8)
    (inputs : List Input) (orderly : Along (Client.step cfg g) (Orderly cfg g) (.logon foreign behindNullBitmap)
      inputs) :
    (exec (Client.step cfg g) (.logon foreign behindNullBitmap) inputs).Agrees :=
  (Along.invariant (fun _ _ (inStep : Client.InStep _) good => inStep.step good) orderly
    (Client.logon_inStep foreign behindNullBitmap)).agrees

def Oracle.refusing : Oracle := ⟨none, elogError [], fun _ => .error .nothing (elogError [])⟩

/-- A statement that the adapter prepares by itself. -/
def prepareCommit : Input := .command (22 :: ascii "commit") (fun _ => 0) .refusing

/-- The server does not know the statement that is closed here. -/
def closeFirst : Input := .command [25, 1, 0, 0, 0] (fun _ => 0) .refusing

theorem statements_agree_closed :
    (exec (Client.step .standard plainGrammar) (.logon (fun _ => .initial) (fun _ => 0)) [prepareCommit,
      closeFirst]).Agrees := by
  apply statements_agree
  refine ⟨⟨fun _ => Nat.zero_le _, ?_⟩, ⟨fun _ => Nat.zero_le _, trivial⟩, trivial⟩
  intro next skip accepted _
  cases accepted
  exact ⟨⟨1, by decide, by decide, rfl⟩, fun unknown => by cases unknown⟩

def failedPrepare : Input := .command (22 :: ascii "select 1") (fun _ => 0) .refusing

/-- It keeps its entry. -/
theorem statements_disagree_failed :
    ¬(exec (Client.step .standard plainGrammar) (.logon (fun _ => .initial) (fun _ => 0)) [failedPrepare]).Agrees := by
  intro agrees
  have silent : (step .standard plainGrammar .fresh failedPrepare).2.announces = none := by decide +kernel
  have closed : Input.opened ∅ (step .standard plainGrammar .fresh failedPrepare).2 failedPrepare = ∅ := by
    have prepare : Request.ofByte (readCommand (22 :: ascii "select 1") fun _ => 0).1 = .prepare := rfl
    rw [failedPrepare, Input.opened, prepare, ← failedPrepare, silent]
  have opened := (agrees 1 (by decide) (by decide)).mp (by decide +kernel)
  have member : 1 ∈ Input.opened ∅ (step .standard plainGrammar .fresh failedPrepare).2 failedPrepare := opened
  rw [closed] at member
  exact member

end OpenHalo
