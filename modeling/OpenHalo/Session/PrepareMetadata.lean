import OpenHalo.MysLexemes
import OpenHalo.Session.StatementIds

namespace OpenHalo
open Octets Memory Machine List

variable {columns : List (Nat × Nat)} {cfg : Config} {t : PreStmts}

/-- The definitions of `n` parameters or columns. -/
def definitionPackets (cfg : Config) (n : Nat) : List Packet :=
  if 0 < n then List.replicate n .data ++ sendEOFPacketNoFlush cfg else []

/-- The adapter prepares the statement by itself, without columns, or the server takes it and finds
these columns. -/
def PrepareSucceeds (cfg : Config) (g : Grammar) (oracle : Oracle) (s : Session) (inBuf : StringInfo)
    (columns : List (Nat × Nat)) : Prop :=
  ∃ next skip, rectifyCommand cfg.halo_mysql_version inBuf = .accepted next skip ∧
    ((∃ t, rewriteExtendPreStmt s.stmts next = .local t) ∧ columns = [] ∨
      (∃ t text, rewriteExtendPreStmt s.stmts next = .prepare t text ∧ PrepareTaken g oracle s text.stmt) ∧
        columns = (oracle.outcomes s.adapter.trx.additional.length).effects.columns)

def PreStmtInfo.Records (p : PreStmtInfo) (columns : List (Nat × Nat)) : Prop :=
  p.columnNum = columns.length ∧
    ∀ i (within : i < columns.length), p.columnTypes i = columns[i].1 ∧ p.columnCharacterSet i = columns[i].2

/-- The response to a PREPARE with `paramNum` parameters and these columns, and what is kept of them. -/
def Describes (cfg : Config) (paramNum : Nat) (columns : List (Nat × Nat)) (stmts : PreStmts) (packets : List Packet) :
    Prop :=
  ∃ id before, before.findSome? Packet.announces = none ∧ (stmts.preStmtInfoes id).Records columns ∧
    packets = before ++ .prepareOk id columns.length paramNum ::
      (definitionPackets cfg paramNum ++ definitionPackets cfg columns.length)

/-- A successful PREPARE is answered with the number of markers in the client's text and with its columns. -/
def FreshMetadata (setting : MysScan.Setting) (cfg : Config) (g : Grammar) (x : Client) : Input → Prop
  | .disconnect => True
  | .command payload junk oracle =>
    x.session.ended = false → Request.ofByte (readCommand payload junk).1 = .prepare →
      ∀ ts columns, (MysScan.Lexer.init (payload.drop 1)).Scans setting ts →
        PrepareSucceeds cfg g oracle x.session (readCommand payload junk).2 columns →
          Describes cfg (ts.count .mysParam) columns (x.step cfg g (.command payload junk oracle)).1.session.stmts
            ((x.step cfg g (.command payload junk oracle)).2.sent.map Sent.packet)

/-- A PREPARE without markers that finds a free entry without columns, from a client that wants
definitions. -/
def CleanPrepare (setting : MysScan.Setting) (cfg : Config) (x : Client) : Input → Prop
  | .disconnect => True
  | .command payload junk oracle =>
    Contained x (.command payload junk oracle) ∧ (Request.ofByte (readCommand payload junk).1 = .prepare →
      x.session.stmts.HasFree ∧ (x.session.stmts.preStmtInfoes x.session.stmts.slot).columnNum = 0 ∧
        (cfg.optionalMetadata = false ∨
          (oracle.outcomes x.session.adapter.trx.additional.length).effects.columns = []) ∧
        ∀ ts, (MysScan.Lexer.init (payload.drop 1)).Scans setting ts → .mysParam ∉ ts)

theorem endExtendPreStmt_describes {cfg : Config} {t : PreStmts} {columns : List (Nat × Nat)}
    (params : (t.preStmtInfoes t.curExtendPreStmtId).paramNum = 0)
    (records : (t.preStmtInfoes t.curExtendPreStmtId).Records columns) (room : columns.length ≤ 256)
    (wanted : cfg.optionalMetadata = false ∨ columns = []) :
    endExtendPreStmt cfg t = .prepareOk t.curExtendPreStmtId columns.length 0 ::
      (definitionPackets cfg 0 ++ definitionPackets cfg columns.length) := by
  have small : columns.length % 65536 = columns.length := Nat.mod_eq_of_lt (by omega)
  simp only [endExtendPreStmt, params, records.1, small, definitionPackets]
  rcases wanted with wanted | none
  · simp [wanted]
  · simp [none]

theorem PreStmtInfo.withColumns_records {p : PreStmtInfo} (unused : p.columnNum = 0)
    (room : columns.length ≤ 256) : (p.withColumns 0 columns).Records columns := by
  refine ⟨?_, fun i within => ?_⟩
  · rw [withColumns_columnNum 0 (by omega), unused, Nat.zero_add]
  · have stored := p.withColumns_types 0 columns within
    rwa [Nat.zero_add] at stored

theorem prepared_describes (free : t.HasFree)
    (unused : (t.preStmtInfoes t.slot).columnNum = 0) (room : columns.length ≤ 256)
    (wanted : cfg.optionalMetadata = false ∨ columns = []) :
    ((setColumnInfoes t.prepared columns).preStmtInfoes t.slot).Records columns ∧
      endExtendPreStmt cfg (setColumnInfoes t.prepared columns) = .prepareOk t.slot columns.length 0 ::
        (definitionPackets cfg 0 ++ definitionPackets cfg columns.length) := by
  have current : t.prepared.curExtendPreStmtId = t.slot := congrArg Prod.fst (t.findFreeSlot_free free).1
  have entry : t.prepared.preStmtInfoes t.slot =
      ((cacheExtendPreStmt t SRWT_UNKNOWN).1.preStmtInfoes t.slot).parameterless := PreStmts.set_self _ _ _
  have counted : (t.prepared.preStmtInfoes t.slot).columnNum = 0 := by
    rw [entry]
    exact (cacheExtendPreStmt_counts t SRWT_UNKNOWN).2.trans unused
  have params : (t.prepared.preStmtInfoes t.slot).paramNum = 0 := by
    rw [entry]
    rfl
  have records := PreStmtInfo.withColumns_records counted room
  have frame := (t.prepared.preStmtInfoes t.slot).withColumns_frame 0 columns
  have stored := setColumnInfoes_eq t.prepared room
  rw [current] at stored
  have described := @endExtendPreStmt_describes cfg (setColumnInfoes t.prepared columns) columns
  rw [setColumnInfoes_current, current, stored, PreStmts.set_self] at described
  rw [stored, PreStmts.set_self]
  exact ⟨records, described (frame.2.1.trans params) records room wanted⟩

theorem local_describes (cfg : Config) (tidy : t.Tidy) (free : t.HasFree)
    (unused : (t.preStmtInfoes t.slot).columnNum = 0) (readWriteType : Nat) :
    ((cacheExtendPreStmt t readWriteType).1.preStmtInfoes t.slot).Records [] ∧
      endExtendPreStmt cfg (cacheExtendPreStmt t readWriteType).1 = .prepareOk t.slot 0 0 ::
        (definitionPackets cfg 0 ++ definitionPackets cfg 0) := by
  obtain ⟨found, lower, upper, _⟩ := t.findFreeSlot_free free
  have current : (cacheExtendPreStmt t readWriteType).1.curExtendPreStmtId = t.slot := congrArg Prod.fst found
  obtain ⟨params, columns⟩ := cacheExtendPreStmt_counts t readWriteType
  have none : (t.preStmtInfoes t.slot).paramNum = 0 := (tidy.entries _ (by omega) upper).1
  have records : ((cacheExtendPreStmt t readWriteType).1.preStmtInfoes t.slot).Records [] :=
    ⟨columns.trans unused, fun i within => absurd within (Nat.not_lt_zero i)⟩
  have described := @endExtendPreStmt_describes cfg (cacheExtendPreStmt t readWriteType).1 []
  rw [current] at described
  exact ⟨records, described (params.trans none) records (Nat.zero_le _) (.inr rfl)⟩

theorem processComPrepare_describes {g : Grammar} {oracle : Oracle} {s : Session} {a : Adapter}
    {inBuf : StringInfo} (tidy : s.stmts.Tidy) (narrow : oracle.Narrow)
    (trx : a.trx = s.adapter.trx) (offset : inBuf.offset = 129) (free : s.stmts.HasFree)
    (unused : (s.stmts.preStmtInfoes s.stmts.slot).columnNum = 0)
    (wanted : cfg.optionalMetadata = false ∨ (oracle.outcomes s.adapter.trx.additional.length).effects.columns = [])
    (succeeds : PrepareSucceeds cfg g oracle s inBuf columns) :
    let r := s.dispatch cfg g oracle (processComPrepare cfg a s.stmts inBuf)
    Describes cfg 0 columns r.1.stmts (r.2.sent.map Sent.packet) := by
  obtain ⟨next, skip, accepted, kinds⟩ := succeeds
  have prepares := rewriteExtendPreStmt_prepares s.stmts ((rectifyLoop_accepted accepted).1.trans offset)
  unfold processComPrepare
  rw [accepted]
  dsimp only
  generalize rewritten : rewriteExtendPreStmt s.stmts next = result at prepares kinds
  cases prepares with
  | unsupported | refused =>
    rcases kinds with ⟨⟨t, same⟩, _⟩ | ⟨⟨t, text, same, _⟩, _⟩ <;> cases same
  | @«local» readWriteType kind own =>
    rcases kinds with ⟨_, none⟩ | ⟨⟨t, text, same, _⟩, _⟩
    · subst none
      obtain ⟨records, answer⟩ := local_describes cfg tidy free unused readWriteType
      refine ⟨s.stmts.slot, [], rfl, records, ?_⟩
      refine Eq.trans ?_ answer
      simp only [Session.dispatch, byAdapter, map_map]
      exact map_id _
    · cases same
  | @prepare text kind short =>
    rcases kinds with ⟨⟨t, same⟩, _⟩ | ⟨⟨t, sent, same, taken⟩, found⟩
    · cases same
    cases same
    obtain ⟨table, before, quiet, packets⟩ := forward_prepares cfg (t := s.stmts.prepared)
      (a := { a with skipUtf8Verify := skip, isExtendPreStmt := true, warnErrCode := 0 }) rfl trx
      (rewriteExtendPreStmt_done rewritten) taken
    rw [← found] at table packets wanted
    have room : columns.length ≤ 256 := by
      rw [found]
      exact narrow _
    obtain ⟨records, answer⟩ := prepared_describes free unused room wanted
    rw [answer] at packets
    refine ⟨s.stmts.slot, before, quiet, ?_, packets⟩
    rw [table]
    exact records

/-- In every run of clean commands PREPARE describes its statement. -/
theorem prepare_metadata_fresh (setting : MysScan.Setting) (cfg : Config) (g : Grammar) (foreign : Int → PreStmtInfo)
    (behindNullBitmap : Nat → UInt8) (inputs : List Input)
    (clean : Along (Client.step cfg g) (CleanPrepare setting cfg) (.logon foreign behindNullBitmap) inputs) :
    Along (Client.step cfg g) (FreshMetadata setting cfg g) (.logon foreign behindNullBitmap) inputs := by
  refine Along.of_invariant (fun x input (sound : Client.Sound x) good => ?_) clean
    (Client.logon_sound foreign behindNullBitmap)
  cases input with
  | disconnect => exact ⟨trivial, sound.step trivial⟩
  | command payload junk oracle =>
    refine ⟨fun alive request ts columns scans succeeds => ?_, sound.step good.1⟩
    obtain ⟨free, unused, wanted, markers⟩ := good.2 request
    have described := processComPrepare_describes (a := startCommand x.session.adapter) sound.tidy good.1.1 rfl rfl free
      unused wanted succeeds
    rw [count_eq_zero_of_not_mem (markers ts scans)]
    simp only [Client.step, OpenHalo.step, alive, processCommand, request]
    exact described

theorem no_markers {setting : MysScan.Setting} {text : Bytes} (absent : 63 ∉ text) {ts : List MysScan.Token}
    (scans : (MysScan.Lexer.init text).Scans setting ts) : .mysParam ∉ ts := by
  obtain ⟨fuel, run⟩ := scans
  have total : text.count 63 = _ := MysScan.Lexer.count_marks run
  rw [count_eq_zero_of_not_mem absent] at total
  have none : ts.count .mysParam = 0 := by omega
  exact count_eq_zero.mp none

/-- A PREPARE in a text that a COM_QUERY brings. -/
def preparing (columns : List (Nat × Nat)) : Input :=
  .command (3 :: ascii "prepare p from 'select a from t'") (fun _ => 0)
    ⟨none, elogError [], fun _ => .ok ⟨0, [], none, columns⟩ .prepare 0⟩

theorem prepare_metadata_fresh_commit :
    Along (Client.step .standard plainGrammar) (FreshMetadata ⟨true, fun _ => true⟩ .standard plainGrammar)
      (.logon (fun _ => .initial) (fun _ => 0)) [prepareCommit] := by
  refine prepare_metadata_fresh _ _ _ _ _ _ ⟨⟨⟨fun k => ?_, fun execute => ?_⟩, fun _ => ⟨?_, ?_, .inl rfl, ?_⟩⟩,
    trivial⟩
  · exact Nat.zero_le _
  · cases execute
  · exact ⟨1, by decide, by decide, rfl⟩
  · decide +kernel
  · exact fun ts scans => no_markers (by decide) scans

/-- A PREPARE in a text counts its column in the entry of another statement, where it is announced later. -/
theorem prepare_metadata_stale :
    ¬Along (Client.step .standard plainGrammar) (FreshMetadata ⟨true, fun _ => true⟩ .standard plainGrammar)
      (.logon (fun _ => .initial) (fun _ => 0))
      [prepareCommit, preparing [(3, 63)], closeFirst, prepareCommit] := by
  intro fresh
  have last := fresh.2.2.2.1
  have run : (MysScan.Lexer.init (ascii "commit")).tokens ⟨true, fun _ => true⟩ 8 = some [.word (ascii "commit")] := by
    decide +kernel
  obtain ⟨id, before, _, _, packets⟩ := last (by decide +kernel) rfl _ [] ⟨8, run⟩ ⟨_, _, rfl, .inl ⟨⟨_, rfl⟩, rfl⟩⟩
  have answer : ((Client.step .standard plainGrammar (exec (Client.step .standard plainGrammar)
      (.logon (fun _ => .initial) (fun _ => 0)) [prepareCommit, preparing [(3, 63)], closeFirst])
        prepareCommit).2.sent.map
      Sent.packet) = [.prepareOk 1 1 0, .data, .data] := by decide +kernel
  have said : .prepareOk id 0 ([.word (ascii "commit")].count MysScan.Token.mysParam) ∈
      [Packet.prepareOk 1 1 0, .data, .data] := by
    rw [answer.symm.trans packets]
    exact mem_append_right _ mem_cons_self
  simp at said

end OpenHalo
