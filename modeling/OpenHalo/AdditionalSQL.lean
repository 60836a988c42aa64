import OpenHalo.RectifyEdits
import OpenHalo.Serve

namespace OpenHalo
open Octets Memory

/-- The variables that keep track of transactions and decide what is put in front of a command. -/
structure Trx where
  needCommitTrx : Bool
  needStartNewTrx : Bool
  trxNotCommit : Bool
  addBeforeBeforeCurSQL : Bool
  addCommitOrRollBackBeforeCurSQL : Bool
  needAddCommitOrRollbackAfterCurSQL : PendingEnd
  inTransactionFlag : Bool
  autoCommit : Bool
deriving Repr, DecidableEq

def Adapter.trx (a : Adapter) : Trx where
  needCommitTrx := a.needCommitTrx
  needStartNewTrx := a.needStartNewTrx
  trxNotCommit := a.trxNotCommit
  addBeforeBeforeCurSQL := a.addBeforeBeforeCurSQL
  addCommitOrRollBackBeforeCurSQL := a.addCommitOrRollBackBeforeCurSQL
  needAddCommitOrRollbackAfterCurSQL := a.needAddCommitOrRollbackAfterCurSQL
  inTransactionFlag := a.inTransactionFlag
  autoCommit := a.autoCommit

/-- The statements `addAdditionalSQL` puts in front. -/
def Trx.additional (x : Trx) : List RawStmt :=
  match x.needAddCommitOrRollbackAfterCurSQL with
  | .commit =>
    if x.needStartNewTrx && !x.trxNotCommit then [.begin]
    else if x.needCommitTrx && x.trxNotCommit then [.commit false]
    else []
  | .rollback => [.rollback false, .begin]

def Trx.previousEnd (x : Trx) : List RawStmt :=
  if x.trxNotCommit then
    match x.needAddCommitOrRollbackAfterCurSQL with
    | .commit => [.commit false]
    | .rollback => [.rollback false]
  else []

def QueryWord.added (word : QueryWord) (x : Trx) : List RawStmt :=
  match word with
  | .manipulate | .other => x.additional
  | .begin => x.previousEnd
  | .finish | .set | .use | .showGrants | .showWarnings | .alterDatabase | .semicolon | .checksum | .maintain
  | .acknowledge => []

def QueryWord.executes : QueryWord → Bool
  | .manipulate | .other | .begin | .finish | .set | .use => true
  | .showGrants | .showWarnings | .alterDatabase | .semicolon | .checksum | .maintain | .acknowledge => false

/-- The flags after statements `added` have been put in front. -/
def Adapter.announce (a : Adapter) (added : List RawStmt) : Adapter :=
  { a with
    addBeforeBeforeCurSQL := a.addBeforeBeforeCurSQL || added.contains .begin
    addCommitOrRollBackBeforeCurSQL := a.addCommitOrRollBackBeforeCurSQL ||
      added.any fun stmt => stmt == .commit false || stmt == .rollback false }

def Trx.announce (x : Trx) (added : List RawStmt) : Trx :=
  { x with
    addBeforeBeforeCurSQL := x.addBeforeBeforeCurSQL || added.contains .begin
    addCommitOrRollBackBeforeCurSQL := x.addCommitOrRollBackBeforeCurSQL ||
      added.any fun stmt => stmt == .commit false || stmt == .rollback false }

variable {cfg : Config} (g : Grammar) (a : Adapter) (inBuf : StringInfo) (text : Bytes)

theorem Adapter.announce_nil : a.announce [] = a := by
  simp [Adapter.announce]

theorem StringInfo.stmt_prepend {inBuf : StringInfo} {text : Bytes} (room : text.length ≤ inBuf.offset)
    (nonempty : 0 < inBuf.len) : (inBuf.prepend text).stmt = text ++ inBuf.stmt := by
  have split : inBuf.len + text.length - 1 = text.length + (inBuf.len - 1) := by omega
  have behind : inBuf.offset - text.length + text.length = inBuf.offset := by omega
  simp only [StringInfo.stmt, StringInfo.prepend]
  rw [split, read_append, read_write_self, behind]
  congr 1
  apply read_congr
  intro i lower _
  exact write_after (by omega)

theorem StringInfo.prepend_len : (inBuf.prepend text).len = inBuf.len + text.length := rfl

theorem StringInfo.prepend_offset : (inBuf.prepend text).offset = inBuf.offset - text.length := rfl

/-- What the parser makes of a text behind the statements `added`. -/
def Parsed (g : Grammar) (added : List RawStmt) (text full : Bytes) : Prop :=
  g.rawParse full = ((g.rawParse text).1, (g.rawParse text).2.map (added ++ ·))

theorem parsed_refl : Parsed g [] text text := by
  simp [Parsed]

def RawStmt.controlWord : RawStmt → Bytes
  | .begin => ascii "begin"
  | .commit _ => ascii "commit"
  | _ => ascii "rollback"

def frontText (added : List RawStmt) : Bytes := added.flatMap fun stmt => stmt.controlWord ++ [59]

theorem addPrefix_stmt {inBuf : StringInfo} (room : RESERVED_FOR_ADDITIONAL_SQL ≤ inBuf.offset)
    (nonempty : 0 < inBuf.len) :
    (addPrefix a inBuf).2.stmt = frontText a.trx.additional ++ inBuf.stmt := by
  have space : 64 ≤ inBuf.offset := room
  have begins : (inBuf.prepend (ascii "begin;")).stmt = ascii "begin;" ++ inBuf.stmt :=
    StringInfo.stmt_prepend (by simp [ascii]; omega) nonempty
  have commits : (inBuf.prepend (ascii "commit;")).stmt = ascii "commit;" ++ inBuf.stmt :=
    StringInfo.stmt_prepend (by simp [ascii]; omega) nonempty
  have both : ((inBuf.prepend (ascii "begin;")).prepend (ascii "rollback;")).stmt =
      ascii "rollback;" ++ (ascii "begin;" ++ inBuf.stmt) := by
    rw [StringInfo.stmt_prepend, begins]
    · simp [StringInfo.prepend_offset, ascii]; omega
    · simp [StringInfo.prepend_len]; omega
  unfold addPrefix Trx.additional Adapter.trx
  cases pending : a.needAddCommitOrRollbackAfterCurSQL with
  | commit =>
    cases start : a.needStartNewTrx <;> cases opened : a.trxNotCommit <;> cases due : a.needCommitTrx <;>
      simp [begins, commits, opened, due] <;> rfl
  | rollback =>
    simp [both]
    rfl

theorem parsed_front {added : List RawStmt}
    (control : ∀ stmt ∈ added, stmt = .begin ∨ stmt = .commit false ∨ stmt = .rollback false) :
    Parsed g added text (frontText added ++ text) := by
  induction added with
  | nil => exact parsed_refl g text
  | cons stmt added ih =>
    obtain ⟨first, later⟩ := List.forall_mem_cons.mp control
    have front : frontText (stmt :: added) ++ text = (stmt.controlWord ++ [59]) ++ (frontText added ++ text) := by
      simp [frontText]
    have rest := ih later
    unfold Parsed at rest ⊢
    rw [front]
    rcases first with rfl | rfl | rfl
    · exact (g.parse_begin _).trans (by simp [rest, Function.comp_def])
    · exact (g.parse_commit _).trans (by simp [rest, Function.comp_def])
    · exact (g.parse_rollback _).trans (by simp [rest, Function.comp_def])

theorem Trx.additional_control (x : Trx) :
    ∀ stmt ∈ x.additional, stmt = .begin ∨ stmt = .commit false ∨ stmt = .rollback false := by
  unfold Trx.additional
  split
  · split
    · simp
    · split <;> simp
  · simp

theorem addPrefix_parsed {inBuf : StringInfo} (room : RESERVED_FOR_ADDITIONAL_SQL ≤ inBuf.offset)
    (nonempty : 0 < inBuf.len) :
    Parsed g a.trx.additional inBuf.stmt (addPrefix a inBuf).2.stmt := by
  rw [addPrefix_stmt a room nonempty]
  exact parsed_front g _ a.trx.additional_control

theorem addPrefix_adapter : (addPrefix a inBuf).1 = { a.announce a.trx.additional with needCommitTrx := false } := by
  unfold addPrefix Adapter.announce Trx.additional Adapter.trx
  cases pending : a.needAddCommitOrRollbackAfterCurSQL with
  | commit =>
    cases start : a.needStartNewTrx <;> cases opened : a.trxNotCommit <;> cases due : a.needCommitTrx <;>
      simp [start, opened, due, pending]
  | rollback => simp

theorem endPrevious_parsed {inBuf : StringInfo} (room : RESERVED_FOR_ADDITIONAL_SQL ≤ inBuf.offset)
    (nonempty : 0 < inBuf.len) :
    Parsed g a.trx.previousEnd inBuf.stmt (endPrevious a inBuf).2.stmt := by
  have space : 64 ≤ inBuf.offset := room
  have commits : (inBuf.prepend (ascii "commit;")).stmt = ascii "commit;" ++ inBuf.stmt :=
    StringInfo.stmt_prepend (by simp [ascii]; omega) nonempty
  have rolls : (inBuf.prepend (ascii "rollback;")).stmt = ascii "rollback;" ++ inBuf.stmt :=
    StringInfo.stmt_prepend (by simp [ascii]; omega) nonempty
  unfold endPrevious Trx.previousEnd Parsed Adapter.trx
  cases opened : a.trxNotCommit <;> cases pending : a.needAddCommitOrRollbackAfterCurSQL <;>
    simp [commits, rolls, g.parse_commit, g.parse_rollback]

theorem endPrevious_adapter : (endPrevious a inBuf).1 = a.announce a.trx.previousEnd := by
  by_cases opened : a.trxNotCommit = true
  · unfold endPrevious Adapter.announce Trx.previousEnd Adapter.trx
    cases pending : a.needAddCommitOrRollbackAfterCurSQL <;> simp [opened]
  · have none : a.trx.previousEnd = [] := if_neg opened
    rw [endPrevious, if_neg opened, none, Adapter.announce_nil]

theorem rectifyLoop_accepted {version : Bytes} {inBuf next : StringInfo} {fuel : Nat} {st : RectifyState}
    {skip : Bool} (accepted : rectifyLoop version inBuf fuel st = .accepted next skip) :
    next.offset = inBuf.offset ∧ next.maxlen = inBuf.maxlen := by
  obtain ⟨last, _, rfl⟩ := rectifyLoop_invariant (P := fun _ => True) (fun _ _ _ _ _ => trivial) trivial accepted
  exact ⟨rfl, rfl⟩

theorem skipBlanks_offset (fuel : Nat) (inBuf : StringInfo) :
    inBuf.offset ≤ (skipBlanks fuel inBuf).offset := by
  induction fuel generalizing inBuf with
  | zero => exact Nat.le_refl _
  | succ fuel ih =>
    unfold skipBlanks
    dsimp only
    split
    · have further := ih { inBuf with offset := inBuf.offset + 1, len := inBuf.len - 1 }
      exact Nat.le_of_succ_le further
    · exact Nat.le_refl _

/-- The text of a COM_QUERY for the dispatch: comments rectified and leading blanks gone. -/
def queryText (cfg : Config) (inBuf : StringInfo) : Option StringInfo :=
  match rectifyCommand cfg.halo_mysql_version inBuf with
  | .accepted inBuf _ =>
    let text := skipBlanks inBuf.len inBuf
    if text.len = 0 then none else some text
  | .refused _ => none
  | .raised _ => none

theorem queryText_bounds {inBuf text : StringInfo} (found : queryText cfg inBuf = some text) :
    inBuf.offset ≤ text.offset ∧ 0 < text.len := by
  unfold queryText at found
  split at found
  · rename_i accepted
    dsimp only at found
    split at found
    · cases found
    cases found
    rw [← (rectifyLoop_accepted accepted).1]
    exact ⟨skipBlanks_offset _ _, by omega⟩
  · cases found
  · cases found

theorem processComQuery_none {a : Adapter} {t : PreStmts} {inBuf : StringInfo} (empty : queryText cfg inBuf = none) :
    (∃ edata, processComQuery cfg a t inBuf = .raised a t [] edata) ∨
      ∃ skip, processComQuery cfg a t inBuf = emptyQuery { a with skipUtf8Verify := skip } t (inBuf.len - 1) := by
  unfold queryText at empty
  unfold processComQuery
  split at empty
  · rename_i next skip accepted
    rw [accepted]
    dsimp only at empty ⊢
    split at empty
    · rename_i gone
      exact .inr ⟨skip, by rw [if_pos gone]⟩
    · cases empty
  · rename_i refused
    rw [refused]
    exact .inl ⟨_, rfl⟩
  · rename_i raised
    rw [raised]
    exact .inl ⟨_, rfl⟩

theorem processComQuery_some {a : Adapter} {t : PreStmts} {inBuf text : StringInfo}
    (found : queryText cfg inBuf = some text) :
    ∃ skip, processComQuery cfg a t inBuf =
      processQuery cfg { a with skipUtf8Verify := skip } t (inBuf.len - 1) text := by
  unfold queryText at found
  unfold processComQuery
  split at found
  · rename_i next skip accepted
    rw [accepted]
    dsimp only at found ⊢
    split at found
    · cases found
    rename_i present
    cases found
    exact ⟨skip, by rw [if_neg present]⟩
  · cases found
  · cases found

end OpenHalo
