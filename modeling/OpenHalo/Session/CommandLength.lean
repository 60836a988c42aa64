import OpenHalo.Session.PrepareMetadata

namespace OpenHalo
open Octets Memory Memory.Prog Machine List

variable {body front version : Bytes} {skip : Bool}

def ERRCODE_PROTOCOL_VIOLATION : Nat := 16908800

/-- For a MySQL client, from a cursor; the conversion gets an address and a length. -/
def pq_getmsgstring (pg_client_to_server : Mem → Nat → Nat → Except ErrorData Bytes) (msg : StringInfo) (cursor : Nat) :
    Except ErrorData (Bytes × Nat) :=
  let str := cursor + msg.offset
  let slen := msg.len - 1
  if msg.len ≤ cursor + slen then .error ⟨ERRCODE_PROTOCOL_VIOLATION, ascii "invalid string in message"⟩
  else (pg_client_to_server msg.data str slen).map fun string => (string, cursor + slen + 1)

def pq_getmsgend (msg : StringInfo) (cursor : Nat) : Except ErrorData Unit :=
  if cursor ≠ msg.len then .error ⟨ERRCODE_PROTOCOL_VIOLATION, ascii "invalid message format"⟩ else .ok ()

/-- `len` counts a C string and its terminator. -/
def StringInfo.Measured (inBuf : StringInfo) : Prop :=
  ∃ n, inBuf.len = n + 1 ∧ StrLen inBuf.data inBuf.offset n

/-- What the server needs of a query. Offsets are natural numbers: a positive one was never cut. -/
structure StringInfo.Readable (inBuf : StringInfo) : Prop where
  offset : 0 < inBuf.offset
  measured : inBuf.Measured
  string : ∀ n, StrLen inBuf.data inBuf.offset n → ∀ pg_client_to_server,
    pq_getmsgstring pg_client_to_server inBuf 0 =
      (pg_client_to_server inBuf.data inBuf.offset n).map fun string => (string, inBuf.len)
  consumed : pq_getmsgend inBuf inBuf.len = .ok ()

def Dispatch.Readable (d : Dispatch) : Prop := ∀ a t inBuf, d = .query a t inBuf → inBuf.Readable

structure Arrived (inBuf : StringInfo) (body : Bytes) : Prop where
  bytes : read inBuf.data inBuf.offset body.length = body
  ended : inBuf.data (inBuf.offset + body.length) = 0
  len : inBuf.len = body.length + 1
  reserved : RESERVED_FOR_ADDITIONAL_SQL ≤ inBuf.offset
  large : 1024 ≤ inBuf.maxlen

def PreStmts.Open (t : PreStmts) (id : Int) : Prop :=
  0 ≤ id ∧ id < PRE_STMT_NUM_MAX ∧ (t.preStmtInfoes id).isValid = true

/-- Texts, requests for open statements without parameters, and resets. -/
inductive Ordinary (t : PreStmts) (inBuf : StringInfo) (body : Bytes) : Request → Prop
  | query (text : 0 ∉ body) : Ordinary t inBuf body .query
  | useDatabase (text : 0 ∉ body) : Ordinary t inBuf body .useDatabase
  | close (opened : t.Open (preStmtId inBuf)) : Ordinary t inBuf body .close
  | execute (opened : t.Open (preStmtId inBuf)) (parameterless : (t.preStmtInfoes (preStmtId inBuf)).paramNum = 0) :
      Ordinary t inBuf body .execute
  | resetConn : Ordinary t inBuf body .resetConn

/-- The name has the length PREPARE gave it; EXECUTE cuts a longer one, COMMIT and ROLLBACK need none. -/
def NameKept (p : PreStmtInfo) : Request → Prop
  | .close => (cstr p.name).length = 11
  | .execute => p.readWriteType = SRWT_UNKNOWN → 11 ≤ (cstr p.name).length
  | _ => True

variable {inBuf : StringInfo} {text : Bytes} (cfg : Config) (a : Adapter) (t : PreStmts)

theorem StringInfo.Measured.readable (measured : inBuf.Measured) (offset : 0 < inBuf.offset) : inBuf.Readable := by
  obtain ⟨n, len, string⟩ := measured
  refine ⟨offset, ⟨n, len, string⟩, fun k other pg_client_to_server => ?_, ?_⟩
  · have same := string.unique other
    have within : ¬ inBuf.len ≤ 0 + (inBuf.len - 1) := by omega
    have address : 0 + inBuf.offset = inBuf.offset := Nat.zero_add _
    have slen : inBuf.len - 1 = k := by omega
    have cursor : 0 + k + 1 = inBuf.len := by omega
    rw [pq_getmsgstring, if_neg within, address, slen, cursor]
  · rw [pq_getmsgend, if_neg (not_not.mpr rfl)]

theorem StringInfo.measured_prepend (text : 0 ∉ front) (room : front.length ≤ inBuf.offset) :
    (inBuf.prepend front).Measured ↔ inBuf.Measured := by
  constructor
  · rintro ⟨n, len, string⟩
    rw [StringInfo.prepend_len] at len
    have inside : front.length ≤ n := by
      by_contra outside
      have member : write inBuf.data (inBuf.offset - front.length) front (inBuf.offset - front.length + n) ∈ front :=
        write_mem (by omega) (by omega)
      have ended : write inBuf.data (inBuf.offset - front.length) front (inBuf.offset - front.length + n) = 0 :=
        string.ended
      rw [ended] at member
      exact text member
    obtain ⟨k, rfl⟩ := Nat.exists_eq_add_of_le' inside
    exact ⟨k, by omega, (strLen_prepend text room).mp string⟩
  · rintro ⟨n, len, string⟩
    refine ⟨n + front.length, ?_, (strLen_prepend text room).mpr string⟩
    rw [StringInfo.prepend_len]
    omega

theorem StringInfo.prepend_prepend (inBuf : StringInfo) (room : front.length + text.length ≤ inBuf.offset) :
    (inBuf.prepend text).prepend front = inBuf.prepend (front ++ text) := by
  have place : inBuf.offset - text.length - front.length = inBuf.offset - (front.length + text.length) := by omega
  have behind : inBuf.offset - (front.length + text.length) + front.length = inBuf.offset - text.length := by omega
  simp only [StringInfo.prepend, length_append, write_append, place, behind]
  congr 1
  · funext i
    by_cases inFront : i < inBuf.offset - text.length
    · rw [write_before inFront]
      by_cases inside : inBuf.offset - (front.length + text.length) ≤ i
      · simp only [Memory.write, if_pos inside, if_neg (Nat.not_le.mpr inFront)]
      · rw [write_before (Nat.not_le.mp inside), write_before inFront, write_before (Nat.not_le.mp inside)]
    · rw [write_after (by omega)]
      simp only [Memory.write, if_pos (Nat.not_lt.mp inFront)]
      have past : front.length ≤ i - (inBuf.offset - (front.length + text.length)) := by omega
      split
      · rw [getD_eq_default _ _ past]
      · rfl
  · omega

/-- What `addAdditionalSQL` puts in front depends on the flags only. -/
theorem addPrefix_front : ∃ front : Bytes, 0 ∉ front ∧ front.length < RESERVED_FOR_ADDITIONAL_SQL ∧
    ∀ inBuf, RESERVED_FOR_ADDITIONAL_SQL ≤ inBuf.offset → (addPrefix a inBuf).2 = inBuf.prepend front := by
  have nothing (inBuf : StringInfo) : inBuf = inBuf.prepend [] := by
    simp [StringInfo.prepend, write_nil]
  unfold addPrefix
  cases pending : a.needAddCommitOrRollbackAfterCurSQL with
  | commit =>
    cases opened : a.trxNotCommit with
    | true =>
      cases due : a.needCommitTrx with
      | true => exact ⟨ascii "commit;", by decide, by decide, fun inBuf _ => by simp [due, opened]⟩
      | false => exact ⟨[], by decide, by decide, fun inBuf _ => by simp [due, opened, ← nothing]⟩
    | false =>
      cases start : a.needStartNewTrx with
      | true => exact ⟨ascii "begin;", by decide, by decide, fun inBuf _ => by simp⟩
      | false => exact ⟨[], by decide, by decide, fun inBuf _ => by simp [opened, ← nothing]⟩
  | rollback =>
    refine ⟨ascii "rollback;" ++ ascii "begin;", by decide, by decide, fun inBuf room => ?_⟩
    have space : 64 ≤ inBuf.offset := room
    have fits : (ascii "rollback;").length + (ascii "begin;").length ≤ inBuf.offset := Nat.le_trans (by decide) space
    rw [← inBuf.prepend_prepend fits]
    rfl

theorem Dispatch.readable_query (offset : 0 < inBuf.offset) : (Dispatch.query a t inBuf).Readable ↔ inBuf.Measured := by
  constructor
  · intro readable
    exact (readable a t inBuf rfl).measured
  · rintro measured _ _ _ ⟨⟩
    exact measured.readable offset

theorem forward_readable (room : RESERVED_FOR_ADDITIONAL_SQL ≤ inBuf.offset) :
    (forward a t inBuf).Readable ↔ inBuf.Measured := by
  obtain ⟨front, text, short, added⟩ := addPrefix_front a
  have offset : 0 < (inBuf.prepend front).offset := by
    rw [StringInfo.prepend_offset]
    omega
  rw [forward, addAdditionalSQL, if_pos room]
  dsimp only
  rw [added inBuf room, Dispatch.readable_query _ _ offset, StringInfo.measured_prepend text (by omega)]

theorem readable_of_no_query {d : Dispatch} (none : ∀ a t inBuf, d ≠ .query a t inBuf) : d.Readable :=
  fun a t inBuf same => absurd same (none a t inBuf)

/-- The loop invariant: the text keeps its terminator, and a comment that is skipped has started. -/
structure RectifyState.Kept (offset : Nat) (st : RectifyState) : Prop where
  measured : ∃ n, st.len = n + 1 ∧ StrLen st.data offset n
  comment : st.commentType = 1 → st.commentStartIndex + 2 ≤ st.i

theorem RectifyState.Kept.turn {offset maxlen : Nat} {st st' : RectifyState} (kept : st.Kept offset)
    (inside : st.i < st.len)
    (positive : 0 < offset) (turn : rectifyTurn version maxlen offset st = .next st') : st'.Kept offset := by
  obtain ⟨⟨n, len, string⟩, comment⟩ := kept
  obtain ⟨⟨k, counted, edited⟩, started⟩ := rectifyTurn_edited len string.ended comment inside positive turn
  exact ⟨⟨k, counted, edited.strLen string⟩, started⟩

theorem rectifyCommand_measured {inBuf out : StringInfo} (positive : 0 < inBuf.offset)
    (measured : inBuf.Measured) (accepted : rectifyCommand version inBuf = .accepted out skip) :
    out.Measured ∧ out.offset = inBuf.offset := by
  obtain ⟨last, kept, rfl⟩ := rectifyLoop_invariant (P := RectifyState.Kept inBuf.offset)
    (fun st st' kept inside turn => kept.turn inside positive turn) (by exact ⟨measured, nofun⟩) accepted
  exact ⟨kept.measured, rfl⟩

theorem skipBlanks_measured {fuel : Nat} (measured : inBuf.Measured) (enough : fuel = inBuf.len) :
    (skipBlanks fuel inBuf).len = 0 ∨ (skipBlanks fuel inBuf).Measured ∧
    inBuf.offset ≤ (skipBlanks fuel inBuf).offset := by
  induction fuel generalizing inBuf with
  | zero => exact .inl enough.symm
  | succ fuel ih =>
    rw [skipBlanks]
    split
    next isBlank =>
      obtain ⟨n, len, string⟩ := measured
      cases n with
      | zero =>
        have last : fuel = 0 := by omega
        left
        rw [last, skipBlanks, len]
      | succ n =>
        rcases @ih { inBuf with offset := inBuf.offset + 1, len := inBuf.len - 1 }
          ⟨n, by rw [len]; rfl, string.tail⟩ (by change fuel = inBuf.len - 1; omega) with none | ⟨kept, further⟩
        · exact .inl none
        · exact .inr ⟨kept, by change inBuf.offset + 1 ≤ _ at further; omega⟩
    next => exact .inr ⟨measured, Nat.le_refl _⟩

theorem useDatabaseText_measured (measured : inBuf.Measured) (room : 5 ≤ inBuf.offset) :
    (useDatabaseText inBuf).Measured := by
  have front : 0 ∉ ascii "use \x60" := by decide
  obtain ⟨n, len, string⟩ := (StringInfo.measured_prepend front room).mpr measured
  refine ⟨n + 1, by rw [useDatabaseText]; dsimp only; rw [len], ?_⟩
  have place : (inBuf.prepend (ascii "use \x60")).offset + (inBuf.prepend (ascii "use \x60")).len - 1 =
      (inBuf.prepend (ascii "use \x60")).offset + n := by omega
  rw [useDatabaseText]
  dsimp only
  rw [place]
  generalize inBuf.prepend (ascii "use \x60") = out at string
  constructor
  · intro i before
    rcases Nat.lt_or_eq_of_le (Nat.le_of_lt_succ before) with earlier | rfl
    · rw [write_before (by omega)]
      exact string.nonzero i earlier
    · rw [Memory.write, if_pos (Nat.le_refl _), Nat.sub_self]
      exact show (96 : UInt8) ≠ 0 by decide
  · have last : out.offset + (n + 1) - (out.offset + n) = 1 := by omega
    rw [Memory.write, if_pos (by omega), last]
    rfl

theorem resetConnection_measured (inBuf : StringInfo) : (resetConnection a t inBuf).2.2.Measured := by
  have text : 0 ∉ ascii "rollback;" ++ ascii "deallocate prepare all" := by decide
  exact ⟨_, rfl, strLen_write inBuf.data inBuf.offset text⟩

theorem measured_write (inBuf : StringInfo) (nonzero : 0 ∉ text) (len : Nat) :
    StringInfo.Measured { inBuf with data := write inBuf.data inBuf.offset (text ++ [0]), len := len + 1 } ↔
      text.length = len := by
  have string := strLen_write inBuf.data inBuf.offset nonzero
  constructor
  · rintro ⟨n, same, other⟩
    have lengths := string.unique other
    change len + 1 = n + 1 at same
    omega
  · intro same
    exact ⟨_, by rw [same], string⟩

theorem strLen_cut (m : Mem) (a : Nat) (nonzero : 0 ∉ text) :
    StrLen (write (write m a (text ++ [0])) (a + 19) [0]) a 19 ↔ 19 ≤ text.length := by
  have string := strLen_write m a nonzero
  constructor
  · intro cut
    by_contra short
    have ended : write (write m a (text ++ [0])) (a + 19) [0] (a + text.length) = 0 := by
      rw [write_before (by omega)]
      exact string.ended
    exact cut.nonzero _ (Nat.not_le.mp short) ended
  · intro long
    constructor
    · intro i before
      rw [write_before (by omega)]
      exact string.nonzero i (by omega)
    · rw [Memory.write, if_pos (Nat.le_refl _), Nat.sub_self]
      rfl

theorem cut_nonzero {word : Bytes} (nonzero : 0 ∉ word) (name : Bytes) (n : Nat) : 0 ∉ (word ++ cstr name).take n := by
  intro zero
  rcases mem_append.mp (mem_of_mem_take zero) with letter | inName
  · exact nonzero letter
  · exact cstr_nonzero _ inName

section
variable (room : RESERVED_FOR_ADDITIONAL_SQL ≤ inBuf.offset)
include room

theorem processQuery_readable (origLen : Int) (measured : inBuf.Measured) :
    (processQuery cfg a t origLen inBuf).Readable := by
  have positive : 0 < inBuf.offset := Nat.lt_of_lt_of_le (by decide) room
  have whole (a : Adapter) : (Dispatch.query a t inBuf).Readable := (Dispatch.readable_query a t positive).mpr measured
  have front (text : Bytes) (nonzero : 0 ∉ text) (short : text.length < 64) (a : Adapter) :
      (Dispatch.query a t (inBuf.prepend text)).Readable := by
    have space : 64 ≤ inBuf.offset := room
    have offset : 0 < (inBuf.prepend text).offset := by
      rw [StringInfo.prepend_offset]
      omega
    exact (Dispatch.readable_query a t offset).mpr ((StringInfo.measured_prepend nonzero (by omega)).mpr measured)
  unfold processQuery
  cases queryWord inBuf with
  | manipulate | other => exact (forward_readable _ t room).mpr measured
  | begin =>
    unfold endPrevious
    dsimp only
    split
    · split
      · exact front _ (by decide) (by decide) _
      · exact front _ (by decide) (by decide) _
    · exact whole _
  | finish | set => exact whole _
  | use =>
    dsimp only
    split
    · exact readable_of_no_query (by simp)
    split
    · exact whole _
    · exact readable_of_no_query (by simp [refuse])
  | showGrants =>
    dsimp only
    split <;> exact readable_of_no_query (by simp)
  | showWarnings | alterDatabase | acknowledge => exact readable_of_no_query (by simp [refuse, acknowledge])
  | semicolon =>
    split_ifs <;> exact readable_of_no_query (by simp [refuse, acknowledge])
  | checksum | maintain =>
    dsimp only
    unfold simulated
    split <;> exact readable_of_no_query (by simp)

theorem processComQuery_readable (measured : inBuf.Measured) : (processComQuery cfg a t inBuf).Readable := by
  have positive : 0 < inBuf.offset := Nat.lt_of_lt_of_le (by decide) room
  unfold processComQuery
  cases rectified : rectifyCommand cfg.halo_mysql_version inBuf with
  | refused | raised => exact readable_of_no_query (by simp)
  | accepted out skip =>
    obtain ⟨kept, same⟩ := rectifyCommand_measured positive measured rectified
    dsimp only
    split
    · unfold emptyQuery
      split <;> exact readable_of_no_query (by simp [acknowledge, refuse])
    next left =>
      obtain none | ⟨kept', further⟩ := skipBlanks_measured kept rfl
      · exact absurd none left
      · exact processQuery_readable cfg _ t (by omega) _ kept'

theorem processUseDatabase_readable (measured : inBuf.Measured) : (processUseDatabase a t inBuf).Readable := by
  have space : 64 ≤ inBuf.offset := room
  rw [processUseDatabase]
  split
  · by_cases enough : RESERVED_FOR_ADDITIONAL_SQL ≤ (useDatabaseText inBuf).offset
    · exact (forward_readable _ t enough).mpr (useDatabaseText_measured measured (by omega))
    · rw [forward, addAdditionalSQL, if_neg enough]
      exact readable_of_no_query (by simp)
  · exact readable_of_no_query (by simp [refuse])

theorem written_readable (a done : Adapter) (t t' : PreStmts) (nonzero : 0 ∉ text) (len : Nat) :
    (processRewritten a done t (.done t' { inBuf with
      data := write inBuf.data inBuf.offset (text ++ [0]), len := len + 1 })).Readable ↔ text.length = len := by
  have room' : RESERVED_FOR_ADDITIONAL_SQL ≤
      ({ inBuf with data := write inBuf.data inBuf.offset (text ++ [0]), len := len + 1 } : StringInfo).offset := room
  rw [processRewritten, forward_readable _ _ room', measured_write inBuf nonzero len]

variable (large : 1024 ≤ inBuf.maxlen) (opened : t.Open (preStmtId inBuf))
include large opened

theorem closed_readable (a done : Adapter) :
    (processRewritten a done t (rewriteExtendCloseStmt t inBuf)).Readable ↔
      (cstr (t.preStmtInfoes (preStmtId inBuf)).name).length = 11 := by
  have inside : ¬ PRE_STMT_NUM_MAX < preStmtId inBuf := by
    have upper := opened.2.1
    omega
  have word : (ascii "deallocate prepare ").length = 19 := rfl
  rw [rewriteExtendCloseStmt, if_neg inside]
  dsimp only
  rw [snprintf, written_readable room _ _ _ _ (cut_nonzero (by decide) _ _) 30, length_take, length_append]
  omega

theorem executed_readable (a done : Adapter) (parameterless : (t.preStmtInfoes (preStmtId inBuf)).paramNum = 0) :
    (processRewritten a done t (rewriteExtendExeStmt t inBuf)).Readable ↔
      ((t.preStmtInfoes (preStmtId inBuf)).readWriteType = SRWT_UNKNOWN →
        11 ≤ (cstr (t.preStmtInfoes (preStmtId inBuf)).name).length) := by
  have inside : ¬ PRE_STMT_NUM_MAX < preStmtId inBuf := by
    have upper := opened.2.1
    omega
  rw [rewriteExtendExeStmt, if_neg inside]
  dsimp only
  split
  next unknown =>
    have none : ¬ 0 < (t.preStmtInfoes (preStmtId inBuf)).paramNum := by omega
    have text :=
      cut_nonzero (show 0 ∉ ascii "execute " by decide) (t.preStmtInfoes (preStmtId inBuf)).name (inBuf.maxlen - 1 - 1)
    have word : (ascii "execute ").length = 8 := rfl
    rw [rewriteExtendExeStmt_, if_neg none]
    have sent :=
      @forward_readable ⟨write (write inBuf.data inBuf.offset (snprintf (inBuf.maxlen - 1) (ascii "execute " ++ cstr
        (t.preStmtInfoes (preStmtId inBuf)).name))) (inBuf.offset + 19) [0], inBuf.maxlen, 20, inBuf.offset⟩
      { done with warnErrCode := 0 } t room
    refine sent.trans ?_
    have measured := strLen_cut inBuf.data inBuf.offset text
    rw [length_take, length_append] at measured
    constructor
    · rintro ⟨n, len, string⟩ _
      change 20 = n + 1 at len
      obtain rfl : n = 19 := by omega
      have long := measured.mp string
      omega
    · intro named
      exact ⟨19, rfl, measured.mpr (by omega)⟩
  next other =>
    refine iff_of_true ?_ fun unknown => absurd unknown other
    split
    · exact (written_readable room _ _ _ _ (by decide) 6).mpr rfl
    split
    · exact (written_readable room _ _ _ _ (by decide) 8).mpr rfl
    · exact readable_of_no_query (by simp [processRewritten])

end

theorem Arrived.measured (arrived : Arrived inBuf body) (text : 0 ∉ body) : inBuf.Measured := by
  refine ⟨body.length, arrived.len, fun i before zero => ?_, arrived.ended⟩
  have member : inBuf.data (inBuf.offset + i) ∈ read inBuf.data inBuf.offset body.length :=
    mem_map.mpr ⟨i, mem_range.mpr before, rfl⟩
  rw [arrived.bytes, zero] at member
  exact text member

/-- A command reaches the server in readable form exactly if the name of its statement has kept its length. -/
theorem command_length_iff (cfg : Config) (a : Adapter) (t : PreStmts) (firstChar : UInt8) (inBuf : StringInfo)
    (body : Bytes) (arrived : Arrived inBuf body) (ordinary : Ordinary t inBuf body (Request.ofByte firstChar)) :
    (processCommand cfg a t firstChar inBuf).Readable ↔
      NameKept (t.preStmtInfoes (preStmtId inBuf)) (Request.ofByte firstChar) := by
  have room := arrived.reserved
  rw [processCommand]
  generalize Request.ofByte firstChar = request at ordinary
  cases ordinary with
  | query text => exact iff_of_true (processComQuery_readable cfg _ t room (arrived.measured text)) trivial
  | useDatabase text => exact iff_of_true (processUseDatabase_readable _ t room (arrived.measured text)) trivial
  | close opened => exact closed_readable t room arrived.large opened _ _
  | execute opened parameterless => exact executed_readable t room arrived.large opened _ _ parameterless
  | resetConn =>
    refine iff_of_true ?_ trivial
    have positive : 0 < inBuf.offset := Nat.lt_of_lt_of_le (by decide) room
    have offset : 0 < (resetConnection (startCommand a) t inBuf).2.2.offset := positive
    exact (Dispatch.readable_query _ _ offset).mpr (resetConnection_measured _ t inBuf)

theorem close_readable (arrived : Arrived inBuf body) (opened : t.Open (preStmtId inBuf)) :
    (processCommand cfg a t 25 inBuf).Readable ↔ (cstr (t.preStmtInfoes (preStmtId inBuf)).name).length = 11 :=
  closed_readable t arrived.reserved arrived.large opened _ _

theorem readCommand_arrived (c : UInt8) (body : Bytes) (junk : Mem) :
    Arrived (readCommand (c :: body) junk).2 body := by
  have data : (readCommand (c :: body) junk).2.data = write (write junk 128 [c]) 129 (body ++ [0]) := by
    have place : 128 + [c].length = 129 := rfl
    have split : c :: body ++ [0] = [c] ++ (body ++ [0]) := rfl
    simp only [readCommand, Memory.load]
    rw [split, write_append, place]
  refine ⟨?_, ?_, rfl, show 64 ≤ 129 by decide, ?_⟩
  · rw [data, write_append]
    change read (write (write (write junk 128 [c]) 129 body) (129 + body.length) [0]) 129 body.length = body
    rw [read_congr fun i _ within => write_before within]
    exact read_write_self _ _ _
  · rw [data, write_append]
    change write (write (write junk 128 [c]) 129 body) (129 + body.length) [0] (129 + body.length) = 0
    rw [Memory.write, if_pos (Nat.le_refl _), Nat.sub_self]
    rfl
  · change 1024 ≤ if 1024 - 128 < (c :: body).length then enlarge ((c :: body).length + 129) 32 1024 else 1024
    split
    · exact le_enlarge _ _ _
    · exact Nat.le_refl _

/-- A query with a comment, behind a BEGIN. -/
theorem command_length_select :
    (processCommand .standard { Adapter.logon with needStartNewTrx := true } (.initial (fun _ => .initial) fun _ => 0) 3
      (readCommand (3 :: ascii " /* one */ select 1") fun _ => 0).2).Readable :=
  (command_length_iff _ _ _ 3 _ _ (readCommand_arrived 3 _ _) (.query (by decide))).mpr trivial

section Opened

variable {x : Client} {payload : Bytes} {junk : Mem} {oracle : Oracle} {id : Int}

theorem opened_by_prepare (prepare : Request.ofByte (readCommand payload junk).1 = .prepare)
    (alive : x.session.ended = false)
    (said : (OpenHalo.step .standard plainGrammar x.session (.command payload junk oracle)).2.announces = some id) :
    id ∈ (x.step .standard plainGrammar (.command payload junk oracle)).1.opened := by
  simp only [Client.step, alive, Input.opened, prepare, said]
  exact Set.mem_insert _ _

theorem opened_after (opened : id ∈ x.opened) (kept : Request.ofByte (readCommand payload junk).1 ≠ .resetConn)
    (other : Request.ofByte (readCommand payload junk).1 = .close → id ≠ preStmtId (readCommand payload junk).2) :
    id ∈ (x.step .standard plainGrammar (.command payload junk oracle)).1.opened := by
  simp only [Client.step]
  split
  · exact opened
  simp only [Input.opened]
  split
  · split
    · exact Set.mem_insert_of_mem _ opened
    · exact opened
  next close => exact ⟨opened, other close⟩
  next reset => exact absurd reset kept
  all_goals exact opened

end Opened

/-- Two statements, a third in the place of the first, and 259 columns in its entry. -/
def widePrepare : List Input :=
  [prepareCommit, prepareCommit, closeFirst, prepareCommit, preparing (List.replicate 259 (3, 63))]

def Client.wide : Client :=
  exec (Client.step .standard plainGrammar) (.logon (fun _ => .initial) fun _ => 0) widePrepare

theorem wide_opened : 2 ∈ Client.wide.opened := by
  have prepare (body : Bytes) : Request.ofByte (readCommand (22 :: body) fun _ => 0).1 = .prepare := by
    rfl
  have other : 2 ≠ preStmtId (readCommand [25, 1, 0, 0, 0] fun _ => 0).2 := by decide +kernel
  have alive :
      (Client.step .standard plainGrammar (.logon (fun _ => .initial) fun _ => 0) prepareCommit).1.session.ended =
        false := (step_prepareCommit (s := .logon (fun _ => .initial) fun _ => 0) rfl).2
  have said :
      (OpenHalo.step .standard plainGrammar (Client.step .standard plainGrammar (.logon (fun _ => .initial) fun _ => 0)
      prepareCommit).1.session prepareCommit).2.announces = some 2 := by decide +kernel
  have second := opened_by_prepare (prepare _) alive said
  exact opened_after (opened_after (opened_after second (by decide) fun _ => other) (by decide) (by decide)) (by decide)
    (by decide)

/-- The columns go over the name of an open statement, whose CLOSE has the wrong length. -/
theorem command_length_overwritten :
    2 ∈ Client.wide.opened ∧ Client.wide.session.stmts.Open 2 ∧
      ¬ (processCommand .standard Client.wide.session.adapter Client.wide.session.stmts 25
        (readCommand [25, 2, 0, 0, 0] fun _ => 0).2).Readable := by
  have opened : Client.wide.session.stmts.Open 2 := ⟨by decide, by decide, by decide +kernel⟩
  have id : preStmtId (readCommand [25, 2, 0, 0, 0] fun _ => 0).2 = 2 := by decide +kernel
  have name : cstr (Client.wide.session.stmts.preStmtInfoes 2).name = [63] := by decide +kernel
  refine ⟨wide_opened, opened, fun readable => ?_⟩
  have arrived := readCommand_arrived 25 [2, 0, 0, 0] fun _ => 0
  have kept := (close_readable .standard _ _ arrived (id.symm ▸ opened)).mp readable
  rw [id, name] at kept
  exact absurd kept (by decide)

end OpenHalo
