import OpenHalo.SlotSearch

namespace OpenHalo
open Octets Memory Memory.Prog List

/-- What the header of PREPARE leaves of the statement: 24 bytes that mean nothing to the conversion,
and a mark. -/
structure HeaderBehind (m : Mem) : Prop where
  plain : ∀ i < 24, m (129 + i) ≠ 92 ∧ m (129 + i) ≠ 34 ∧ m (129 + i) ≠ 63
  mark : m 153 = 34

variable {m : Mem} {inBuf : StringInfo} (t : PreStmts)

theorem HeaderBehind.write (header : HeaderBehind m) {addr : Nat} (behind : 154 ≤ addr) (bs : Bytes) :
    HeaderBehind (write m addr bs) := by
  refine ⟨fun i within => ?_, ?_⟩
  · rw [write_before (by omega)]
    exact header.plain i within
  · rw [write_before (by omega)]
    exact header.mark

/-- The locals of the conversion after `i` bytes of the header. -/
def Convert.overHeader (i : Nat) : Convert := ⟨i, 26 + i, -25, 32, 0, 0⟩

theorem littleEndian_byte (b : UInt8) : littleEndian [b] = b.toNat := by simp [littleEndian]

theorem convertByte_run (m : Mem) (i : Nat) :
    (convertByte 129 128 (.overHeader i)).run m =
      (convertFollowing 129 128 ⟨i, 26 + i + 1, -25, 32, 0, 0⟩ (m (129 + i)).toNat).run
        (write m (154 + i) [m (129 + i)]) := by
  have target : 128 + (26 + i) = 154 + i := by omega
  have again : write m (154 + i) [m (129 + i)] (129 + i) = m (129 + i) := write_before (by omega)
  have looked : (fetchByte (129 + i)).run (write m (154 + i) [m (129 + i)]) =
      ((m (129 + i)).toNat, write m (154 + i) [m (129 + i)]) := by
    have byte : (fetchByte (129 + i)).run (write m (154 + i) [m (129 + i)]) =
        (littleEndian [write m (154 + i) [m (129 + i)] (129 + i)], write m (154 + i) [m (129 + i)]) := rfl
    rw [byte, again, littleEndian_byte]
  simp only [convertByte, run_bind, Convert.overHeader]
  rw [show (fetch (129 + i) 1).run m = ([m (129 + i)], m) from rfl]
  rw [target, show (put (154 + i) [m (129 + i)]).run m = ((), write m (154 + i) [m (129 + i)]) from rfl]
  rw [looked]

theorem convertByte_overHeader (header : HeaderBehind m) {i : Nat} (within : i < 24) :
    (convertByte 129 128 (.overHeader i)).run m = (some (.overHeader (i + 1)), write m (154 + i) [m (129 + i)]) := by
  obtain ⟨backslash, quote, question⟩ := header.plain i within
  have toNat : ∀ b : UInt8, (m (129 + i)).toNat = b.toNat ↔ m (129 + i) = b := fun b => UInt8.toNat_inj
  rw [convertByte_run m i, convertFollowing,
    if_neg (show ¬(m (129 + i)).toNat = 92 from (toNat 92).not.mpr backslash),
    if_neg (show ¬(m (129 + i)).toNat = 34 from (toNat 34).not.mpr quote),
    if_neg fun both => (show ¬(m (129 + i)).toNat = 63 from (toNat 63).not.mpr question) both.1]
  rfl

theorem convertByte_atMark (header : HeaderBehind m) : ((convertByte 129 128 (.overHeader 24)).run m).1 = none := by
  have mark : m (129 + 24) = 34 := header.mark
  rw [convertByte_run m 24, mark]
  rfl

theorem convertLoop_overHeader (header : HeaderBehind m) {n fuel i : Nat} (within : i ≤ 24) (reached : i ≤ n)
    (enough : n ≤ i + fuel) :
    ((convertLoop 129 128 n fuel (.overHeader i)).run m).1 = if n ≤ 24 then some (.overHeader n) else none := by
  induction fuel generalizing m i with
  | zero =>
    have same : i = n := by omega
    subst same
    rw [if_pos within]
    rfl
  | succ fuel ih =>
    by_cases done : i = n
    · subst done
      rw [if_pos within, convertLoop, if_neg (show ¬(Convert.overHeader i).i < i from Nat.lt_irrefl i)]
      rfl
    · rw [convertLoop, if_pos (show (Convert.overHeader i).i < n from show i < n by omega), run_bind]
      by_cases last : i = 24
      · subst last
        rw [convertByte_atMark header, if_neg (by omega)]
        rfl
      · rw [convertByte_overHeader header (by omega)]
        exact ih (header.write (by omega) _) (by omega) (by omega) (by omega)

theorem headerBehind_write {name : Bytes} (m : Mem) (short : (cstr name).length = 11)
    (plain : ∀ c ∈ cstr name, c ≠ 92 ∧ c ≠ 34 ∧ c ≠ 63) :
    HeaderBehind (write m 128 (snprintf 27 (ascii "prepare " ++ cstr name ++ ascii " from \""))) := by
  have length : (ascii "prepare " ++ cstr name ++ ascii " from ").length = 25 := by
    simp only [length_append, short]
    rfl
  have text : snprintf 27 (ascii "prepare " ++ cstr name ++ ascii " from \"") =
      (ascii "prepare " ++ cstr name ++ ascii " from ") ++ [34, 0] := by
    have whole : ascii "prepare " ++ cstr name ++ ascii " from \"" =
        (ascii "prepare " ++ cstr name ++ ascii " from ") ++ [34] := by
      simp only [append_assoc]
      rfl
    rw [snprintf, whole, take_of_length_le (by rw [length_append, length]; decide), append_assoc]
    rfl
  have words : ∀ c ∈ ascii "prepare " ++ cstr name ++ ascii " from ", c ≠ 92 ∧ c ≠ 34 ∧ c ≠ 63 := by
    have before : ∀ c ∈ ascii "prepare ", c ≠ 92 ∧ c ≠ 34 ∧ c ≠ 63 := by decide +kernel
    have behind : ∀ c ∈ ascii " from ", c ≠ 92 ∧ c ≠ 34 ∧ c ≠ 63 := by decide +kernel
    exact forall_mem_append.mpr ⟨forall_mem_append.mpr ⟨before, plain⟩, behind⟩
  rw [text, write_append, length]
  generalize ascii "prepare " ++ cstr name ++ ascii " from " = front at length words
  refine ⟨fun i within => ?_, ?_⟩
  · have inside : 1 + i < front.length := by omega
    rw [write_before (by omega), write, if_pos (by omega), show 129 + i - 128 = 1 + i by omega,
      getD_eq_getElem _ _ inside]
    exact words _ (getElem_mem inside)
  · rfl

/-- In place, more than 24 bytes are refused, and of fewer only their number counts. -/
theorem prepareText_run {name : Bytes} (m : Mem) (short : (cstr name).length = 11)
    (plain : ∀ c ∈ cstr name, c ≠ 92 ∧ c ≠ 34 ∧ c ≠ 63) (len : Nat) :
    ((prepareText name 129 len).run m).1 = if len - 1 ≤ 24 then some (26 + (len - 1) + 2, 0) else none := by
  have header := headerBehind_write m short plain
  have loop := @convertLoop_overHeader _ header (len - 1) (len - 1) 0 (by omega) (by omega) (by omega)
  have converted : ((convertExtendPreStmt 129 (len - 1) (((129 : Nat) : Int) - (128 : Nat) - 26) 128 26).run
      (write m 128 (snprintf 27 (ascii "prepare " ++ cstr name ++ ascii " from \"")))).1 = _ := loop
  unfold prepareText
  simp only [run_bind]
  rw [show (put 128 (snprintf 27 (ascii "prepare " ++ cstr name ++ ascii " from \""))).run m =
    ((), write m 128 (snprintf 27 (ascii "prepare " ++ cstr name ++ ascii " from \""))) from rfl]
  by_cases fits : len - 1 ≤ 24
  · rw [if_pos fits] at converted ⊢
    rw [converted]
    rfl
  · rw [if_neg fits] at converted ⊢
    rw [converted]
    rfl

/-- The kind of a statement by its first word; `none` for BEGIN, which is not supported. -/
def prepareKind (inBuf : StringInfo) : Option Nat :=
  if wordAt inBuf.data inBuf.offset (ascii "commit") then some SRWT_COMMIT
  else if wordAt inBuf.data inBuf.offset (ascii "rollback") then some SRWT_ROLLBACK
  else if wordAt inBuf.data inBuf.offset (ascii "begin") then none
  else some SRWT_UNKNOWN

theorem cacheExtendPreStmt_plain (readWriteType : Nat) :
    (cstr ((cacheExtendPreStmt t readWriteType).1.preStmtInfoes t.slot).name).length = 11 ∧
      ∀ c ∈ cstr ((cacheExtendPreStmt t readWriteType).1.preStmtInfoes t.slot).name, c ≠ 92 ∧ c ≠ 34 ∧ c ≠ 63 := by
  rw [cacheExtendPreStmt_cstr]
  refine ⟨?_, fun c member => ?_⟩
  · have digits := width_le_paddedDecimal 4 (findFreeSlot t 4999 1).1.toNat
    have word : (ascii "unuTsfQ").length = 7 := rfl
    rw [length_take, stmtName, length_append]
    omega
  · have letters : ∀ c ∈ ascii "unuTsfQ", c ≠ 92 ∧ c ≠ 34 ∧ c ≠ 63 := by decide +kernel
    rcases mem_append.mp (mem_of_mem_take member) with letter | digit
    · exact letters c letter
    obtain ⟨lower, upper⟩ := mem_paddedDecimal digit
    refine ⟨?_, ?_, ?_⟩
    · rintro rfl
      exact absurd upper (by decide)
    · rintro rfl
      exact absurd lower (by decide)
    · rintro rfl
      exact absurd upper (by decide)

def PreStmtInfo.parameterless (p : PreStmtInfo) : PreStmtInfo :=
  { p with
    paramNum := 0, nullBitmapLength := 0, paramTypeOffset := 10, paramValueOffset1 := 10, paramValueOffset2 := 10 }

def PreStmts.prepared (t : PreStmts) : PreStmts :=
  (cacheExtendPreStmt t SRWT_UNKNOWN).1.set t.slot
    ((cacheExtendPreStmt t SRWT_UNKNOWN).1.preStmtInfoes t.slot).parameterless

theorem PreStmts.prepared_sameSlots : SameSlots (cacheExtendPreStmt t SRWT_UNKNOWN).1 t.prepared :=
  .set rfl

/-- What PREPARE does with a text, by its first word and its length. -/
inductive Prepares (t : PreStmts) (inBuf : StringInfo) : PreparedText → Prop
  | unsupported (kind : prepareKind inBuf = none) : Prepares t inBuf .unsupported
  | local {readWriteType : Nat} (kind : prepareKind inBuf = some readWriteType) (own : readWriteType ≠ SRWT_UNKNOWN) :
    Prepares t inBuf (.local (cacheExtendPreStmt t readWriteType).1)
  | prepare {next : StringInfo} (kind : prepareKind inBuf = some SRWT_UNKNOWN) (short : inBuf.len - 1 ≤ 24) :
    Prepares t inBuf (.prepare t.prepared next)
  | refused {data : Mem} (kind : prepareKind inBuf = some SRWT_UNKNOWN) (long : 24 < inBuf.len - 1) :
    Prepares t inBuf (.refused (cacheExtendPreStmt t SRWT_UNKNOWN).1 data)

theorem rewriteExtendPreStmt_converted {t : PreStmts} (offset : inBuf.offset = 129)
    (kind : prepareKind inBuf = some SRWT_UNKNOWN) : Prepares t inBuf (rewriteExtendPreStmt_ t inBuf SRWT_UNKNOWN) := by
  obtain ⟨short, plain⟩ := cacheExtendPreStmt_plain t SRWT_UNKNOWN
  have text := prepareText_run inBuf.data short plain inBuf.len
  unfold rewriteExtendPreStmt_
  dsimp only
  rw [offset, cacheExtendPreStmt_slot]
  generalize (prepareText _ 129 inBuf.len).run inBuf.data = done at text
  obtain ⟨result, data⟩ := done
  by_cases fits : inBuf.len - 1 ≤ 24
  · rw [if_pos fits] at text
    cases text
    exact .prepare kind fits
  · rw [if_neg fits] at text
    cases text
    exact .refused kind (by omega)

theorem rewriteExtendPreStmt_local {t : PreStmts} {readWriteType : Nat} (kind : prepareKind inBuf = some readWriteType)
    (own : readWriteType = SRWT_COMMIT ∨ readWriteType = SRWT_ROLLBACK) :
    Prepares t inBuf (rewriteExtendPreStmt_ t inBuf readWriteType) := by
  have foreign : readWriteType ≠ SRWT_UNKNOWN := by
    rcases own with rfl | rfl <;> decide
  have ret : (cacheExtendPreStmt t readWriteType).2.2 = 2 := by
    simp only [cacheExtendPreStmt, if_neg foreign, if_pos own]
  unfold rewriteExtendPreStmt_
  dsimp only
  rw [ret]
  exact .local kind foreign

theorem rewriteExtendPreStmt_prepares (offset : inBuf.offset = 129) :
    Prepares t inBuf (rewriteExtendPreStmt t inBuf) := by
  unfold rewriteExtendPreStmt
  split
  · rename_i commit
    exact rewriteExtendPreStmt_local (if_pos commit) (.inl rfl)
  rename_i notCommit
  split
  · rename_i rollback
    exact rewriteExtendPreStmt_local (by rw [prepareKind, if_neg notCommit, if_pos rollback]) (.inr rfl)
  rename_i notRollback
  split
  · rename_i begin
    exact .unsupported (by rw [prepareKind, if_neg notCommit, if_neg notRollback, if_pos begin])
  · rename_i notBegin
    exact rewriteExtendPreStmt_converted offset
      (by rw [prepareKind, if_neg notCommit, if_neg notRollback, if_neg notBegin])

end OpenHalo
