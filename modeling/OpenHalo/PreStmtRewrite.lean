import OpenHalo.PreStmt

namespace OpenHalo
open Octets Memory Memory.Prog

/-- Bit `i` of the null bitmap, read from the packet when parameter `i` is due. -/
def isNullParam (allSet : Bool) (oldStmt i : Nat) : Prog Bool :=
  if allSet then return false
  else do
    let byte ← fetchByte (oldStmt + 9 + i / 8)
    return byte / 2 ^ (i % 8) % 2 != 0

def assembleParam (null : Bool) (paramType oldStmt newStmt : Nat) (c : Cursor) : Prog Cursor :=
  if null then do
    put (newStmt + c.out) (ascii "NULL")
    return { c with out := c.out + 4 }
  else assembleExtendExeStmtParmVal paramType oldStmt newStmt c

/-- The loop over the parameters from `i` on. A null bitmap of zeros (`allSet`) is not looked at again. -/
def assembleParams (allSet : Bool) (types : Nat → Nat) (oldStmt newStmt : Nat) :
    Nat → Nat → Cursor → Prog Cursor
  | 0, _, c => return c
  | left + 1, i, c => do
    let null ← isNullParam allSet oldStmt i
    let c ← assembleParam null (types i) oldStmt newStmt c
    put (newStmt + c.out) (ascii ",")
    assembleParams allSet types oldStmt newStmt left (i + 1) { c with out := c.out + 1 }

theorem assembleExtendExeStmtParmVal_forward (paramType sql newStmt : Nat) (c : Cursor) :
    Always (fun d => c.out ≤ d.out) (assembleExtendExeStmtParmVal paramType sql newStmt c) := by
  have integer : ∀ size unsigned, Always (fun d => c.out ≤ d.out)
      (assembleInteger size unsigned sql newStmt c) := by
    intro size unsigned bs
    exact Nat.le_add_right _ _
  have float : ∀ size e f, Always (fun d => c.out ≤ d.out) (assembleFloat size e f sql newStmt c) := by
    intro size e f bs
    exact Nat.le_add_right _ _
  have temporal : ∀ process, Always (fun d => c.out ≤ d.out)
      (assembleTemporal process sql newStmt c) := by
    intro process
    exact (always_true _).bind fun value _ => Nat.le_add_right _ _
  have number : Always (fun d => c.out ≤ d.out) (assembleDecimal sql newStmt c) := by
    exact (always_true _).bind fun value _ bs => Nat.le_add_right _ _
  have string : Always (fun d => c.out ≤ d.out) (assembleString sql newStmt c) := by
    exact (always_true _).bind fun value _ bs => by
      show c.out ≤ c.out + value.1 + 2
      omega
  unfold assembleExtendExeStmtParmVal
  cases FieldType.ofCode (paramType % 256) with
  | none => exact Nat.le_refl _
  | some type =>
    cases type with
    | decimal | newdecimal => exact number
    | tiny | bool | short | year | long | int24 | longlong => exact integer _ _
    | float | double => exact float _ _ _
    | date | time | datetime | timestamp => exact temporal _
    | tinyBlob | mediumBlob | longBlob | blob | varchar | varString | string | enum | set | json => exact string
    | null | newdate | bit | timestamp2 | datetime2 | time2 | typedArray | invalid | geometry =>
      exact Nat.le_refl _

theorem assembleParams_forward (allSet : Bool) (types : Nat → Nat) (oldStmt newStmt left i : Nat) (c : Cursor) :
    Always (fun d => c.out + left ≤ d.out) (assembleParams allSet types oldStmt newStmt left i c) := by
  induction left generalizing i c with
  | zero => exact Nat.le_refl _
  | succ left ih =>
    apply (always_true _).bind
    intro null _
    have value : Always (fun d => c.out ≤ d.out) (assembleParam null (types i) oldStmt newStmt c) := by
      unfold assembleParam
      split
      · exact Nat.le_add_right _ _
      · exact assembleExtendExeStmtParmVal_forward _ _ _ _
    apply value.bind
    intro d further
    apply (always_true _).bind
    intro _ _
    refine Always.mono ?_ (ih (i + 1) { d with out := d.out + 1 })
    intro e later
    simp only at later
    omega

def packetTypes (block : Bytes) (i : Nat) : Nat := littleEndian ((block.drop (2 * i)).take 2)

def fetchTypes (new_params_bind_flag addr paramNum : Nat) : Prog (Option (Nat → Nat)) :=
  if new_params_bind_flag ≠ 0 then do
    let block ← fetch addr (2 * paramNum)
    return some (packetTypes block)
  else return none

/-- What `rewriteExtendExeStmt_` leaves in `inBuf` and in the entry. -/
structure ExecuteText where
  len : Nat
  offset : Nat
  newTypes : Option (Nat → Nat)

def rewriteExtendExeStmt_ (pSI : PreStmtInfo) (types : Nat → Nat) (nullBitmap : Nat → UInt8)
    (offset maxlen : Nat) : Prog ExecuteText :=
  let oldStmt := offset
  let newStmt := RESERVED_FOR_ADDITIONAL_SQL
  if 0 < pSI.paramNum then do
    put newStmt (snprintf 27 (ascii "execute " ++ cstr pSI.name ++ ascii " using "))
    let new_params_bind_flag ← fetchByte (oldStmt + 9 + pSI.nullBitmapLength)
    let newTypes ← fetchTypes new_params_bind_flag (oldStmt + pSI.paramTypeOffset) pSI.paramNum
    let paramsValueOffset :=
      if new_params_bind_flag ≠ 0 then pSI.paramValueOffset1 else pSI.paramValueOffset2
    let bitmap ← fetch (oldStmt + 9) pSI.nullBitmapLength
    let allSet := bitmap == read nullBitmap 0 pSI.nullBitmapLength
    let c ← assembleParams allSet (newTypes.getD types) oldStmt newStmt pSI.paramNum 0
      ⟨26, paramsValueOffset⟩
    put (newStmt + (c.out - 1)) [0]
    return ⟨c.out, newStmt, newTypes⟩
  else do
    put oldStmt (snprintf (maxlen - 1) (ascii "execute " ++ cstr pSI.name))
    put (oldStmt + 19) [0]
    return ⟨20, offset, none⟩

theorem rewriteExtendExeStmt_always (pSI : PreStmtInfo) (types : Nat → Nat) (nullBitmap : Nat → UInt8)
    (offset maxlen : Nat) :
    Always (fun text => (text.offset = RESERVED_FOR_ADDITIONAL_SQL ∨ text.offset = offset) ∧ 0 < text.len)
      (rewriteExtendExeStmt_ pSI types nullBitmap offset maxlen) := by
  unfold rewriteExtendExeStmt_
  split
  · apply (always_true _).bind
    intro _ _
    apply (always_true _).bind
    intro flag _
    apply (always_true _).bind
    intro newTypes _
    apply (always_true _).bind
    intro bitmap _
    apply (assembleParams_forward _ _ _ _ _ _ _).bind
    intro c further
    exact ⟨.inl rfl, show 0 < c.out by omega⟩
  · exact ⟨.inr rfl, Nat.zero_lt_succ _⟩

def preStmtId (inBuf : StringInfo) : Int :=
  signed 32 (littleEndian (read inBuf.data inBuf.offset 4))

def stmtIdError (id : Int) : ErrorData :=
  elogError (ascii "extend stmt id(" ++ signedDecimal id ++ ascii ") does not exists!")

/-- Result of the rewriting functions: `true`, `false`, or an error. -/
inductive Rewritten
  | done (t : PreStmts) (inBuf : StringInfo)
  | refused
  | raised (edata : ErrorData)

def rewriteExtendExeStmt (t : PreStmts) (inBuf : StringInfo) : Rewritten :=
  let id := preStmtId inBuf
  if PRE_STMT_NUM_MAX < id then
    .raised (elogError (ascii "can not find extend prepare stmt for: " ++ signedDecimal id ++
      ascii " / " ++ cstr (read inBuf.data inBuf.offset inBuf.len)))
  else
    let pSI := t.preStmtInfoes id
    if pSI.readWriteType = SRWT_UNKNOWN then
      let (text, data) :=
        (rewriteExtendExeStmt_ pSI (t.paramType id) t.nullBitmap inBuf.offset inBuf.maxlen).run inBuf.data
      let t := match text.newTypes with
        | some types => t.storeParamTypes id types pSI.paramNum
        | none => t
      .done t { inBuf with data := data, len := text.len, offset := text.offset }
    else if pSI.readWriteType = SRWT_COMMIT then
      .done t { inBuf with data := write inBuf.data inBuf.offset (ascii "commit" ++ [0]), len := 7 }
    else if pSI.readWriteType = SRWT_ROLLBACK then
      .done t { inBuf with data := write inBuf.data inBuf.offset (ascii "rollback" ++ [0]), len := 9 }
    else .refused

variable {inBuf next : StringInfo} {t t' : PreStmts}

theorem rewriteExtendExeStmt_done (room : RESERVED_FOR_ADDITIONAL_SQL ≤ inBuf.offset)
    (done : rewriteExtendExeStmt t inBuf = .done t' next) : RESERVED_FOR_ADDITIONAL_SQL ≤ next.offset ∧
    0 < next.len := by
  unfold rewriteExtendExeStmt at done
  dsimp only at done
  split at done
  · cases done
  split at done
  · cases done
    obtain ⟨offset, len⟩ := (rewriteExtendExeStmt_always (t.preStmtInfoes (preStmtId inBuf))
      (t.paramType (preStmtId inBuf)) t.nullBitmap inBuf.offset inBuf.maxlen).run inBuf.data
    refine ⟨?_, len⟩
    rcases offset with reserved | same
    · exact Nat.le_of_eq reserved.symm
    · exact Nat.le_trans room (Nat.le_of_eq same.symm)
  · split at done
    · cases done
      exact ⟨room, Nat.zero_lt_succ _⟩
    · split at done
      · cases done
        exact ⟨room, Nat.zero_lt_succ _⟩
      · cases done

def rewriteExtendCloseStmt (t : PreStmts) (inBuf : StringInfo) : Rewritten :=
  let id := preStmtId inBuf
  if PRE_STMT_NUM_MAX < id then .raised (stmtIdError id)
  else
    let pSI := t.preStmtInfoes id
    let text := snprintf (inBuf.maxlen - 1) (ascii "deallocate prepare " ++ cstr pSI.name)
    .done (t.set id { pSI with isValid := false })
      { inBuf with data := write inBuf.data inBuf.offset text, len := 31 }

theorem rewriteExtendCloseStmt_done (room : RESERVED_FOR_ADDITIONAL_SQL ≤ inBuf.offset)
    (done : rewriteExtendCloseStmt t inBuf = .done t' next) : RESERVED_FOR_ADDITIONAL_SQL ≤ next.offset ∧
    0 < next.len := by
  unfold rewriteExtendCloseStmt at done
  dsimp only at done
  split at done
  · cases done
  · cases done
    exact ⟨room, Nat.zero_lt_succ _⟩

/-- Local variables of `convertExtendPreStmt`. -/
structure Convert where
  i : Nat
  newStmtIndex : Nat
  remainSpace : Int
  leftQuotationMark : UInt8
  leftQuotationMarksNum : Nat
  paramNum : Nat

/-- One quotation mark is doubled; `none` when the space for that is used up. -/
def convertQuotationMark (oldStmt newStmt : Nat) (st : Convert) : Prog (Option Convert) :=
  let num := st.leftQuotationMarksNum + 1
  if st.leftQuotationMark = 32 ∨ num % 2 = 0 then do
    let mark ← fetch (oldStmt + st.i) 1
    put (newStmt + st.newStmtIndex) mark
    return if st.remainSpace - 1 ≤ 0 then none
      else some { st with
        i := st.i + 1, newStmtIndex := st.newStmtIndex + 1, remainSpace := st.remainSpace - 1
        leftQuotationMark := if st.leftQuotationMark = 32 then 34 else 32
        leftQuotationMarksNum := if st.leftQuotationMark = 32 then num else 0 }
  else return some { st with i := st.i + 1, leftQuotationMarksNum := num }

/-- Behind the copied byte: an escaped byte, a second quotation mark, or a parameter to count. -/
def convertFollowing (oldStmt newStmt : Nat) (st : Convert) (byte : Nat) : Prog (Option Convert) :=
  if byte = 92 then do
    let next ← fetch (oldStmt + st.i + 1) 1
    put (newStmt + st.newStmtIndex) next
    return some { st with i := st.i + 2, newStmtIndex := st.newStmtIndex + 1 }
  else if byte = 34 then convertQuotationMark oldStmt newStmt st
  else if byte = 63 ∧ st.leftQuotationMark = 32 then
    return some { st with i := st.i + 1, paramNum := st.paramNum + 1 }
  else return some { st with i := st.i + 1 }

def convertByte (oldStmt newStmt : Nat) (st : Convert) : Prog (Option Convert) := do
  let copied ← fetch (oldStmt + st.i) 1
  put (newStmt + st.newStmtIndex) copied
  let byte ← fetchByte (oldStmt + st.i)
  convertFollowing oldStmt newStmt { st with newStmtIndex := st.newStmtIndex + 1 } byte

def convertLoop (oldStmt newStmt oldStmtLen : Nat) : Nat → Convert → Prog (Option Convert)
  | 0, st => return some st
  | fuel + 1, st =>
    if st.i < oldStmtLen then do
      match ← convertByte oldStmt newStmt st with
      | none => return none
      | some st => convertLoop oldStmt newStmt oldStmtLen fuel st
    else return some st

/-- Every turn of the loop reads at least one byte, so `oldStmtLen` turns do. -/
def convertExtendPreStmt (oldStmt oldStmtLen : Nat) (remainSpace : Int) (newStmt newStmtIndex : Nat) :
    Prog (Option Convert) :=
  convertLoop oldStmt newStmt oldStmtLen oldStmtLen ⟨0, newStmtIndex, remainSpace, 32, 0, 0⟩

/-- The text of `rewriteExtendPreStmt_`: its length and number of parameters. -/
def prepareText (name : Bytes) (offset len : Nat) : Prog (Option (Nat × Nat)) := do
  let remainOffset := 128
  put remainOffset (snprintf 27 (ascii "prepare " ++ cstr name ++ ascii " from \""))
  match ← convertExtendPreStmt offset (len - 1) (offset - remainOffset - 26) remainOffset 26 with
  | none => return none
  | some st =>
    put (remainOffset + st.newStmtIndex) (ascii "\"")
    put (remainOffset + st.newStmtIndex + 1) [0]
    return some (st.newStmtIndex + 2, st.paramNum)

theorem prepareText_always (name : Bytes) (offset len : Nat) :
    Always (fun text => ∀ l n, text = some (l, n) → 0 < l) (prepareText name offset len) := by
  apply (always_true _).bind
  intro _ _
  apply (always_true _).bind
  intro result _
  cases result with
  | none =>
    intro l n impossible
    cases impossible
  | some st =>
    intro l n same
    cases same
    exact Nat.zero_lt_succ _

/-- Results 1, 2, 3 (unsupported) and 0 of `rewriteExtendPreStmt`. A refused conversion has claimed an
entry, too. -/
inductive PreparedText
  | prepare (t : PreStmts) (inBuf : StringInfo)
  | local (t : PreStmts)
  | unsupported
  | refused (t : PreStmts) (data : Mem)

def rewriteExtendPreStmt_ (t : PreStmts) (inBuf : StringInfo) (readWriteType : Nat) : PreparedText :=
  let (t, slot, cacheRet) := cacheExtendPreStmt t readWriteType
  let pSI := t.preStmtInfoes slot
  if cacheRet = 1 then
    match (prepareText pSI.name inBuf.offset inBuf.len).run inBuf.data with
    | (none, data) => .refused t data
    | (some (len, paramNum), data) =>
      let nullBitmapLength := (paramNum + 7) / 8
      let pSI := { pSI with
        paramNum := paramNum, nullBitmapLength := nullBitmapLength
        paramTypeOffset := 10 + nullBitmapLength
        paramValueOffset1 := 10 + nullBitmapLength + paramNum * 2
        paramValueOffset2 := 10 + nullBitmapLength }
      .prepare (t.set slot pSI) { inBuf with data := data, len := len, offset := 128 }
  else if cacheRet = 2 then .local t
  else .refused t inBuf.data

theorem rewriteExtendPreStmt_prepare {readWriteType : Nat}
    (prepared : rewriteExtendPreStmt_ t inBuf readWriteType = .prepare t' next) :
    RESERVED_FOR_ADDITIONAL_SQL ≤ next.offset ∧ 0 < next.len := by
  unfold rewriteExtendPreStmt_ at prepared
  dsimp only at prepared
  split at prepared
  · split at prepared
    · cases prepared
    · rename_i len paramNum data text
      cases prepared
      have always := (prepareText_always ((cacheExtendPreStmt t readWriteType).1.preStmtInfoes
        (cacheExtendPreStmt t readWriteType).2.1).name inBuf.offset inBuf.len).run inBuf.data
      rw [text] at always
      exact ⟨show 64 ≤ 128 by decide, always _ _ rfl⟩
  · split at prepared <;> cases prepared

def rewriteExtendPreStmt (t : PreStmts) (inBuf : StringInfo) : PreparedText :=
  if wordAt inBuf.data inBuf.offset (ascii "commit") then rewriteExtendPreStmt_ t inBuf SRWT_COMMIT
  else if wordAt inBuf.data inBuf.offset (ascii "rollback") then rewriteExtendPreStmt_ t inBuf SRWT_ROLLBACK
  else if wordAt inBuf.data inBuf.offset (ascii "begin") then .unsupported
  else rewriteExtendPreStmt_ t inBuf SRWT_UNKNOWN

theorem rewriteExtendPreStmt_done (prepared : rewriteExtendPreStmt t inBuf = .prepare t' next) :
    RESERVED_FOR_ADDITIONAL_SQL ≤ next.offset ∧ 0 < next.len := by
  unfold rewriteExtendPreStmt at prepared
  split at prepared
  · exact rewriteExtendPreStmt_prepare prepared
  split at prepared
  · exact rewriteExtendPreStmt_prepare prepared
  · split at prepared
    · cases prepared
    · exact rewriteExtendPreStmt_prepare prepared

end OpenHalo
