import OpenHalo.ParamText
import OpenHalo.Serve

namespace OpenHalo
open Octets Memory Memory.Prog List

variable {written : Nat → Bool} {low : Nat}

def ParamKind.takesBytes : ParamKind → Bool
  | integer _ _ | float _ _ _ | temporal _ | number | string => true
  | absent => false

theorem processLenencString_size (a : Nat) : Always (fun lenenc => 1 ≤ lenenc.2) (processLenencString a) := by
  apply (always_true _).bind
  intro first _
  have sized : ∀ n size : Nat, 1 ≤ size → Always (fun lenenc => 1 ≤ lenenc.2)
      (do return (← fetchInt (a + 1) n, size) : Prog (Nat × Nat)) :=
    fun n size positive => (always_true _).bind fun _ _ => positive
  split
  · exact Nat.le_refl 1
  split
  · exact sized 2 3 (by omega)
  · split
    · exact sized 3 4 (by omega)
    · exact sized 8 9 (by omega)

section
variable {written : Nat → Bool} {low : Nat} (src : Mem) (sql newStmt : Nat) (c : Cursor)

theorem ParamKind.assemble_clean (kind : ParamKind) (reads : kind.Reads)
    (filled : Filled written low (newStmt + c.out)) (above : low ≤ sql) :
    cleanFrom src (kind.assemble sql newStmt c) written = true ↔
      (kind.takesBytes = true → newStmt + c.out ≤ sql + c.inp) := by
  have value : low ≤ sql + c.inp := Nat.le_trans above (Nat.le_add_right _ _)
  -- a reader of the value first, then code that is clean if the reader was
  have readFirst : ∀ {α : Type} {p : Prog α} {f : α → Prog Cursor}, Reader (sql + c.inp) p →
      (newStmt + c.out ≤ sql + c.inp → cleanFrom src (f (valueFrom src p)) written = true) →
      (cleanFrom src (p >>= f) written = true ↔ (true = true → newStmt + c.out ≤ sql + c.inp)) := by
    intro α p f reader rest
    rw [cleanFrom_bind, reader.loads.writtenFrom, reader.cleanFrom src filled value, Bool.and_eq_true,
      decide_eq_true_eq]
    exact ⟨fun clean _ => clean.1, fun unread => ⟨unread rfl, rest (unread rfl)⟩⟩
  have integers : ∀ n, 0 < n → Reader (sql + c.inp) (fetchInt (sql + c.inp) n) := by
    intro n positive
    obtain ⟨k, rfl⟩ : ∃ k, n = k + 1 := ⟨n - 1, by omega⟩
    exact (Reader.fetch _ k).bind fun _ => trivial
  have lenenc := processLenencString_reader (sql + c.inp)
  have size := (processLenencString_size (sql + c.inp)).valueFrom src
  cases kind with
  | integer size unsigned_type | float size e f => exact readFirst (integers size reads) fun _ => rfl
  | temporal process => exact readFirst (reads _) fun _ => rfl
  | number =>
    refine readFirst lenenc fun unread => ?_
    exact (ReadsFrom.fetch (Nat.le_refl _)).cleanFrom src filled (by omega) (by omega)
  | string =>
    refine readFirst lenenc fun unread => ?_
    generalize valueFrom src (processLenencString (sql + c.inp)) = lenenc at size ⊢
    have opened := filled.mark (Nat.le_refl (newStmt + c.out)) (Nat.le_add_right _ 1)
    exact (ReadsFrom.fetch (Nat.le_refl _)).cleanFrom src opened (by omega) (by omega)
  | absent => simp [takesBytes, assemble, cleanFrom, pure]

/-- What one `memcpy` takes over from the packet does not overlap its copy in the text. -/
def ParamKind.CopyApart (src : Mem) (a dst : Nat) (kind : ParamKind) : Prop :=
  let lenenc := valueFrom src (processLenencString a)
  match kind with
  | number => lenenc.1 = 0 ∨ dst + lenenc.1 ≤ a + lenenc.2 ∨ a + lenenc.2 + lenenc.1 ≤ dst
  | string => lenenc.1 = 0 ∨ dst + 1 + lenenc.1 ≤ a + lenenc.2 ∨ a + lenenc.2 + lenenc.1 ≤ dst + 1
  | integer _ _ | float _ _ _ | temporal _ | absent => True

theorem ParamKind.assemble_defined (kind : ParamKind) (reads : kind.Reads) :
    definedFrom src (kind.assemble sql newStmt c) = true ↔ kind.CopyApart src (sql + c.inp) (newStmt + c.out) := by
  have lenenc := (processLenencString_reader (sql + c.inp)).loads.definedFrom src
  have copies (dst a n : Nat) (d : Cursor) : definedFrom src (memcpy dst a n >>= fun _ => pure d) = true ↔
      n = 0 ∨ dst + n ≤ a ∨ a + n ≤ dst := by
    rw [definedFrom_bind, Bool.and_eq_true]
    exact ⟨fun both => of_decide_eq_true (Bool.and_eq_true_iff.mp both.1).1,
      fun apart => ⟨Bool.and_eq_true_iff.mpr ⟨decide_eq_true apart, rfl⟩, rfl⟩⟩
  cases kind with
  | integer size unsigned_type | float size e f => exact iff_of_true rfl trivial
  | temporal process =>
    refine iff_of_true ?_ trivial
    rw [assemble, assembleTemporal, definedFrom_bind, (reads _).loads.definedFrom]
    rfl
  | number =>
    rw [assemble, assembleDecimal, definedFrom_bind, lenenc]
    exact copies _ _ _ _
  | string =>
    rw [assemble, assembleString, definedFrom_bind, lenenc]
    exact copies _ _ _ ⟨0, 0⟩
  | absent => exact iff_of_true rfl trivial

theorem assembleParam_defined (null : Bool) (paramType : Nat) :
    definedFrom src (assembleParam null paramType sql newStmt c) = true ↔
      (null = false → (paramKind paramType).CopyApart src (sql + c.inp) (newStmt + c.out)) := by
  cases null with
  | true => exact iff_of_true rfl (by simp)
  | false =>
    have value := (paramKind paramType).assemble_defined src sql newStmt c (paramKind_reads paramType)
    rw [← assembleExtendExeStmtParmVal_kind] at value
    exact value.trans ⟨fun apart _ => apart, fun apart => apart rfl⟩

def paramTakes (null : Bool) (paramType : Nat) : Bool := !null && (paramKind paramType).takesBytes

theorem assembleParam_clean (null : Bool) (paramType : Nat) (filled : Filled written low (newStmt + c.out))
    (above : low ≤ sql) :
    cleanFrom src (assembleParam null paramType sql newStmt c) written = true ↔
      (paramTakes null paramType = true → newStmt + c.out ≤ sql + c.inp) := by
  cases null with
  | true => exact iff_of_true rfl (by simp [paramTakes])
  | false =>
    have value := (paramKind paramType).assemble_clean src sql newStmt c (paramKind_reads paramType) filled above
    rwa [← assembleExtendExeStmtParmVal_kind] at value

end

section
variable (src : Mem) (allSet : Bool) (types : Nat → Nat) (oldStmt newStmt : Nat)

/-- At every parameter the text has reached neither its byte of the null bitmap nor its value in the
packet. -/
def KeepsBehind : Nat → Nat → Cursor → Prop
  | 0, _, _ => True
  | left + 1, i, c =>
    let null := nullBit src allSet oldStmt i
    let rendered := paramRender src null (types i) (oldStmt + c.inp)
    (allSet = false → newStmt + c.out ≤ oldStmt + 9 + i / 8) ∧
      (paramTakes null (types i) = true → newStmt + c.out ≤ oldStmt + c.inp) ∧
      KeepsBehind left (i + 1) ⟨c.out + rendered.2.length + 1, c.inp + rendered.1⟩

/-- The same for the copies: none of them overlaps its source. -/
def CopiesApart : Nat → Nat → Cursor → Prop
  | 0, _, _ => True
  | left + 1, i, c =>
    let null := nullBit src allSet oldStmt i
    let rendered := paramRender src null (types i) (oldStmt + c.inp)
    (null = false → (paramKind (types i)).CopyApart src (oldStmt + c.inp) (newStmt + c.out)) ∧
      CopiesApart left (i + 1) ⟨c.out + rendered.2.length + 1, c.inp + rendered.1⟩

theorem assembleParams_defined (left i : Nat) (c : Cursor) :
    definedFrom src (assembleParams allSet types oldStmt newStmt left i c) = true ↔
      CopiesApart src allSet types oldStmt newStmt left i c := by
  induction left generalizing i c with
  | zero => exact iff_of_true rfl trivial
  | succ left ih =>
    obtain ⟨_, _, value⟩ := assembleParam_writes src (nullBit src allSet oldStmt i) (types i) oldStmt newStmt c
    unfold assembleParams CopiesApart
    rw [definedFrom_bind, (isNullParam_reads allSet oldStmt i).definedFrom, Bool.true_and, isNullParam_value,
      definedFrom_bind, Bool.and_eq_true, assembleParam_defined, value.value]
    exact and_congr_right fun _ => ih (i + 1) _

theorem isNullParam_clean (i : Nat) {edge : Nat} (filled : Filled written low edge)
    (above : low ≤ oldStmt) :
    cleanFrom src (isNullParam allSet oldStmt i) written = true ↔
      (allSet = false → edge ≤ oldStmt + 9 + i / 8) := by
  cases allSet with
  | true => simp [isNullParam, cleanFrom, pure]
  | false =>
    have reader := (fetchByte_reader (oldStmt + 9 + i / 8)).bind (f := fun byte =>
      (return byte / 2 ^ (i % 8) % 2 != 0 : Prog Bool)) fun _ => trivial
    have clean := reader.cleanFrom src filled (by omega)
    simp only [isNullParam, Bool.false_eq_true, if_false, clean, decide_eq_true_eq, true_implies]

theorem assembleParams_clean (left i : Nat) (c : Cursor)
    (filled : Filled written low (newStmt + c.out)) (above : low ≤ oldStmt) :
    cleanFrom src (assembleParams allSet types oldStmt newStmt left i c) written = true ↔
      KeepsBehind src allSet types oldStmt newStmt left i c := by
  induction left generalizing i c written with
  | zero => simp [assembleParams, KeepsBehind, cleanFrom, pure]
  | succ left ih =>
    obtain ⟨terminator, short, value⟩ := assembleParam_writes src (nullBit src allSet oldStmt i) (types i)
      oldStmt newStmt c
    have clean := assembleParam_clean src oldStmt newStmt c (nullBit src allSet oldStmt i) (types i) filled above
    have stored := value.filled filled
    unfold assembleParams KeepsBehind
    rw [cleanFrom_bind, Bool.and_eq_true, isNullParam_clean src allSet oldStmt i filled above,
      (isNullParam_reads allSet oldStmt i).writtenFrom, isNullParam_value, cleanFrom_bind, Bool.and_eq_true,
      clean, value.value]
    dsimp only
    generalize paramRender src (nullBit src allSet oldStmt i) (types i) (oldStmt + c.inp) = rendered at *
    have comma : Filled (Prog.mark (writtenFrom src (assembleParam (nullBit src allSet oldStmt i) (types i)
        oldStmt newStmt c) written) (newStmt + (c.out + rendered.2.length)) 1) low
        (newStmt + (c.out + rendered.2.length) + 1) := by
      apply stored.mark <;>
      · rw [length_append]
        omega
    rw [← ih (i + 1) ⟨c.out + rendered.2.length + 1, c.inp + rendered.1⟩ comma]
    rfl

end

section
variable (pSI : PreStmtInfo) (types : Nat → Nat) (nullBitmap src : Mem)

def ExecuteApart (inBuf : StringInfo) : Prop :=
  let e := pSI.execution types nullBitmap inBuf.data inBuf.offset
  if 0 < pSI.paramNum then
    KeepsBehind inBuf.data e.allSet e.types inBuf.offset RESERVED_FOR_ADDITIONAL_SQL pSI.paramNum 0 ⟨26, e.values⟩ ∧
      CopiesApart inBuf.data e.allSet e.types inBuf.offset RESERVED_FOR_ADDITIONAL_SQL pSI.paramNum 0 ⟨26, e.values⟩ ∧
      RESERVED_FOR_ADDITIONAL_SQL + 26 + (pSI.valuesText types nullBitmap inBuf.data inBuf.offset).length ≤ inBuf.maxlen
  else inBuf.offset + 9 + (cstr pSI.name).length ≤ inBuf.maxlen

theorem executeHeader_filled :
    Filled (Prog.mark (fun _ => false) RESERVED_FOR_ADDITIONAL_SQL (executeHeader pSI).length) 91
      (RESERVED_FOR_ADDITIONAL_SQL + 26) := by
  have short := executeHeader_length pSI
  apply Filled.mark_below
  · intro i above
    exact (decide_eq_false (show ¬i < 64 + 26 by omega)).symm
  · show 64 + _ ≤ 91
    omega

theorem executeBody_clean (oldStmt newStmt : Nat)
    (filled : Filled written low (newStmt + 26)) (above : low ≤ oldStmt) (room : newStmt + 26 ≤ oldStmt) :
    let e := pSI.execution types nullBitmap src oldStmt
    cleanFrom src (executeBody pSI types nullBitmap oldStmt newStmt) written = true ↔
      KeepsBehind src e.allSet e.types oldStmt newStmt pSI.paramNum 0 ⟨26, e.values⟩ := by
  intro e
  have reads := readExecution_reads pSI types nullBitmap oldStmt
  rw [← assembleParams_clean src e.allSet e.types oldStmt newStmt pSI.paramNum 0 ⟨26, e.values⟩ filled above,
    executeBody, cleanFrom_bind, reads.cleanFrom src filled above room, reads.writtenFrom, Bool.true_and,
    readExecution_value, cleanFrom_bind, Bool.and_eq_true]
  exact and_iff_left rfl

theorem executeBody_defined (oldStmt newStmt : Nat) :
    let e := pSI.execution types nullBitmap src oldStmt
    definedFrom src (executeBody pSI types nullBitmap oldStmt newStmt) = true ↔
      CopiesApart src e.allSet e.types oldStmt newStmt pSI.paramNum 0 ⟨26, e.values⟩ := by
  intro e
  rw [← assembleParams_defined src e.allSet e.types oldStmt newStmt pSI.paramNum 0 ⟨26, e.values⟩, executeBody,
    definedFrom_bind, (readExecution_reads pSI types nullBitmap oldStmt).definedFrom, Bool.true_and,
    readExecution_value, definedFrom_bind, Bool.and_eq_true]
  exact and_iff_left rfl

theorem executeBody_within (oldStmt newStmt limit : Nat) (positive : 0 < pSI.paramNum) :
    withinFrom src limit (executeBody pSI types nullBitmap oldStmt newStmt) = true ↔
      newStmt + 26 + (pSI.valuesText types nullBitmap src oldStmt).length ≤ limit := by
  have writes := executeBody_writes pSI types nullBitmap src oldStmt newStmt positive
  have long : 1 ≤ (pSI.valuesText types nullBitmap src oldStmt).length :=
    Nat.le_trans positive (paramsText_length _ _ _ _ _ _ _)
  constructor
  · intro inside
    obtain ⟨inp, values⟩ := assembleParams_writes src (pSI.execution types nullBitmap src oldStmt).allSet
      (pSI.execution types nullBitmap src oldStmt).types oldStmt newStmt pSI.paramNum 0
      ⟨26, (pSI.execution types nullBitmap src oldStmt).values⟩
    rw [executeBody, withinFrom_bind, readExecution_value, withinFrom_bind, Bool.and_eq_true, Bool.and_eq_true]
      at inside
    have last := inside.2.2
    erw [values.value, withinFrom_put] at last
    have ended : newStmt + (26 + (pSI.valuesText types nullBitmap src oldStmt).length - 1) + 1 ≤ limit :=
      decide_eq_true_eq.mp (Bool.and_eq_true_iff.mp last).1
    omega
  · intro room
    apply writes.inside
    rw [length_append, length_dropLast, length_singleton]
    omega

theorem executeNothing_safe (inBuf : StringInfo) (none : ¬0 < pSI.paramNum) (place : inBuf.offset = 129)
    (size : 1024 ≤ inBuf.maxlen) :
    let p := rewriteExtendExeStmt_ pSI types nullBitmap inBuf.offset inBuf.maxlen
    cleanFrom src p (fun _ => false) = true ∧ definedFrom src p = true ∧
      (withinFrom src inBuf.maxlen p = true ↔ inBuf.offset + 9 + (cstr pSI.name).length ≤ inBuf.maxlen) := by
  unfold rewriteExtendExeStmt_
  rw [if_neg none]
  refine ⟨rfl, rfl, ?_⟩
  have word : (ascii "execute ").length = 8 := rfl
  have named : (snprintf (inBuf.maxlen - 1) (ascii "execute " ++ cstr pSI.name)).length =
      min (inBuf.maxlen - 1 - 1) (8 + (cstr pSI.name).length) + 1 := by
    simp [snprintf, word]
  rw [withinFrom_put, withinFrom_put]
  simp only [Bool.and_eq_true, decide_eq_true_eq, length_singleton]
  constructor
  · omega
  · intro room
    refine ⟨by omega, by omega, rfl⟩

def ExecuteInPlace (inBuf : StringInfo) : Prop :=
  SafeInPlace (rewriteExtendExeStmt_ pSI types nullBitmap inBuf.offset inBuf.maxlen)
    (fun done => read done.2 done.1.offset done.1.len) inBuf.data inBuf.maxlen

theorem executeInPlace_iff (inBuf : StringInfo) (place : inBuf.offset = 129) (size : 1024 ≤ inBuf.maxlen) :
    ExecuteInPlace pSI types nullBitmap inBuf ↔ ExecuteApart pSI types nullBitmap inBuf := by
  unfold ExecuteInPlace ExecuteApart
  rw [safeInPlace_iff]
  by_cases positive : 0 < pSI.paramNum
  · rw [if_pos positive, rewriteExtendExeStmt_split _ _ _ _ _ positive, cleanFrom_put, withinFrom_put,
      Bool.and_eq_true, executeBody_within _ _ _ _ _ _ _ positive]
    have short := executeHeader_length pSI
    have clean := executeBody_clean pSI types nullBitmap inBuf.data inBuf.offset RESERVED_FOR_ADDITIONAL_SQL
      (executeHeader_filled pSI) (by omega) (show 64 + 26 ≤ inBuf.offset by omega)
    dsimp only at clean
    rw [clean]
    have fits : RESERVED_FOR_ADDITIONAL_SQL + (executeHeader pSI).length ≤ inBuf.maxlen := by
      show 64 + _ ≤ _
      omega
    have defined := executeBody_defined pSI types nullBitmap inBuf.data inBuf.offset RESERVED_FOR_ADDITIONAL_SQL
    simp only [decide_eq_true fits, true_and]
    rw [and_comm (a := RESERVED_FOR_ADDITIONAL_SQL + 26 + _ ≤ _)]
    exact and_congr_right fun _ => and_congr_left fun _ => defined
  · rw [if_neg positive]
    obtain ⟨clean, defined, within⟩ := executeNothing_safe pSI types nullBitmap inBuf.data inBuf positive place size
    rw [clean, within, defined]
    simp

end

/-- In place, the statement is converted when `cacheExtendPreStmt` says so. -/
def PrepareInPlace (t : PreStmts) (readWriteType : Nat) (inBuf : StringInfo) : Prop :=
  let cached := cacheExtendPreStmt t readWriteType
  cached.2.2 = 1 →
    SafeInPlace (prepareText (cached.1.preStmtInfoes cached.2.1).name inBuf.offset inBuf.len)
      (fun done => read done.2 128 ((done.1.map Prod.fst).getD 0)) inBuf.data inBuf.maxlen

theorem prepareText_clean (name : Bytes) (src : Mem) (len : Nat) :
    cleanFrom src (prepareText name 129 len) (fun _ => false) = true ↔ len ≤ 1 := by
  have word : (ascii "prepare ").length = 8 := rfl
  obtain ⟨k, header⟩ : ∃ k, (snprintf 27 (ascii "prepare " ++ cstr name ++ ascii " from \"")).length = k + 2 := by
    refine ⟨(snprintf 27 (ascii "prepare " ++ cstr name ++ ascii " from \"")).length - 2, ?_⟩
    simp only [snprintf, length_append, length_take]
    omega
  unfold prepareText
  rw [cleanFrom_put, header, cleanFrom_bind, Bool.and_eq_true]
  constructor
  · rintro ⟨clean, _⟩
    by_contra long
    obtain ⟨n, rest⟩ : ∃ n, len - 1 = n + 1 := ⟨len - 2, by omega⟩
    have first : Prog.mark (fun _ => false) 128 (k + 2) 129 = true := by
      simp [Prog.mark, show 129 < 128 + (k + 2) by omega]
    rw [convertExtendPreStmt, rest, convertLoop, if_pos (Nat.zero_lt_succ n), cleanFrom_bind, convertByte,
      cleanFrom_bind] at clean
    simp [fetch, cleanFrom, Prog.fresh, first] at clean
  · intro short
    rw [show len - 1 = 0 by omega]
    exact ⟨rfl, rfl⟩

theorem prepareText_within (name : Bytes) (src : Mem) {len limit : Nat} (short : len ≤ 1) (size : 1024 ≤ limit) :
    withinFrom src limit (prepareText name 129 len) = true := by
  have header : (snprintf 27 (ascii "prepare " ++ cstr name ++ ascii " from \"")).length ≤ 27 := by
    simp only [snprintf, length_append, length_take, length_singleton]
    omega
  unfold prepareText
  rw [withinFrom_put, decide_eq_true (by omega), convertExtendPreStmt, show len - 1 = 0 by omega, convertLoop,
    withinFrom_bind]
  show withinFrom src limit (do put (128 + 26) (ascii "\""); put (128 + 26 + 1) [0]; pure (some (28, 0))) = true
  have mark : (ascii "\"").length = 1 := rfl
  rw [withinFrom_put, withinFrom_put, decide_eq_true (by omega), decide_eq_true (by simp; omega)]
  rfl

theorem prepareText_defined (name : Bytes) (src : Mem) {len : Nat} (short : len ≤ 1) :
    definedFrom src (prepareText name 129 len) = true := by
  unfold prepareText
  rw [show len - 1 = 0 by omega]
  rfl

theorem cacheExtendPreStmt_ret (t : PreStmts) (readWriteType : Nat) :
    (cacheExtendPreStmt t readWriteType).2.2 = 1 ↔ readWriteType = SRWT_UNKNOWN := by
  simp only [cacheExtendPreStmt]
  split
  · simp [*]
  · split <;> simp [*]

theorem readCommand_maxlen (payload : Bytes) (junk : Mem) : 1024 ≤ (readCommand payload junk).2.maxlen := by
  simp only [readCommand]
  split
  · exact le_enlarge _ _ _
  · exact Nat.le_refl _

/-- EXECUTE works in place exactly when its cursors stay apart, PREPARE exactly when it has nothing to
convert. -/
theorem rewrite_in_place_iff (payload : Bytes) (junk : Mem) (t : PreStmts) (id : Int) :
    let inBuf := (readCommand payload junk).2
    (ExecuteInPlace (t.preStmtInfoes id) (t.paramType id) t.nullBitmap inBuf ↔
        ExecuteApart (t.preStmtInfoes id) (t.paramType id) t.nullBitmap inBuf) ∧
      ∀ rectified len readWriteType,
        PrepareInPlace t readWriteType { inBuf with data := rectified, len := len } ↔
          (readWriteType = SRWT_UNKNOWN → len ≤ 1) := by
  intro inBuf
  have size : 1024 ≤ inBuf.maxlen := readCommand_maxlen payload junk
  refine ⟨executeInPlace_iff _ _ _ inBuf rfl size, ?_⟩
  intro rectified len readWriteType
  unfold PrepareInPlace
  dsimp only
  rw [cacheExtendPreStmt_ret, safeInPlace_iff]
  constructor
  · intro safe unknown
    exact (prepareText_clean _ _ _).mp (safe unknown).1
  · intro short unknown
    exact ⟨(prepareText_clean _ _ _).mpr (short unknown), prepareText_within _ _ (short unknown) size,
      prepareText_defined _ _ (short unknown)⟩

def PreStmtInfo.pair : PreStmtInfo :=
  { PreStmtInfo.initial with
    name := ascii "unuTsfQ0001" ++ List.replicate 118 0
    paramNum := 2, nullBitmapLength := 1, paramTypeOffset := 11, paramValueOffset1 := 15, paramValueOffset2 := 11
    isValid := true }

def fiftyAndNull : Bytes :=
  [23, 1, 0, 0, 0, 0, 1, 0, 0, 0, 2, 1, 254, 0, 254, 0, 50] ++ List.replicate 50 97

def sixtyAndEmpty : Bytes :=
  [23, 1, 0, 0, 0, 0, 1, 0, 0, 0, 0, 1, 254, 0, 254, 0, 60] ++ List.replicate 60 97 ++ [0]

/-- Fifty letters run over the null bitmap, sixty are copied over themselves, and the header of PREPARE
runs over the statement. -/
theorem rewrite_in_place_overwrites :
    let t := (PreStmts.initial (fun _ => .initial) (fun _ => 0)).set 1 .pair
    ¬ExecuteInPlace (t.preStmtInfoes 1) (t.paramType 1) t.nullBitmap (readCommand fiftyAndNull (fun _ => 0)).2 ∧
      ¬ExecuteInPlace (t.preStmtInfoes 1) (t.paramType 1) t.nullBitmap (readCommand sixtyAndEmpty (fun _ => 0)).2 ∧
      ¬PrepareInPlace t SRWT_UNKNOWN (readCommand (22 :: ascii "select 1") (fun _ => 0)).2 := by
  refine ⟨fun safe => absurd safe.1 ?_, fun safe => absurd safe.2.2.2 ?_, fun safe => absurd (safe rfl).1 ?_⟩ <;>
    decide +kernel

end OpenHalo
