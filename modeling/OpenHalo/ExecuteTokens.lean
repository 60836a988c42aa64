import OpenHalo.MysConstants
import OpenHalo.ParamAlignment

namespace OpenHalo
open Octets Memory Memory.Prog MysScan List

variable {vs : List Value}

def FieldType.value (data : Bytes) : FieldType → Option Value
  | .decimal | .newdecimal => some (.number data)
  | .tinyBlob | .mediumBlob | .longBlob | .blob | .varchar | .varString | .string | .enum | .set | .json =>
      some (.string data)
  | .tiny | .short | .long | .float | .double | .null | .timestamp | .longlong | .int24 | .date | .time | .datetime
  | .year | .newdate | .bit | .timestamp2 | .datetime2 | .time2 | .typedArray | .invalid | .bool | .geometry => none

def Param.Carries (q : Param) (v : Value) : Prop :=
  ∃ field size data, FieldType.ofCode (q.type % 256) = some field ∧ IsLenenc size data.length ∧
  q.value = some (size ++ data) ∧
    field.value data = some v

theorem Param.Carries.given {q : Param} {v : Value} (carries : q.Carries v) : q.value ≠ none := by
  obtain ⟨_, _, _, _, _, given, _⟩ := carries
  rw [given]
  exact Option.some_ne_none _

theorem Param.Carries.render {q : Param} {v : Value} (carries : q.Carries v) {src : Mem} {a : Nat}
    (held : read src a q.bytes.length = q.bytes) : (paramKind q.type).render src a = (q.bytes.length, v.text) := by
  obtain ⟨field, size, data, known, form, given, value⟩ := carries
  have bytes : q.bytes = size ++ data := by rw [Param.bytes, given, Option.getD_some]
  rw [bytes] at held ⊢
  have front : read src a size.length = size := @read_inside src a [] size data held
  have back : read src (a + size.length) data.length = data := @read_inside src a size data [] (by simpa using held)
  have length := processLenencString_value form front
  unfold paramKind
  rw [known, length_append]
  cases field with
  | decimal | newdecimal | tinyBlob | mediumBlob | longBlob | blob | varchar | varString | string | enum | set | json =>
    cases value
    simp only [ParamKind.render, length, back]
    rfl
  | _ => cases value

/-- A value of at most 52 bytes that is 52 bytes ahead of its copy is copied whole. -/
theorem Param.Carries.copyApart {q : Param} {v : Value} (carries : q.Carries v) {src : Mem} {a dst : Nat}
    (held : read src a q.bytes.length = q.bytes) (short : q.bytes.length ≤ 53) (ahead : dst + 52 ≤ a) :
    (paramKind q.type).CopyApart src a dst := by
  obtain ⟨field, size, data, known, form, given, value⟩ := carries
  have bytes : q.bytes = size ++ data := by rw [Param.bytes, given, Option.getD_some]
  have sized : 1 ≤ size.length := by cases form <;> simp [toLittleEndian_length]
  rw [bytes, length_append] at short
  rw [bytes] at held
  have front : read src a size.length = size := @read_inside src a [] size data held
  have length := processLenencString_value form front
  unfold paramKind
  rw [known]
  cases field with
  | decimal | newdecimal | tinyBlob | mediumBlob | longBlob | blob | varchar | varString | string | enum | set | json =>
    simp only [FieldType.kind, ParamKind.CopyApart, length]
    omega
  | _ => cases value

theorem Param.Carries.length_le {q : Param} {v : Value} (carries : q.Carries v) :
    v.text.length + 1 ≤ q.bytes.length + 2 := by
  obtain ⟨field, size, data, _, form, given, value⟩ := carries
  have bytes : q.bytes = size ++ data := by rw [Param.bytes, given, Option.getD_some]
  have sized : 1 ≤ size.length := by cases form <;> simp [toLittleEndian_length]
  have text : v.text.length ≤ data.length + 2 := by
    cases field with
    | decimal | newdecimal =>
      cases value
      exact Nat.le_add_right _ _
    | tinyBlob | mediumBlob | longBlob | blob | varchar | varString | string | enum | set | json =>
      cases value
      simp [Value.text]
    | _ => cases value
  rw [bytes, length_append]
  omega

def valuesList (vs : List Value) : Bytes := vs.flatMap fun v => v.text ++ ascii ","

theorem valuesList_cons (v : Value) (vs : List Value) : valuesList (v :: vs) = listText (v :: vs) ++ [44] := by
  induction vs generalizing v with
  | nil => simp [valuesList, listText, moreText, ascii]
  | cons w vs ih =>
    change v.text ++ ascii "," ++ valuesList (w :: vs) = _
    rw [ih w]
    simp [listText, moreText, ascii]

theorem valuesList_length {params : List Param} (carried : List.Forall₂ Param.Carries params vs) :
    (valuesList vs).length ≤ (params.flatMap Param.bytes).length + 2 * params.length := by
  induction carried with
  | nil => exact Nat.le_refl 0
  | cons first others ih =>
    have grown := first.length_le
    have single : (ascii ",").length = 1 := rfl
    unfold valuesList at ih ⊢
    simp only [flatMap_cons, length_append, length_cons]
    omega

section text
variable {p : ExecutePacket} {pSI : PreStmtInfo} {types : Nat → Nat} {nullBitmap src : Mem} {oldStmt : Nat}
  {vs : List Value} (prepared : pSI.PreparedFor p.params.length) (formed : p.WellFormed types)
  (held : read src oldStmt p.bytes.length = p.bytes) (zeros : ∀ i, i < 256 → nullBitmap i = 0)
  (few : p.params.length ≤ 256) (carried : List.Forall₂ Param.Carries p.params vs)
include prepared formed held zeros few carried

theorem paramRender_value {i : Nat} (less : i < p.params.length) (listed : i < vs.length) :
    let e := pSI.execution types nullBitmap src oldStmt
    paramRender src (nullBit src e.allSet oldStmt i) (e.types i) (oldStmt + p.valueOffset i) =
      (p.params[i].bytes.length, vs[i].text) := by
  intro e
  have member : p.params[i]? = some p.params[i] := List.getElem?_eq_getElem less
  have carries : p.params[i].Carries vs[i] := carried.get less listed
  have none : p.params[i].value.isNone = false :=
    Option.isNone_eq_false_iff.mpr (Option.isSome_iff_ne_none.mpr carries.given)
  have later : ∀ j r, p.params[j]? = some r → 256 ≤ j → r.value = Option.none := by
    intro j r other beyond
    obtain ⟨inside, _⟩ := List.getElem?_eq_some_iff.mp other
    omega
  have null : nullBit src e.allSet oldStmt i = p.params[i].value.isNone :=
    ExecutePacket.nullBit_eq prepared formed held zeros later member
  rw [null, none, ExecutePacket.types_eq prepared formed held member fun _ => by omega]
  exact carries.render (ExecutePacket.read_value formed held member)

theorem paramsText_values {left i : Nat} (count : i + left = p.params.length) :
    let e := pSI.execution types nullBitmap src oldStmt
    paramsText src e.allSet e.types oldStmt left i (p.valueOffset i) = valuesList (vs.drop i) := by
  intro e
  have same := carried.length_eq
  induction left generalizing i with
  | zero =>
    rw [drop_eq_nil_of_le (by omega)]
    rfl
  | succ left ih =>
    have less : i < p.params.length := by omega
    have listed : i < vs.length := by omega
    have rendered :=
      @paramRender_value p pSI types nullBitmap src oldStmt vs prepared formed held zeros few carried i less listed
    rw [drop_eq_getElem_cons listed, paramsText, rendered]
    rw [← ExecutePacket.valueOffset_succ (List.getElem?_eq_getElem less), ih (by omega)]
    rfl

theorem valuesText_eq : pSI.valuesText types nullBitmap src oldStmt = valuesList vs := by
  have whole := @paramsText_values p pSI types nullBitmap src oldStmt vs prepared formed held zeros few carried
    p.params.length 0 (Nat.zero_add _)
  rw [← ExecutePacket.values_eq prepared formed held] at whole
  unfold PreStmtInfo.valuesText
  rw [prepared.paramNum]
  exact whole

/-- As long as the reader is ahead by two bytes for each parameter left, and fifty more, no short value
overlaps its copy. -/
theorem apart_values (all : (pSI.execution types nullBitmap src oldStmt).allSet = true)
    (short : ∀ q ∈ p.params, q.bytes.length ≤ 53) {left i out : Nat} (count : i + left = p.params.length)
    (ahead : RESERVED_FOR_ADDITIONAL_SQL + out + 2 * left + 50 ≤ oldStmt + p.valueOffset i) :
    let e := pSI.execution types nullBitmap src oldStmt
    KeepsBehind src e.allSet e.types oldStmt RESERVED_FOR_ADDITIONAL_SQL left i ⟨out, p.valueOffset i⟩ ∧
      CopiesApart src e.allSet e.types oldStmt RESERVED_FOR_ADDITIONAL_SQL left i ⟨out, p.valueOffset i⟩ := by
  intro e
  have same := carried.length_eq
  induction left generalizing i out with
  | zero => exact ⟨trivial, trivial⟩
  | succ left ih =>
    have less : i < p.params.length := by omega
    have listed : i < vs.length := by omega
    have member : p.params[i]? = some p.params[i] := List.getElem?_eq_getElem less
    have rendered :=
      @paramRender_value p pSI types nullBitmap src oldStmt vs prepared formed held zeros few carried i less listed
    have grown : vs[i].text.length + 1 ≤ p.params[i].bytes.length + 2 := (carried.get less listed).length_le
    have offset := ExecutePacket.valueOffset_succ member
    have copied : (paramKind (e.types i)).CopyApart src (oldStmt + p.valueOffset i)
        (RESERVED_FOR_ADDITIONAL_SQL + out) := by
      rw [ExecutePacket.types_eq prepared formed held member fun _ => by omega]
      exact (carried.get less listed).copyApart (ExecutePacket.read_value formed held member)
        (short _ (getElem_mem less)) (by omega)
    obtain ⟨behind, apart⟩ := @ih (i + 1) (out + vs[i].text.length + 1) (by omega) (by omega)
    refine ⟨⟨fun looked => ?_, fun _ => ?_, ?_⟩, fun _ => copied, ?_⟩
    · cases all.symm.trans looked
    · dsimp only
      omega
    · rw [rendered]
      rwa [← offset]
    · rw [rendered]
      rwa [← offset]

omit carried in
theorem allSet_of_clear (clear : ∀ b ∈ p.bitmap, b = 0) :
    (pSI.execution types nullBitmap src oldStmt).allSet = true := by
  have small : p.bitmap.length ≤ 256 := by
    rw [formed.bitmap]
    omega
  refine beq_iff_eq.mpr ?_
  rw [prepared.nullBitmapLength, ← formed.bitmap, ExecutePacket.read_bitmap formed held]
  refine ext_getElem (read_length _ _ _).symm fun i inside _ => ?_
  rw [clear _ (getElem_mem inside)]
  simp only [Memory.read, getElem_map, getElem_range]
  exact (zeros _ (by omega)).symm

end text

/-- A packet with its types, without NULLs, with values of at most 52 bytes, and of a size that the
buffer takes. -/
structure ExecutePacket.Complete (p : ExecutePacket) : Prop where
  typed : p.flag ≠ 0
  clear : ∀ b ∈ p.bitmap, b = 0
  short : ∀ q ∈ p.params, q.bytes.length ≤ 53
  size : p.bytes.length < 2 ^ 30

theorem readCommand_fits (c : UInt8) {body : Bytes} (junk : Mem) (size : body.length < 2 ^ 30) :
    129 + body.length ≤ (readCommand (c :: body) junk).2.maxlen := by
  simp only [readCommand, length_cons]
  split
  · have fits := @needed_le_enlarge (body.length + 1 + 129) 32 1024 (by omega)
    omega
  · omega

theorem ExecutePacket.Complete.apart {p : ExecutePacket} {pSI : PreStmtInfo} {types : Nat → Nat} {nullBitmap : Mem}
    (complete : p.Complete) (junk : Mem) (prepared : pSI.PreparedFor p.params.length) (formed : p.WellFormed types)
    (zeros : ∀ i, i < 256 → nullBitmap i = 0) (few : p.params.length ≤ 256)
    (carried : List.Forall₂ Param.Carries p.params vs) (nonempty : p.params ≠ []) :
    ExecuteApart pSI types nullBitmap (readCommand (23 :: p.bytes) junk).2 := by
  have held := (readCommand_arrived 23 p.bytes junk).bytes
  have fits := readCommand_fits 23 junk complete.size
  have block := @ExecutePacket.typeBlock_length p
  rw [if_pos complete.typed] at block
  have length := valuesList_length carried
  have values : p.valueOffset 0 = 10 + p.bitmap.length + p.params.length * 2 := by
    rw [ExecutePacket.valueOffset, block]
    rfl
  have size : p.bytes.length = p.valueOffset 0 + (p.params.flatMap Param.bytes).length := by
    rw [ExecutePacket.bytes]
    simp only [length_append, formed.head, length_singleton]
    omega
  have positive : 0 < pSI.paramNum := by
    rw [prepared.paramNum]
    exact length_pos_iff.mpr nonempty
  unfold ExecuteApart
  rw [if_pos positive, valuesText_eq prepared formed held zeros few carried, prepared.paramNum,
    ExecutePacket.values_eq prepared formed held]
  have given : 0 < p.params.length := length_pos_iff.mpr nonempty
  have room : RESERVED_FOR_ADDITIONAL_SQL + 26 + 2 * p.params.length + 50 ≤ 129 + p.valueOffset 0 := by
    have bitmap := formed.bitmap
    show 64 + 26 + 2 * p.params.length + 50 ≤ 129 + p.valueOffset 0
    omega
  obtain ⟨behind, apart⟩ := apart_values prepared formed held zeros few carried
    (allSet_of_clear prepared formed held zeros few complete.clear) complete.short (Nat.zero_add _) room
  refine ⟨behind, apart, ?_⟩
  omega

/-- The entry that PREPARE leaves for a statement with `n` parameters. -/
structure PreStmtInfo.NamedFor (pSI : PreStmtInfo) (n : Nat) : Prop extends pSI.PreparedFor n where
  name : ∃ id, cstr pSI.name = (stmtName id).take 11
  readWriteType : pSI.readWriteType = SRWT_UNKNOWN

theorem stmtName_word (id : Int) : ∃ u, (stmtName id).take 11 = 117 :: u ∧ u.length = 10 ∧ u.all nameByte = true := by
  have letters : ∀ c ∈ ascii "nuTsfQ", nameByte c = true := by decide +kernel
  have digits := width_le_paddedDecimal 4 id.toNat
  have word : (ascii "nuTsfQ").length = 6 := rfl
  refine ⟨(ascii "nuTsfQ" ++ paddedDecimal 4 id.toNat).take 10, rfl, ?_, ?_⟩
  · rw [length_take, length_append]
    omega
  · refine all_eq_true.mpr fun c member => ?_
    rcases mem_append.mp (mem_of_mem_take member) with letter | digit
    · exact letters c letter
    · obtain ⟨lower, upper⟩ := mem_paddedDecimal digit
      simp [nameByte, MysScan.isDigit, lower, upper]

section statement
variable {pSI : PreStmtInfo} {types : Nat → Nat} {nullBitmap : Mem} {n : Nat} (entry : pSI.NamedFor n)
include entry

theorem PreStmtInfo.NamedFor.name_length : (cstr pSI.name).length = 11 := by
  obtain ⟨id, name⟩ := entry.name
  obtain ⟨u, word, length, _⟩ := stmtName_word id
  rw [name, word, length_cons, length]

theorem PreStmtInfo.NamedFor.header :
    executeHeader pSI = ascii "execute " ++ cstr pSI.name ++ ascii " using " ++ [0] := by
  have word : (ascii "execute ").length = 8 := rfl
  have using' : (ascii " using ").length = 7 := rfl
  rw [executeHeader, snprintf, take_of_length_le]
  simp only [length_append, entry.name_length]
  omega

theorem PreStmtInfo.NamedFor.writes (src : Mem) (offset maxlen : Nat) (positive : 0 < pSI.paramNum) :
    let text := pSI.valuesText types nullBitmap src offset
    Writes src (rewriteExtendExeStmt_ pSI types nullBitmap offset maxlen) RESERVED_FOR_ADDITIONAL_SQL
      (ascii "execute " ++ cstr pSI.name ++ ascii " using " ++ (text.dropLast ++ [0]))
      ⟨26 + text.length, RESERVED_FOR_ADDITIONAL_SQL, pSI.newTypes src offset⟩ := by
  have length : (ascii "execute " ++ cstr pSI.name ++ ascii " using ").length = 26 := by
    simp only [length_append, entry.name_length]
    rfl
  rw [rewriteExtendExeStmt_split _ _ _ _ _ positive]
  apply Writes.overwriting [0] (v := ())
  · rw [← entry.header]
    exact Writes.put src _ _
  · simp
  · rw [length]
    exact executeBody_writes pSI types nullBitmap src offset RESERVED_FOR_ADDITIONAL_SQL positive

end statement

/-- The statement that is left for the server, which reads it up to the first NUL. -/
def Rewritten.text : Rewritten → Option Bytes
  | done _ next => some (cstr (read next.data next.offset next.len))
  | refused | raised _ => none

theorem rewriteExtendExeStmt_text {t : PreStmts} {inBuf : StringInfo} {n : Nat} {list : Bytes}
    (opened : t.Open (preStmtId inBuf)) (entry : (t.preStmtInfoes (preStmtId inBuf)).NamedFor n) (positive : 0 < n)
    (place : inBuf.offset = 129) (size : 1024 ≤ inBuf.maxlen)
    (apart : ExecuteApart (t.preStmtInfoes (preStmtId inBuf)) (t.paramType (preStmtId inBuf)) t.nullBitmap inBuf)
    (values : (t.preStmtInfoes (preStmtId inBuf)).valuesText (t.paramType (preStmtId inBuf)) t.nullBitmap inBuf.data
      inBuf.offset = list ++ [44])
    (text : 0 ∉ list) :
    (rewriteExtendExeStmt t inBuf).text =
      some (ascii "execute " ++ cstr (t.preStmtInfoes (preStmtId inBuf)).name ++ ascii " using " ++ list) := by
  have limit : preStmtId inBuf < PRE_STMT_NUM_MAX := opened.2.1
  have clean := ((safeInPlace_iff _ _ _ _).mp ((executeInPlace_iff _ _ _ inBuf place size).mpr apart)).1
  have writes :=
    @PreStmtInfo.NamedFor.writes _ (t.paramType (preStmtId inBuf)) t.nullBitmap n entry inBuf.data inBuf.offset
    inBuf.maxlen (by rw [entry.paramNum]; exact positive)
  have run := writes.run clean
  rw [values, dropLast_concat] at run
  have length :
      (ascii "execute " ++ cstr (t.preStmtInfoes (preStmtId inBuf)).name ++ ascii " using " ++ (list ++ [0])).length =
        26 + (list ++ [44]).length := by
    simp only [length_append, entry.name_length]
    rfl
  have free : 0 ∉ ascii "execute " ++ cstr (t.preStmtInfoes (preStmtId inBuf)).name ++ ascii " using " ++ list := by
    simp only [mem_append, not_or]
    exact ⟨⟨⟨by decide, cstr_nonzero _⟩, by decide⟩, text⟩
  unfold rewriteExtendExeStmt
  rw [if_neg (by omega), if_pos entry.readWriteType, run]
  unfold Rewritten.text
  dsimp only
  rw [← length, read_write_self, ← append_assoc, cstr_append free]

def executeTokens (name : Bytes) (constants : List Token) : List Token :=
  .word (ascii "execute") :: .word name :: .word (ascii "using") :: listTokens constants

theorem scans_execute {cfg : Setting} {lx : Lexer} {u list : Bytes} (inside : u.all nameByte = true)
    (visible : ∀ d, list.head? = some d → (ascii " \t\n\r\x0c").contains d = false)
    (ready : lx.Ready (ascii "execute " ++ (117 :: u) ++ ascii " using " ++ list)) :
    ∃ behind : Lexer, behind.Ready list ∧
      ∀ constants, lx.Scans cfg (executeTokens (117 :: u) constants) ↔ behind.Scans cfg (listTokens constants) := by
  have whole : ascii "execute " ++ (117 :: u) ++ ascii " using " ++ list =
      101 :: (ascii "xecute" ++ 32 :: 117 :: (u ++ 32 :: 117 :: (ascii "sing" ++ 32 :: list))) := by
    simp [ascii]
  rw [whole] at ready
  have stops {t : Bytes} : ∀ d, (32 :: t).head? = some d → nameByte d = false := by
    intro d first
    cases first
    decide
  have letter {t : Bytes} : ∀ d, (117 :: t).head? = some d → (ascii " \t\n\r\x0c").contains d = false := by
    intro d first
    cases first
    decide
  obtain ⟨lx₁, ready₁, execute⟩ := Lexer.emits_word cfg ready ⟨rfl, rfl, by decide⟩ (by decide) stops
  obtain ⟨lx₂, ready₂, blank₂⟩ := ready₁.blank cfg letter
  obtain ⟨lx₃, ready₃, name⟩ := Lexer.emits_word cfg ready₂ ⟨rfl, rfl, by decide⟩ inside stops
  obtain ⟨lx₄, ready₄, blank₄⟩ := ready₃.blank cfg letter
  obtain ⟨lx₅, ready₅, word⟩ := Lexer.emits_word cfg ready₄ ⟨rfl, rfl, by decide⟩ (by decide) stops
  obtain ⟨lx₆, ready₆, blank₆⟩ := ready₅.blank cfg visible
  refine ⟨lx₆, ready₆, fun constants => ?_⟩
  exact execute.scans_behind.trans <| (Lexer.scans_goto blank₂).trans <| name.scans_behind.trans <|
    (Lexer.scans_goto blank₄).trans <| word.scans_behind.trans (Lexer.scans_goto blank₆)

def ExecutesConstants (cfg : Setting) (t : PreStmts) (inBuf : StringInfo) (vs : List Value) : Prop :=
  ∃ text constants, (rewriteExtendExeStmt t inBuf).text = some text ∧ List.Forall₂ Value.Denoted vs constants ∧
    (Lexer.init text).Scans cfg (executeTokens (cstr (t.preStmtInfoes (preStmtId inBuf)).name) constants)

theorem listText_text (text : ∀ v ∈ vs, 0 ∉ v.text) : 0 ∉ listText vs := by
  have more : ∀ {vs : List Value}, (∀ v ∈ vs, 0 ∉ v.text) → 0 ∉ moreText vs := by
    intro vs text
    induction vs with
    | nil => simp [moreText]
    | cons v vs ih =>
      obtain ⟨first, others⟩ := forall_mem_cons.mp text
      simp [moreText, first, ih others]
  cases vs with
  | nil => simp [listText]
  | cons v vs =>
    obtain ⟨first, others⟩ := forall_mem_cons.mp text
    simp [listText, first, more others]

theorem executesConstants_iff {cfg : Setting} {t : PreStmts} {inBuf : StringInfo} {v : Value} {vs : List Value}
    {u : Bytes} (name : cstr (t.preStmtInfoes (preStmtId inBuf)).name = 117 :: u) (inside : u.all nameByte = true)
    (text : (rewriteExtendExeStmt t inBuf).text =
      some (ascii "execute " ++ (117 :: u) ++ ascii " using " ++ listText (v :: vs)))
    {token : Token} (denoted : v.Denoted token) : ExecutesConstants cfg t inBuf (v :: vs) ↔ ∀ w ∈ v :: vs, w.Plain := by
  obtain ⟨behind, ready, scans⟩ := @scans_execute cfg (Lexer.init _) u _ inside (denoted.visible (moreText vs))
    (Lexer.init_ready _)
  rw [← @constants_iff cfg behind (v :: vs) ready]
  unfold ExecutesConstants
  rw [name, text]
  constructor
  · rintro ⟨_, constants, same, all, found⟩
    cases same
    exact ⟨constants, all, (scans constants).mp found⟩
  · rintro ⟨constants, all, found⟩
    exact ⟨_, constants, rfl, all, (scans constants).mpr found⟩

/-- EXECUTE of texts and decimals has one constant for each value exactly when no text has a quotation
mark or an escape, and no decimal a sign. -/
theorem execute_constants_iff (cfg : Setting) (junk : Mem) {t : PreStmts} {p : ExecutePacket} {vs : List Value} :
    let inBuf := (readCommand (23 :: p.bytes) junk).2
    let id := preStmtId inBuf
    t.Open id → (t.preStmtInfoes id).NamedFor p.params.length → p.WellFormed (t.paramType id) → p.params ≠ [] →
      (∀ i, i < 256 → t.nullBitmap i = 0) → List.Forall₂ Param.Carries p.params vs → (∀ v ∈ vs, 0 ∉ v.text) →
      p.params.length ≤ 256 →
      p.Complete ∨ ExecuteApart (t.preStmtInfoes id) (t.paramType id) t.nullBitmap inBuf →
      (ExecutesConstants cfg t inBuf vs ↔ ∀ v ∈ vs, v.Plain) := by
  intro inBuf id opened entry formed nonempty zeros carried text few inTime
  have held := (readCommand_arrived 23 p.bytes junk).bytes
  have size : 1024 ≤ inBuf.maxlen := readCommand_maxlen _ junk
  have apart : ExecuteApart (t.preStmtInfoes id) (t.paramType id) t.nullBitmap inBuf :=
    inTime.elim (fun complete => complete.apart junk entry.toPreparedFor formed zeros few carried nonempty)
    (fun apart => apart)
  have values := valuesText_eq entry.toPreparedFor formed held zeros few carried
  obtain ⟨number, named⟩ := entry.name
  obtain ⟨u, word, _, inside⟩ := stmtName_word number
  cases vs with
  | nil => exact absurd (length_eq_zero_iff.mp carried.length_eq) nonempty
  | cons v vs =>
    have stmt := rewriteExtendExeStmt_text opened entry (length_pos_iff.mpr nonempty) rfl size apart
      (values.trans (valuesList_cons v vs)) (listText_text text)
    rw [named, word] at stmt
    have found {token : Token} (denoted : v.Denoted token) :=
      @executesConstants_iff cfg t inBuf v vs u (named.trans word) inside stmt token denoted
    constructor
    · intro executes
      have kept := executes
      obtain ⟨_, constants, _, denoted, _⟩ := executes
      cases denoted with
      | cons first _ => exact (found first).mp kept
    · intro plain
      obtain ⟨token, _, denoted, _⟩ := (plain v mem_cons_self).emits cfg (Lexer.init_ready (v.text ++ [])) (.inl rfl)
      exact (found denoted).mpr plain

def textAndDecimal (text number : Bytes) : ExecutePacket where
  head := [1, 0, 0, 0, 0, 1, 0, 0, 0]
  bitmap := [0]
  flag := 1
  params := [⟨254, some (toLittleEndian 1 text.length ++ text)⟩, ⟨246, some (toLittleEndian 1 number.length ++ number)⟩]

section textAndDecimal
variable {text number : Bytes} (short : text.length < 251) (small : number.length < 251)
include short small

theorem textAndDecimal_wellFormed (types : Nat → Nat) : (textAndDecimal text number).WellFormed types := by
  refine wellFormed_two rfl rfl ⟨show 254 < 65536 by decide, show 246 < 65536 by decide⟩ ?_ types
  simp only [forall_mem_cons, not_mem_nil, false_implies, implies_true, and_true]
  constructor
  · rintro bs ⟨⟩
    exact ⟨.string, rfl, _, text, .one short, rfl⟩
  · rintro bs ⟨⟩
    exact ⟨.newdecimal, rfl, _, number, .one small, rfl⟩

theorem textAndDecimal_carries :
    List.Forall₂ Param.Carries (textAndDecimal text number).params [.string text, .number number] :=
  .cons ⟨.string, _, text, rfl, .one short, rfl, rfl⟩ (.cons ⟨.newdecimal, _, number, rfl, .one small, rfl, rfl⟩ .nil)

end textAndDecimal

def PreStmts.withPair : PreStmts := (PreStmts.initial (fun _ => .initial) (fun _ => 0)).set 1 .pair

theorem pair_namedFor : PreStmtInfo.pair.NamedFor 2 := ⟨pair_preparedFor, ⟨1, by decide +kernel⟩, rfl⟩

def executePair (text number : Bytes) : StringInfo :=
  (readCommand (23 :: (textAndDecimal text number).bytes) fun _ => 0).2

theorem execute_constants_plain :
    ExecutesConstants ⟨true, fun _ => true⟩ .withPair (executePair (ascii "it") (ascii "1.5"))
      [.string (ascii "it"), .number (ascii "1.5")] := by
  refine (execute_constants_iff _ _ ?_ ?_ (textAndDecimal_wellFormed (by decide) (by decide) _) (cons_ne_nil _ _)
    (fun i small => if_pos small) (textAndDecimal_carries (by decide) (by decide)) (by decide) (by decide)
    (.inl ⟨by decide, by decide +kernel, by decide +kernel, by decide⟩)).mpr ?_
  · exact ⟨by decide, by decide, rfl⟩
  · exact pair_namedFor
  · intro v member
    simp only [mem_cons, not_mem_nil, or_false] at member
    obtain rfl | rfl := member
    · exact show literalSafe 39 _ = true by decide
    · exact show (unsignedNumber _).isSome = true by decide +kernel

/-- A quotation mark closes its literal, and a sign is a token of its own. -/
theorem execute_constants_injected :
    ¬ExecutesConstants ⟨true, fun _ => true⟩ .withPair (executePair (ascii "a','b") (ascii "1.5"))
        [.string (ascii "a','b"), .number (ascii "1.5")] ∧
      ¬ExecutesConstants ⟨true, fun _ => true⟩ .withPair (executePair (ascii "it") (ascii "-5"))
        [.string (ascii "it"), .number (ascii "-5")] := by
  constructor
  · intro executes
    have first : (Value.string (ascii "a','b")).Denoted (.sconst (ascii "a','b")) := rfl
    have plain :=
      (@executesConstants_iff _ _ _ _ _ (ascii "nuTsfQ0001") (by decide +kernel) (by decide) (by decide +kernel)
      _ first).mp executes
    have quoted : literalSafe 39 (ascii "a','b") = true := plain _ mem_cons_self
    revert quoted
    decide
  · intro executes
    have first : (Value.string (ascii "it")).Denoted (.sconst (ascii "it")) := rfl
    have plain :=
      (@executesConstants_iff _ _ _ _ _ (ascii "nuTsfQ0001") (by decide +kernel) (by decide) (by decide +kernel)
      _ first).mp executes
    have signed : (unsignedNumber (ascii "-5")).isSome = true := plain _ (mem_cons_of_mem _ mem_cons_self)
    revert signed
    decide +kernel

end OpenHalo
