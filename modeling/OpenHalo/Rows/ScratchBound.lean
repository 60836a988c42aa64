import OpenHalo.Rows.BinaryRow

namespace OpenHalo
open Octets Framing List

section staging
variable {α β : Type} {size size' : α → Nat} {empties empties' : α → Bool} {limit : Nat}

/-- Pieces go to a buffer from `index` on, some empty it again, and it is never filled beyond `limit`. -/
def Staged (size : α → Nat) (empties : α → Bool) (limit : Nat) : Nat → List α → Prop
  | _, [] => True
  | index, a :: as => index + size a ≤ limit ∧ Staged size empties limit (if empties a then 0 else index + size a) as

theorem staged_iff {index : Nat} {as : List α} :
    Staged size empties limit index as ↔
      ∀ before stretch a after, as = before ++ stretch ++ a :: after → (∀ b ∈ stretch, empties b = false) →
        (if before = [] then index else 0) + (stretch.map size).sum + size a ≤ limit := by
  induction as generalizing index with
  | nil => simp [Staged]
  | cons x xs ih =>
    rw [Staged, ih]
    constructor
    · rintro ⟨room, later⟩ before stretch a after split plain
      cases before with
      | nil =>
        cases stretch with
        | nil =>
          cases split
          simpa using room
        | cons y stretch =>
          cases split
          have kept := plain x mem_cons_self
          have rest := later [] stretch a after rfl (forall_mem_cons.mp plain).2
          simp only [kept, if_true, Bool.false_eq_true, if_false, map_cons, sum_cons] at rest ⊢
          omega
      | cons y before =>
        cases split
        have rest := later before stretch a after rfl plain
        simp only [reduceCtorEq, if_false]
        omega
    · intro fits
      have first := fits [] [] x xs rfl (by simp)
      refine ⟨by simpa using first, ?_⟩
      rintro before stretch a after rfl plain
      cases before with
      | nil =>
        by_cases empty : empties x = true
        · have rest := fits [x] stretch a after rfl plain
          simpa [empty] using rest
        have kept : empties x = false := by simpa using empty
        have rest := fits [] (x :: stretch) a after rfl (forall_mem_cons.mpr ⟨kept, plain⟩)
        simp only [kept, if_true, Bool.false_eq_true, if_false, map_cons, sum_cons] at rest ⊢
        omega
      | cons y before =>
        have rest := fits (x :: y :: before) stretch a after rfl plain
        simpa using rest

theorem staged_map {f : β → α} {index : Nat} {bs : List β} :
    Staged size empties limit index (bs.map f) ↔ Staged (size ∘ f) (empties ∘ f) limit index bs := by
  induction bs generalizing index with
  | nil => exact Iff.rfl
  | cons b bs ih => exact and_congr_right fun _ => ih

end staging

theorem bind_error_iff {ε α β : Type} {x : Except ε α} {f : α → Except ε β} {e : ε} :
    (x >>= f) = .error e ↔ x = .error e ∨ ∃ a, x = .ok a ∧ f a = .error e := by
  cases x <;> simp [bind, Except.bind]

theorem map_error_iff {ε α β : Type} {x : Except ε α} {f : α → β} {e : ε} : x.map f = .error e ↔ x = .error e := by
  cases x <;> simp [Except.map]

theorem appendScratch_overrun {payloadBuf bytes : Bytes} :
    appendScratch payloadBuf bytes = .error .overrun ↔ ¬ payloadBuf.length + bytes.length ≤ 102400 := by
  unfold appendScratch
  split <;> simp [*]

/-- What a measured value puts into `payloadBuf`; `encoded` are the bytes if it is not written directly. -/
def Measured.staged (encoded : Measured → Bytes) (m : Measured) : Nat :=
  if m.columnType.direct then calcLenencIntLen m.columnVal.length else (encoded m).length

section loops
variable {conv : Conversions} {lastTypmod : Int} {s : Splitting} {payloadBuf : Bytes} {ms : List Measured}

theorem wholeColumns_overrun :
    wholeColumns conv payloadBuf ms = .error .overrun ↔
      ¬ Staged (Measured.staged fun m => encode conv m.columnType m.columnVal) (·.columnType.direct) 102400
        payloadBuf.length ms := by
  induction ms generalizing payloadBuf with
  | nil => simp [wholeColumns, Staged]
  | cons m ms ih =>
    rw [wholeColumns, Staged, Measured.staged]
    by_cases direct : m.columnType.direct = true
    · have rest := @ih []
      simp only [direct, if_true, bind_error_iff, appendScratch_overrun, appendScratch_ok, rest, reduceCtorEq,
        and_false, exists_false, or_false, assembleLenencUnsignedLong_length, length_nil]
      grind
    · simp only [direct, if_false, bind_error_iff, appendScratch_overrun, appendScratch_ok, ih, Bool.false_eq_true]
      grind

theorem splitColumns_overrun :
    splitColumns conv lastTypmod s payloadBuf ms = .error .overrun ↔
      ¬ Staged (Measured.staged (encodeSplit conv lastTypmod)) (·.columnType.direct) 102400 payloadBuf.length ms := by
  induction ms generalizing s payloadBuf with
  | nil =>
    rw [splitColumns]
    split <;> simp [Staged]
  | cons m ms ih =>
    rw [splitColumns, Staged, Measured.staged]
    by_cases direct : m.columnType.direct = true
    · simp only [direct, if_true, bind_error_iff, appendScratch_overrun, appendScratch_ok, ih, reduceCtorEq,
        and_false, exists_false, or_false, assembleLenencUnsignedLong_length, length_nil]
      grind
    · simp only [direct, if_false, bind_error_iff, appendScratch_overrun, appendScratch_ok, ih, Bool.false_eq_true]
      grind

end loops

structure RowValue where
  att : Attribute
  columnValue : Bytes

def rowValues (columns : List BinaryColumn) : List RowValue :=
  columns.filterMap fun column => column.columnValue.map (RowValue.mk column.att)

def ColumnType.supported : ColumnType → Bool
  | .other _ => false
  | _ => true

section sizes
variable (conv : Conversions)

def RowValue.converted (v : RowValue) : Bytes :=
  let binary := fun name : String =>
    if v.att.typeName.take name.length = ascii name then conv.convertHexToMySQLBinary v.columnValue else v.columnValue
  match v.att.columnType with
  | .timestamp | .date | .datetime => conv.convertTimestamp v.columnValue
  | .time => conv.convertTime v.columnValue
  | .varString => binary "varbinary"
  | .string => binary "binary"
  | .blob => binary "blob"
  | .bit => conv.convertBitToMySQLHex v.columnValue (hexSize v.att.atttypmod)
  | _ => v.columnValue

def RowValue.size (v : RowValue) : Nat := (encode conv v.att.columnType (v.converted conv)).length

def rowSize (columns : List BinaryColumn) : Nat :=
  1 + (columns.length + 9) / 8 + ((rowValues columns).map (RowValue.size conv)).sum

/-- The bytes of a bit string in a split row, by the type of the last value of the row. -/
def splitBitSize (columns : List BinaryColumn) : Nat :=
  hexSize (((rowValues columns).getLast?.map fun v => v.att.atttypmod).getD 0)

/-- What a value puts into `payloadBuf`: its encoding, or its length if it is written directly. -/
def RowValue.staged (columns : List BinaryColumn) (v : RowValue) : Nat :=
  if v.att.columnType.direct then calcLenencIntLen (v.converted conv).length
  else if v.att.columnType = .bit ∧ MYS_MAX_PACKET_LENGTH < rowSize conv columns then
    calcLenencIntLen (splitBitSize columns) + splitBitSize columns
  else v.size conv

/-- Behind the bitmap and every value that empties `payloadBuf`, the values up to the next such one have
room in it. -/
def ScratchRoom (columns : List BinaryColumn) : Prop :=
  ∀ before stretch v after, rowValues columns = before ++ stretch ++ v :: after →
    (∀ w ∈ stretch, w.att.columnType.direct = false) →
    (if before = [] then 1 + (columns.length + 9) / 8 else 0) + (stretch.map (RowValue.staged conv columns)).sum +
      v.staged conv columns ≤ 102400

end sizes

section rows
variable {conv : Conversions} {columns : List BinaryColumn} {ms : List Measured} {total : Nat}

def RowValue.measured (conv : Conversions) (v : RowValue) : Measured :=
  ⟨v.att.columnType, v.att.atttypmod, v.converted conv⟩

theorem measure_supported {v : RowValue} (known : v.att.columnType.supported = true) :
    measure conv v.att v.columnValue = .ok (v.converted conv, v.size conv) := by
  have conversion : ∃ added, measure conv v.att v.columnValue = .ok (v.converted conv, added) := by
    unfold measure RowValue.converted
    revert known
    cases v.att.columnType <;> simp [ColumnType.supported]
  obtain ⟨added, measured⟩ := conversion
  have counted := encode_length measured
  rw [measured, RowValue.size, counted]

theorem supported_of_measure {v : RowValue} {result : Bytes × Nat}
    (measured : measure conv v.att v.columnValue = .ok result) : v.att.columnType.supported = true := by
  unfold measure at measured
  revert measured
  cases v.att.columnType <;> simp [ColumnType.supported]

theorem rowValues_cons (column : BinaryColumn) (columns : List BinaryColumn) :
    rowValues (column :: columns) =
      (column.columnValue.map (RowValue.mk column.att)).toList ++ rowValues columns := by
  unfold rowValues
  cases value : column.columnValue <;> simp [value]

theorem supported_of_measureAll (measured : measureAll conv columns = .ok (ms, total)) :
    ∀ v ∈ rowValues columns, v.att.columnType.supported = true := by
  induction columns generalizing ms total with
  | nil => simp [rowValues]
  | cons column columns ih =>
    rw [rowValues_cons]
    obtain ⟨null, behind⟩ | ⟨columnValue, _, _, _, _, value, here, behind, _, _⟩ := measureAll_cons measured
    · simpa [null] using ih behind
    · have first := @supported_of_measure conv ⟨column.att, columnValue⟩ _ here
      simpa [value] using And.intro first (ih behind)

theorem measureAll_supported (known : ∀ v ∈ rowValues columns, v.att.columnType.supported = true) :
    measureAll conv columns =
      .ok ((rowValues columns).map (RowValue.measured conv), ((rowValues columns).map (RowValue.size conv)).sum) := by
  induction columns with
  | nil => rfl
  | cons column columns ih =>
    rw [rowValues_cons] at known ⊢
    have later := ih fun v member => known v (mem_append_right _ member)
    rw [measureAll]
    cases value : column.columnValue with
    | none => simpa [value] using later
    | some columnValue =>
      have first := @measure_supported conv ⟨column.att, columnValue⟩ (known _ (by simp [value]))
      dsimp only at first ⊢
      rw [first, later]
      rfl

theorem encodeSplit_length {lastTypmod : Int} (m : Measured) :
    (encodeSplit conv lastTypmod m).length =
      if m.columnType = .bit then calcLenencIntLen (hexSize lastTypmod) + hexSize lastTypmod
      else (encode conv m.columnType m.columnVal).length := by
  unfold encodeSplit
  split
  · simp [assembleLenencUnsignedLong_length, conv.hexed]
  · rfl

/-- `payloadBuf` is overrun exactly if the values of some stretch have no room in it. -/
theorem binaryWrites_overrun :
    binaryWrites conv columns ((rowValues columns).map (RowValue.measured conv)) (rowSize conv columns) =
      .error .overrun ↔ ¬ ScratchRoom conv columns := by
  have room := @staged_iff RowValue (RowValue.staged conv columns) (·.att.columnType.direct) 102400
  rw [ScratchRoom, ← room, binaryWrites]
  split
  · rename_i one
    have sizes : (Measured.staged fun m => encode conv m.columnType m.columnVal) ∘ RowValue.measured conv =
        RowValue.staged conv columns := by
      funext v
      have short := Nat.not_lt.mpr one
      by_cases direct : v.att.columnType.direct = true <;>
        simp [Measured.staged, RowValue.staged, RowValue.measured, RowValue.size, short, direct]
    simp only [bind_error_iff, wholeColumns_overrun, staged_map, nullBitmap_length, sizes, reduceCtorEq, and_false,
      exists_false, or_false]
    rfl
  · rename_i many
    have last : ((((rowValues columns).map (RowValue.measured conv)).getLast?.map Measured.atttypmod).getD 0) =
        ((rowValues columns).getLast?.map fun v => v.att.atttypmod).getD 0 := by
      rw [List.getLast?_map, Option.map_map]
      rfl
    have sizes : Measured.staged (encodeSplit conv
        (((rowValues columns).getLast?.map fun v => v.att.atttypmod).getD 0)) ∘ RowValue.measured conv =
          RowValue.staged conv columns := by
      funext v
      have long := Nat.lt_of_not_le many
      simp only [Function.comp_apply, Measured.staged, RowValue.staged, RowValue.measured, RowValue.size,
        encodeSplit_length, splitBitSize, long, and_true]
    simp only [bind_error_iff, last, splitColumns_overrun, staged_map, nullBitmap_length, sizes, reduceCtorEq,
      and_false, exists_false, or_false]
    rfl

/-- `payloadBuf` is never overrun exactly if the row is not printed or its values have room between the
flushes. -/
theorem scratch_within_iff (ids : InsertIds) (few : columns.length ≤ 1017) (commandTag : CommandTag) :
    printTupBinary conv ids columns commandTag ≠ .error .overrun ↔
      (commandTag = .plain .insert ∧ rowValues columns ≠ []) ∨
        (∃ v ∈ rowValues columns, v.att.columnType.supported = false) ∨ ScratchRoom conv columns := by
  have reported : columns.findSome? BinaryColumn.columnValue = none ↔ rowValues columns = [] := by
    simp [rowValues]
  unfold printTupBinary
  rw [if_neg (Nat.not_lt.mpr few)]
  split
  · rename_i columnValue found
    have some : rowValues columns ≠ [] := fun empty => by simp [reported.mpr empty] at found
    simp [some]
  · rename_i commandTag _ _ printed
    have sent : ¬ (commandTag = .plain .insert ∧ rowValues columns ≠ []) := by
      rintro ⟨rfl, some⟩
      obtain ⟨columnValue, found⟩ := Option.ne_none_iff_exists'.mp (mt reported.mp some)
      exact printed columnValue rfl found
    rw [or_iff_right sent]
    cases measured : measureAll conv columns with
    | error edata =>
      have unknown : ∃ v ∈ rowValues columns, v.att.columnType.supported = false := by
        by_contra known
        have through := @measureAll_supported conv columns (by simpa using known)
        rw [measured] at through
        cases through
      simp [unknown]
    | ok result =>
      have known := supported_of_measureAll measured
      rw [measureAll_supported known] at measured
      cases measured
      have all : ¬ ∃ v ∈ rowValues columns, v.att.columnType.supported = false := by simpa using known
      rw [or_iff_right all, Ne, map_error_iff, ← rowSize, binaryWrites_overrun, not_not]

end rows

theorem scratch_within_short :
    printTupBinary noConversions ⟨0, 0, 0⟩ shortBinaryRow (.plain .select) ≠ .error .overrun :=
  (scratch_within_iff ⟨0, 0, 0⟩ (by decide) (.plain .select)).mpr (.inr (.inr (by
    intro before stretch v after split _
    have total : ((rowValues shortBinaryRow).map (RowValue.staged noConversions shortBinaryRow)).sum ≤ 102300 := by
      decide
    have front : 1 + (shortBinaryRow.length + 9) / 8 ≤ 100 := by decide
    rw [split] at total
    simp only [map_append, map_cons, sum_append, sum_cons] at total
    split <;> omega)))

/-- A row of one `char` value. -/
def charRow (columnVal : Bytes) : List BinaryColumn := [⟨⟨.string, ascii "bpchar", -1⟩, some columnVal⟩]

theorem charRow_room (conv : Conversions) {columnVal : Bytes} (size : columnVal.length = 102400) :
    ¬ ScratchRoom conv (charRow columnVal) := by
  intro room
  have only := room [] [] ⟨⟨.string, ascii "bpchar", -1⟩, columnVal⟩ [] rfl (by simp)
  have plain : RowValue.converted conv ⟨⟨.string, ascii "bpchar", -1⟩, columnVal⟩ = columnVal := rfl
  have staged : RowValue.staged conv (charRow columnVal) ⟨⟨.string, ascii "bpchar", -1⟩, columnVal⟩ = 4 + 102400 := by
    have counted : calcLenencIntLen 102400 = 4 := by decide
    simp [RowValue.staged, RowValue.size, ColumnType.direct, encode, plain, size, assembleLenencUnsignedLong_length,
      counted]
  omega

theorem charRow_overruns (conv : Conversions) (ids : InsertIds) {columnVal : Bytes} (size : columnVal.length = 102400) :
    printTupBinary conv ids (charRow columnVal) (.plain .select) = .error .overrun := by
  have known : ∀ v ∈ rowValues (charRow columnVal), v.att.columnType.supported = true := by
    simp [charRow, rowValues, ColumnType.supported]
  have few : (charRow columnVal).length ≤ 1017 := by simp [charRow]
  rw [printTupBinary_select few (by decide) (measureAll_supported known), map_error_iff]
  exact binaryWrites_overrun.mpr (charRow_room conv size)

theorem char_value_overruns :
    printTupBinary noConversions ⟨0, 0, 0⟩ (charRow (List.replicate 102400 97)) (.plain .select) = .error .overrun :=
  charRow_overruns noConversions ⟨0, 0, 0⟩ length_replicate

end OpenHalo
