import OpenHalo.EndCommand

namespace OpenHalo
open Octets Memory List

variable {word : Nat} (t : PreStmts) (p : PreStmtInfo) (index : Nat) (id : Int) (readWriteType : Nat)
  (columns : List (Nat × Nat))

theorem findFreeSlot_cases (fuel : Nat) (i : Int) :
    (∃ k, i ≤ k ∧ k < i + fuel ∧ (t.preStmtInfoes k).isValid = false ∧ findFreeSlot t fuel i = (k, k)) ∨
      (∀ k, i ≤ k → k < i + fuel → (t.preStmtInfoes k).isValid = true) ∧
        findFreeSlot t fuel i = (t.curExtendPreStmtId, i + fuel - 1) := by
  induction fuel generalizing i with
  | zero =>
    refine .inr ⟨fun k lower upper => ?_, ?_⟩
    · omega
    · simp [findFreeSlot]
  | succ fuel ih =>
    rw [findFreeSlot]
    cases valid : (t.preStmtInfoes i).isValid with
    | false => exact .inl ⟨i, Int.le_refl i, by omega, valid, rfl⟩
    | true =>
      simp only [if_true]
      rcases ih (i + 1) with ⟨k, lower, upper, free, found⟩ | ⟨full, found⟩
      · exact .inl ⟨k, by omega, by omega, free, found⟩
      refine .inr ⟨fun k lower upper => ?_, ?_⟩
      · by_cases first : k = i
        · rw [first, valid]
        · exact full k (by omega) (by omega)
      · rw [found]
        congr 1
        omega

theorem findFreeSlot_before {t : PreStmts} {fuel : Nat} {i j : Int} (lower : i ≤ j)
    (before : j < (findFreeSlot t fuel i).2) : (t.preStmtInfoes j).isValid = true := by
  induction fuel generalizing i with
  | zero =>
    rw [findFreeSlot] at before
    omega
  | succ fuel ih =>
    rw [findFreeSlot] at before
    cases valid : (t.preStmtInfoes i).isValid with
    | false =>
      simp only [valid, Bool.false_eq_true, if_false] at before
      omega
    | true =>
      simp only [valid] at before
      by_cases here : j = i
      · rw [here, valid]
      · exact ih (by omega) before

/-- The entries that `cacheExtendPreStmt` looks at. -/
def PreStmts.HasFree (t : PreStmts) : Prop :=
  ∃ i : Int, 1 ≤ i ∧ i < PRE_STMT_NUM_MAX ∧ (t.preStmtInfoes i).isValid = false

def PreStmts.slot (t : PreStmts) : Int := (findFreeSlot t 4999 1).2

theorem PreStmts.findFreeSlot_free {t : PreStmts} (free : t.HasFree) :
    findFreeSlot t 4999 1 = (t.slot, t.slot) ∧ 1 ≤ t.slot ∧ t.slot < PRE_STMT_NUM_MAX ∧
      (t.preStmtInfoes t.slot).isValid = false := by
  have limit : PRE_STMT_NUM_MAX = 5000 := rfl
  rcases findFreeSlot_cases t 4999 1 with ⟨k, lower, upper, unused, found⟩ | ⟨full, _⟩
  · have same : t.slot = k := by rw [slot, found]
    rw [same]
    exact ⟨found, lower, by omega, unused⟩
  · obtain ⟨i, lower, upper, unused⟩ := free
    rw [full i lower (by omega)] at unused
    cases unused

theorem PreStmts.findFreeSlot_range {t : PreStmts}
    (inside : 0 ≤ t.curExtendPreStmtId ∧ t.curExtendPreStmtId < PRE_STMT_NUM_MAX) :
    0 ≤ (findFreeSlot t 4999 1).1 ∧ (findFreeSlot t 4999 1).1 < PRE_STMT_NUM_MAX := by
  have limit : PRE_STMT_NUM_MAX = 5000 := rfl
  rcases findFreeSlot_cases t 4999 1 with ⟨k, lower, upper, _, found⟩ | ⟨_, found⟩
  · rw [found]
    omega
  · rw [found]
    exact inside

/-- `*pSI` behind the search loop: the last entry it looked at, or NULL. -/
def searchSlots (t : PreStmts) : Nat → Int → Option Int → Option Int
  | 0, _, pSI => pSI
  | fuel + 1, i, _ => if (t.preStmtInfoes i).isValid then searchSlots t fuel (i + 1) (some i) else some i

def tooManyStatements : ErrorData := ⟨261, ascii "There are too many extend prepare statments."⟩

/-- `cacheExtendPreStmt` with its test for NULL. -/
def cacheExtendPreStmtOrRaise (t : PreStmts) (readWriteType : Nat) : Except ErrorData (PreStmts × Int × Nat) :=
  match searchSlots t 4999 1 none with
  | some _ => .ok (cacheExtendPreStmt t readWriteType)
  | none => .error tooManyStatements

theorem searchSlots_some (fuel : Nat) (i slot : Int) : ∃ found, searchSlots t fuel i (some slot) = some found := by
  induction fuel generalizing i slot with
  | zero => exact ⟨slot, rfl⟩
  | succ fuel ih =>
    rw [searchSlots]
    split
    · exact ih (i + 1) i
    · exact ⟨i, rfl⟩

theorem cacheExtendPreStmtOrRaise_ok :
    cacheExtendPreStmtOrRaise t readWriteType = .ok (cacheExtendPreStmt t readWriteType) := by
  have found : ∃ slot, searchSlots t 4999 1 none = some slot := by
    rw [searchSlots]
    split
    · exact searchSlots_some t 4998 (1 + 1) 1
    · exact ⟨1, rfl⟩
  obtain ⟨slot, found⟩ := found
  rw [cacheExtendPreStmtOrRaise, found]

/-- The table as PREPARE sees it: valid entries, the current id and the number for `resetConnection`. -/
structure SameSlots (t t' : PreStmts) : Prop where
  valid : ∀ i, (t'.preStmtInfoes i).isValid = (t.preStmtInfoes i).isValid
  current : t'.curExtendPreStmtId = t.curExtendPreStmtId
  number : t'.preStmtInfoNum = t.preStmtInfoNum

theorem SameSlots.refl : SameSlots t t := ⟨fun _ => rfl, rfl, rfl⟩

theorem SameSlots.trans {t u v : PreStmts} (first : SameSlots t u) (second : SameSlots u v) : SameSlots t v :=
  ⟨fun i => (second.valid i).trans (first.valid i), second.current.trans first.current,
    second.number.trans first.number⟩

theorem SameSlots.set {t : PreStmts} {id : Int} {p : PreStmtInfo} (same : p.isValid = (t.preStmtInfoes id).isValid) :
    SameSlots t (t.set id p) := by
  refine ⟨fun i => ?_, rfl, rfl⟩
  simp only [PreStmts.set]
  split
  · rename_i here
    rw [same, here]
  · rfl

@[simp] theorem PreStmts.set_self (t : PreStmts) (id : Int) (p : PreStmtInfo) :
    (t.set id p).preStmtInfoes id = p := if_pos rfl

@[simp] theorem PreStmts.set_current (t : PreStmts) (id : Int) (p : PreStmtInfo) :
    (t.set id p).curExtendPreStmtId = t.curExtendPreStmtId := rfl

theorem PreStmts.set_other {t : PreStmts} {id i : Int} (other : i ≠ id) :
    (t.set id p).preStmtInfoes i = t.preStmtInfoes i := if_neg other

theorem PreStmts.set_set (p q : PreStmtInfo) : (t.set id p).set id q = t.set id q := by
  simp only [PreStmts.set, PreStmts.mk.injEq, and_true]
  funext k
  split <;> rfl

theorem PreStmts.poke_own (own : word < preStmtWords) (f : Nat → Nat) :
    t.poke id word f = t.set id ((t.preStmtInfoes id).poke word f) := by
  have here : id + ((word / preStmtWords : Nat) : Int) = id := by
    rw [Nat.div_eq_of_lt own]
    omega
  simp only [PreStmts.poke, here, Nat.mod_eq_of_lt own]

theorem PreStmtInfo.isValid_ite {c : Prop} [Decidable c] {p q : PreStmtInfo} {valid : Bool} (first : p.isValid = valid)
    (second : ¬c → q.isValid = valid) : (if c then p else q).isValid = valid := by
  by_cases holds : c
  · rw [if_pos holds, first]
  · rw [if_neg holds, second holds]

theorem PreStmtInfo.poke_isValid (before : word < 808) (f : Nat → Nat) : (p.poke word f).isValid = p.isValid := by
  iterate 9 refine isValid_ite rfl fun _ => ?_
  refine isValid_ite rfl fun beyond => isValid_ite rfl fun other => ?_
  omega

theorem SameSlots.poke (before : word < 808) (f : Nat → Nat) : SameSlots t (t.poke id word f) := by
  rw [PreStmts.poke_own t id (show word < 809 by omega)]
  exact .set (PreStmtInfo.poke_isValid _ before f)

theorem SameSlots.storeParamTypes (types : Nat → Nat) {n : Nat} (room : n ≤ 256) :
    SameSlots t (t.storeParamTypes id types n) := by
  induction n with
  | zero => exact .refl t
  | succ n ih =>
    refine (ih (by omega)).trans (.poke _ id ?_ _)
    show 38 + n < 808
    omega

theorem PreStmtInfo.poke_columnTypes {index : Nat} (room : index < 256) (f : Nat → Nat) :
    p.poke (columnTypesWord + index) f = { p with columnTypes := setAt p.columnTypes index f } := by
  have word : columnTypesWord + index = 295 + index := rfl
  rw [word, PreStmtInfo.poke]
  iterate 8 rw [if_neg (by omega)]
  rw [if_pos (by omega), Nat.add_sub_cancel_left]

theorem PreStmtInfo.poke_columnCharacterSet {index : Nat} (room : index < 256) (f : Nat → Nat) :
    p.poke (columnCharacterSetWord + index) f =
      { p with columnCharacterSet := setAt p.columnCharacterSet index f } := by
  have word : columnCharacterSetWord + index = 551 + index := rfl
  rw [word, PreStmtInfo.poke]
  iterate 9 rw [if_neg (by omega)]
  rw [if_pos (by omega), Nat.add_sub_cancel_left]

def PreStmtInfo.withColumn (p : PreStmtInfo) (index : Nat) (column : Nat × Nat) : PreStmtInfo :=
  { p with
    columnNum := (p.columnNum + 1) % 2 ^ 32
    columnTypes := setAt p.columnTypes index fun _ => column.1
    columnCharacterSet := setAt p.columnCharacterSet index fun _ => column.2 }

theorem mys_setCurrentPreStmtColumnInfo_eq {index : Nat} (room : index < 256) (column : Nat × Nat) :
    mys_setCurrentPreStmtColumnInfo t index column =
      t.set t.curExtendPreStmtId ((t.preStmtInfoes t.curExtendPreStmtId).withColumn index column) := by
  have words : preStmtWords = 809 := rfl
  have types : columnTypesWord = 295 := rfl
  have sets : columnCharacterSetWord = 551 := rfl
  unfold mys_setCurrentPreStmtColumnInfo
  dsimp only
  rw [PreStmts.poke_own t _ (by omega), PreStmts.poke_own _ _ (by omega), PreStmts.poke_own _ _ (by omega)]
  simp only [PreStmts.set_self, PreStmts.set_set]
  rw [PreStmtInfo.poke_columnTypes _ room, PreStmtInfo.poke_columnCharacterSet _ room]
  rfl

/-- An entry with columns from number `index` on. -/
def PreStmtInfo.withColumns (p : PreStmtInfo) : Nat → List (Nat × Nat) → PreStmtInfo
  | _, [] => p
  | index, column :: columns => (p.withColumn index column).withColumns (index + 1) columns

theorem PreStmts.set_same : t.set id (t.preStmtInfoes id) = t := by
  simp only [PreStmts.set]
  congr 1
  funext k
  split
  · rename_i here
    rw [here]
  · rfl

theorem setColumnInfoes_foldl {index : Nat} (room : index + columns.length ≤ 256) :
    (columns.zipIdx index).foldl (fun t column => mys_setCurrentPreStmtColumnInfo t column.2 column.1) t =
      t.set t.curExtendPreStmtId ((t.preStmtInfoes t.curExtendPreStmtId).withColumns index columns) := by
  induction columns generalizing t index with
  | nil => exact (t.set_same _).symm
  | cons column columns ih =>
    simp only [length_cons] at room
    rw [zipIdx_cons, foldl_cons, mys_setCurrentPreStmtColumnInfo_eq t (by omega), ih _ (by omega),
      PreStmts.set_current, PreStmts.set_self, PreStmts.set_set]
    rfl

theorem setColumnInfoes_eq {columns : List (Nat × Nat)} (room : columns.length ≤ 256) : setColumnInfoes t columns =
      t.set t.curExtendPreStmtId ((t.preStmtInfoes t.curExtendPreStmtId).withColumns 0 columns) :=
  setColumnInfoes_foldl t columns (by omega)

theorem PreStmtInfo.withColumns_frame :
    (p.withColumns index columns).isValid = p.isValid ∧ (p.withColumns index columns).paramNum = p.paramNum ∧
      (p.withColumns index columns).readWriteType = p.readWriteType := by
  induction columns generalizing p index with
  | nil => exact ⟨rfl, rfl, rfl⟩
  | cons column columns ih => exact ih (p.withColumn index column) (index + 1)

theorem SameSlots.setColumnInfoes {columns : List (Nat × Nat)} (room : columns.length ≤ 256) :
    SameSlots t (setColumnInfoes t columns) := by
  rw [setColumnInfoes_eq t room]
  exact .set (PreStmtInfo.withColumns_frame _ 0 columns).1

theorem mys_setCurrentPreStmtColumnInfo_current (column : Nat × Nat) :
    (mys_setCurrentPreStmtColumnInfo t index column).curExtendPreStmtId = t.curExtendPreStmtId := rfl

theorem setColumnInfoes_current : (setColumnInfoes t columns).curExtendPreStmtId = t.curExtendPreStmtId := by
  unfold setColumnInfoes
  generalize columns.zipIdx = indexed
  induction indexed generalizing t with
  | nil => rfl
  | cons column indexed ih => exact (ih _).trans (mys_setCurrentPreStmtColumnInfo_current t column.2 column.1)

theorem PreStmtInfo.withColumns_columnNum {p : PreStmtInfo} {columns : List (Nat × Nat)}
    (room : p.columnNum + columns.length < 2 ^ 32) :
    (p.withColumns index columns).columnNum = p.columnNum + columns.length := by
  induction columns generalizing p index with
  | nil => rfl
  | cons column columns ih =>
    simp only [length_cons] at room ⊢
    have counted : (p.withColumn index column).columnNum = p.columnNum + 1 := Nat.mod_eq_of_lt (by omega)
    rw [withColumns, ih (index + 1) (by omega)]
    omega

theorem PreStmtInfo.withColumns_before {index i : Nat} (before : i < index) :
    (p.withColumns index columns).columnTypes i = p.columnTypes i ∧
      (p.withColumns index columns).columnCharacterSet i = p.columnCharacterSet i := by
  induction columns generalizing p index with
  | nil => exact ⟨rfl, rfl⟩
  | cons column columns ih =>
    have other : i ≠ index := by omega
    obtain ⟨types, sets⟩ := ih (p.withColumn index column) (Nat.lt_succ_of_lt before)
    exact ⟨types.trans (if_neg other), sets.trans (if_neg other)⟩

theorem PreStmtInfo.withColumns_types {i : Nat} (within : i < columns.length) :
    (p.withColumns index columns).columnTypes (index + i) = columns[i].1 ∧
      (p.withColumns index columns).columnCharacterSet (index + i) = columns[i].2 := by
  induction columns generalizing p index i with
  | nil => exact absurd within (Nat.not_lt_zero i)
  | cons column columns ih =>
    cases i with
    | zero =>
      obtain ⟨types, sets⟩ := (p.withColumn index column).withColumns_before columns (Nat.lt_succ_self index)
      exact ⟨types.trans (if_pos rfl), sets.trans (if_pos rfl)⟩
    | succ i =>
      have later := ih (p.withColumn index column) (index + 1) (i := i) (by simpa using within)
      rwa [Nat.add_assoc, Nat.add_comm 1] at later

theorem cacheExtendPreStmt_slot : (cacheExtendPreStmt t readWriteType).2.1 = t.slot := rfl

theorem cacheExtendPreStmt_other {i : Int} (other : i ≠ t.slot) :
    (cacheExtendPreStmt t readWriteType).1.preStmtInfoes i = t.preStmtInfoes i := by
  exact if_neg other

theorem cacheExtendPreStmt_valid (i : Int) :
    ((cacheExtendPreStmt t readWriteType).1.preStmtInfoes i).isValid =
      if i = t.slot then true else (t.preStmtInfoes i).isValid := by
  by_cases here : i = t.slot
  · rw [if_pos here, here]
    simp [cacheExtendPreStmt, PreStmts.slot]
  · rw [if_neg here, cacheExtendPreStmt_other t readWriteType here]

theorem cacheExtendPreStmt_current :
    (cacheExtendPreStmt t readWriteType).1.curExtendPreStmtId = (findFreeSlot t 4999 1).1 := rfl

theorem cacheExtendPreStmt_counts (t : PreStmts) (readWriteType : Nat) :
    let claimed := (cacheExtendPreStmt t readWriteType).1.preStmtInfoes t.slot
    claimed.paramNum = (t.preStmtInfoes t.slot).paramNum ∧ claimed.columnNum = (t.preStmtInfoes t.slot).columnNum := by
  simp [cacheExtendPreStmt, PreStmts.slot]

def stmtName (id : Int) : Bytes := ascii "unuTsfQ" ++ paddedDecimal 4 id.toNat

theorem stmtName_length {id : Int} (small : id < 10000) : (stmtName id).length = 11 := by
  have word : (ascii "unuTsfQ").length = 7 := rfl
  have digits : (decimal id.toNat).length ≤ 4 := decimal_length (by decide) (by omega)
  have lengths : (paddedDecimal 4 id.toNat).length = 4 := by
    simp only [paddedDecimal, length_append, length_replicate]
    omega
  rw [stmtName, length_append, word, lengths]

theorem stmtName_text : 0 ∉ stmtName id := by
  intro member
  rcases mem_append.mp member with letter | digit
  · revert letter
    decide
  · exact absurd (mem_paddedDecimal digit).1 (by decide)

theorem cacheExtendPreStmt_cstr :
    cstr ((cacheExtendPreStmt t readWriteType).1.preStmtInfoes t.slot).name =
      (stmtName (findFreeSlot t 4999 1).1).take 11 := by
  have text : 0 ∉ (stmtName (findFreeSlot t 4999 1).1).take 11 :=
    fun member => stmtName_text _ (mem_of_mem_take member)
  simp only [cacheExtendPreStmt, PreStmts.set, PreStmts.slot]
  rw [append_assoc]
  exact cstr_append text _

theorem cacheExtendPreStmt_named {t : PreStmts} (free : t.HasFree) (readWriteType : Nat) :
    cstr ((cacheExtendPreStmt t readWriteType).1.preStmtInfoes t.slot).name = stmtName t.slot := by
  obtain ⟨found, _, upper, _⟩ := t.findFreeSlot_free free
  have limit : PRE_STMT_NUM_MAX = 5000 := rfl
  rw [cacheExtendPreStmt_cstr, found]
  exact take_of_length_le (Nat.le_of_eq (stmtName_length (by omega)))

end OpenHalo
