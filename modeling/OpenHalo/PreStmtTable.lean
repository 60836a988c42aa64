import OpenHalo.Rectify

namespace OpenHalo
open Octets Memory

def PRE_STMT_NUM_MAX : Int := 5000
def RESERVED_FOR_ADDITIONAL_SQL : Nat := 64

/-- One entry of `preStmtInfoes`, its integers unsigned. `readWriteType` is 0 for UNKNOWN, 4 for COMMIT
and 5 for ROLLBACK. -/
structure PreStmtInfo where
  name : Bytes
  paramNum : Nat
  nullBitmapLength : Nat
  paramTypeOffset : Nat
  paramValueOffset1 : Nat
  paramValueOffset2 : Nat
  paramTypes : Nat → Nat
  columnNum : Nat
  columnTypes : Nat → Nat
  columnCharacterSet : Nat → Nat
  readWriteType : Nat
  isValid : Bool

def SRWT_UNKNOWN : Nat := 0
def SRWT_COMMIT : Nat := 4
def SRWT_ROLLBACK : Nat := 5

/-- What `initPreStmtInfoes` leaves in every entry. -/
def PreStmtInfo.initial : PreStmtInfo where
  name := List.replicate 129 0
  paramNum := 0
  nullBitmapLength := 0
  paramTypeOffset := 0
  paramValueOffset1 := 0
  paramValueOffset2 := 0
  paramTypes := fun _ => 0
  columnNum := 0
  columnTypes := fun _ => 0
  columnCharacterSet := fun _ => 0
  readWriteType := SRWT_UNKNOWN
  isValid := false

/-- Overwrite position `i` of an array. -/
def setAt (xs : Nat → Nat) (i : Nat) (f : Nat → Nat) : Nat → Nat :=
  fun k => if k = i then f (xs k) else xs k

/-- Words in an entry: 33 for the name, five integers, and so on down to the byte of `isValid`. -/
def preStmtWords : Nat := 809

def paramTypesWord : Nat := 38
def columnTypesWord : Nat := 295
def columnCharacterSetWord : Nat := 551

/-- Change one word of an entry: indexed without a bound, a store may land in any field. -/
def PreStmtInfo.poke (p : PreStmtInfo) (word : Nat) (f : Nat → Nat) : PreStmtInfo :=
  if word < 33 then
    let stored := f (littleEndian ((p.name.drop (4 * word)).take 4))
    let bytes := (List.range 4).map fun k => UInt8.ofNat (stored / 256 ^ k)
    { p with name := (p.name.take (4 * word) ++ bytes ++ p.name.drop (4 * word + 4)).take 129 }
  else if word = 33 then { p with paramNum := f p.paramNum }
  else if word = 34 then { p with nullBitmapLength := f p.nullBitmapLength }
  else if word = 35 then { p with paramTypeOffset := f p.paramTypeOffset }
  else if word = 36 then { p with paramValueOffset1 := f p.paramValueOffset1 }
  else if word = 37 then { p with paramValueOffset2 := f p.paramValueOffset2 }
  else if word < 294 then { p with paramTypes := setAt p.paramTypes (word - 38) f }
  else if word = 294 then { p with columnNum := f p.columnNum }
  else if word < 551 then { p with columnTypes := setAt p.columnTypes (word - 295) f }
  else if word < 807 then { p with columnCharacterSet := setAt p.columnCharacterSet (word - 551) f }
  else if word = 807 then { p with readWriteType := f p.readWriteType }
  else { p with isValid := f (if p.isValid then 1 else 0) % 256 != 0 }

def PreStmtInfo.peek (p : PreStmtInfo) (word : Nat) : Nat :=
  if word < 33 then littleEndian ((p.name.drop (4 * word)).take 4)
  else if word = 33 then p.paramNum
  else if word = 34 then p.nullBitmapLength
  else if word = 35 then p.paramTypeOffset
  else if word = 36 then p.paramValueOffset1
  else if word = 37 then p.paramValueOffset2
  else if word < 294 then p.paramTypes (word - 38)
  else if word = 294 then p.columnNum
  else if word < 551 then p.columnTypes (word - 295)
  else if word < 807 then p.columnCharacterSet (word - 551)
  else if word = 807 then p.readWriteType
  else if p.isValid then 1 else 0

/-- The prepared-statement variables. Entries outside 0..4999 are the memory around the array, which
unchecked ids reach; the null bitmap has 256 bytes and other memory behind them. -/
structure PreStmts where
  preStmtInfoes : Int → PreStmtInfo
  curExtendPreStmtId : Int
  preStmtInfoNum : Nat
  nullBitmap : Nat → UInt8

def PreStmts.set (t : PreStmts) (id : Int) (p : PreStmtInfo) : PreStmts :=
  { t with preStmtInfoes := fun k => if k = id then p else t.preStmtInfoes k }

/-- Change a word at a distance from the start of entry `id`, perhaps in a later entry. -/
def PreStmts.poke (t : PreStmts) (id : Int) (word : Nat) (f : Nat → Nat) : PreStmts :=
  let slot := id + (word / preStmtWords : Nat)
  t.set slot ((t.preStmtInfoes slot).poke (word % preStmtWords) f)

def PreStmts.peek (t : PreStmts) (id : Int) (word : Nat) : Nat :=
  (t.preStmtInfoes (id + (word / preStmtWords : Nat))).peek (word % preStmtWords)

/-- `paramTypes[i]` of entry `id`. -/
def PreStmts.paramType (t : PreStmts) (id : Int) (i : Nat) : Nat :=
  t.peek id (paramTypesWord + i) % 65536

/-- `memcpy(&pSI->paramTypes[i], .., 2)` for the first `n` parameters. -/
def PreStmts.storeParamTypes (t : PreStmts) (id : Int) (types : Nat → Nat) : Nat → PreStmts
  | 0 => t
  | n + 1 => (t.storeParamTypes id types n).poke id (paramTypesWord + n)
      fun old => old / 65536 * 65536 + types n

/-- The type and character set of the column are given by the catalogue. -/
def mys_setCurrentPreStmtColumnInfo (t : PreStmts) (index : Nat) (column : Nat × Nat) : PreStmts :=
  let id := t.curExtendPreStmtId
  let t := t.poke id 294 fun old => (old + 1) % 2 ^ 32
  let t := t.poke id (columnTypesWord + index) fun _ => column.1
  t.poke id (columnCharacterSetWord + index) fun _ => column.2

def setColumnInfoes (t : PreStmts) (columns : List (Nat × Nat)) : PreStmts :=
  (columns.zipIdx).foldl (fun t column => mys_setCurrentPreStmtColumnInfo t column.2 column.1) t

/-- The search among `fuel` entries from `i` on. Without a free entry it keeps the id and returns the
last entry it saw. -/
def findFreeSlot (t : PreStmts) : Nat → Int → Int × Int
  | 0, i => (t.curExtendPreStmtId, i - 1)
  | fuel + 1, i =>
    if (t.preStmtInfoes i).isValid then findFreeSlot t fuel (i + 1) else (i, i)

/-- The entry, and whether the statement has to be prepared (1) or is executed by the adapter (2). -/
def cacheExtendPreStmt (t : PreStmts) (readWriteType : Nat) : PreStmts × Int × Nat :=
  let (curId, slot) := findFreeSlot t 4999 1
  let t := { t with curExtendPreStmtId := curId }
  let pSI := t.preStmtInfoes slot
  let name := (ascii "unuTsfQ" ++ paddedDecimal 4 curId.toNat).take 11 ++ [0]
  let t := t.set slot
    { pSI with name := name ++ pSI.name.drop name.length, readWriteType := readWriteType, isValid := true }
  (t, slot, if readWriteType = SRWT_UNKNOWN then 1
    else if readWriteType = SRWT_COMMIT ∨ readWriteType = SRWT_ROLLBACK then 2 else 0)

/-- The loop of `resetConnection` over the table. -/
def invalidate (t : PreStmts) : Nat → PreStmts
  | 0 => t
  | n + 1 =>
    let t := invalidate t n
    t.set n { t.preStmtInfoes n with isValid := false }

def PreStmts.initial (foreign : Int → PreStmtInfo) (behindNullBitmap : Nat → UInt8) : PreStmts where
  preStmtInfoes := fun id => if 0 ≤ id ∧ id < PRE_STMT_NUM_MAX then .initial else foreign id
  curExtendPreStmtId := 0
  preStmtInfoNum := 0
  nullBitmap := fun i => if i < 256 then 0 else behindNullBitmap i

theorem PreStmts.initial_inside (foreign : Int → PreStmtInfo) (behindNullBitmap : Nat → UInt8) {id : Int}
    (lower : 0 ≤ id)
    (upper : id < PRE_STMT_NUM_MAX) : (PreStmts.initial foreign behindNullBitmap).preStmtInfoes id = .initial :=
  if_pos ⟨lower, upper⟩

end OpenHalo
