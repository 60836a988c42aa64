import OpenHalo.AdapterState

namespace OpenHalo
open Octets Memory

/-- The receive buffer; `len` counts from `offset` on, with the terminator once the command byte is off. -/
structure StringInfo where
  data : Mem
  maxlen : Nat
  len : Nat
  offset : Nat

def StringInfo.stmt (inBuf : StringInfo) : Bytes := read inBuf.data inBuf.offset (inBuf.len - 1)

/-- `strncasecmp(&data[a], w, strlen(w)) == 0`. -/
def wordAt (m : Mem) (a : Nat) (w : Bytes) : Bool := startsWith (read m a w.length) w

/-- The local variables of `rectifyCommand`. -/
structure RectifyState where
  data : Mem
  len : Nat
  i : Nat
  commentType : Nat
  commentStartIndex : Nat
  leftQuotationMark : UInt8
  quotationNum : Nat

/-- How `rectifyCommand` ends: with `true`, with `false`, or by raising. -/
inductive Rectified
  | accepted (inBuf : StringInfo) (skipUtf8Verify : Bool)
  | refused (data : Mem)
  | raised (edata : ErrorData)

inductive Turn
  | next (st : RectifyState)
  | accept (skipUtf8Verify : Bool)
  | refuse
  | raise (edata : ErrorData)

def RectifyState.evenQuotes (st : RectifyState) : Bool := st.quotationNum % 2 == 0

/-- Skip blanks from `sp` on, failing at the end `i` of the comment. -/
def skipVersionBlanks (m : Mem) (i : Nat) : Nat → Nat → Option Nat
  | 0, _ => none
  | fuel + 1, sp => if m sp != 32 then some sp else
      if i ≤ sp + 1 then none else skipVersionBlanks m i fuel (sp + 1)

def versionEnd (m : Mem) (i : Nat) : Nat → Nat → Option Nat
  | 0, _ => none
  | fuel + 1, v =>
    if m v == 44 then some v
    else if m v == 32 || m v == 10 || m v == 9 then some (v + 1)
    else if i ≤ v + 1 then none else versionEnd m i fuel (v + 1)

def blank (m : Mem) (a b : Nat) : Mem := fun k => if a ≤ k ∧ k < b then 32 else m k

/-- A quotation mark outside comments and not behind a backslash; addresses are relative to `base`. -/
def rectifyQuote (maxlen offset : Nat) (st : RectifyState) : Turn :=
  let m := st.data
  let at' := fun k => m (offset + k)
  let i := st.i
  if at' (i + 1) == 92 && at' (i + 2) == 48 && at' (i + 3) == at' i then
    .next { st with data := write m (offset + i) (ascii "b'0'"), i := i + 4 }
  else if at' (i + 1) == 1 && at' (i + 2) == at' i then
    if m (offset + i - 1) == 32 then
      .next { st with data := write m (offset + i - 1) (ascii "b'1'"), i := i + 3 }
    else if 1 < (maxlen : Int) - (offset + st.len) then
      let shifted : Mem := fun k => if offset + i < k ∧ k ≤ offset + st.len + 1 then m (k - 1) else m k
      .next { st with data := write shifted (offset + i) (ascii "b'1'"), len := st.len + 1, i := i + 4 }
    else .refuse
  else if at' i == st.leftQuotationMark then
    .next { st with quotationNum := st.quotationNum + 1, i := i + 1 }
  else if st.leftQuotationMark == 32 || st.evenQuotes then
    .next { st with leftQuotationMark := at' i, quotationNum := 1, i := i + 1 }
  else .next { st with i := i + 1 }

/-- The end of a comment at `i`: blanked, or without its delimiters and version number. -/
def rectifyCommentEnd (version : Bytes) (offset : Nat) (st : RectifyState) : Turn :=
  let m := st.data
  let i := offset + st.i
  let start := offset + st.commentStartIndex
  let done := fun m' => Turn.next { st with data := m', commentType := 0, i := st.i + 2 }
  let stripVersion := fun sp =>
    match versionEnd m i (i - sp + 1) (sp + 1) with
    | none => Turn.refuse
    | some v => done (blank (blank m start v) i (i + 2))
  if m (start + 2) == 33 then
    match skipVersionBlanks m i (i - start + 1) (start + 3) with
    | none => .refuse
    | some sp =>
      if m sp == 53 || m sp == 52 then stripVersion sp
      else if m sp == 56 then
        if (version.dropWhile (· == 32)).headD 0 == 56 then stripVersion sp
        else done (blank m start (i + 2))
      else if 0 < st.commentStartIndex then done (blank (blank m start (start + 3)) i (i + 2))
      else .raise (elogError (ascii "You have an error in your SQL syntax"))
  else done (blank m start (i + 2))

/-- The body of the loop of `rectifyCommand`. -/
def rectifyTurn (version : Bytes) (maxlen offset : Nat) (st : RectifyState) : Turn :=
  let m := st.data
  let at' := fun k => m (offset + k)
  let i := st.i
  if st.commentType == 0 then
    if at' i == 39 || at' i == 34 then
      if m (offset + i - 1) != 92 then rectifyQuote maxlen offset st
      else .next { st with i := i + 1 }
    else if wordAt m (offset + i) (ascii "_binary") then
      if st.evenQuotes then .accept true else .next { st with i := i + 7 }
    else if at' i == 47 && at' (i + 1) == 42 then
      if st.evenQuotes then .next { st with commentType := 1, commentStartIndex := i, i := i + 2 }
      else .next { st with i := i + 2 }
    else if at' i == 45 && at' (i + 1) == 45 then
      if st.evenQuotes then .next { st with commentType := 2, commentStartIndex := i, i := i + 2 }
      else .next { st with i := i + 2 }
    else .next { st with i := i + 1 }
  else if st.commentType == 1 then
    if at' i == 42 && at' (i + 1) == 47 then
      if st.evenQuotes then rectifyCommentEnd version offset st else .next { st with i := i + 2 }
    else .next { st with i := i + 1 }
  else .next { st with i := i + 1 }

/-- The loop: every turn brings `i` closer to `len`, so `len` turns are enough. -/
def rectifyLoop (version : Bytes) (inBuf : StringInfo) : Nat → RectifyState → Rectified
  | 0, st => .accepted { inBuf with data := st.data, len := st.len } false
  | fuel + 1, st =>
    if st.i < st.len then
      match rectifyTurn version inBuf.maxlen inBuf.offset st with
      | .next st => rectifyLoop version inBuf fuel st
      | .accept skip => .accepted { inBuf with data := st.data, len := st.len } skip
      | .refuse => .refused st.data
      | .raise edata => .raised edata
    else .accepted { inBuf with data := st.data, len := st.len } false

def rectifyCommand (version : Bytes) (inBuf : StringInfo) : Rectified :=
  rectifyLoop version inBuf inBuf.len
    { data := inBuf.data, len := inBuf.len, i := 0, commentType := 0, commentStartIndex := 0,
      leftQuotationMark := 32, quotationNum := 0 }

end OpenHalo
