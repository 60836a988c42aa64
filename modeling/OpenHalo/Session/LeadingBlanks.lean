import OpenHalo.Session.CommandLength

namespace OpenHalo
open Octets Memory

def isWhitespace (c : UInt8) : Bool := c = 32 || c = 9 || c = 10 || c = 13

/-- Where that loop stops, `inBuf->len` then, and every address it has read. -/
structure Skipped where
  offset : Nat
  len : Int
  read : List Nat

/-- The loop of `processCommand`, which neither the length nor the terminator ends; `none` while it is
running. -/
def skipLoop (m : Mem) : Nat → Nat → Int → Option Skipped
  | 0, _, _ => none
  | fuel + 1, offset, len =>
    if isWhitespace (m offset) || m offset = 0 then
      (skipLoop m fuel (offset + 1) (len - 1)).map fun s => { s with read := offset :: s.read }
    else some ⟨offset, len, [offset]⟩

/-- The loop reads the message and its terminator only, and takes exactly a blank text for empty. -/
def SkipsInside (inBuf : StringInfo) : Prop :=
  ∃ fuel s, skipLoop inBuf.data fuel inBuf.offset inBuf.len = some s ∧
    (∀ a ∈ s.read, inBuf.offset ≤ a ∧ a < inBuf.offset + inBuf.len) ∧ 0 ≤ s.len ∧
    (s.len ≤ 0 ↔ ∀ c ∈ inBuf.stmt, isWhitespace c = true)

theorem skipLoop_len {m : Mem} {fuel offset : Nat} {len : Int} {s : Skipped}
    (stops : skipLoop m fuel offset len = some s) :
    s.len + s.offset = len + offset ∧ offset ≤ s.offset ∧ s.offset ∈ s.read ∧ m s.offset ≠ 0 ∧
      isWhitespace (m s.offset) = false := by
  induction fuel generalizing offset len s with
  | zero => cases stops
  | succ fuel ih =>
    rw [skipLoop] at stops
    split at stops
    · obtain ⟨later, stops', rfl⟩ := Option.map_eq_some_iff.mp stops
      obtain ⟨sum, further, seen, other⟩ := ih stops'
      refine ⟨?_, ?_, List.mem_cons_of_mem _ seen, other⟩
      · show later.len + later.offset = _
        omega
      · show offset ≤ later.offset
        omega
    · rename_i other
      cases stops
      simp only [Bool.or_eq_true, decide_eq_true_eq, not_or, Bool.not_eq_true] at other
      exact ⟨rfl, Nat.le_refl _, List.mem_singleton_self _, other.2, other.1⟩

theorem skipBlanks_skipLoop {inBuf : StringInfo} {fuel : Nat} {s : Skipped}
    (stops : skipLoop inBuf.data fuel inBuf.offset inBuf.len = some s) :
    (skipBlanks inBuf.len inBuf).len = s.len.toNat := by
  induction fuel generalizing inBuf s with
  | zero => cases stops
  | succ fuel ih =>
    have bound := skipLoop_len stops
    cases size : inBuf.len with
    | zero =>
      rw [skipBlanks]
      omega
    | succ n =>
      have blanks : (inBuf.data inBuf.offset = 32 || inBuf.data inBuf.offset = 9 || inBuf.data inBuf.offset = 10 ||
          inBuf.data inBuf.offset = 13 || inBuf.data inBuf.offset = 0) =
            (isWhitespace (inBuf.data inBuf.offset) || inBuf.data inBuf.offset = 0) := rfl
      rw [skipLoop] at stops
      rw [skipBlanks]
      simp only [blanks, size]
      split at stops
      · rename_i skips
        obtain ⟨later, stops', rfl⟩ := Option.map_eq_some_iff.mp stops
        rw [if_pos skips]
        have shorter : ((inBuf.len : Int) - 1) = (n : Nat) := by omega
        rw [shorter] at stops'
        exact @ih { inBuf with offset := inBuf.offset + 1, len := n } later stops'
      · rename_i other
        rw [if_neg other]
        cases stops
        exact (Int.toNat_natCast _).symm

theorem skipLoop_first {m : Mem} {k offset : Nat} (len : Int)
    (skips : ∀ i < k, isWhitespace (m (offset + i)) = true ∨ m (offset + i) = 0)
    (stops : isWhitespace (m (offset + k)) = false) (nonzero : m (offset + k) ≠ 0) :
    ∃ s, skipLoop m (k + 1) offset len = some s ∧ s.len = len - k ∧ ∀ a ∈ s.read, offset ≤ a ∧ a ≤ offset + k := by
  induction k generalizing offset len with
  | zero =>
    rw [skipLoop, if_neg (by simpa using And.intro stops nonzero)]
    exact ⟨_, rfl, by simp, by simp⟩
  | succ k ih =>
    have first := skips 0 (by omega)
    have place : offset + (k + 1) = offset + 1 + k := by omega
    rw [place] at stops nonzero
    obtain ⟨s, later, counted, seen⟩ := @ih (offset + 1) (len - 1)
      (fun i before => by
        have shifted : offset + 1 + i = offset + (i + 1) := by omega
        rw [shifted]
        exact skips (i + 1) (by omega))
      stops nonzero
    rw [skipLoop, if_pos (by simpa using first), later]
    refine ⟨_, rfl, ?_, ?_⟩
    · push_cast
      omega
    · intro a member
      rcases List.mem_cons.mp member with rfl | behind
      · omega
      · have within := seen a behind
        omega

theorem StringInfo.mem_stmt {inBuf : StringInfo} {c : UInt8} :
    c ∈ inBuf.stmt ↔ ∃ i < inBuf.len - 1, inBuf.data (inBuf.offset + i) = c := by
  simp [StringInfo.stmt, Memory.read]

theorem skipsInside_iff {inBuf : StringInfo} {n : Nat} (len : inBuf.len = n + 1)
    (ended : inBuf.data (inBuf.offset + n) = 0) :
    SkipsInside inBuf ↔ ∃ c ∈ inBuf.stmt, isWhitespace c = false ∧ c ≠ 0 := by
  constructor
  · rintro ⟨fuel, s, stops, inside, _, _⟩
    obtain ⟨_, _, seen, nonzero, other⟩ := skipLoop_len stops
    obtain ⟨lower, upper⟩ := inside s.offset seen
    obtain ⟨i, place⟩ := Nat.exists_eq_add_of_le lower
    rw [place] at nonzero other upper
    refine ⟨_, StringInfo.mem_stmt.mpr ⟨i, ?_, rfl⟩, other, nonzero⟩
    -- the terminator itself is skipped
    have notLast : i ≠ n := fun last => nonzero (last ▸ ended)
    omega
  · rintro ⟨c, member, other⟩
    have found : ∃ i, isWhitespace (inBuf.data (inBuf.offset + i)) = false ∧ inBuf.data (inBuf.offset + i) ≠ 0 := by
      obtain ⟨i, _, rfl⟩ := StringInfo.mem_stmt.mp member
      exact ⟨i, other⟩
    obtain ⟨i, before, rfl⟩ := StringInfo.mem_stmt.mp member
    have least : Nat.find found ≤ i := Nat.find_min' found other
    obtain ⟨stops, nonzero⟩ := Nat.find_spec found
    obtain ⟨s, run, counted, seen⟩ := skipLoop_first inBuf.len
      (fun j earlier => by
        have skipped := Nat.find_min found earlier
        rw [not_and_or, Bool.not_eq_false, not_not] at skipped
        exact skipped)
      stops nonzero
    refine ⟨_, s, run, fun a member => ?_, by omega, ?_⟩
    · have within := seen a member
      omega
    · refine iff_of_false (by omega) fun blank => ?_
      have isBlank := blank _ (StringInfo.mem_stmt.mpr ⟨i, before, rfl⟩)
      rw [other.1] at isBlank
      cases isBlank

/-- The text `rectifyCommand` leaves of a query is terminated, whatever the buffer holds. -/
theorem rectifyCommand_ended {version text : Bytes} {junk : Mem} {out : StringInfo} {skip : Bool}
    (accepted : rectifyCommand version (readCommand (3 :: text) junk).2 = .accepted out skip) :
    ∃ n, out.len = n + 1 ∧ out.data (out.offset + n) = 0 := by
  have arrived := readCommand_arrived 3 text junk
  have positive : 0 < (readCommand (3 :: text) junk).2.offset := Nat.lt_of_lt_of_le (by decide) arrived.reserved
  obtain ⟨k, counted, placed, edited⟩ := rectifyCommand_edited positive arrived.len arrived.ended accepted
  exact ⟨k, counted, by rw [placed]; exact edited.ended arrived.ended⟩

/-- Skipping stays inside exactly when the text has a byte besides blanks, NULs and comments. -/
theorem leading_blanks_iff {version text : Bytes} {junk : Mem} {out : StringInfo} {skip : Bool}
    (accepted : rectifyCommand version (readCommand (3 :: text) junk).2 = .accepted out skip) :
    SkipsInside out ↔ ∃ c ∈ out.stmt, isWhitespace c = false ∧ c ≠ 0 := by
  obtain ⟨n, len, ended⟩ := rectifyCommand_ended accepted
  exact skipsInside_iff len ended

def Rectified.text : Rectified → Option Bytes
  | .accepted inBuf _ => some inBuf.stmt
  | _ => none

theorem Rectified.accepted_of_text {r : Rectified} {text : Bytes} (left : r.text = some text) :
    ∃ out skip, r = .accepted out skip ∧ out.stmt = text := by
  cases r with
  | accepted out skip => exact ⟨out, skip, rfl, Option.some.inj left⟩
  | refused | raised => cases left

theorem leading_blanks_select :
    ∃ out skip, rectifyCommand (ascii "8.0") (readCommand (3 :: ascii "/**/ do 1") fun _ => 120).2 =
      .accepted out skip ∧ SkipsInside out := by
  have left : (rectifyCommand (ascii "8.0") (readCommand (3 :: ascii "/**/ do 1") fun _ => 120).2).text =
      some (ascii "     do 1") := by
    decide +kernel
  obtain ⟨out, skip, accepted, text⟩ := Rectified.accepted_of_text left
  exact ⟨out, skip, accepted, (leading_blanks_iff accepted).mpr ⟨100, by rw [text]; decide, by decide⟩⟩

/-- Behind a comment alone the loop runs into what an earlier message has left. -/
theorem leading_blanks_comment :
    ∃ out skip, rectifyCommand (ascii "8.0") (readCommand (3 :: ascii "/**/") fun _ => 120).2 = .accepted out skip ∧
      ¬SkipsInside out := by
  have left : (rectifyCommand (ascii "8.0") (readCommand (3 :: ascii "/**/") fun _ => 120).2).text =
      some (ascii "    ") := by
    decide +kernel
  obtain ⟨out, skip, accepted, text⟩ := Rectified.accepted_of_text left
  obtain ⟨n, len, ended⟩ := rectifyCommand_ended accepted
  refine ⟨out, skip, accepted, ?_⟩
  rw [skipsInside_iff len ended, text]
  decide

end OpenHalo
