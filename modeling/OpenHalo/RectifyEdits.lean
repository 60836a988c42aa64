import OpenHalo.Lib.CString
import OpenHalo.Rectify

namespace OpenHalo
open Octets Memory

variable {fuel i k n offset : Nat} {m m' : Mem}

/-- What `rectifyCommand` makes of `n` bytes before a terminator: it overwrites or blanks bytes, or
moves the rest by one. -/
inductive Edited (offset : Nat) (m : Mem) (n : Nat) : Mem → Nat → Prop
  | same : Edited offset m n m n
  | write {m' : Mem} {k p : Nat} {bs : Bytes} : Edited offset m n m' k → 0 ∉ bs → p + bs.length ≤ offset + k →
      Edited offset m n (write m' p bs) k
  | blank {m' : Mem} {k b : Nat} (a : Nat) : Edited offset m n m' k → b ≤ offset + k →
      Edited offset m n (blank m' a b) k
  | shift {m' : Mem} {k i : Nat} : Edited offset m n m' k → i < k →
      Edited offset m n (fun j => if offset + i < j ∧ j ≤ offset + (k + 1) + 1 then m' (j - 1) else m' j) (k + 1)

theorem Edited.trans {m'' : Mem} {l : Nat} (first : Edited offset m n m' k)
    (second : Edited offset m' k m'' l) : Edited offset m n m'' l := by
  induction second with
  | same => exact first
  | write _ text within ih => exact ih.write text within
  | blank a _ within ih => exact ih.blank a within
  | shift _ inside ih => exact ih.shift inside

theorem Edited.ended (edited : Edited offset m n m' k) (ended : m (offset + n) = 0) :
    m' (offset + k) = 0 := by
  induction edited with
  | same => exact ended
  | write _ _ within ih =>
    rw [write_after within]
    exact ih
  | blank a _ within ih =>
    rw [OpenHalo.blank, if_neg (by omega)]
    exact ih
  | shift _ _ ih =>
    dsimp only
    rw [if_pos (by omega)]
    exact ih

theorem Edited.strLen (edited : Edited offset m n m' k)
    (string : StrLen m offset n) : StrLen m' offset k := by
  induction edited with
  | same => exact string
  | write _ text within ih => exact ih.write text within
  | @blank _ _ b a _ within ih =>
    constructor
    · intro i before
      rw [OpenHalo.blank]
      split
      · decide
      · exact ih.nonzero i before
    · rw [OpenHalo.blank, if_neg (by omega)]
      exact ih.ended
  | @shift m' k i _ inside ih =>
    constructor
    · intro j before
      split
      next moved =>
        have place : offset + j - 1 = offset + (j - 1) := by omega
        rw [place]
        exact ih.nonzero (j - 1) (by omega)
      next stays => exact ih.nonzero j (by omega)
    · rw [if_pos (by omega)]
      exact ih.ended

section turn
variable {version : Bytes} {maxlen offset : Nat} {st st' : RectifyState} {n : Nat}

theorem before_ended (ended : m (offset + n) = 0) (upTo : i ≤ n) (nonzero : m (offset + i) ≠ 0) : i < n :=
  Nat.lt_of_le_of_ne upTo fun last => nonzero (last ▸ ended)

theorem rectifyQuote_edited (len : st.len = n + 1) (ended : st.data (offset + n) = 0) (inside : st.i ≤ n)
    (quote : st.data (offset + st.i) ≠ 0) (positive : 0 < offset) (turn : rectifyQuote maxlen offset st = .next st') :
    (∃ k, st'.len = k + 1 ∧ Edited offset st.data n st'.data k) ∧ st'.commentType = st.commentType := by
  have first : st.i < n := before_ended ended inside quote
  unfold rectifyQuote at turn
  dsimp only at turn
  split at turn
  next zero =>
    simp only [Bool.and_eq_true, beq_iff_eq] at zero
    have second : st.i + 1 < n := before_ended ended first (by rw [zero.1.1]; decide)
    have third : st.i + 2 < n := before_ended ended second (by rw [zero.1.2]; decide)
    have fourth : st.i + 3 < n := before_ended ended third (by rw [zero.2]; exact quote)
    cases turn
    refine ⟨⟨n, len, Edited.same.write (by decide) ?_⟩, rfl⟩
    change offset + st.i + 4 ≤ offset + n
    omega
  next =>
    split at turn
    next one =>
      simp only [Bool.and_eq_true, beq_iff_eq] at one
      have second : st.i + 1 < n := before_ended ended first (by rw [one.1]; decide)
      have third : st.i + 2 < n := before_ended ended second (by rw [one.2]; exact quote)
      split at turn
      next =>
        cases turn
        refine ⟨⟨n, len, Edited.same.write (by decide) ?_⟩, rfl⟩
        change offset + st.i - 1 + 4 ≤ offset + n
        omega
      next =>
        split at turn
        next =>
          cases turn
          refine ⟨⟨st.len, rfl, ?_⟩, rfl⟩
          have within : offset + st.i + (ascii "b'1'").length ≤ offset + (n + 1) := by
            change offset + st.i + 4 ≤ offset + (n + 1)
            omega
          rw [len]
          exact (Edited.same.shift first).write (by decide) within
        next => cases turn
    next =>
      split at turn
      · cases turn
        exact ⟨⟨n, len, .same⟩, rfl⟩
      · split at turn <;> cases turn <;> exact ⟨⟨n, len, .same⟩, rfl⟩

theorem skipVersionBlanks_le {sp sp' : Nat} (lower : sp ≤ i)
    (found : skipVersionBlanks m i fuel sp = some sp') : sp' ≤ i := by
  induction fuel generalizing sp with
  | zero => cases found
  | succ fuel ih =>
    rw [skipVersionBlanks] at found
    split at found
    · cases found
      exact lower
    · split at found
      · cases found
      · exact ih (by omega) found

theorem versionEnd_le {v v' : Nat} (star : m i = 42) (lower : v ≤ i)
    (found : versionEnd m i fuel v = some v') : v' ≤ i := by
  induction fuel generalizing v with
  | zero => cases found
  | succ fuel ih =>
    rw [versionEnd] at found
    split at found
    · cases found
      exact lower
    split at found
    next isBlank =>
      cases found
      have other : v ≠ i := by
        rintro rfl
        rw [star] at isBlank
        cases isBlank
      omega
    · split at found
      · cases found
      · exact ih (by omega) found

theorem rectifyCommentEnd_edited (len : st.len = n + 1) (ended : st.data (offset + n) = 0) (inside : st.i ≤ n)
    (started : st.commentStartIndex + 2 ≤ st.i) (star : st.data (offset + st.i) = 42)
    (slash : st.data (offset + st.i + 1) = 47) (turn : rectifyCommentEnd version offset st = .next st') :
    (∃ k, st'.len = k + 1 ∧ Edited offset st.data n st'.data k) ∧ st'.commentType = 0 := by
  have first : st.i < n := before_ended ended inside (by rw [star]; decide)
  have second : st.i + 1 < n := before_ended ended first (by rw [← Nat.add_assoc, slash]; decide)
  -- what is blanked ends with the comment
  have done {m : Mem} (edited : Edited offset st.data n m n)
      (next : Turn.next { st with data := m, commentType := 0, i := st.i + 2 } = .next st') :
      (∃ k, st'.len = k + 1 ∧ Edited offset st.data n st'.data k) ∧ st'.commentType = 0 := by
    cases next
    exact ⟨⟨n, len, edited⟩, rfl⟩
  have within : offset + st.i + 2 ≤ offset + n := by omega
  have whole : Edited offset st.data n (blank st.data (offset + st.commentStartIndex) (offset + st.i + 2)) n :=
    Edited.same.blank _ within
  unfold rectifyCommentEnd at turn
  dsimp only at turn
  split at turn
  next bang =>
    have behind : st.commentStartIndex + 3 ≤ st.i := by
      rcases Nat.lt_or_eq_of_le started with later | same
      · exact later
      · rw [Nat.add_assoc, same, star] at bang
        cases bang
    split at turn
    · cases turn
    next sp found =>
      have upTo : sp ≤ offset + st.i := skipVersionBlanks_le (by omega) found
      have stripped {v : Nat} (digit : st.data sp ≠ 42)
          (ends : versionEnd st.data (offset + st.i) (offset + st.i - sp + 1) (sp + 1) = some v) :
          Edited offset st.data n
            (blank (blank st.data (offset + st.commentStartIndex) v) (offset + st.i) (offset + st.i + 2)) n := by
        have before : sp + 1 ≤ offset + st.i := by
          rcases Nat.lt_or_eq_of_le upTo with before | same
          · exact before
          · rw [same] at digit
            exact absurd star digit
        have short := versionEnd_le star before ends
        exact (Edited.same.blank _ (by omega)).blank _ within
      split at turn
      next digit =>
        split at turn
        · cases turn
        next v ends =>
          refine done (stripped ?_ ends) turn
          intro isStar
          rw [isStar] at digit
          cases digit
      next =>
        split at turn
        next eight =>
          split at turn
          · split at turn
            · cases turn
            next v ends =>
              refine done (stripped ?_ ends) turn
              intro isStar
              rw [isStar] at eight
              cases eight
          · exact done whole turn
        next =>
          split at turn
          · exact done ((Edited.same.blank _ (by omega)).blank _ within) turn
          · cases turn
  next => exact done whole turn

theorem rectifyTurn_edited (len : st.len = n + 1) (ended : st.data (offset + n) = 0)
    (comment : st.commentType = 1 → st.commentStartIndex + 2 ≤ st.i) (inside : st.i < st.len) (positive : 0 < offset)
    (turn : rectifyTurn version maxlen offset st = .next st') :
    (∃ k, st'.len = k + 1 ∧ Edited offset st.data n st'.data k) ∧
      (st'.commentType = 1 → st'.commentStartIndex + 2 ≤ st'.i) := by
  have upTo : st.i ≤ n := by omega
  have kept : ∃ k, st.len = k + 1 ∧ Edited offset st.data n st.data k := ⟨n, len, .same⟩
  unfold rectifyTurn at turn
  dsimp only at turn
  split at turn
  next outside =>
    have plain {P : Prop} (inComment : st.commentType = 1) : P := by
      rw [beq_iff_eq.mp outside] at inComment
      cases inComment
    split at turn
    next quote =>
      have nonzero : st.data (offset + st.i) ≠ 0 := by
        intro zero
        rw [zero] at quote
        cases quote
      split at turn
      next =>
        obtain ⟨edited, same⟩ := rectifyQuote_edited len ended upTo nonzero positive turn
        exact ⟨edited, fun inComment => plain (same ▸ inComment)⟩
      next =>
        cases turn
        exact ⟨kept, plain⟩
    next =>
      split at turn
      next =>
        split at turn
        · cases turn
        · cases turn
          exact ⟨kept, plain⟩
      next =>
        split at turn
        next =>
          split at turn
          · cases turn
            exact ⟨kept, fun _ => Nat.le_refl _⟩
          · cases turn
            exact ⟨kept, plain⟩
        next =>
          split at turn
          next =>
            split at turn
            · cases turn
              exact ⟨kept, fun _ => Nat.le_refl _⟩
            · cases turn
              exact ⟨kept, plain⟩
          next =>
            cases turn
            exact ⟨kept, plain⟩
  next =>
    split at turn
    next inComment =>
      have started := comment (beq_iff_eq.mp inComment)
      split at turn
      next ends =>
        simp only [Bool.and_eq_true, beq_iff_eq] at ends
        split at turn
        · obtain ⟨edited, closed⟩ := rectifyCommentEnd_edited len ended upTo started ends.1 ends.2 turn
          exact ⟨edited, fun inComment => by rw [closed] at inComment; cases inComment⟩
        · cases turn
          exact ⟨kept, fun _ => Nat.le_add_right_of_le started⟩
      next =>
        cases turn
        exact ⟨kept, fun _ => Nat.le_add_right_of_le started⟩
    next =>
      cases turn
      exact ⟨kept, fun later => Nat.le_add_right_of_le (comment later)⟩

end turn

theorem rectifyLoop_invariant {version : Bytes} {inBuf out : StringInfo} {skip : Bool} {P : RectifyState → Prop}
    (step : ∀ st st', P st → st.i < st.len → rectifyTurn version inBuf.maxlen inBuf.offset st = .next st' → P st')
    {fuel : Nat} {st : RectifyState} (start : P st)
    (accepted : rectifyLoop version inBuf fuel st = .accepted out skip) :
    ∃ last, P last ∧ out = { inBuf with data := last.data, len := last.len } := by
  induction fuel generalizing st with
  | zero =>
    cases accepted
    exact ⟨st, start, rfl⟩
  | succ fuel ih =>
    rw [rectifyLoop] at accepted
    split at accepted
    next inside =>
      cases turn : rectifyTurn version inBuf.maxlen inBuf.offset st with
      | next st' =>
        rw [turn] at accepted
        exact ih (step st st' start inside turn) accepted
      | accept skip' =>
        rw [turn] at accepted
        cases accepted
        exact ⟨st, start, rfl⟩
      | refuse | raise => rw [turn] at accepted; cases accepted
    next =>
      cases accepted
      exact ⟨st, start, rfl⟩

/-- All of `rectifyCommand`, for any text in front of a terminator. -/
theorem rectifyCommand_edited {version : Bytes} {inBuf out : StringInfo} {skip : Bool} (positive : 0 < inBuf.offset)
    (len : inBuf.len = n + 1) (ended : inBuf.data (inBuf.offset + n) = 0)
    (accepted : rectifyCommand version inBuf = .accepted out skip) :
    ∃ k, out.len = k + 1 ∧ out.offset = inBuf.offset ∧ Edited inBuf.offset inBuf.data n out.data k := by
  obtain ⟨last, ⟨⟨k, counted, edited⟩, _⟩, rfl⟩ := @rectifyLoop_invariant version inBuf out skip
    (fun st => (∃ k, st.len = k + 1 ∧ Edited inBuf.offset inBuf.data n st.data k) ∧
      (st.commentType = 1 → st.commentStartIndex + 2 ≤ st.i))
    (by
      rintro st st' ⟨⟨k, counted, edited⟩, comment⟩ inside turn
      obtain ⟨⟨l, counted', edited'⟩, comment'⟩ :=
        rectifyTurn_edited counted (edited.ended ended) comment inside positive turn
      exact ⟨⟨l, counted', edited.trans edited'⟩, comment'⟩)
    _ _ ⟨⟨n, len, .same⟩, fun inComment => by cases inComment⟩ accepted
  exact ⟨k, counted, rfl, edited⟩

end OpenHalo
