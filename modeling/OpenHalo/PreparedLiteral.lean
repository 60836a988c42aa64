import OpenHalo.MysLexemes
import OpenHalo.PreStmtInPlace

namespace OpenHalo
open Octets Memory Memory.Prog MysScan List

variable {c q : UInt8} {s text w : Bytes} {i n : Nat}

/-- `convertExtendPreStmt` on a text of its own, without space for a second quotation mark: the
converted text and the number of parameters. -/
def convertText : Bytes → Option (Bytes × Nat)
  | [] => some ([], 0)
  | c :: t =>
    if c = 92 then (convertText t.tail).map fun rest => ([92, t.headD 0] ++ rest.1, 0 + rest.2)
    else if c = 34 then none
    else (convertText t).map fun rest => ([c] ++ rest.1, (if c = 63 then 1 else 0) + rest.2)
termination_by w => w.length

/-- The locals of `convertExtendPreStmt` after `i` bytes. -/
structure Convert.At (st : Convert) (i : Nat) : Prop where
  i : st.i = i
  full : st.remainSpace ≤ 1
  mark : st.leftQuotationMark = 32

section
variable (src : Mem) (oldStmt newStmt : Nat) (st : Convert)

theorem convertByte_writes (byte : src (oldStmt + st.i) = c) {result : Option Convert}
    (following : Writes src (convertFollowing oldStmt newStmt { st with newStmtIndex := st.newStmtIndex + 1 } c.toNat)
      (newStmt + (st.newStmtIndex + 1)) text result) :
    Writes src (convertByte oldStmt newStmt st) (newStmt + st.newStmtIndex) (c :: text) result := by
  have copied : read src (oldStmt + st.i) 1 = [c] := byte ▸ rfl
  have whole : littleEndian (read src (oldStmt + st.i) 1) = c.toNat := by simp [copied, littleEndian]
  apply Writes.after_reads (ReadsFrom.fetch (Nat.le_refl _))
  change Writes src (put (newStmt + st.newStmtIndex) (read src (oldStmt + st.i) 1) >>= _) _ ([c] ++ text) result
  rw [copied]
  apply Writes.put_bind
  apply Writes.after_reads (fetchByte_reads (Nat.le_refl _))
  rw [show valueFrom src (fetchByte (oldStmt + st.i)) = c.toNat from whole]
  exact following

theorem convertByte_backslash (byte : src (oldStmt + st.i) = 92) :
    Writes src (convertByte oldStmt newStmt st) (newStmt + st.newStmtIndex) [92, src (oldStmt + st.i + 1)]
      (some { st with i := st.i + 2, newStmtIndex := st.newStmtIndex + 2 }) := by
  apply convertByte_writes src oldStmt newStmt st byte
  apply Writes.after_reads (ReadsFrom.fetch (Nat.le_refl _))
  exact Writes.put_ret src _ _ _

theorem convertByte_mark (at' : st.At i) (byte : src (oldStmt + st.i) = 34) :
    valueFrom src (convertByte oldStmt newStmt st) = none := by
  have again : read src (oldStmt + st.i) 1 = [34] := byte ▸ rfl
  have turn : Writes src (convertByte oldStmt newStmt st) (newStmt + st.newStmtIndex) [34, 34] none := by
    apply convertByte_writes src oldStmt newStmt st byte
    rw [convertFollowing, if_neg (show ¬UInt8.toNat 34 = 92 by decide), if_pos (show UInt8.toNat 34 = 34 from rfl),
      convertQuotationMark, if_pos (.inl at'.mark), if_pos (Int.sub_nonpos_of_le at'.full)]
    apply Writes.after_reads (ReadsFrom.fetch (Nat.le_refl _))
    rw [← again]
    exact Writes.put_ret src _ _ _
  exact turn.value

theorem convertByte_other (at' : st.At i) (byte : src (oldStmt + st.i) = c) (backslash : c ≠ 92) (mark : c ≠ 34) :
    Writes src (convertByte oldStmt newStmt st) (newStmt + st.newStmtIndex) [c]
      (some { st with
        i := st.i + 1, newStmtIndex := st.newStmtIndex + 1, paramNum := st.paramNum + if c = 63 then 1 else 0 }) := by
  apply convertByte_writes src oldStmt newStmt st byte
  have toNat : ∀ b : UInt8, c.toNat = b.toNat ↔ c = b := fun b => UInt8.toNat_inj
  rw [convertFollowing, if_neg (show ¬c.toNat = 92 from (toNat 92).not.mpr backslash),
    if_neg (show ¬c.toNat = 34 from (toNat 34).not.mpr mark)]
  have question : (c.toNat = 63 ∧ st.leftQuotationMark = 32) ↔ c = 63 := (and_iff_left at'.mark).trans (toNat 63)
  by_cases marker : c = 63
  · rw [if_pos marker, if_pos (question.mpr marker)]
    exact Writes.ret src _ _
  · rw [if_neg marker, if_neg (question.not.mpr marker)]
    exact Writes.ret src _ _

variable {oldStmtLen : Nat}

theorem convertLoop_done (fuel : Nat) (exceeds : oldStmtLen ≤ st.i) :
    convertLoop oldStmt newStmt oldStmtLen fuel st = return some st := by
  cases fuel with
  | zero => rfl
  | succ fuel => exact if_neg (Nat.not_lt.mpr exceeds)

variable {st}

theorem convertLoop_turn {fuel m : Nat} {rest : Bytes} {next done : Convert} (inside : st.i < oldStmtLen)
    (turn : Writes src (convertByte oldStmt newStmt st) (newStmt + st.newStmtIndex) text (some next))
    (index : next.newStmtIndex = st.newStmtIndex + text.length) (params : next.paramNum = st.paramNum + n)
    (doneIndex : done.newStmtIndex = next.newStmtIndex + rest.length) (doneParams : done.paramNum = next.paramNum + m)
    (later : Writes src (convertLoop oldStmt newStmt oldStmtLen fuel next) (newStmt + next.newStmtIndex) rest
      (some done)) :
    done.newStmtIndex = st.newStmtIndex + (text ++ rest).length ∧ done.paramNum = st.paramNum + (n + m) ∧
      Writes src (convertLoop oldStmt newStmt oldStmtLen (fuel + 1) st) (newStmt + st.newStmtIndex) (text ++ rest)
        (some done) := by
  refine ⟨?_, ?_, ?_⟩
  · rw [length_append, doneIndex, index]
    omega
  · omega
  · rw [convertLoop, if_pos inside]
    apply Writes.bind turn
    rw [index, ← Nat.add_assoc] at later
    exact later

def Converts (oldStmtLen fuel : Nat) (st : Convert) : Option (Bytes × Nat) → Prop
  | none => valueFrom src (convertLoop oldStmt newStmt oldStmtLen fuel st) = none
  | some (text, n) => ∃ done : Convert, done.newStmtIndex = st.newStmtIndex + text.length ∧
      done.paramNum = st.paramNum + n ∧
      Writes src (convertLoop oldStmt newStmt oldStmtLen fuel st) (newStmt + st.newStmtIndex) text (some done)

/-- A turn in front of a run that ends as `rest` says. -/
theorem Converts.cons {fuel n : Nat} {text : Bytes} {next : Convert} {rest : Option (Bytes × Nat)}
    (later : Converts src oldStmt newStmt oldStmtLen fuel next rest) (inside : st.i < oldStmtLen)
    (turn : Writes src (convertByte oldStmt newStmt st) (newStmt + st.newStmtIndex) text (some next))
    (index : next.newStmtIndex = st.newStmtIndex + text.length) (params : next.paramNum = st.paramNum + n) :
    Converts src oldStmt newStmt oldStmtLen (fuel + 1) st (rest.map fun rest => (text ++ rest.1, n + rest.2)) := by
  cases rest with
  | none =>
    show valueFrom src (convertLoop oldStmt newStmt oldStmtLen (fuel + 1) st) = none
    rw [convertLoop, if_pos inside, valueFrom_bind, turn.value]
    exact later
  | some rest =>
    obtain ⟨done, doneIndex, doneParams, writes⟩ := later
    exact ⟨done, convertLoop_turn src oldStmt newStmt inside turn index params doneIndex doneParams writes⟩

/-- The loop on the copy does what `convertText` says. -/
theorem convertLoop_converts {fuel i : Nat} {w : Bytes} (at' : st.At i) (enough : w.length ≤ fuel)
    (length : oldStmtLen - i = w.length)
    (held : w ≠ [] → read src (oldStmt + i) (w.length + 1) = w ++ [0]) :
    Converts src oldStmt newStmt oldStmtLen fuel st (convertText w) := by
  -- the first byte, and what is held behind it
  have first : ∀ {c : UInt8} {t : Bytes} {i fuel : Nat}, (c :: t).length ≤ fuel → oldStmtLen - i = (c :: t).length →
      (c :: t ≠ [] → read src (oldStmt + i) ((c :: t).length + 1) = c :: t ++ [0]) →
      ∃ f, fuel = f + 1 ∧ t.length ≤ f ∧ i < oldStmtLen ∧ oldStmtLen - (i + 1) = t.length ∧
        src (oldStmt + i) = c ∧ read src (oldStmt + (i + 1)) (t.length + 1) = t ++ [0] := by
    intro c t i fuel enough length held
    have held := held (cons_ne_nil _ _)
    rw [read_succ, cons_append, List.cons.injEq] at held
    rw [length_cons] at enough length
    exact ⟨fuel - 1, by omega, by omega, by omega, by omega, held⟩
  induction w using convertText.induct generalizing fuel i st with
  | case1 =>
    have exceeds : oldStmtLen ≤ st.i := by
      rw [at'.i]
      exact Nat.le_of_sub_eq_zero length
    rw [convertText]
    refine ⟨st, rfl, rfl, ?_⟩
    rw [convertLoop_done oldStmt newStmt st fuel exceeds]
    exact Writes.ret src _ _
  | case2 t ih =>
    obtain ⟨fuel, rfl, enough, inside, length, byte, behind⟩ := first enough length held
    rw [← at'.i] at inside byte
    have turn := convertByte_backslash src oldStmt newStmt st byte
    have next : src (oldStmt + st.i + 1) = t.headD 0 := by
      have head := congrArg (List.headD · 0) behind
      rw [read_succ] at head
      rw [at'.i]
      cases t <;> exact head
    rw [convertText]
    rw [next] at turn
    refine Converts.cons src oldStmt newStmt (ih (i := i + 2) ?_ ?_ ?_ ?_) inside turn rfl rfl
    · exact ⟨by rw [at'.i], at'.full, at'.mark⟩
    · simp at enough ⊢
      omega
    · simp at length ⊢
      omega
    · intro nonempty
      cases t with
      | nil => exact absurd rfl nonempty
      | cons d t =>
        obtain ⟨_, _, _, _, _, _, later⟩ := first enough length fun _ => behind
        exact later
  | case3 t backslash =>
    obtain ⟨fuel, rfl, _, inside, _, byte, _⟩ := first enough length held
    rw [← at'.i] at inside byte
    rw [convertText]
    show valueFrom src (convertLoop oldStmt newStmt oldStmtLen (fuel + 1) st) = none
    rw [convertLoop, if_pos inside, valueFrom_bind, convertByte_mark src oldStmt newStmt st at' byte]
    rfl
  | case4 c t backslash mark ih =>
    obtain ⟨fuel, rfl, enough, inside, length, byte, behind⟩ := first enough length held
    rw [← at'.i] at inside byte
    have turn := convertByte_other src oldStmt newStmt st at' byte backslash mark
    rw [convertText, if_neg backslash, if_neg mark]
    refine Converts.cons src oldStmt newStmt (ih (i := i + 1) ?_ enough length fun _ => behind) inside turn rfl rfl
    exact ⟨by rw [at'.i], at'.full, at'.mark⟩

end

namespace MysScan

def unmarked (q : UInt8) : Bytes → Bool
  | [] => true
  | [c] => plain q c
  | c :: d :: w => if c = 92 then unmarked q w else c != q && unmarked q (d :: w)

theorem unmarked_cons (alone : c ≠ 92) :
    unmarked q (c :: w) = (c != q && unmarked q w) := by
  cases w with
  | nil => simp [unmarked, plain, alone]
  | cons d w => rw [unmarked, if_neg alone]

theorem unmarked_dropWhile (clear : unmarked q w = true) :
    unmarked q (w.dropWhile (plain q)) = true := by
  induction w with
  | nil => rfl
  | cons c w ih =>
    rw [dropWhile_cons]
    split
    · rename_i taken
      have alone : c ≠ 92 := by
        simp only [plain, Bool.and_eq_true, bne_iff_ne] at taken
        exact taken.1
      rw [unmarked_cons alone, Bool.and_eq_true] at clear
      exact ih clear.2
    · exact clear

theorem dropWhile_mark (k : Quotes) (w : Bytes) :
    (w ++ [k.mark]).dropWhile (plain k.mark) = w.dropWhile (plain k.mark) ++ [k.mark] := by
  have stops : plain k.mark k.mark = false := by simp [plain]
  induction w with
  | nil => simp [stops]
  | cons c w ih =>
    simp only [cons_append, dropWhile_cons, ih]
    split <;> rfl

theorem Lexer.Emits.zero {cfg : Setting} {k : Quotes} {lx ended : Lexer} {v w : Bytes}
    (clear : unmarked k.mark w = true)
    (start : lx.start = k.body) (whole : lx.rest = w ++ [k.mark]) (emits : lx.Emits cfg (.sconst v) ended)
    (zero : 0 ∈ lx.literalbuf ∨ 0 ∈ w) : 0 ∈ v := by
  induction len : w.length using Nat.strong_induction_on generalizing w lx with
  | _ n ih =>
    cases w with
    | nil =>
      have value : 0 ∈ lx.literalbuf := zero.resolve_right not_mem_nil
      have quoted := (emits_goto (step_quote k start whole nofun)).mp emits
      have stopped : (lx.closed k [] []).step cfg = (lx.closed k [] []).quotestop cfg := by
        cases k <;> rfl
      have kept : (lx.closed k [] []).literalbuf = lx.literalbuf := append_nil _
      have stops := @quotestop_cases (lx.closed k [] []) k cfg rfl
      rcases stops with ⟨same, _⟩ | failed | ⟨_, _, binary⟩
      · rw [kept] at same
        cases ((emits_emit (stopped.trans same)).mp quoted).1
        exact value
      · cases quoted with
        | emit turn | goto turn => cases turn.symm.trans (stopped.trans failed)
      · cases ((emits_emit (stopped.trans binary)).mp quoted).1
    | cons c w =>
      have turn := step_body k cfg start (t := w ++ [k.mark]) whole
      by_cases backslash : c = 92
      · subst backslash
        rw [if_neg (show (92 : UInt8) ≠ k.mark by cases k <;> decide), if_pos rfl] at turn
        cases w with
        | nil => simp [unmarked, plain] at clear
        | cons d w =>
          rw [unmarked, if_pos rfl] at clear
          by_cases newline : d = 10
          · subst newline
            have later := (emits_goto turn).mp emits
            refine ih _ ?_ (w := 10 :: w) ?_ ?_ ?_ later ?_ rfl
            · simp at len ⊢
              omega
            · rw [unmarked_cons (by decide), clear]
              cases k <;> rfl
            · exact start
            · rfl
            · simpa [taken] using zero
          · rw [if_neg (by simp [newline]), unescape] at turn
            split at turn
            · cases emits with
              | emit same | goto same => cases same.symm.trans turn
            · have later := (emits_goto turn).mp emits
              refine ih _ ?_ clear ?_ ?_ later ?_ rfl
              · simp at len ⊢
                omega
              · exact start
              · simp [yyless, addlit, whole]
              · simp only [mem_cons, show (0 : UInt8) ≠ 92 by decide, false_or] at zero
                simp only [yyless, addlit, mem_append]
                rcases zero with before | rfl | behind
                · exact .inl (.inl before)
                · exact .inl (.inr (by simp [unescapeSingleChar]))
                · exact .inr behind
      · rw [unmarked_cons backslash, Bool.and_eq_true, bne_iff_ne] at clear
        rw [if_neg clear.1, if_neg backslash, takeWhile_mark, dropWhile_mark] at turn
        have later := (emits_goto turn).mp emits
        refine ih _ ?_ (unmarked_dropWhile clear.2) ?_ ?_ later ?_ rfl
        · have shorter := (dropWhile_sublist (l := w) (plain k.mark)).length_le
          simp at len
          omega
        · exact start
        · rfl
        · rw [← takeWhile_append_dropWhile (p := plain k.mark) (l := w), mem_cons, mem_append] at zero
          simpa [taken, or_assoc] using zero

end MysScan

/-- Without room for a second mark the text is copied, up to what a last backslash takes along. -/
theorem convertText_copies (converted : convertText w = some (text, n)) :
    unmarked 34 text = true ∧ (text = w ∨ text = w ++ [0]) := by
  induction w using convertText.induct generalizing text n with
  | case1 =>
    rw [convertText] at converted
    cases converted
    exact ⟨rfl, .inl rfl⟩
  | case2 t ih =>
    rw [convertText] at converted
    obtain ⟨⟨rest, m⟩, later, same⟩ := Option.map_eq_some_iff.mp converted
    cases same
    obtain ⟨clear, copied⟩ := ih later
    refine ⟨clear, ?_⟩
    cases t with
    | nil =>
      rw [tail_nil, convertText] at later
      cases later
      exact .inr rfl
    | cons d t => exact copied.imp (congrArg ([92, d] ++ ·)) (congrArg ([92, d] ++ ·))
  | case3 t backslash =>
    rw [convertText] at converted
    cases converted
  | case4 c t backslash mark ih =>
    rw [convertText, if_neg backslash, if_neg mark] at converted
    obtain ⟨⟨rest, m⟩, later, same⟩ := Option.map_eq_some_iff.mp converted
    cases same
    obtain ⟨clear, copied⟩ := ih later
    refine ⟨?_, copied.imp (congrArg ([c] ++ ·)) (congrArg ([c] ++ ·))⟩
    rw [singleton_append, unmarked_cons backslash, clear, bne_iff_ne.mpr mark]
    rfl

theorem convertText_safe (safe : literalSafe 34 w = true) : convertText w = some (w, w.count 63) := by
  induction len : w.length using Nat.strong_induction_on generalizing w with
  | _ n ih =>
    cases w with
    | nil => rw [convertText]; rfl
    | cons c t =>
      simp only [literalSafe, Bool.and_eq_true, bne_iff_ne, Bool.or_eq_true, beq_iff_eq] at safe
      obtain ⟨⟨mark, backslash⟩, rest⟩ := safe
      rw [length_cons] at len
      by_cases escape : c = 92
      · obtain ⟨t, rfl⟩ := List.head?_eq_some_iff.mp (backslash.resolve_left (not_not_intro escape))
        have later := ih t.length (by simp at len; omega) (literalSafe_append (u := [10]) rest) rfl
        subst escape
        rw [convertText, tail_cons, later]
        simp
      · rw [convertText, if_neg escape, if_neg mark, ih t.length (by omega) rest rfl]
        by_cases question : c = 63
        · subst question
          simp [Nat.add_comm]
        · simp [question]

def prepareHeader (name : Bytes) : Bytes := ascii "prepare " ++ cstr name ++ ascii " from "

/-- The header, the converted text between marks and a terminator, or nothing. -/
theorem prepareText_writes {name : Bytes} {src : Mem} (short : (cstr name).length = 11)
    (held : read src 129 (s.length + 1) = s ++ [0]) :
    match convertText s with
    | none => valueFrom src (prepareText name 129 (s.length + 1)) = none
    | some (text, n) => Writes src (prepareText name 129 (s.length + 1)) 128
        (prepareHeader name ++ [34] ++ (text ++ [34, 0])) (some (26 + text.length + 2, n)) := by
  have length : (prepareHeader name ++ [34]).length = 26 := by
    simp only [prepareHeader, length_append, short]
    rfl
  have header : snprintf 27 (ascii "prepare " ++ cstr name ++ ascii " from \"") =
      prepareHeader name ++ [34] ++ [0] := by
    have whole : ascii "prepare " ++ cstr name ++ ascii " from \"" = prepareHeader name ++ [34] := by
      simp only [prepareHeader, append_assoc]
      rfl
    rw [snprintf, whole, take_of_length_le (by omega)]
  have start : Convert.At ⟨0, 26, ((129 : Nat) : Int) - 128 - 26, 32, 0, 0⟩ 0 := ⟨rfl, by decide, rfl⟩
  have loop := @convertLoop_converts src 129 128 _ s.length s.length 0 s start (Nat.le_refl _) rfl (fun _ => held)
  cases converted : convertText s with
  | none =>
    rw [converted] at loop
    have refused :
        valueFrom src (convertExtendPreStmt 129 (s.length + 1 - 1) (((129 : Nat) : Int) - (128 : Nat) - 26) 128 26) =
          none := loop
    unfold prepareText
    rw [valueFrom_bind, valueFrom_bind, refused]
    rfl
  | some result =>
    obtain ⟨text, n⟩ := result
    rw [converted] at loop
    obtain ⟨done, index, params, writes⟩ := loop
    have stmt : done.newStmtIndex = 26 + text.length := index
    have count : done.paramNum = n := by rw [params, Nat.zero_add]
    unfold prepareText
    rw [header]
    refine Writes.overwriting [0] (Writes.put src 128 _) (by simp) ?_
    rw [length]
    refine Writes.bind (v := some done) writes ?_
    dsimp only
    rw [stmt, count, Nat.add_assoc 128 26]
    exact Writes.put_bind (128 + (26 + text.length)) [34] (Writes.put_ret src _ [0] _)

theorem cacheExtendPreStmt_name (t : PreStmts) (readWriteType : Nat) :
    let cached := cacheExtendPreStmt t readWriteType
    (cstr (cached.1.preStmtInfoes cached.2.1).name).length = 11 := by
  have named : ∀ n (behind : Bytes),
      (cstr ((ascii "unuTsfQ" ++ paddedDecimal 4 n).take 11 ++ [0] ++ behind)).length = 11 := by
    intro n behind
    have word : (ascii "unuTsfQ").length = 7 := rfl
    have digits := width_le_paddedDecimal 4 n
    have text : 0 ∉ (ascii "unuTsfQ" ++ paddedDecimal 4 n).take 11 := by
      intro member
      rcases mem_append.mp (mem_of_mem_take member) with letter | digit
      · revert letter
        decide
      · exact absurd (mem_paddedDecimal digit).1 (by decide)
    rw [append_assoc, singleton_append, cstr_append text, length_take, length_append]
    omega
  simp only [cacheExtendPreStmt, PreStmts.set]
  exact named _ _

/-- The literal PREPARE makes of a copy of `s`, without header and terminator, and the number of
parameters. -/
def preparedLiteral (t : PreStmts) (junk : Mem) (s : Bytes) : Option (Bytes × Nat) :=
  let cached := cacheExtendPreStmt t SRWT_UNKNOWN
  let src := load (s ++ [0]) 129 junk
  let name := (cached.1.preStmtInfoes cached.2.1).name
  match runFrom src (prepareText name 129 (s.length + 1)) src with
  | (some (len, paramNum), data) => some ((read data 128 (len - 1)).drop 25, paramNum)
  | (none, _) => none

theorem preparedLiteral_eq (t : PreStmts) (junk : Mem) (s : Bytes) :
    preparedLiteral t junk s = (convertText s).map fun text => (34 :: text.1 ++ [34], text.2) := by
  have short := cacheExtendPreStmt_name t SRWT_UNKNOWN
  dsimp only at short
  generalize naming : ((cacheExtendPreStmt t SRWT_UNKNOWN).1.preStmtInfoes
    (cacheExtendPreStmt t SRWT_UNKNOWN).2.1).name = name at short
  have held : read (load (s ++ [0]) 129 junk) 129 (s.length + 1) = s ++ [0] := by
    have self := read_write_self junk 129 (s ++ [0])
    rwa [length_append] at self
  have writes := prepareText_writes short held
  unfold preparedLiteral
  dsimp only
  rw [naming]
  generalize load (s ++ [0]) 129 junk = src at *
  have value := runFrom_fst src (prepareText name 129 (s.length + 1)) src
  cases converted : convertText s with
  | none =>
    rw [converted] at writes
    rw [show valueFrom src (prepareText name 129 (s.length + 1)) = none from writes] at value
    generalize runFrom src (prepareText name 129 (s.length + 1)) src = done at value
    obtain ⟨result, data⟩ := done
    cases value
    rfl
  | some result =>
    obtain ⟨text, n⟩ := result
    rw [converted] at writes
    have stored := writes.stored src
    rw [writes.value] at value
    generalize runFrom src (prepareText name 129 (s.length + 1)) src = done at value stored
    obtain ⟨result, data⟩ := done
    cases value
    cases stored
    have header : (prepareHeader name).length = 25 := by
      simp only [prepareHeader, length_append, short]
      rfl
    have whole :
        prepareHeader name ++ [34] ++ (text ++ [34, 0]) = (prepareHeader name ++ (34 :: text ++ [34])) ++ [0] := by
      simp
    have length : (prepareHeader name ++ (34 :: text ++ [34])).length = 26 + text.length + 2 - 1 := by
      simp [header]
      omega
    show some ((read (write src 128 _) 128 (26 + text.length + 2 - 1)).drop 25, n) = some (34 :: text ++ [34], n)
    rw [whole, write_append, ← length, read_congr (fun i _ within => write_before within), read_write_self, ← header,
      drop_left]

/-- The scanner takes the whole literal, its value is `s`, and the number of parameters is that of the
markers in `s`. -/
def Preserved (cfg : Setting) (t : PreStmts) (junk : Mem) (s : Bytes) : Prop :=
  ∃ literal paramNum, preparedLiteral t junk s = some (literal, paramNum) ∧
    (∃ ended, (Lexer.init literal).Emits cfg (.sconst s) ended ∧ ended.rest = []) ∧
    ∀ ts, (Lexer.init s).Scans cfg ts → ts.count .mysParam = paramNum

/-- PREPARE preserves a statement exactly when a literal holds it and hides no question mark. -/
theorem preserved_iff (cfg : Setting) (t : PreStmts) (junk : Mem) {s : Bytes} {ts : List Token} (text : 0 ∉ s)
    (scans : (Lexer.init s).Scans cfg ts) :
    Preserved cfg t junk s ↔ literalSafe 34 s = true ∧ MarkersOnly cfg s := by
  unfold Preserved
  rw [preparedLiteral_eq]
  constructor
  · rintro ⟨literal, paramNum, built, ⟨ended, emits, nothing⟩, markers⟩
    obtain ⟨⟨copied, n⟩, converted, same⟩ := Option.map_eq_some_iff.mp built
    cases same
    obtain ⟨clear, copies⟩ := convertText_copies converted
    have safe : literalSafe 34 s = true := by
      rcases copies with rfl | rfl
      · obtain ⟨consumed, passed, _, exactly⟩ := Lexer.literal_tight (k := .double) (Lexer.init_ready _) emits
        have whole : 34 :: copied ++ [34] = consumed := by
          have split := passed.split
          rwa [nothing, append_nil] at split
        exact (exactly (by rw [← whole]; simp)).2
      · have opened := (Lexer.emits_goto (Lexer.step_open .double cfg rfl rfl)).mp emits
        exact absurd (opened.zero (k := .double) clear rfl rfl (.inr (by simp))) text
    refine ⟨safe, (markersOnly_iff scans).mpr ?_⟩
    rw [convertText_safe safe] at converted
    cases converted
    exact (markers ts scans).symm
  · rintro ⟨safe, only⟩
    obtain ⟨ended, ready, emits⟩ := @Lexer.emits_literal _ .double cfg s []
      (Lexer.init_ready (34 :: s ++ [34])) safe (.inl rfl)
    refine ⟨34 :: s ++ [34], s.count 63, ?_, ⟨ended, emits, ready.rest⟩, ?_⟩
    · rw [convertText_safe safe]
      rfl
    · intro later same
      exact ((markersOnly_iff same).mp only).symm

/-- A statement with one marker. -/
theorem preserved_marker :
    Preserved ⟨true, fun _ => true⟩ (PreStmts.initial (fun _ => .initial) (fun _ => 0)) (fun _ => 0)
      (ascii "select ?") := by
  have run : (Lexer.init (ascii "select ?")).tokens ⟨true, fun _ => true⟩ 8 =
      some [.word (ascii "select"), .mysParam] := by decide +kernel
  have scans : (Lexer.init (ascii "select ?")).Scans ⟨true, fun _ => true⟩ _ := ⟨8, run⟩
  exact (preserved_iff _ _ _ (by decide) scans).mpr ⟨by decide, (markersOnly_iff scans).mpr (by decide)⟩

/-- In `select '?'` the scanner sees no marker, and the adapter reports one. -/
theorem preserved_fails :
    0 ∉ ascii "select '?'" ∧
      (Lexer.init (ascii "select '?'")).Scans ⟨true, fun _ => true⟩ [.word (ascii "select"), .sconst (ascii "?")] ∧
      ¬Preserved ⟨true, fun _ => true⟩ (PreStmts.initial (fun _ => .initial) (fun _ => 0)) (fun _ => 0)
        (ascii "select '?'") := by
  have run : (Lexer.init (ascii "select '?'")).tokens ⟨true, fun _ => true⟩ 9 =
      some [.word (ascii "select"), .sconst (ascii "?")] := by decide +kernel
  refine ⟨by decide, ⟨9, run⟩, ?_⟩
  rintro ⟨literal, paramNum, same, _, markers⟩
  cases same
  exact absurd (markers _ ⟨9, run⟩) (by decide)

end OpenHalo
