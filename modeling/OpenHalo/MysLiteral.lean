import OpenHalo.MysScan

namespace OpenHalo.MysScan
open Octets Flex Flex.Pattern
open List hiding choose

variable {ended : Lexer} {consumed u v w : Bytes} {c q : UInt8}

variable {cfg : Setting} {lx next : Lexer} {token : Token} {ts : List Token}

theorem Lexer.scans_goto (turn : lx.step cfg = .goto next) : lx.Scans cfg ts ↔ next.Scans cfg ts := by
  constructor
  · rintro ⟨fuel, run⟩
    cases fuel with
    | zero => cases run
    | succ fuel =>
      rw [tokens, turn] at run
      exact ⟨fuel, run⟩
  · rintro ⟨fuel, run⟩
    refine ⟨fuel + 1, ?_⟩
    rw [tokens, turn]
    exact run

theorem Lexer.scans_emit (turn : lx.step cfg = .emit token next) :
    lx.Scans cfg ts ↔ ∃ later, ts = token :: later ∧ next.Scans cfg later := by
  constructor
  · rintro ⟨fuel, run⟩
    cases fuel with
    | zero => cases run
    | succ fuel =>
      rw [tokens, turn] at run
      obtain ⟨later, rest, rfl⟩ := Option.map_eq_some_iff.mp run
      exact ⟨later, rfl, fuel, rest⟩
  · rintro ⟨later, rfl, fuel, run⟩
    refine ⟨fuel + 1, ?_⟩
    rw [tokens, turn]
    exact Option.map_eq_some_iff.mpr ⟨later, run, rfl⟩

theorem Lexer.scans_done (turn : lx.step cfg = .done) : lx.Scans cfg ts ↔ ts = [] := by
  constructor
  · rintro ⟨fuel, run⟩
    cases fuel with
    | zero => cases run
    | succ fuel =>
      rw [tokens, turn] at run
      exact (Option.some.inj run).symm
  · rintro rfl
    exact ⟨1, by rw [tokens, turn]⟩

theorem Lexer.not_scans_fail (turn : lx.step cfg = .fail) : ¬lx.Scans cfg ts := by
  rintro ⟨fuel, run⟩
  cases fuel with
  | zero => cases run
  | succ fuel =>
    rw [tokens, turn] at run
    cases run

inductive Lexer.Emits (cfg : Setting) : Lexer → Token → Lexer → Prop
  | emit {lx ended : Lexer} {token : Token} : lx.step cfg = .emit token ended → Emits cfg lx token ended
  | goto {lx next ended : Lexer} {token : Token} : lx.step cfg = .goto next → Emits cfg next token ended →
      Emits cfg lx token ended

theorem Lexer.emits_goto (turn : lx.step cfg = .goto next) :
    lx.Emits cfg token ended ↔ next.Emits cfg token ended := by
  constructor
  · intro emits
    cases emits with
    | emit same =>
      rw [turn] at same
      cases same
    | goto same later =>
      rw [turn] at same
      cases same
      exact later
  · exact .goto turn

theorem Lexer.emits_emit {t : Token} (turn : lx.step cfg = .emit token next) :
    lx.Emits cfg t ended ↔ t = token ∧ ended = next := by
  constructor
  · intro emits
    cases emits with
    | emit same =>
      rw [turn] at same
      cases same
      exact ⟨rfl, rfl⟩
    | goto same later =>
      rw [turn] at same
      cases same
  · rintro ⟨rfl, rfl⟩
    exact .emit turn

theorem Lexer.Emits.scans (emits : lx.Emits cfg token ended) :
    lx.Scans cfg ts ↔ ∃ later, ts = token :: later ∧ ended.Scans cfg later := by
  induction emits with
  | emit turn => exact scans_emit turn
  | goto turn later ih => exact (scans_goto turn).trans ih

theorem Lexer.Emits.scans_behind (emits : lx.Emits cfg token ended) :
    lx.Scans cfg (token :: ts) ↔ ended.Scans cfg ts := by
  rw [emits.scans]
  constructor
  · rintro ⟨later, same, scans⟩
    cases same
    exact scans
  · exact fun scans => ⟨ts, rfl, scans⟩

theorem Lexer.scans_cons : lx.Scans cfg (token :: ts) ↔ ∃ ended, lx.Emits cfg token ended ∧ ended.Scans cfg ts := by
  constructor
  · rintro ⟨fuel, run⟩
    induction fuel generalizing lx with
    | zero => cases run
    | succ fuel ih =>
      cases turn : lx.step cfg with
      | goto next =>
        rw [tokens, turn] at run
        obtain ⟨ended, emits, scans⟩ := ih run
        exact ⟨ended, .goto turn emits, scans⟩
      | emit t next =>
        obtain ⟨later, same, scans⟩ := (scans_emit turn).mp ⟨fuel + 1, run⟩
        cases same
        exact ⟨next, .emit turn, scans⟩
      | fail => exact absurd ⟨fuel + 1, run⟩ (not_scans_fail turn)
      | done => cases (scans_done turn).mp ⟨fuel + 1, run⟩
  · rintro ⟨ended, emits, scans⟩
    exact emits.scans.mpr ⟨ts, rfl, scans⟩

theorem Lexer.step_eq {rule : Rule} {n : Nat} (nonempty : lx.rest ≠ [])
    (chosen : choose lx.rest (rules lx.start) = some (rule, n)) : lx.step cfg = lx.act cfg n rule := by
  rw [step, if_neg nonempty, chosen]

inductive Quotes
  | single
  | double
deriving Repr, DecidableEq

namespace Quotes

def mark : Quotes → UInt8
  | single => 39
  | double => 34

def body : Quotes → Start
  | single => .xe
  | double => .xde

def stop : Quotes → Start
  | single => .xqs
  | double => .xdqs

def opening : Quotes → Rule
  | single => .xqstart
  | double => .xdqstart

end Quotes

def plain (q c : UInt8) : Bool := c != 92 && c != q

variable (k : Quotes)

theorem rules_body : rules k.body =
    [(quote k.mark, .quote), (xqdouble k.mark, .double), (xeinside k.mark, .addlit), (xeescape, .escape),
     (other, .addlit)] := by
  cases k <;> rfl

theorem rules_stop : rules k.stop =
    [(quotecontinue k.mark, .quotecontinue), (quotecontinuefail, .quotestop), (other, .quotestop)] := by
  cases k <;> rfl

theorem choose_body (c : UInt8) (t : Bytes) :
    choose (c :: t) (rules k.body) = some (
      if c = k.mark then (if t.head? = some k.mark then (.double, 2) else (.quote, 1))
      else if c = 92 then (if t = [] ∨ t.head? = some 10 then (.addlit, 1) else (.escape, 2))
      else (.addlit, (t.takeWhile (plain k.mark)).length + 1)) := by
  obtain ⟨notBackslash, notNewline⟩ : k.mark ≠ 92 ∧ k.mark ≠ 10 := by cases k <;> decide
  have once : ∀ t : Bytes, (quote k.mark).longest t = if t.head? = some k.mark then some 1 else none := by
    intro t
    cases t with
    | nil => rfl
    | cons d t => simp [quote, longest_cls]
  have behind : ∀ t : Bytes, other.longest t = if t = [] ∨ t.head? = some 10 then none else some 1 := by
    intro t
    cases t with
    | nil => rfl
    | cons d t =>
      by_cases newline : d = 10 <;> simp [other, longest_cls, newline]
  have twice : (xqdouble k.mark).longest (c :: t) =
      if c == k.mark then ((quote k.mark).longest t).map (· + 1) else none := longest_seq_cls _ _ c t
  have inside : (xeinside k.mark).longest (c :: t) =
      if plain k.mark c then some ((t.takeWhile (plain k.mark)).length + 1) else none := longest_plus_cls _ c t
  have escape : xeescape.longest (c :: t) = if c == 92 then (other.longest t).map (· + 1) else none :=
    longest_seq_cls _ _ c t
  rw [once] at twice
  rw [behind] at escape
  rw [rules_body]
  simp only [choose, once (c :: t), behind (c :: t), twice, inside, escape, plain]
  by_cases mark : c = k.mark
  · subst mark
    by_cases again : t.head? = some k.mark <;> simp [again, notBackslash, notNewline]
  by_cases backslash : c = 92
  · subst backslash
    by_cases alone : t = [] ∨ t.head? = some 10 <;> simp [mark, alone]
  · by_cases newline : c = 10 <;> simp [mark, backslash, newline, notNewline.symm]

/-- A literal between these marks holds the text as it is: no mark, no backslash but before a newline. -/
def literalSafe (q : UInt8) : Bytes → Bool
  | [] => true
  | c :: w => c != q && (c != 92 || w.head? == some 10) && literalSafe q w

/-- The scanner after `lit` has gone into the literal. -/
def Lexer.taken (lx : Lexer) (lit rest : Bytes) : Lexer :=
  { lx with literalbuf := lx.literalbuf ++ lit, rest := rest }

theorem Lexer.step_addlit (cfg : Setting) (whole : lx.rest = u ++ v) (nonempty : u ≠ [])
    (chosen : choose lx.rest (rules lx.start) = some (.addlit, u.length)) :
    lx.step cfg = .goto (lx.taken u v) := by
  rw [step_eq (by simp [whole, nonempty]) chosen]
  simp [act, yyless, addlit, taken, whole]

theorem Lexer.taken_taken (lx : Lexer) (u v r r' : Bytes) :
    (lx.taken u r).taken v r' = lx.taken (u ++ v) r' := by
  simp [taken]

def Lexer.closed (lx : Lexer) (lit rest : Bytes) : Lexer :=
  { lx.taken lit rest with start := k.stop, state_before_str_stop := k.body }

variable {tail : Bytes} {t : Bytes}

theorem Lexer.step_quote (start : lx.start = k.body) (whole : lx.rest = k.mark :: tail)
    (single : tail.head? ≠ some k.mark) :
    lx.step cfg = .goto (lx.closed k [] tail) := by
  have chosen : choose lx.rest (rules lx.start) = some (.quote, 1) := by
    rw [whole, start, choose_body, if_pos rfl, if_neg single]
  rw [step_eq (by simp [whole]) chosen]
  cases k <;> simp [act, yyless, begin, closed, taken, whole, start, Quotes.body, Quotes.stop]

theorem Lexer.step_body (cfg : Setting) (start : lx.start = k.body) (text : lx.rest = c :: t) : lx.step cfg =
      if c = k.mark then
        (if t.head? = some k.mark then .goto (lx.taken [k.mark] (t.drop 1)) else .goto (lx.closed k [] t))
      else if c = 92 then
        (if t = [] ∨ t.head? = some 10 then .goto (lx.taken [92] t) else lx.unescape cfg (t.headD 0))
      else .goto (lx.taken (c :: t.takeWhile (plain k.mark)) (t.dropWhile (plain k.mark))) := by
  have chosen := choose_body k c t
  rw [← text, ← start] at chosen
  by_cases mark : c = k.mark
  · rw [if_pos mark] at chosen ⊢
    by_cases again : t.head? = some k.mark
    · rw [if_pos again] at chosen ⊢
      rw [step_eq (by simp [text]) chosen]
      cases k <;> simp [act, yyless, addlit, taken, text, Lexer.mark, start, Quotes.body, Quotes.mark]
    · exact (if_neg again).symm ▸ step_quote k start (by rw [text, mark]) again
  · rw [if_neg mark] at chosen ⊢
    by_cases backslash : c = 92
    · rw [if_pos backslash] at chosen ⊢
      by_cases alone : t = [] ∨ t.head? = some 10
      · rw [if_pos alone] at chosen ⊢
        rw [step_eq (by simp [text]) chosen]
        simp [act, yyless, addlit, taken, text, backslash]
      · rw [if_neg alone] at chosen ⊢
        rw [step_eq (by simp [text]) chosen]
        cases t with
        | nil => exact absurd (.inl rfl) alone
        | cons d t => simp [act, text]
    · rw [if_neg backslash] at chosen ⊢
      refine step_addlit cfg ?_ (cons_ne_nil c _) chosen
      rw [text, cons_append, takeWhile_append_dropWhile]

theorem literalSafe_append (safe : literalSafe q (u ++ v) = true) :
    literalSafe q v = true := by
  induction u with
  | nil => exact safe
  | cons c u ih =>
    simp only [cons_append, literalSafe, Bool.and_eq_true] at safe
    exact ih safe.2

theorem takeWhile_mark (w tail : Bytes) :
    (w ++ k.mark :: tail).takeWhile (plain k.mark) = w.takeWhile (plain k.mark) := by
  have stops : plain k.mark k.mark = false := by simp [plain]
  induction w with
  | nil => simp [stops]
  | cons c w ih => simp only [cons_append, takeWhile_cons, ih]

theorem Lexer.emits_body (safe : literalSafe k.mark w = true) (start : lx.start = k.body)
    (whole : lx.rest = w ++ k.mark :: tail) (single : tail.head? ≠ some k.mark) :
    lx.Emits cfg token ended ↔ (lx.closed k w tail).Emits cfg token ended := by
  induction len : w.length using Nat.strong_induction_on generalizing w lx with
  | _ n ih =>
    cases w with
    | nil => exact emits_goto (step_quote k start whole single)
    | cons c w =>
      simp only [literalSafe, Bool.and_eq_true, bne_iff_ne, Bool.or_eq_true, beq_iff_eq] at safe
      obtain ⟨⟨unmarked, backslash⟩, rest⟩ := safe
      -- the bytes that one rule takes, and the rest of the text
      obtain ⟨u, v, split, taken⟩ : ∃ u v, c :: w = (c :: u) ++ v ∧
          choose lx.rest (rules lx.start) = some (.addlit, (c :: u).length) := by
        rw [whole, start, cons_append, choose_body, if_neg unmarked]
        by_cases escape : c = 92
        · refine ⟨[], w, rfl, ?_⟩
          have newline : (w ++ k.mark :: tail).head? = some 10 := by
            have first := backslash.resolve_left (not_not_intro escape)
            rw [List.head?_append, first]
            rfl
          rw [if_pos escape, if_pos (.inr newline)]
          rfl
        · refine ⟨w.takeWhile (plain k.mark), w.dropWhile (plain k.mark), by simp, ?_⟩
          rw [if_neg escape, takeWhile_mark]
          rfl
      have turn := step_addlit cfg (whole.trans (by rw [split, append_assoc])) (cons_ne_nil c u) taken
      have shorter : v.length < n := by
        have lengths := congrArg List.length split
        simp only [length_cons, length_append] at lengths len
        omega
      have later : literalSafe k.mark v = true := by
        rw [cons_append, List.cons.injEq] at split
        exact literalSafe_append (split.2 ▸ rest)
      have next := ih v.length shorter later
        (show (lx.taken (c :: u) (v ++ k.mark :: tail)).start = k.body from start) rfl rfl
      rw [emits_goto turn, next, split]
      simp [closed, taken_taken]

theorem Lexer.step_stop (start : lx.start = k.stop) (before : lx.state_before_str_stop = k.body)
    (whole : lx.rest = tail)
    (ends : tail = [] ∨ tail.head? = some 44) (character : lx.saw_underscore_binary = false)
    (valid : lx.saw_non_ascii = false) :
    lx.step cfg = .emit (.sconst lx.literalbuf) (lx.begin .initial) := by
  have stopped : lx.quotestop cfg = .emit (.sconst lx.literalbuf) (lx.begin .initial) := by
    cases k <;> simp [quotestop, before, Quotes.body, character, valid]
  rcases ends with rfl | comma
  · rw [step, if_pos whole, atEnd, start]
    cases k <;> exact stopped
  obtain ⟨t, rfl⟩ : ∃ t, tail = 44 :: t := by
    cases tail with
    | nil => cases comma
    | cons c t => exact ⟨t, by rw [Option.some.inj comma]⟩
  have chosen : choose lx.rest (rules lx.start) = some (.quotestop, 1) := by
    have left : alive 44 (rules k.stop) = [(other, .quotestop)] := by cases k <;> rfl
    rw [whole, start, choose_alive, left]
    simp [choose, other, longest_cls]
  rw [step_eq (by simp [whole]) chosen]
  exact stopped

/-- Between texts: no literal open and no `_binary` seen. -/
structure Lexer.Ready (lx : Lexer) (text : Bytes) : Prop where
  start : lx.start = .initial
  character : lx.saw_underscore_binary = false
  rest : lx.rest = text

theorem Lexer.init_ready (s : Bytes) : (Lexer.init s).Ready s := ⟨rfl, rfl, rfl⟩

def Lexer.opened (lx : Lexer) (rest : Bytes) : Lexer :=
  { lx with start := k.body, literalbuf := [], saw_non_ascii := false, rest := rest }

theorem Lexer.step_open (cfg : Setting) (start : lx.start = .initial) (whole : lx.rest = k.mark :: tail) :
    lx.step cfg = .goto (lx.opened k tail) := by
  have left : alive k.mark (rules .initial) = [(quote k.mark, k.opening), (other, .other)] := by cases k <;> rfl
  have chosen : choose lx.rest (rules lx.start) = some (k.opening, 1) := by
    rw [whole, start, choose_alive, left]
    cases k <;> simp [choose, other, quote, longest_cls, Quotes.mark]
  rw [step_eq (by simp [whole]) chosen]
  cases k <;> simp [act, yyless, begin, startlit, opened, whole, Quotes.body, Quotes.opening]

theorem Lexer.emits_literal (cfg : Setting) {w tail : Bytes} (ready : lx.Ready (k.mark :: w ++ k.mark :: tail))
    (safe : literalSafe k.mark w = true) (ends : tail = [] ∨ tail.head? = some 44) :
    ∃ ended : Lexer, ended.Ready tail ∧ lx.Emits cfg (.sconst w) ended := by
  have single : tail.head? ≠ some k.mark := by
    rcases ends with rfl | comma
    · simp
    · rw [comma]
      cases k <;> decide
  have opening := step_open k cfg ready.start ready.rest
  refine ⟨((lx.opened k (w ++ k.mark :: tail)).closed k w tail).begin .initial, ⟨rfl, ready.character, rfl⟩, ?_⟩
  rw [emits_goto opening, emits_body k safe rfl rfl single]
  exact .emit (step_stop k rfl rfl rfl ends ready.character rfl)

/-- The scanner has gone over `consumed` and stands between texts again. -/
structure Lexer.Passed (lx : Lexer) (consumed : Bytes) (ended : Lexer) : Prop where
  split : lx.rest = consumed ++ ended.rest
  start : ended.start = .initial
  character : ended.saw_underscore_binary = false

theorem Lexer.Passed.after (passed : next.Passed consumed ended)
    (first : Bytes) (whole : lx.rest = first ++ next.rest) : lx.Passed (first ++ consumed) ended :=
  ⟨by rw [whole, passed.split, append_assoc], passed.start, passed.character⟩

theorem literalSafe_plain (all : ∀ c ∈ u, plain q c = true)
    (safe : literalSafe q w = true) : literalSafe q (u ++ w) = true := by
  induction u with
  | nil => exact safe
  | cons c u ih =>
    have first := all c mem_cons_self
    simp only [plain, Bool.and_eq_true] at first
    have later := ih fun d inside => all d (mem_cons_of_mem c inside)
    simp [literalSafe, first.1, first.2, later]

/-- A literal with value `v` takes a byte for every missing byte of the value and one for the closing
mark at least; if it takes no more, that was safe. -/
def TightBody (lx : Lexer) (v : Bytes) (ended : Lexer) : Prop :=
  ∃ consumed, lx.Passed consumed ended ∧ v.length + 1 ≤ lx.literalbuf.length + consumed.length ∧
    (v.length + 1 = lx.literalbuf.length + consumed.length →
      ∃ w, v = lx.literalbuf ++ w ∧ consumed = w ++ [k.mark] ∧ literalSafe k.mark w = true)

def TightStop (lx : Lexer) (v : Bytes) (ended : Lexer) : Prop :=
  ∃ consumed, lx.Passed consumed ended ∧ v.length ≤ lx.literalbuf.length + consumed.length ∧
    (v.length = lx.literalbuf.length + consumed.length → v = lx.literalbuf ∧ consumed = [])

variable {k} {v : Bytes} {ended : Lexer}

theorem TightBody.contract {d b : UInt8} (tight : TightBody k next v ended) (whole : lx.rest = c :: d :: t)
    (lit : next.literalbuf = lx.literalbuf ++ [b]) (rest : next.rest = t) : TightBody k lx v ended := by
  obtain ⟨consumed, passed, enough, _⟩ := tight
  rw [lit, length_append, length_singleton] at enough
  have longer : ([c, d] ++ consumed).length = consumed.length + 2 := by simp
  refine ⟨[c, d] ++ consumed, passed.after [c, d] (by rw [whole, rest]; rfl), ?_, ?_⟩ <;> omega

theorem TightBody.take (tight : TightBody k (lx.taken u t) v ended) (whole : lx.rest = u ++ t)
    (safe : ∀ w r, t = w ++ k.mark :: r → literalSafe k.mark w = true → literalSafe k.mark (u ++ w) = true) :
    TightBody k lx v ended := by
  obtain ⟨consumed, passed, enough, exactly⟩ := tight
  have lit : (lx.taken u t).literalbuf.length = lx.literalbuf.length + u.length := length_append
  refine ⟨u ++ consumed, passed.after u whole, by rw [length_append]; omega, ?_⟩
  intro equal
  obtain ⟨w, value, rfl, wSafe⟩ := exactly (by rw [length_append] at equal; omega)
  refine ⟨u ++ w, ?_, by rw [append_assoc], ?_⟩
  · rw [value, Lexer.taken, append_assoc]
  · apply safe w ended.rest ?_ wSafe
    have split := passed.split
    rwa [Lexer.taken, append_assoc] at split

theorem TightStop.mark (tight : TightStop (lx.closed k [] t) v ended) (text : lx.rest = k.mark :: t) :
    TightBody k lx v ended := by
  obtain ⟨consumed, passed, enough, exactly⟩ := tight
  have lit : (lx.closed k [] t).literalbuf = lx.literalbuf := append_nil _
  rw [lit] at enough exactly
  refine ⟨[k.mark] ++ consumed, passed.after [k.mark] text, ?_, ?_⟩
  · simp only [length_append, length_singleton]
    omega
  · intro equal
    simp only [length_append, length_singleton] at equal
    obtain ⟨value, rfl⟩ := exactly (by omega)
    exact ⟨[], by rw [value, append_nil], rfl, rfl⟩

theorem TightBody.of_goto (start : lx.start = k.body) (turn : lx.step cfg = .goto next)
    (body : next.start = k.body → TightBody k next v ended)
    (stop : next.start = k.stop → next.state_before_str_stop = k.body → TightStop next v ended) :
    TightBody k lx v ended := by
  have notNewline : k.mark ≠ 10 := by cases k <;> decide
  cases text : lx.rest with
  | nil =>
    rw [Lexer.step, if_pos text, Lexer.atEnd, start] at turn
    cases k <;> cases turn
  | cons c t =>
    rw [Lexer.step_body k cfg start text] at turn
    by_cases mark : c = k.mark
    · rw [if_pos mark] at turn
      by_cases again : t.head? = some k.mark
      · rw [if_pos again] at turn
        cases turn
        obtain ⟨r, rfl⟩ := List.head?_eq_some_iff.mp again
        exact (body start).contract text rfl rfl
      · rw [if_neg again] at turn
        cases turn
        exact (stop rfl rfl).mark (by rw [text, mark])
    · rw [if_neg mark] at turn
      by_cases backslash : c = 92
      · subst backslash
        rw [if_pos rfl] at turn
        by_cases alone : t = [] ∨ t.head? = some 10
        · rw [if_pos alone] at turn
          cases turn
          refine (body start).take text ?_
          rintro w r rfl wSafe
          have newline : (w ++ k.mark :: r).head? = some 10 := alone.resolve_left (by simp)
          cases w with
          | nil => exact absurd (Option.some.inj newline) notNewline
          | cons d w =>
            have ten : d = 10 := Option.some.inj newline
            simpa [literalSafe, mark, ten] using wSafe
        · rw [if_neg alone] at turn
          cases t with
          | nil => exact absurd (.inl rfl) alone
          | cons d t =>
            rw [Lexer.unescape] at turn
            split at turn
            · cases turn
            · cases turn
              exact (body start).contract text rfl (by simp [Lexer.yyless, Lexer.addlit, text])
      · rw [if_neg backslash] at turn
        cases turn
        refine (body start).take (by rw [text, cons_append, takeWhile_append_dropWhile]) ?_
        intro w r _ wSafe
        exact literalSafe_plain (forall_mem_cons.mpr ⟨by simp [plain, mark, backslash], all_eq_true.mp all_takeWhile⟩)
          wSafe

theorem Lexer.quotestop_cases (cfg : Setting) (before : lx.state_before_str_stop = k.body) :
    (lx.quotestop cfg = .emit (.sconst lx.literalbuf) (lx.begin .initial) ∧ lx.saw_underscore_binary = false) ∨
      lx.quotestop cfg = .fail ∨ ∃ value ended, lx.quotestop cfg = .emit (.xconst value) ended := by
  have string : lx.quotestop cfg =
      if lx.saw_underscore_binary then
        .emit (.xconst (binaryHeader lx.literalbuf.length ++ lx.literalbuf))
          { lx.begin .initial with saw_underscore_binary := false }
      else if lx.saw_non_ascii ∧ cfg.verifymbstr lx.literalbuf = false then .fail
      else .emit (.sconst lx.literalbuf) (lx.begin .initial) := by
    rw [quotestop, before]
    cases k <;> rfl
  rw [string]
  split
  · exact .inr (.inr ⟨_, _, rfl⟩)
  rename_i character
  split
  · exact .inr (.inl rfl)
  · exact .inl ⟨rfl, Bool.not_eq_true _ ▸ character⟩

theorem Lexer.step_stop_cases (start : lx.start = k.stop) (before : lx.state_before_str_stop = k.body) :
    lx.step cfg = lx.quotestop cfg ∨ (∃ n, lx.step cfg = .goto ((lx.yyless n).begin k.body)) ∨
      lx.step cfg = .fail := by
  cases text : lx.rest with
  | nil =>
    refine .inl ?_
    rw [step, if_pos text, atEnd, start]
    cases k <;> rfl
  | cons c t =>
    have nonempty : lx.rest ≠ [] := by simp [text]
    cases chosen : choose lx.rest (rules lx.start) with
    | none =>
      refine .inr (.inr ?_)
      rw [step, if_neg nonempty, chosen]
    | some choice =>
      obtain ⟨rule, n⟩ := choice
      have turn : lx.step cfg = lx.act cfg n rule := step_eq nonempty chosen
      obtain ⟨_, r, member, _⟩ := choose_some chosen
      rw [start, rules_stop] at member
      simp only [mem_cons, not_mem_nil, or_false] at member
      rcases member with ⟨_, rfl⟩ | ⟨_, rfl⟩ | ⟨_, rfl⟩
      · exact .inr (.inl ⟨n, by rw [turn, ← before]; rfl⟩)
      · exact .inl turn
      · exact .inl turn

theorem Lexer.step_body_ne_emit (start : lx.start = k.body) : lx.step cfg ≠ .emit token next := by
  cases text : lx.rest with
  | nil =>
    rw [step, if_pos text, atEnd, start]
    cases k <;> nofun
  | cons c t =>
    rw [step_body k cfg start text, unescape]
    split
    · split <;> nofun
    split
    · split
      · nofun
      · split <;> nofun
    · nofun

theorem Lexer.Emits.tight (emits : lx.Emits cfg token ended) (string : token = .sconst v) :
    (lx.start = k.body → TightBody k lx v ended) ∧
      (lx.start = k.stop → lx.state_before_str_stop = k.body → TightStop lx v ended) := by
  induction emits with
  | emit turn =>
    refine ⟨fun start => absurd turn (step_body_ne_emit start), fun start before => ?_⟩
    rcases step_stop_cases start before with stopped | ⟨n, onward⟩ | failed
    · rcases quotestop_cases cfg before with ⟨value, character⟩ | failed | ⟨_, _, binary⟩
      · cases turn.symm.trans (stopped.trans value)
        cases string
        exact ⟨[], ⟨rfl, rfl, character⟩, Nat.le_refl _, fun _ => ⟨rfl, rfl⟩⟩
      · cases turn.symm.trans (stopped.trans failed)
      · cases turn.symm.trans (stopped.trans binary)
        cases string
    · cases turn.symm.trans onward
    · cases turn.symm.trans failed
  | @goto lx next ended token turn later ih =>
    obtain ⟨body, stop⟩ := ih string
    refine ⟨fun start => .of_goto start turn body stop, fun start before => ?_⟩
    rcases step_stop_cases start before with stopped | ⟨n, onward⟩ | failed
    · rcases quotestop_cases cfg before with ⟨value, _⟩ | failed | ⟨_, _, binary⟩
      · cases turn.symm.trans (stopped.trans value)
      · cases turn.symm.trans (stopped.trans failed)
      · cases turn.symm.trans (stopped.trans binary)
    · cases turn.symm.trans onward
      obtain ⟨consumed, passed, enough, _⟩ := body rfl
      have missing : v.length + 1 ≤ lx.literalbuf.length + consumed.length := enough
      refine ⟨lx.rest.take n ++ consumed, passed.after _ (take_append_drop n lx.rest).symm, ?_, ?_⟩ <;>
      · rw [length_append]
        omega
    · cases turn.symm.trans failed

/-- A literal takes its value and two marks at least, and no more only if the value is safe. -/
theorem Lexer.literal_tight {text : Bytes} (ready : lx.Ready (k.mark :: text))
    (emits : lx.Emits cfg (.sconst v) ended) :
    ∃ consumed, lx.Passed consumed ended ∧ v.length + 2 ≤ consumed.length ∧
      (v.length + 2 = consumed.length → consumed = k.mark :: v ++ [k.mark] ∧ literalSafe k.mark v = true) := by
  have opening := step_open k cfg ready.start ready.rest
  have inside : TightBody k (lx.opened k text) v ended := (((emits_goto opening).mp emits).tight rfl).1 rfl
  obtain ⟨consumed, passed, enough, exactly⟩ := inside
  refine ⟨[k.mark] ++ consumed, passed.after [k.mark] ready.rest, ?_, ?_⟩
  · simpa [opened] using enough
  · intro equal
    obtain ⟨w, value, rfl, safe⟩ := exactly (by simpa [opened] using equal)
    have same : v = w := value
    subst same
    exact ⟨rfl, safe⟩

theorem Lexer.step_name (cfg : Setting) (start : lx.start = .xbt) (text : lx.rest = c :: t) :
    lx.step cfg =
      if c = 96 then
        (if t.head? = some 96 then .goto (lx.taken [96] (t.drop 1))
        else if lx.literalbuf = [] then .fail
        else .emit (.quotedIdent lx.literalbuf) { lx with start := .initial, rest := t })
      else .goto (lx.taken (c :: t.takeWhile (· != 96)) (t.dropWhile (· != 96))) := by
  have once : backtick.longest (c :: t) = if c = 96 then some 1 else none := by
    simp [backtick, longest_cls]
  have twice : xbtdouble.longest (c :: t) = if c = 96 then (if t.head? = some 96 then some 2 else none) else none := by
    rw [xbtdouble, backtick, longest_seq_cls]
    cases t with
    | nil => simp [longest_nil, nullable]
    | cons d t => by_cases again : d = 96 <;> simp [longest_cls, again]
  have inside : xbtinside.longest (c :: t) = if c = 96 then none else some ((t.takeWhile (· != 96)).length + 1) := by
    rw [xbtinside, longest_plus_cls]
    by_cases mark : c = 96 <;> simp [mark]
  have turn {rule : Rule} {n : Nat} (chosen : choose (c :: t) (rules .xbt) = some (rule, n)) :
      lx.step cfg = lx.act cfg n rule :=
    step_eq (by simp [text]) (by rw [text, start]; exact chosen)
  by_cases mark : c = 96
  · rw [if_pos mark] at once twice inside ⊢
    by_cases again : t.head? = some 96
    · rw [if_pos again] at twice ⊢
      have chosen : choose (c :: t) (rules .xbt) = some (.double, 2) := by simp [rules, choose, once, twice, inside]
      rw [turn chosen]
      simp [act, yyless, addlit, taken, text, Lexer.mark, start]
    · rw [if_neg again] at twice ⊢
      have chosen : choose (c :: t) (rules .xbt) = some (.xbtstop, 1) := by simp [rules, choose, once, twice, inside]
      rw [turn chosen]
      simp [act, yyless, begin, text]
  · rw [if_neg mark] at once twice inside ⊢
    have chosen : choose (c :: t) (rules .xbt) = some (.addlit, (t.takeWhile (· != 96)).length + 1) := by
      simp [rules, choose, once, twice, inside]
    refine step_addlit cfg ?_ (cons_ne_nil c _) (by rw [text, start]; exact chosen)
    rw [text, cons_append, takeWhile_append_dropWhile]

end OpenHalo.MysScan
