import OpenHalo.MysLiteral

namespace OpenHalo.MysScan
open Octets Flex Flex.Pattern List

variable {cfg : Setting} {lx next : Lexer} {token : Token} {ts : List Token}

def Outcome.lexer : Outcome → Option Lexer
  | goto next | emit _ next => some next
  | fail | done => none

def Lexer.lexemes (cfg : Setting) : Nat → Lexer → List (Rule × Bytes)
  | 0, _ => []
  | fuel + 1, lx =>
    match choose lx.rest (rules lx.start), (lx.step cfg).lexer with
    | some (rule, _), some next =>
      (rule, lx.rest.take (lx.rest.length - next.rest.length)) :: next.lexemes cfg fuel
    | _, _ => []

/-- A rule moves forward in the text, and only its own rule makes a parameter marker. -/
inductive Lexer.Moves (lx : Lexer) (rule : Rule) : Outcome → Prop
  | fail : Moves lx rule .fail
  | goto {next : Lexer} : (∃ j, next.rest = lx.rest.drop j) → rule ≠ .mysParam → Moves lx rule (.goto next)
  | emit {token : Token} {next : Lexer} : (∃ j, next.rest = lx.rest.drop j) →
      (token = .mysParam ↔ rule = .mysParam) → Moves lx rule (.emit token next)

/-- A string ends in a token, with the text left as it is, or not at all. -/
theorem Lexer.quotestop_emits (cfg : Setting) (lx : Lexer) : lx.quotestop cfg = .fail ∨
    ∃ token next, lx.quotestop cfg = .emit token next ∧ next.start = .initial ∧ next.rest = lx.rest ∧
      token ≠ .mysParam ∧
      (token = .sconst lx.literalbuf ∧ (lx.state_before_str_stop = .xe ∨ lx.state_before_str_stop = .xde) ∨
        ∃ bs, token = .bconst bs ∨ token = .xconst bs) := by
  unfold quotestop
  split <;> grind [begin]

theorem Lexer.quotestop_moves (cfg : Setting) (lx : Lexer) : lx.Moves .quotestop (lx.quotestop cfg) := by
  obtain failed | ⟨token, next, emitted, _, rest, other, _⟩ := quotestop_emits cfg lx
  · rw [failed]
    exact .fail
  · rw [emitted]
    exact .emit ⟨0, rest⟩ (iff_of_false other (by decide))

theorem Lexer.act_moves (cfg : Setting) (lx : Lexer) (n : Nat) (rule : Rule) :
    lx.Moves rule (lx.act cfg n rule) := by
  have number : ∀ s, processIntegerLiteral s ≠ .mysParam := by
    intro s
    unfold processIntegerLiteral
    split <;> simp
  cases rule with
  | quotestop => exact quotestop_moves cfg lx
  | xcstop =>
    simp only [act]
    split <;> exact .goto ⟨_, rfl⟩ (by simp)
  | dolqstop =>
    simp only [act]
    split
    · exact .emit ⟨_, rfl⟩ (by simp)
    · exact .goto ⟨_, rfl⟩ (by simp)
  | xbtstop =>
    simp only [act]
    split
    · exact .fail
    · exact .emit ⟨_, rfl⟩ (by simp)
  | escape =>
    simp only [act, unescape]
    split
    · exact .fail
    · exact .goto ⟨_, rfl⟩ (by simp)
  | operator =>
    simp only [act, operator]
    split
    · exact .emit ⟨_, rfl⟩ (by simp)
    split
    · exact .fail
    · exact .emit ⟨_, rfl⟩ (by simp)
  | identifier =>
    simp only [act, identifier]
    split
    · exact .emit ⟨_, rfl⟩ (by simp)
    split
    · exact .goto ⟨_, rfl⟩ (by simp)
    · exact .emit ⟨_, rfl⟩ (by simp)
  | mysSysVarFail => exact .fail
  | integer | decimalfail | realfail1 | realfail2 => exact .emit ⟨_, rfl⟩ (by simp [number])
  | mys0bbit | mys0hbit | xnstart | dolqfailed | fixed | self | other | param | mysParam | mysqlUserVariable
  | mysSysVar | decimal | real => exact .emit ⟨_, rfl⟩ (by simp)
  | whitespace | ignore | xcstart | xcnest | xbstart | xhstart | xqstart | xdqstart | addlit | quote
  | quotecontinue | double | dolqdelim | xbtstart => exact .goto ⟨_, rfl⟩ (by simp)

theorem split_of_drop {s rest : Bytes} (moved : ∃ j, rest = s.drop j) :
    s.take (s.length - rest.length) ++ rest = s := by
  obtain ⟨j, rfl⟩ := moved
  by_cases within : j ≤ s.length
  · rw [length_drop, Nat.sub_sub_self within, take_append_drop]
  · rw [drop_eq_nil_of_le (by omega), length_nil, Nat.sub_zero, take_length, append_nil]

def hiddenMarks : List (Rule × Bytes) → Nat
  | [] => 0
  | lexeme :: lexemes => (if lexeme.1 = .mysParam then 0 else lexeme.2.count 63) + hiddenMarks lexemes

theorem hiddenMarks_eq_zero {lexemes : List (Rule × Bytes)} :
    hiddenMarks lexemes = 0 ↔ ∀ lexeme ∈ lexemes, lexeme.1 ≠ .mysParam → 63 ∉ lexeme.2 := by
  induction lexemes with
  | nil => simp [hiddenMarks]
  | cons lexeme lexemes ih =>
    rw [hiddenMarks]
    split
    · simp [*]
    · simp [*, count_eq_zero]

theorem mysParam_lexeme {n : Nat} (chosen : choose lx.rest (rules lx.start) = some (.mysParam, n)) :
    lx.rest.take (lx.rest.length - (lx.yyless n).rest.length) = [63] := by
  obtain ⟨_, r, member, longest⟩ := choose_some chosen
  have pattern : r = mysParam := by
    revert member
    cases lx.start <;> simp [rules]
  subst pattern
  obtain ⟨within, matched⟩ := longest_some longest
  obtain ⟨c, mark, same⟩ := mem_cls.mp matched
  rw [Lexer.yyless, length_drop, Nat.sub_sub_self within, same, beq_iff_eq.mp mark]
  rfl

theorem Lexer.count_marks_atEnd {fuel : Nat} (empty : lx.rest = []) (run : lx.tokens cfg fuel = some ts) :
    ts.count .mysParam = 0 := by
  induction fuel generalizing lx ts with
  | zero => cases run
  | succ fuel ih =>
    rw [tokens, step, if_pos empty, atEnd] at run
    cases start : lx.start with
    | initial =>
      rw [start] at run
      cases run
      rfl
    | xqs | xdqs =>
      rw [start] at run
      obtain failed | ⟨token, next, emitted, _, rest, other, _⟩ := quotestop_emits cfg lx
      · simp only [failed] at run
        cases run
      · simp only [emitted] at run
        obtain ⟨later, scanned, rfl⟩ := Option.map_eq_some_iff.mp run
        rw [count_cons_of_ne other, ih (rest.trans empty) scanned]
    | xb | xc | xbt | xh | xe | xde | xdolq =>
      rw [start] at run
      cases run

theorem Lexer.count_marks {fuel : Nat} (run : lx.tokens cfg fuel = some ts) :
    lx.rest.count 63 = ts.count .mysParam + hiddenMarks (lx.lexemes cfg fuel) := by
  induction fuel generalizing lx ts with
  | zero => cases run
  | succ fuel ih =>
    by_cases empty : lx.rest = []
    · rw [count_marks_atEnd empty run, lexemes, empty, choose_nil]
      rfl
    cases chosen : choose lx.rest (rules lx.start) with
    | none =>
      rw [tokens, step, if_neg empty, chosen] at run
      cases run
    | some choice =>
      obtain ⟨rule, n⟩ := choice
      have turn : lx.step cfg = lx.act cfg n rule := step_eq empty chosen
      rw [lexemes, chosen]
      by_cases own : rule = .mysParam
      · subst own
        rw [tokens, turn] at run
        obtain ⟨later, rest, rfl⟩ := Option.map_eq_some_iff.mp run
        have pieces := congrArg (List.count 63) (split_of_drop ⟨n, rfl⟩ : _ ++ (lx.yyless n).rest = lx.rest)
        rw [count_append, mysParam_lexeme chosen, ih rest] at pieces
        have single : List.count (63 : UInt8) [63] = 1 := rfl
        rw [← pieces, turn, single]
        simp only [act, Outcome.lexer, hiddenMarks, if_true, count_cons_self]
        omega
      · have moves := act_moves cfg lx n rule
        rw [← turn] at moves
        rw [tokens] at run
        generalize lx.step cfg = outcome at *
        cases moves with
        | fail => cases run
        | goto moved other =>
          have pieces := congrArg (List.count 63) (split_of_drop moved)
          rw [count_append, ih run] at pieces
          simp only [Outcome.lexer, hiddenMarks, if_neg other]
          omega
        | emit moved marker =>
          obtain ⟨later, rest, rfl⟩ := Option.map_eq_some_iff.mp run
          have pieces := congrArg (List.count 63) (split_of_drop moved)
          rw [count_append, ih rest] at pieces
          have other := (not_congr marker).mpr own
          simp only [Outcome.lexer, hiddenMarks, if_neg own, count_cons_of_ne other]
          omega

theorem Lexer.lexemes_subset {fuel fuel' : Nat} (run : lx.tokens cfg fuel = some ts) :
    lx.lexemes cfg fuel' ⊆ lx.lexemes cfg fuel := by
  induction fuel generalizing lx ts fuel' with
  | zero => cases run
  | succ fuel ih =>
    cases fuel' with
    | zero => exact nil_subset _
    | succ fuel' =>
      rw [lexemes, lexemes]
      cases choose lx.rest (rules lx.start) with
      | none => exact List.Subset.refl _
      | some choice =>
        rw [tokens] at run
        cases turn : lx.step cfg with
        | fail | done => exact List.Subset.refl _
        | goto next =>
          rw [turn] at run
          exact cons_subset_cons _ (ih run)
        | emit token next =>
          rw [turn] at run
          obtain ⟨later, rest, _⟩ := Option.map_eq_some_iff.mp run
          exact cons_subset_cons _ (ih rest)

/-- No question mark stands inside a literal, a quoted identifier or a comment. -/
def MarkersOnly (cfg : Setting) (s : Bytes) : Prop :=
  ∀ fuel, ∀ lexeme ∈ (Lexer.init s).lexemes cfg fuel, lexeme.1 ≠ .mysParam → 63 ∉ lexeme.2

theorem markersOnly_iff {s : Bytes} (scans : (Lexer.init s).Scans cfg ts) :
    MarkersOnly cfg s ↔ s.count 63 = ts.count .mysParam := by
  obtain ⟨fuel, run⟩ := scans
  have total : s.count 63 = _ := Lexer.count_marks run
  have none := @hiddenMarks_eq_zero ((Lexer.init s).lexemes cfg fuel)
  constructor
  · intro only
    have zero := none.mpr (only fuel)
    omega
  · intro equal fuel' lexeme member
    exact none.mp (by omega) lexeme (Lexer.lexemes_subset run member)

end OpenHalo.MysScan
