import OpenHalo.MysLexemes

namespace OpenHalo.MysScan
open Octets Flex Flex.Pattern List

variable {n : Nat} {rule : Rule} {r : Pattern UInt8} {rest s t : Bytes}

variable {cfg : Setting} {lx next ended : Lexer} {token : Token}

/-- The bytes still to be scanned, with those already in a literal and its
marks. -/
def Lexer.weight (lx : Lexer) : Nat :=
  lx.rest.length +
    match lx.start with
    | .xe | .xde | .xdolq => lx.literalbuf.length + 1
    | .xqs | .xdqs =>
        if lx.state_before_str_stop = .xb ∨ lx.state_before_str_stop = .xh then 0 else lx.literalbuf.length + 2
    | .initial | .xb | .xc | .xbt | .xh => 0

theorem Lexer.weight_initial (start : lx.start = .initial) : lx.weight = lx.rest.length := by
  rw [weight, start]
  rfl

/-- The bytes that a token stands for, at least. -/
def Token.size : Token → Nat
  | sconst value => value.length + 2
  | char _ => 1
  | word _ | quotedIdent _ | bconst _ | xconst _ | iconst _ | fconst _ | param _ | mysParam | userVariable _ | sysVar _
  | underscoreBinary | op _ => 0

/-- What a step leaves weighs no more than the limit. -/
def Outcome.Weighs (limit : Nat) : Outcome → Prop
  | goto next => next.weight ≤ limit
  | emit token next => next.start = .initial ∧ next.rest.length + token.size ≤ limit
  | fail | done => True

theorem Lexer.quotestop_weighs (stopping : lx.start = .xqs ∨ lx.start = .xdqs) :
    (lx.quotestop cfg).Weighs lx.weight := by
  obtain failed | ⟨token, next, emitted, initial, rest, _, string⟩ := quotestop_emits cfg lx
  · rw [failed]
    trivial
  rw [emitted]
  refine ⟨initial, ?_⟩
  rw [rest]
  obtain ⟨rfl, before⟩ | ⟨_, rfl | rfl⟩ := string
  · rcases stopping with start | start <;> rcases before with before | before <;> simp [weight, Token.size, start, before]
  · exact Nat.le_add_right _ _
  · exact Nat.le_add_right _ _

theorem processIntegerLiteral_size (s : Bytes) : (processIntegerLiteral s).size = 0 := by
  unfold processIntegerLiteral
  split <;> rfl

/-- What a rule adds to a literal, it takes from the text. -/
theorem Lexer.act_weighs (member : (r, rule) ∈ rules lx.start) (positive : 0 < n)
    (within : n ≤ lx.rest.length) : (lx.act cfg n rule).Weighs lx.weight := by
  obtain ⟨start, literalbuf, before, xcdepth, dolqstart, binary, nonAscii, rest⟩ := lx
  have dropped (k : Nat) : (rest.drop k).length ≤ rest.length := (drop_suffix k rest).length_le
  have taken : (rest.drop n).length + n = rest.length := by
    rw [length_drop]
    exact Nat.sub_add_cancel within
  have marked : (rest.drop n).length + 1 ≤ rest.length := by omega
  have first : (rest.drop 1).length + 1 ≤ rest.length := by
    rw [length_drop]
    exact (Nat.sub_add_cancel (Nat.le_trans positive within)).le
  cases start with
  | initial =>
    cases rule with
    | quote | quotestop | escape | dolqstop | xbtstop | xcstop | quotecontinue | addlit | double | xcnest | ignore =>
      simp [rules] at member
    | xqstart | xdqstart | dolqdelim => exact marked
    | whitespace | xcstart | xbstart | xhstart | xbtstart => exact dropped _
    | self | other => exact ⟨rfl, marked⟩
    | dolqfailed => exact ⟨rfl, first⟩
    | operator =>
      simp only [act, operator]
      split
      · exact ⟨rfl, first⟩
      split
      · trivial
      · exact ⟨rfl, dropped _⟩
    | identifier =>
      simp only [act, identifier]
      split
      · exact ⟨rfl, dropped _⟩
      split
      · exact dropped _
      · exact ⟨rfl, dropped _⟩
    | mysSysVarFail => trivial
    | integer | decimalfail | realfail1 | realfail2 =>
      refine ⟨rfl, ?_⟩
      rw [processIntegerLiteral_size]
      exact dropped _
    | _ => exact ⟨rfl, dropped _⟩
  | xc =>
    cases rule with
    | xcstop =>
      simp only [act]
      split <;> exact dropped _
    | xcnest | ignore => exact dropped _
    | _ => simp [rules] at member
  | xqs | xdqs =>
    cases rule with
    | quotestop => exact quotestop_weighs (by simp)
    | quotecontinue =>
      cases before with
      | xe | xde | xdolq | xqs | xdqs =>
        simp only [act, yyless, begin, Outcome.Weighs, weight, reduceCtorEq, or_self, if_false]
        omega
      | initial | xb | xc | xbt | xh =>
        simp only [act, yyless, begin, Outcome.Weighs, weight]
        omega
    | _ => simp [rules] at member
  | xe | xde =>
    cases rule with
    | escape =>
      simp only [act, unescape]
      split
      · trivial
      · simp only [yyless, addlit, Outcome.Weighs, weight, length_append, length_singleton, length_drop]
        omega
    | addlit =>
      simp only [act, yyless, addlit, Outcome.Weighs, weight, length_append, length_take_of_le within]
      omega
    | quote =>
      simp only [act, yyless, begin, Outcome.Weighs, weight, reduceCtorEq, or_self, if_false, if_true]
      omega
    | double =>
      simp only [act, yyless, addlit, Outcome.Weighs, weight, length_append, length_singleton]
      omega
    | _ => simp [rules] at member
  | xb | xh =>
    cases rule with
    | addlit => exact dropped _
    | quote =>
      simp only [act, yyless, begin, Outcome.Weighs, weight, reduceCtorEq, or_true, true_or, if_false, if_true]
      omega
    | _ => simp [rules] at member
  | xdolq =>
    cases rule with
    | dolqstop =>
      simp only [act]
      split
      · refine ⟨rfl, ?_⟩
        simp only [yyless, begin, weight, Token.size]
        omega
      · simp only [yyless, addlit, Outcome.Weighs, weight, length_append, length_take, length_drop]
        omega
    | addlit =>
      simp only [act, yyless, addlit, Outcome.Weighs, weight, length_append, length_take_of_le within]
      omega
    | _ => simp [rules] at member
  | xbt =>
    cases rule with
    | xbtstop =>
      simp only [act]
      split
      · trivial
      · exact ⟨rfl, dropped _⟩
    | addlit | double => exact dropped _
    | _ => simp [rules] at member

theorem Lexer.step_weighs (cfg : Setting) (lx : Lexer) : (lx.step cfg).Weighs lx.weight := by
  unfold step
  split
  · unfold atEnd
    cases start : lx.start with
    | xqs => exact quotestop_weighs (.inl start)
    | xdqs => exact quotestop_weighs (.inr start)
    | _ => trivial
  · cases chosen : choose lx.rest (rules lx.start) with
    | none => trivial
    | some choice =>
      obtain ⟨positive, r, member, longest⟩ := choose_some chosen
      exact act_weighs member positive (longest_some longest).1

/-- A token and what is left behind it weigh no more than the text. -/
theorem Lexer.Emits.weight_le (emits : lx.Emits cfg token ended) :
    ended.start = .initial ∧ ended.rest.length + token.size ≤ lx.weight := by
  induction emits with
  | @emit lx ended token turn =>
    have weighs := lx.step_weighs cfg
    rw [turn] at weighs
    exact weighs
  | @goto lx next ended token turn later ih =>
    have weighs := lx.step_weighs cfg
    rw [turn] at weighs
    exact ⟨ih.1, ih.2.trans weighs⟩

/-- The bytes that can close a string constant. -/
def isMark (c : UInt8) : Bool := c == 39 || c == 34 || c == 36

/-- `rest` is what follows some mark in `s`. -/
def BehindMark (s rest : Bytes) : Prop := ∃ w q, isMark q = true ∧ s = w ++ q :: rest

theorem BehindMark.of_suffix (behind : BehindMark t rest) (suffix : t <:+ s) : BehindMark s rest := by
  obtain ⟨w, q, mark, rfl⟩ := behind
  obtain ⟨u, rfl⟩ := suffix
  exact ⟨u ++ w, q, mark, (append_assoc u w _).symm⟩

/-- A mark whose rest is shorter than a suffix stands in that suffix. -/
theorem BehindMark.shorten (behind : BehindMark s rest) (suffix : t <:+ s) (shorter : rest.length < t.length) :
    BehindMark t rest := by
  obtain ⟨w, q, mark, rfl⟩ := behind
  obtain ⟨u, rfl⟩ := suffix_of_suffix_length_le (suffix_append w (q :: rest)) suffix shorter
  exact ⟨u, q, mark, rfl⟩

/-- Every text of the pattern ends with a mark. -/
def Closing (r : Pattern UInt8) : Prop := ∀ w ∈ r.lang, ∃ u q, isMark q = true ∧ w = u ++ [q]

theorem closing_cls {q : UInt8} (mark : isMark q = true) : Closing (cls (· == q)) := by
  intro w member
  obtain ⟨c, same, rfl⟩ := mem_cls.mp member
  exact ⟨[], c, beq_iff_eq.mp same ▸ mark, rfl⟩

theorem Closing.seq (closing : Closing r) (before : Pattern UInt8) : Closing (seq before r) := by
  intro w member
  obtain ⟨a, _, b, last, rfl⟩ := mem_seq.mp member
  obtain ⟨u, q, mark, rfl⟩ := closing b last
  exact ⟨a ++ u, q, mark, (append_assoc a u [q]).symm⟩

theorem Closing.behind (closing : Closing r) (found : r.longest t = some n) :
    BehindMark t (t.drop n) := by
  obtain ⟨u, q, mark, taken⟩ := closing _ (longest_some found).2
  refine ⟨u, q, mark, ?_⟩
  conv_lhs => rw [← take_append_drop n t, taken]
  rw [append_assoc, singleton_append]

/-- The rules behind which a string constant may end. -/
def Rule.closes : Rule → Bool
  | .quote | .quotecontinue | .dolqstop => true
  | _ => false

theorem rules_closing (start : Start) : ∀ rule ∈ rules start, rule.2.closes = true → Closing rule.1 := by
  have single : Closing (quote 39) := closing_cls rfl
  have double : Closing (quote 34) := closing_cls rfl
  have dollar : Closing (text "$") := closing_cls rfl
  have delimiter : Closing dolqdelim := (dollar.seq _).seq _
  have again : Closing (quotecontinue 39) := single.seq _
  have doubleAgain : Closing (quotecontinue 34) := double.seq _
  cases start <;> simp [rules, Rule.closes, single, double, delimiter, again, doubleAgain]

/-- The states behind a closing mark. -/
def Start.stops : Start → Bool
  | .xqs | .xdqs => true
  | _ => false

/-- A string constant is emitted behind a mark only. -/
def Outcome.Closes (s : Bytes) : Outcome → Prop
  | goto next => next.rest <:+ s ∧ (next.start.stops = true → BehindMark s next.rest)
  | emit token next => next.rest <:+ s ∧ (∀ v, token = .sconst v → BehindMark s next.rest)
  | fail | done => True

/-- No string constant, and none about to end. -/
def Outcome.Plain : Outcome → Prop
  | goto next => next.start.stops = false
  | emit token _ => ∀ v, token ≠ .sconst v
  | fail | done => True

theorem Lexer.act_plain {n : Nat} {rule : Rule} {r : Pattern UInt8} (member : (r, rule) ∈ rules lx.start)
    (opened : rule.closes = false) (going : rule ≠ .quotestop) : (lx.act cfg n rule).Plain := by
  have inside : lx.start.stops = false := by
    cases start : lx.start with
    | xqs | xdqs =>
      rw [start] at member
      cases rule <;> simp [rules, Rule.closes] at *
    | _ => rfl
  cases rule with
  | quote | quotecontinue | dolqstop => cases opened
  | quotestop => exact absurd rfl going
  | xcstop =>
    simp only [act]
    split
    · rfl
    · exact inside
  | xbtstop =>
    simp only [act]
    split
    · trivial
    · exact fun v => Token.noConfusion
  | escape =>
    simp only [act, unescape]
    split
    · trivial
    · exact inside
  | operator =>
    simp only [act, operator]
    split
    · exact fun v => Token.noConfusion
    split
    · trivial
    · exact fun v => Token.noConfusion
  | identifier =>
    simp only [act, identifier]
    split
    · exact fun v => Token.noConfusion
    split
    · exact inside
    · exact fun v => Token.noConfusion
  | integer | decimalfail | realfail1 | realfail2 =>
    intro v same
    rw [processIntegerLiteral] at same
    split at same <;> cases same
  | mysSysVarFail => trivial
  | whitespace | ignore | xcnest | addlit | double => exact inside
  | xcstart | xbstart | xhstart | xqstart | xdqstart | dolqdelim | xbtstart => rfl
  | mys0bbit | mys0hbit | xnstart | dolqfailed | fixed | self | other | param | mysParam | mysqlUserVariable
  | mysSysVar | decimal | real => exact fun v => Token.noConfusion

theorem Lexer.quotestop_closes (suffix : lx.rest <:+ s) (behind : BehindMark s lx.rest) :
    (lx.quotestop cfg).Closes s := by
  obtain failed | ⟨token, next, emitted, _, rest, _⟩ := quotestop_emits cfg lx
  · rw [failed]
    trivial
  · rw [emitted]
    rw [← rest] at suffix behind
    exact ⟨suffix, fun _ _ => behind⟩

theorem Lexer.act_closes (suffix : lx.rest <:+ s)
    (stopped : lx.start.stops = true → BehindMark s lx.rest) (member : (r, rule) ∈ rules lx.start)
    (found : r.longest lx.rest = some n) : (lx.act cfg n rule).Closes s := by
  have dropped (k : Nat) : lx.rest.drop k <:+ s := (drop_suffix k lx.rest).trans suffix
  have behind (closes : rule.closes = true) : BehindMark s (lx.rest.drop n) :=
    ((rules_closing lx.start _ member closes).behind found).of_suffix suffix
  by_cases closes : rule.closes = true
  · cases rule with
    | quote | quotecontinue => exact ⟨dropped n, fun _ => behind rfl⟩
    | dolqstop =>
      have dollar : lx.start.stops = false := by
        cases start : lx.start <;> simp [start, rules, Start.stops] at member ⊢
      simp only [act]
      split
      · exact ⟨dropped n, fun _ _ => behind rfl⟩
      · exact ⟨dropped _, fun stops => by cases dollar.symm.trans stops⟩
    | _ => cases closes
  · by_cases stop : rule = .quotestop
    · subst stop
      have stops : lx.start.stops = true := by
        cases start : lx.start <;> simp [start, rules, Start.stops] at member ⊢
      exact quotestop_closes suffix (stopped stops)
    · have moves := act_moves cfg lx n rule
      have plain := @act_plain cfg lx n rule r member (Bool.not_eq_true _ ▸ closes) stop
      generalize lx.act cfg n rule = outcome at moves plain
      cases moves with
      | fail => trivial
      | goto moved =>
        obtain ⟨j, moved⟩ := moved
        exact ⟨moved ▸ dropped j, fun stops => by cases plain.symm.trans stops⟩
      | emit moved =>
        obtain ⟨j, moved⟩ := moved
        exact ⟨moved ▸ dropped j, fun v same => absurd same (plain v)⟩

theorem Lexer.step_closes (cfg : Setting) (suffix : lx.rest <:+ s)
    (stopped : lx.start.stops = true → BehindMark s lx.rest) : (lx.step cfg).Closes s := by
  unfold step
  split
  · unfold atEnd
    cases start : lx.start with
    | xqs | xdqs => exact quotestop_closes suffix (stopped (by rw [start]; rfl))
    | _ => trivial
  · cases chosen : choose lx.rest (rules lx.start) with
    | none => trivial
    | some choice =>
      obtain ⟨_, r, member, found⟩ := choose_some chosen
      exact act_closes suffix stopped member found

/-- A string constant ends behind a mark. -/
theorem Lexer.Emits.closes (emits : lx.Emits cfg token ended) (suffix : lx.rest <:+ s)
    (stopped : lx.start.stops = true → BehindMark s lx.rest) :
    ended.rest <:+ s ∧ ∀ v, token = .sconst v → BehindMark s ended.rest := by
  induction emits with
  | @emit lx ended token turn =>
    have closes := lx.step_closes cfg suffix stopped
    rw [turn] at closes
    exact closes
  | @goto lx next ended token turn later ih =>
    have closes := lx.step_closes cfg suffix stopped
    rw [turn] at closes
    exact ih closes.1 closes.2

end OpenHalo.MysScan
