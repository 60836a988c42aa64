import Mathlib.Algebra.Order.Field.Rat
import Mathlib.Data.List.TakeWhile
import OpenHalo.MysWords

namespace OpenHalo.MysScan
open Octets Flex Flex.Pattern List

variable {m x : ℚ} {lx : Lexer}

/-- Digits with at most one point, as their value and what follows. -/
def mantissa (s : Bytes) : Option (ℚ × Bytes) :=
  let whole := s.takeWhile isDigit
  match s.dropWhile isDigit with
  | 46 :: t =>
    let fraction := t.takeWhile isDigit
    if whole = [] ∧ fraction = [] then none
    else some ((atol (whole ++ fraction) : ℚ) / 10 ^ fraction.length, t.dropWhile isDigit)
  | t => if whole = [] then none else some ((atol whole : ℚ), t)

def signedDigits : Bytes → Option Int
  | 45 :: s => if s ≠ [] ∧ s.all isDigit then some (-(atol s : Int)) else none
  | 43 :: s | s => if s ≠ [] ∧ s.all isDigit then some (atol s : Int) else none

/-- What follows the mantissa: nothing, or `e` and a signed integer. -/
def exponent : Bytes → Option Int
  | [] => some 0
  | c :: s => if c = 69 ∨ c = 101 then signedDigits s else none

def unsignedNumber (s : Bytes) : Option ℚ :=
  (mantissa s).bind fun (m, rest) => (exponent rest).map fun e => m * 10 ^ e

/-- The number that a text stands for, with a sign or without. -/
def numberOf : Bytes → Option ℚ
  | 45 :: s => (unsignedNumber s).map fun x => -x
  | 43 :: s | s => unsignedNumber s

/-- The number that a constant stands for. -/
def Token.number : Token → Option ℚ
  | .iconst n => some n
  | .fconst s => numberOf s
  | _ => none

example : numberOf (ascii "-12.50e1") = some (-125) := by decide +kernel

section texts
variable {s t u tail : Bytes} {c : UInt8}

theorem isDigit_cases : ∀ c : UInt8, isDigit c = true → c ∈ ascii "0123456789" := by
  apply forall_byte
  decide +kernel

theorem mem_integer : s ∈ integer.lang ↔ s ≠ [] ∧ ∀ c ∈ s, isDigit c = true := mem_plus_cls

/-- A point with digits around it. -/
theorem mem_decimal : s ∈ decimal.lang ↔ ∃ whole fraction : Bytes, s = whole ++ 46 :: fraction ∧
    (∀ c ∈ whole, isDigit c = true) ∧ (∀ c ∈ fraction, isDigit c = true) ∧ (whole ≠ [] ∨ fraction ≠ []) := by
  have point {w : Bytes} : w ∈ (text ".").lang ↔ w = [46] := mem_word
  constructor
  · rintro (member | member)
    · obtain ⟨whole, digits, rest, behind, rfl⟩ := mem_seq.mp member
      obtain ⟨_, dot, fraction, later, rfl⟩ := mem_seq.mp behind
      rw [point.mp dot]
      exact ⟨whole, fraction, rfl, mem_star_cls.mp digits, (mem_plus_cls.mp later).2, .inr (mem_plus_cls.mp later).1⟩
    · obtain ⟨whole, digits, rest, behind, rfl⟩ := mem_seq.mp member
      obtain ⟨_, dot, fraction, later, rfl⟩ := mem_seq.mp behind
      rw [point.mp dot]
      exact ⟨whole, fraction, rfl, (mem_plus_cls.mp digits).2, mem_star_cls.mp later, .inl (mem_plus_cls.mp digits).1⟩
  · rintro ⟨whole, fraction, rfl, digits, later, some | some⟩
    · exact .inr (mem_seq.mpr ⟨whole, mem_plus_cls.mpr ⟨some, digits⟩, 46 :: fraction,
        mem_seq.mpr ⟨[46], point.mpr rfl, fraction, mem_star_cls.mpr later, rfl⟩, rfl⟩)
    · exact .inl (mem_seq.mpr ⟨whole, mem_star_cls.mpr digits, 46 :: fraction,
        mem_seq.mpr ⟨[46], point.mpr rfl, fraction, mem_plus_cls.mpr ⟨some, later⟩, rfl⟩, rfl⟩)

theorem takeWhile_digit {p : UInt8 → Bool} (s : Bytes) : ∀ c ∈ s.takeWhile p, p c = true := fun _ => mem_takeWhile_imp

theorem mantissa_lang (value : mantissa s = some (m, t)) :
    ∃ front, s = front ++ t ∧ (front ∈ integer.lang ∨ front ∈ decimal.lang) := by
  have parts := @takeWhile_append_dropWhile _ isDigit s
  unfold mantissa at value
  dsimp only at value
  split at value
  · rename_i rest behind
    split at value
    · cases value
    rename_i some
    obtain ⟨_, rfl⟩ := Prod.mk.inj (Option.some.inj value)
    refine ⟨s.takeWhile isDigit ++ 46 :: rest.takeWhile isDigit, ?_,
      .inr (mem_decimal.mpr ⟨_, _, rfl, takeWhile_digit s, takeWhile_digit rest, not_and_or.mp some⟩)⟩
    conv_lhs => rw [← parts, behind, ← @takeWhile_append_dropWhile _ isDigit rest]
    simp
  · split at value
    · cases value
    · rename_i some
      obtain ⟨_, rfl⟩ := Prod.mk.inj (Option.some.inj value)
      exact ⟨s.takeWhile isDigit, parts.symm, .inl (mem_integer.mpr ⟨some, takeWhile_digit s⟩)⟩

theorem signedDigits_lang {e : Int} (value : signedDigits s = some e) :
    s ∈ (seq (opt (oneOf "-+")) (plus digit)).lang := by
  have digits {d : Bytes} (front : Bytes) (sign : front ∈ (opt (oneOf "-+")).lang)
      (some : d ≠ [] ∧ d.all isDigit = true) :
      front ++ d ∈ (seq (opt (oneOf "-+")) (plus digit)).lang :=
    mem_seq.mpr ⟨front, sign, d, mem_plus_cls.mpr ⟨some.1, all_eq_true.mp some.2⟩, rfl⟩
  unfold signedDigits at value
  split at value
  · split at value
    · exact digits [45] (mem_alt.mpr (.inr ⟨45, rfl, rfl⟩)) (by assumption)
    · cases value
  · split at value
    · exact digits [43] (mem_alt.mpr (.inr ⟨43, rfl, rfl⟩)) (by assumption)
    · cases value
  · split at value
    · exact digits [] (mem_alt.mpr (.inl (mem_eps.mpr rfl))) (by assumption)
    · cases value

/-- What stands for a number is a text of one of the three rules. -/
theorem unsignedNumber_lang (value : unsignedNumber u = some x) :
    u ∈ integer.lang ∨ u ∈ decimal.lang ∨ u ∈ real.lang := by
  obtain ⟨⟨m, rest⟩, front, tail⟩ := Option.bind_eq_some_iff.mp value
  obtain ⟨e, power, _⟩ := Option.map_eq_some_iff.mp tail
  obtain ⟨w, rfl, word⟩ := mantissa_lang front
  cases rest with
  | nil =>
    rw [append_nil]
    exact word.imp_right .inl
  | cons c s =>
    rw [exponent] at power
    split at power
    · rename_i letter
      refine .inr (.inr (mem_seq.mpr ⟨w, mem_alt.mpr word, c :: s,
        mem_seq.mpr ⟨[c], ⟨c, ?_, rfl⟩, s, signedDigits_lang power, rfl⟩, rfl⟩))
      rcases letter with rfl | rfl <;> rfl
    · cases power

/-- A text of the rules for unsigned numbers. -/
def IsNumber (u : Bytes) : Prop := u ∈ integer.lang ∨ u ∈ decimal.lang ∨ u ∈ real.lang

theorem real_parts (member : u ∈ real.lang) :
    ∃ w c t, u = w ++ c :: t ∧ (w ∈ integer.lang ∨ w ∈ decimal.lang) ∧ (c = 69 ∨ c = 101) := by
  obtain ⟨w, front, rest, behind, rfl⟩ := mem_seq.mp member
  obtain ⟨_, ⟨c, letter, rfl⟩, t, _, rfl⟩ := mem_seq.mp behind
  refine ⟨w, c, t, rfl, mem_alt.mp front, ?_⟩
  simpa [ascii] using letter

theorem exists_digit (word : u ∈ integer.lang ∨ u ∈ decimal.lang) : ∃ d ∈ u, isDigit d = true := by
  rcases word with word | word
  · obtain ⟨some, digits⟩ := mem_integer.mp word
    obtain ⟨d, member⟩ := exists_mem_of_ne_nil u some
    exact ⟨d, member, digits d member⟩
  · obtain ⟨whole, fraction, rfl, digits, later, some | some⟩ := mem_decimal.mp word
    · obtain ⟨d, member⟩ := exists_mem_of_ne_nil whole some
      exact ⟨d, mem_append_left _ member, digits d member⟩
    · obtain ⟨d, member⟩ := exists_mem_of_ne_nil fraction some
      exact ⟨d, mem_append_right _ (mem_cons_of_mem 46 member), later d member⟩

theorem IsNumber.front (number : IsNumber u) : ∃ w t, u = w ++ t ∧ (w ∈ integer.lang ∨ w ∈ decimal.lang) := by
  rcases number with word | word | word
  · exact ⟨u, [], (append_nil u).symm, .inl word⟩
  · exact ⟨u, [], (append_nil u).symm, .inr word⟩
  · obtain ⟨w, c, t, rfl, word, _⟩ := real_parts word
    exact ⟨w, c :: t, rfl, word⟩

theorem IsNumber.digit (number : IsNumber u) : ∃ d ∈ u, isDigit d = true := by
  obtain ⟨w, t, rfl, word⟩ := number.front
  obtain ⟨d, member, digit⟩ := exists_digit word
  exact ⟨d, mem_append_left _ member, digit⟩

theorem first_of_word (word : u ∈ integer.lang ∨ u ∈ decimal.lang) :
    ∃ c t, u = c :: t ∧ (isDigit c = true ∨ c = 46) := by
  rcases word with word | word
  · obtain ⟨some, digits⟩ := mem_integer.mp word
    obtain ⟨c, t, rfl⟩ := exists_cons_of_ne_nil some
    exact ⟨c, t, rfl, .inl (digits c mem_cons_self)⟩
  · obtain ⟨whole, fraction, rfl, digits, _, _⟩ := mem_decimal.mp word
    cases whole with
    | nil => exact ⟨46, fraction, rfl, .inr rfl⟩
    | cons c whole => exact ⟨c, whole ++ 46 :: fraction, rfl, .inl (digits c mem_cons_self)⟩

/-- A number begins with a digit or a point. -/
theorem IsNumber.first (number : IsNumber u) : ∃ c t, u = c :: t ∧ (isDigit c = true ∨ c = 46) := by
  obtain ⟨w, t, rfl, word⟩ := number.front
  obtain ⟨d, w, rfl, first⟩ := first_of_word word
  exact ⟨d, w ++ t, rfl, first⟩

theorem IsNumber.may (number : IsNumber u) (member : c ∈ u) : (alt integer (alt decimal real)).may c = true :=
  may_of_mem (mem_alt.mpr (number.imp_right mem_alt.mpr)) member

section ends
variable {r : Pattern UInt8} {m : Nat} (bounded : r.tailMay 44 = false) (nonempty : u ≠ [])
  (ends : tail = [] ∨ tail.head? = some 44)
include bounded nonempty ends

/-- A rule that knows no comma stops at the end of the word. -/
theorem longest_le (found : r.longest (u ++ tail) = some m) : m ≤ u.length := by
  by_contra further
  obtain ⟨d, u, rfl⟩ := exists_cons_of_ne_nil nonempty
  cases tail with
  | nil =>
    rw [append_nil] at found
    exact further (longest_some found).1
  | cons c x =>
    obtain rfl : c = 44 := by simpa using ends
    rw [tailMay_of_longest found (by omega)] at bounded
    cases bounded

theorem longest_word (member : u ∈ r.lang) : r.longest (u ++ tail) = some u.length := by
  obtain ⟨m, found, atLeast⟩ := @longest_max _ r (u ++ tail) u.length (by simp) (by simpa using member)
  rw [found, Nat.le_antisymm (longest_le bounded nonempty ends found) atLeast]

theorem longest_lt (other : u ∉ r.lang) (found : r.longest (u ++ tail) = some m) : m < u.length := by
  refine Nat.lt_of_le_of_ne (longest_le bounded nonempty ends found) ?_
  rintro rfl
  have member := (longest_some found).2
  rw [take_left' rfl] at member
  exact other member

end ends

/-- The rules for texts that start with a digit, those for `0b` and `0x` apart. -/
def numberRules : List (Pattern UInt8 × Rule) :=
  [(integer, .integer), (decimal, .decimal), (decimalfail, .decimalfail), (real, .real), (realfail1, .realfail1),
    (realfail2, .realfail2), (identifier, .identifier), (other, .other)]

/-- With a digit in front, only few rules can match. -/
theorem alive_digit (digit : isDigit c = true) :
    ∃ zero, alive c (rules .initial) = zero ++ numberRules ∧ ∀ rule ∈ zero, rule.1 = mys0bbit ∨ rule.1 = mys0hbit := by
  have digits : c = 48 ∨ c = 49 ∨ c = 50 ∨ c = 51 ∨ c = 52 ∨ c = 53 ∨ c = 54 ∨ c = 55 ∨ c = 56 ∨ c = 57 := by
    simpa [ascii] using isDigit_cases c digit
  rcases digits with rfl | rfl | rfl | rfl | rfl | rfl | rfl | rfl | rfl | rfl
  · exact ⟨[(mys0bbit, .mys0bbit), (mys0hbit, .mys0hbit)], rfl, by simp⟩
  all_goals exact ⟨[], rfl, by simp⟩

theorem numberRules_bounded : ∀ rule ∈ numberRules, rule.1.tailMay 44 = false := by
  simp only [numberRules, forall_mem_cons]
  exact ⟨rfl, rfl, rfl, rfl, rfl, rfl, rfl, rfl, by simp⟩

/-- A number is no bit string. -/
theorem IsNumber.not_bits (number : IsNumber u) : u ∉ mys0bbit.lang ∧ u ∉ mys0hbit.lang := by
  constructor
  · intro member
    obtain ⟨front, word, rest, _, rfl⟩ := mem_seq.mp member
    rw [mem_word.mp word] at number
    cases number.may (c := 98) (by simp [ascii])
  · intro member
    obtain ⟨front, word, rest, _, rfl⟩ := mem_seq.mp member
    rw [mem_word.mp word] at number
    cases number.may (c := 120) (by simp [ascii])

/-- None of the rules takes the text, with or without a comma. -/
def Refused (u : Bytes) (before : List (Pattern UInt8 × Rule)) : Prop :=
  ∀ rule ∈ before, u ∉ rule.1.lang ∧ rule.1.tailMay 44 = false

theorem refused_append {before more : List (Pattern UInt8 × Rule)} (first : Refused u before)
    (second : Refused u more) :
    Refused u (before ++ more) :=
  forall_mem_append.mpr ⟨first, second⟩

/-- A text of the rule `r`, but not of the rules before it. -/
structure Wins (u : Bytes) (before : List (Pattern UInt8 × Rule)) (r : Pattern UInt8) : Prop where
  member : u ∈ r.lang
  others : Refused u before

/-- Such a rule is chosen for the whole text. -/
theorem Wins.choose {before after : List (Pattern UInt8 × Rule)} {r : Pattern UInt8} {rule : Rule}
    (wins : Wins u before r)
    (bounded : ∀ later ∈ (r, rule) :: after, later.1.tailMay 44 = false) (nonempty : u ≠ [])
    (ends : tail = [] ∨ tail.head? = some 44) :
    Flex.choose (u ++ tail) (before ++ (r, rule) :: after) = some (rule, u.length) := by
  obtain ⟨n, length⟩ : ∃ n, u.length = n + 1 :=
    Nat.exists_eq_succ_of_ne_zero fun zero => nonempty (length_eq_zero_iff.mp zero)
  rw [length]
  apply choose_eq
  · rw [← length]
    exact longest_word (bounded _ mem_cons_self) nonempty ends wins.member
  · intro other member m found
    obtain ⟨apart, stops⟩ := wins.others other member
    have shorter := longest_lt stops nonempty ends apart found
    omega
  · intro other member m found
    rw [← length]
    exact longest_le (bounded other (mem_cons_of_mem _ member)) nonempty ends found

theorem decimal_others (word : u ∈ decimal.lang) : u.all isDigit = false ∧ u ∉ integer.lang := by
  obtain ⟨whole, fraction, rfl, _, _, _⟩ := mem_decimal.mp word
  have point : (46 : UInt8) ∈ whole ++ 46 :: fraction := mem_append_right _ mem_cons_self
  exact ⟨all_eq_false.mpr ⟨46, point, by decide⟩, fun member => absurd ((mem_integer.mp member).2 46 point) (by decide)⟩

theorem real_others (word : u ∈ real.lang) :
    u.all isDigit = false ∧ u ∉ integer.lang ∧ u ∉ decimal.lang ∧ u ∉ decimalfail.lang := by
  obtain ⟨w, e, rest, rfl, _, letter⟩ := real_parts word
  have member : e ∈ w ++ e :: rest := mem_append_right _ mem_cons_self
  have absent (r : Pattern UInt8) (never : r.may e = false) : w ++ e :: rest ∉ r.lang := fun inside => by
    rw [may_of_mem inside member] at never
    cases never
  rcases letter with rfl | rfl
  · exact ⟨all_eq_false.mpr ⟨69, member, by decide⟩, absent _ rfl, absent _ rfl, absent _ rfl⟩
  · exact ⟨all_eq_false.mpr ⟨101, member, by decide⟩, absent _ rfl, absent _ rfl, absent _ rfl⟩

/-- The whole text is taken by one of the rules for numbers. -/
def ChoosesNumber (u : Bytes) (choice : Option (Rule × Nat)) : Prop :=
  ∃ rule, choice = some (rule, u.length) ∧ (rule = .integer ∨ (rule = .decimal ∨ rule = .real) ∧ u.all isDigit = false)

section rule
variable (number : IsNumber (c :: t)) (ends : tail = [] ∨ tail.head? = some 44)
include number ends

theorem IsNumber.choose_digit (leading : isDigit c = true) :
    ChoosesNumber (c :: t) (Flex.choose (c :: t ++ tail) (alive c (rules .initial))) := by
  obtain ⟨bit, hex⟩ := number.not_bits
  obtain ⟨zero, left, bits⟩ := alive_digit leading
  have zeros : Refused (c :: t) zero := by
    intro rule member
    rcases bits rule member with same | same
    · rw [same]
      exact ⟨bit, rfl⟩
    · rw [same]
      exact ⟨hex, rfl⟩
  have nonempty := cons_ne_nil c t
  have bounded := numberRules_bounded
  rw [left]
  rcases number with word | word | word
  · exact ⟨.integer, Wins.choose ⟨word, zeros⟩ bounded nonempty ends, .inl rfl⟩
  · obtain ⟨mixed, apart⟩ := decimal_others word
    have others : Refused (c :: t) [(integer, .integer)] := forall_mem_singleton.mpr ⟨apart, rfl⟩
    refine ⟨.decimal, ?_, .inr ⟨.inl rfl, mixed⟩⟩
    have chosen := @Wins.choose _ tail _ (numberRules.drop 2) _ .decimal ⟨word, refused_append zeros others⟩
      (forall_mem_cons.mp bounded).2 nonempty ends
    rwa [append_assoc] at chosen
  · obtain ⟨mixed, apart⟩ := real_others word
    have others : Refused (c :: t)
        (zero ++ [(integer, .integer), (decimal, .decimal), (decimalfail, .decimalfail)]) := by
      refine refused_append zeros ?_
      simp only [Refused, forall_mem_cons]
      exact ⟨⟨apart.1, rfl⟩, ⟨apart.2.1, rfl⟩, ⟨apart.2.2, rfl⟩, by simp⟩
    refine ⟨.real, ?_, .inr ⟨.inr rfl, mixed⟩⟩
    have chosen := @Wins.choose _ tail _ (numberRules.drop 4) _ .real ⟨word, others⟩
      (fun rule member => bounded rule (mem_cons_of_mem _ (mem_cons_of_mem _ (mem_cons_of_mem _ member)))) nonempty ends
    rwa [append_assoc] at chosen

theorem IsNumber.choose_point (point : c = 46) :
    ChoosesNumber (c :: t) (Flex.choose (c :: t ++ tail) (alive c (rules .initial))) := by
  subst point
  obtain ⟨d, inside, digit⟩ := number.digit
  have digits := isDigit_cases d digit
  have absent (r : Pattern UInt8) (never : (ascii "0123456789").all (fun d => !r.may d) = true) : 46 :: t ∉ r.lang :=
    fun member => by
    have not := all_eq_true.mp never d digits
    rw [may_of_mem member inside] at not
    cases not
  have nonempty := cons_ne_nil 46 t
  have bounded : ∀ rule ∈ [(decimal, Rule.decimal), (real, .real), (realfail1, .realfail1), (realfail2, .realfail2),
      (other, .other)], rule.1.tailMay 44 = false := by
    simp only [forall_mem_cons]
    exact ⟨rfl, rfl, rfl, rfl, rfl, by simp⟩
  have front : Refused (46 :: t) [(text "..", .fixed), (self, .self)] := by
    simp only [Refused, forall_mem_cons]
    exact ⟨⟨absent _ rfl, rfl⟩, ⟨absent _ rfl, rfl⟩, by simp⟩
  rcases number with word | word | word
  · cases (mem_integer.mp word).2 46 mem_cons_self
  · obtain ⟨mixed, apart⟩ := decimal_others word
    have chosen :=
      @Wins.choose _ tail [(text "..", .fixed), (self, .self)] _ _ .decimal ⟨word, front⟩ bounded nonempty ends
    exact ⟨.decimal, chosen, .inr ⟨.inl rfl, mixed⟩⟩
  · obtain ⟨mixed, _, apart, _⟩ := real_others word
    have others : Refused (46 :: t) [(decimal, .decimal)] := forall_mem_singleton.mpr ⟨apart, rfl⟩
    have chosen := @Wins.choose _ tail _ _ _ .real ⟨word, refused_append front others⟩
      (forall_mem_cons.mp bounded).2 nonempty ends
    exact ⟨.real, chosen, .inr ⟨.inr rfl, mixed⟩⟩

end rule

/-- A number is read as one constant. -/
theorem Lexer.emits_number (cfg : Setting) (ready : lx.Ready (u ++ tail)) (number : IsNumber u)
    (ends : tail = [] ∨ tail.head? = some 44) :
    ∃ ended : Lexer, ended.Ready tail ∧ lx.Emits cfg (processIntegerLiteral u) ended := by
  have chosen : ChoosesNumber u (Flex.choose (u ++ tail) (rules .initial)) := by
    obtain ⟨c, t, rfl, leading | point⟩ := number.first
    · rw [cons_append, choose_alive]
      exact number.choose_digit ends leading
    · rw [cons_append, choose_alive]
      exact number.choose_point ends point
  have nonempty : u ++ tail ≠ [] := by
    obtain ⟨c, t, rfl, _⟩ := number.first
    exact cons_ne_nil c _
  obtain ⟨rule, chosen, acting⟩ := chosen
  have acts : lx.act cfg u.length rule = .emit (processIntegerLiteral u) (lx.yyless u.length) := by
    have yytext : lx.rest.take u.length = u := by rw [ready.rest, take_left' rfl]
    rcases acting with rfl | ⟨rfl | rfl, mixed⟩
    · rw [act, yytext]
    · rw [act, yytext, processIntegerLiteral, if_neg (by simp [mixed])]
    · rw [act, yytext, processIntegerLiteral, if_neg (by simp [mixed])]
  have emitted := ready.emits nonempty chosen acts
  rwa [drop_left' rfl] at emitted

theorem unsignedNumber_integer (nonempty : u ≠ []) (digits : u.all isDigit = true) :
    unsignedNumber u = some (atol u : ℚ) := by
  have all := all_eq_true.mp digits
  have taken : u.takeWhile isDigit = u := takeWhile_eq_self_iff.mpr all
  have dropped : u.dropWhile isDigit = [] := dropWhile_eq_nil_iff.mpr all
  have value : mantissa u = some ((atol u : ℚ), []) := by
    rw [mantissa, taken, dropped]
    exact if_neg nonempty
  rw [unsignedNumber, value]
  exact congrArg some ((congrArg (_ * ·) (zpow_zero _)).trans (mul_one _))

theorem numberOf_unsigned (first : isDigit c = true ∨ c = 46) : numberOf (c :: t) = unsignedNumber (c :: t) := by
  unfold numberOf
  split
  · rename_i same
    cases same
    exact absurd first (by decide)
  · rename_i same
    cases same
    exact absurd first (by decide)
  · rfl

/-- The constant stands for what the text stands for. -/
theorem IsNumber.value (number : IsNumber u) : (processIntegerLiteral u).number = unsignedNumber u := by
  obtain ⟨c, t, rfl, first⟩ := number.first
  unfold processIntegerLiteral
  split
  · rename_i small
    exact (unsignedNumber_integer (cons_ne_nil c t) small.1).symm
  · exact numberOf_unsigned first

/-- A number is unsigned, or a sign stands in front. -/
theorem numberOf_cases (value : numberOf s = some x) :
    IsNumber s ∨ ∃ c u, s = c :: u ∧ (c = 45 ∨ c = 43) ∧ IsNumber u := by
  unfold numberOf at value
  split at value
  · obtain ⟨y, number, _⟩ := Option.map_eq_some_iff.mp value
    exact .inr ⟨45, _, rfl, .inl rfl, unsignedNumber_lang number⟩
  · exact .inr ⟨43, _, rfl, .inr rfl, unsignedNumber_lang value⟩
  · exact .inl (unsignedNumber_lang value)

theorem choose_sign {d : UInt8} (sign : c = 45 ∨ c = 43) (apart : (ascii "~!#^&|+-*/%<>=").contains d = false)
    (other : d ≠ 45) :
    Flex.choose (c :: d :: t) (rules .initial) = some (.self, 1) := by
  have single : operator.longest (c :: d :: t) = some 1 := by
    rw [operator, opChars, oneOf, longest_plus_cls, if_pos (by rcases sign with rfl | rfl <;> rfl), takeWhile_cons,
      if_neg (by rw [apart]; decide)]
    rfl
  rw [choose_alive]
  rcases sign with rfl | rfl
  · have left : alive 45 (rules .initial) =
        [(whitespace, .whitespace), (self, .self), (operator, .operator), (MysScan.other, .other)] := rfl
    have noComment : whitespace.longest (45 :: d :: t) = none := by
      have dashes : whitespace.deriv 45 = seq (cls (· == 45)) (star nonNewline) := rfl
      rw [longest_cons, dashes, longest_seq_cls, if_neg (by simpa using other)]
      rfl
    rw [left]
    simp [Flex.choose, noComment, single, self, oneOf, MysScan.other, longest_cls, selfChars, ascii]
  · have left : alive 43 (rules .initial) = [(self, .self), (operator, .operator), (MysScan.other, .other)] := rfl
    rw [left]
    simp [Flex.choose, single, self, oneOf, MysScan.other, longest_cls, selfChars, ascii]

/-- A sign is read as a token of its own. -/
theorem Lexer.emits_sign (cfg : Setting) (ready : lx.Ready (c :: (u ++ tail))) (sign : c = 45 ∨ c = 43)
    (number : IsNumber u) :
    ∃ ended : Lexer, lx.Emits cfg (.char c) ended := by
  obtain ⟨d, t, rfl, first⟩ := number.first
  have apart : (ascii "~!#^&|+-*/%<>=").contains d = false ∧ d ≠ 45 := by
    rcases first with digit | rfl
    · have all : ∀ d ∈ ascii "0123456789", (ascii "~!#^&|+-*/%<>=").contains d = false ∧ d ≠ 45 := by decide +kernel
      exact all d (isDigit_cases d digit)
    · decide +kernel
  obtain ⟨ended, _, emits⟩ := @Lexer.Ready.emits cfg lx _ .self 1 (.char c) ready (cons_ne_nil c _)
    (choose_sign sign apart.1 apart.2) (by rw [act, ready.rest]; rfl)
  exact ⟨ended, emits⟩

end texts

end OpenHalo.MysScan
