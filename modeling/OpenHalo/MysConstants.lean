import OpenHalo.MysNumbers
import OpenHalo.MysWeight

namespace OpenHalo.MysScan
open Octets List

variable {t token : Token} {bytes tail w : Bytes}

/-- What a client binds, as the adapter writes it into EXECUTE. -/
inductive Value
  | string (bytes : Bytes)
  | number (bytes : Bytes)

namespace Value

def text : Value → Bytes
  | string bytes => 39 :: bytes ++ [39]
  | number bytes => bytes

/-- The token is a constant for the value. -/
def Denoted : Value → Token → Prop
  | string bytes, token => token = .sconst bytes
  | number bytes, token => ∃ x, numberOf bytes = some x ∧ token.number = some x

/-- A text without marks and escapes, a number without a sign. -/
def Plain : Value → Prop
  | string bytes => literalSafe 39 bytes = true
  | number bytes => (unsignedNumber bytes).isSome = true

end Value

/-- The values behind the first, each with its comma. -/
def moreText : List Value → Bytes
  | [] => []
  | v :: vs => 44 :: (v.text ++ moreText vs)

def moreTokens : List Token → List Token
  | [] => []
  | t :: ts => .char 44 :: t :: moreTokens ts

theorem moreText_ends (vs : List Value) : moreText vs = [] ∨ (moreText vs).head? = some 44 := by
  cases vs with
  | nil => exact .inl rfl
  | cons v vs => exact .inr rfl

variable {cfg : Setting} {lx : Lexer} {v : Value} {vs : List Value} {ts : List Token}

/-- A plain value is read as one constant for it. -/
theorem Value.Plain.emits (cfg : Setting) (plain : v.Plain) {tail : Bytes} (ready : lx.Ready (v.text ++ tail))
    (ends : tail = [] ∨ tail.head? = some 44) :
    ∃ (token : Token) (ended : Lexer), v.Denoted token ∧ ended.Ready tail ∧ lx.Emits cfg token ended := by
  cases v with
  | string bytes =>
    have whole : (string bytes).text ++ tail = 39 :: bytes ++ 39 :: tail := by simp [text]
    rw [whole] at ready
    obtain ⟨ended, behind, emits⟩ := Lexer.emits_literal .single cfg ready plain ends
    exact ⟨.sconst bytes, ended, rfl, behind, emits⟩
  | number bytes =>
    obtain ⟨x, value⟩ := Option.isSome_iff_exists.mp plain
    have number : IsNumber bytes := unsignedNumber_lang value
    obtain ⟨ended, behind, emits⟩ := Lexer.emits_number cfg ready number ends
    refine ⟨processIntegerLiteral bytes, ended, ⟨x, ?_, number.value.trans value⟩, behind, emits⟩
    obtain ⟨c, t, rfl, first⟩ := number.first
    rw [numberOf_unsigned first, value]

theorem Lexer.Ready.scans_nil (cfg : Setting) (ready : lx.Ready []) : lx.Scans cfg [] := by
  refine (Lexer.scans_done ?_).mpr rfl
  rw [Lexer.step, if_pos ready.rest, Lexer.atEnd, ready.start]

theorem scans_more (plain : ∀ v ∈ vs, v.Plain) (ready : lx.Ready (moreText vs)) :
    ∃ ts, List.Forall₂ Value.Denoted vs ts ∧ lx.Scans cfg (moreTokens ts) := by
  induction vs generalizing lx with
  | nil => exact ⟨[], .nil, ready.scans_nil cfg⟩
  | cons v vs ih =>
    obtain ⟨first, others⟩ := forall_mem_cons.mp plain
    obtain ⟨mid, behind, comma⟩ := Lexer.emits_comma cfg ready
    obtain ⟨token, ended, denoted, last, emits⟩ := first.emits cfg behind (moreText_ends vs)
    obtain ⟨ts, all, scans⟩ := ih others last
    refine ⟨token :: ts, .cons denoted all, comma.scans.mpr ⟨_, rfl, emits.scans.mpr ⟨_, rfl, scans⟩⟩⟩

/-- The scanner is deterministic. -/
theorem Lexer.Emits.unique {t' : Token} {ended ended' : Lexer} (emits : lx.Emits cfg t ended)
    (emits' : lx.Emits cfg t' ended') :
    t = t' ∧ ended = ended' := by
  induction emits with
  | emit turn =>
    obtain ⟨rfl, rfl⟩ := (Lexer.emits_emit turn).mp emits'
    exact ⟨rfl, rfl⟩
  | goto turn later ih => exact ih ((Lexer.emits_goto turn).mp emits')

theorem Value.Plain.behind (plain : v.Plain) {ended : Lexer} (ready : lx.Ready (v.text ++ tail))
    (ends : tail = [] ∨ tail.head? = some 44) (emits : lx.Emits cfg token ended) : ended.Ready tail := by
  obtain ⟨_, _, _, behind, other⟩ := plain.emits cfg ready ends
  rw [(emits.unique other).2]
  exact behind

/-- A number that is read as one constant has no sign. -/
theorem number_plain {ended : Lexer} (ready : lx.Ready (bytes ++ tail))
    (denoted : (Value.number bytes).Denoted token) (emits : lx.Emits cfg token ended) : (Value.number bytes).Plain := by
  obtain ⟨x, value, same⟩ := denoted
  rcases numberOf_cases value with number | ⟨c, u, rfl, sign, number⟩
  · obtain ⟨c, t, rfl, first⟩ := number.first
    rw [numberOf_unsigned first] at value
    exact Option.isSome_iff_exists.mpr ⟨x, value⟩
  · obtain ⟨other, signed⟩ := Lexer.emits_sign cfg ready sign number
    rw [(emits.unique signed).1] at same
    cases same

/-- There is no mark in a number. -/
theorem Value.Denoted.unmarked (denoted : (Value.number bytes).Denoted token) :
    ∀ c ∈ bytes, isMark c = false := by
  obtain ⟨x, value, _⟩ := denoted
  have digits {u : Bytes} (number : IsNumber u) : ∀ c ∈ u, isMark c = false := fun c member =>
    forall_byte (p := fun c => (Flex.Pattern.alt integer (.alt decimal real)).may c = true → isMark c = false)
      (by decide +kernel) c (number.may member)
  rcases numberOf_cases value with number | ⟨c, u, rfl, sign, number⟩
  · exact digits number
  · refine forall_mem_cons.mpr ⟨?_, digits number⟩
    rcases sign with rfl | rfl <;> rfl

theorem moreText_split {q : UInt8} (mark : isMark q = true) (whole : moreText (v :: vs) = w ++ q :: tail) :
    (∃ y z, v.text = y ++ q :: z ∧ z ++ moreText vs = tail) ∨ ∃ y, moreText vs = y ++ q :: tail := by
  cases w with
  | nil =>
    cases whole
    cases mark
  | cons c w =>
    obtain ⟨_, rest⟩ := List.cons.inj whole
    rcases append_eq_append_iff.mp rest with ⟨y, _, later⟩ | ⟨y, here, later⟩
    · exact .inr ⟨y, later⟩
    cases y with
    | nil => exact .inr ⟨[], later.symm⟩
    | cons d z =>
      obtain ⟨rfl, rfl⟩ := List.cons.inj later
      exact .inl ⟨w, z, here, rfl⟩

/-- Behind a mark of a later string the scanner does not find that string: its constant would close with
another's mark. -/
theorem not_scans_late (denoted : List.Forall₂ Value.Denoted vs ts) (start : lx.start = .initial) (passed : Bytes)
    (behind : BehindMark (moreText vs) (passed ++ lx.rest)) : ¬lx.Scans cfg (moreTokens ts) := by
  induction denoted generalizing lx passed with
  | nil =>
    obtain ⟨w, q, _, whole⟩ := behind
    cases w <;> cases whole
  | @cons v token vs ts first others ih =>
    intro scans
    obtain ⟨mid, comma, constants⟩ := Lexer.scans_cons.mp scans
    obtain ⟨ended, constant, later⟩ := Lexer.scans_cons.mp constants
    obtain ⟨begins, one⟩ := comma.weight_le
    obtain ⟨again, size⟩ := constant.weight_le
    rw [Lexer.weight_initial start] at one
    rw [Lexer.weight_initial begins] at size
    have front := (comma.closes (suffix_refl lx.rest) (by simp [start, Start.stops])).1
    obtain ⟨suffix, closed⟩ := constant.closes front (by simp [begins, Start.stops])
    obtain ⟨w, q, mark, whole⟩ := behind
    rcases moreText_split mark whole with ⟨y, z, text, rest⟩ | ⟨y, rest⟩
    · cases v with
      | number bytes =>
        have inside : q ∈ bytes := by
          rw [show bytes = y ++ q :: z from text]
          simp
        cases mark.symm.trans (first.unmarked q inside)
      | string bytes =>
        cases first
        have left := congrArg List.length text
        have total := congrArg List.length rest
        simp only [Value.text, length_cons, length_append, length_nil] at left total
        simp only [Token.size] at one size
        have overtaken : BehindMark (moreText vs) ended.rest := by
          refine BehindMark.shorten ((closed bytes rfl).of_suffix ?_) (suffix_append z _) (by omega)
          rw [rest]
          exact suffix_append passed _
        exact ih again [] overtaken later
    · obtain ⟨u, split⟩ := suffix
      refine ih again (passed ++ u) ⟨y, q, mark, ?_⟩ later
      rw [rest, append_assoc, split]

/-- Values that are all found are plain. -/
theorem values_plain (ready : lx.Ready (moreText vs)) (denoted : List.Forall₂ Value.Denoted vs ts)
    (scans : lx.Scans cfg (moreTokens ts)) : ∀ v ∈ vs, v.Plain := by
  induction denoted generalizing lx with
  | nil => simp
  | @cons v token vs ts first others ih =>
    obtain ⟨mid, behind, comma⟩ := Lexer.emits_comma cfg ready
    obtain ⟨_, same, constants⟩ := comma.scans.mp scans
    cases same
    obtain ⟨ended, constant, later⟩ := Lexer.scans_cons.mp constants
    have plain : v.Plain := by
      cases v with
      | number bytes => exact number_plain behind first constant
      | string bytes =>
        cases first
        have whole : (Value.string bytes).text ++ moreText vs = 39 :: (bytes ++ 39 :: moreText vs) := by
          simp [Value.text]
        rw [whole] at behind
        obtain ⟨consumed, passed, atLeast, exactly⟩ :=
          @Lexer.literal_tight cfg mid .single bytes ended _ behind constant
        rcases Nat.lt_or_eq_of_le atLeast with more | equal
        · have total := congrArg List.length (behind.rest.symm.trans passed.split)
          simp only [length_cons, length_append] at total
          have closed := (constant.closes (suffix_refl mid.rest) (by simp [behind.start, Start.stops])).2 bytes rfl
          have suffix : moreText vs <:+ mid.rest := by
            rw [behind.rest]
            exact ⟨39 :: (bytes ++ [39]), by simp⟩
          have overtaken := closed.shorten suffix (by omega)
          exact absurd later (not_scans_late others passed.start [] overtaken)
        · exact (exactly equal).2
    exact forall_mem_cons.mpr ⟨plain, ih (plain.behind behind (moreText_ends vs) constant) later⟩

def listText : List Value → Bytes
  | [] => []
  | v :: vs => v.text ++ moreText vs

def listTokens : List Token → List Token
  | [] => []
  | t :: ts => t :: moreTokens ts

/-- One constant for each value, with commas between them. -/
def Lexer.Constants (cfg : Setting) (lx : Lexer) (vs : List Value) : Prop :=
  ∃ ts, List.Forall₂ Value.Denoted vs ts ∧ lx.Scans cfg (listTokens ts)

theorem constants_cons (ready : lx.Ready (listText (v :: vs))) :
    ∃ before : Lexer, before.Ready (moreText (v :: vs)) ∧
      (lx.Constants cfg (v :: vs) ↔ ∃ ts,
        List.Forall₂ Value.Denoted (v :: vs) ts ∧ before.Scans cfg (moreTokens ts)) := by
  let before : Lexer := { lx with rest := 44 :: lx.rest }
  have comma : before.Ready (moreText (v :: vs)) := ⟨ready.start, ready.character, congrArg (44 :: ·) ready.rest⟩
  refine ⟨before, comma, exists_congr fun ts => and_congr_right fun denoted => ?_⟩
  cases denoted with
  | cons first others =>
    rw [Lexer.scans_emit (comma.comma cfg)]
    constructor
    · exact fun scans => ⟨_, rfl, scans⟩
    · rintro ⟨later, same, scans⟩
      cases same
      exact scans

/-- The constants are found exactly if all values are plain. -/
theorem constants_iff (ready : lx.Ready (listText vs)) : lx.Constants cfg vs ↔ ∀ v ∈ vs, v.Plain := by
  cases vs with
  | nil => exact iff_of_true ⟨[], .nil, ready.scans_nil cfg⟩ (by simp)
  | cons v vs =>
    obtain ⟨before, comma, same⟩ := @constants_cons cfg lx v vs ready
    rw [same]
    constructor
    · rintro ⟨ts, denoted, scans⟩
      exact values_plain comma denoted scans
    · exact fun plain => scans_more plain comma

theorem Value.Denoted.visible (denoted : v.Denoted token) (tail : Bytes) :
    ∀ d, (v.text ++ tail).head? = some d → (ascii " \t\n\r\x0c").contains d = false := by
  intro d first
  cases v with
  | string bytes =>
    cases first
    decide
  | number bytes =>
    obtain ⟨x, value, _⟩ := denoted
    have shown : ∀ c : UInt8, isDigit c = true ∨ c = 46 ∨ c = 45 ∨ c = 43 →
        (ascii " \t\n\r\x0c").contains c = false := by
      rintro c (digit | rfl | rfl | rfl)
      · exact forall_byte (p := fun c => isDigit c = true → (ascii " \t\n\r\x0c").contains c = false)
          (by decide +kernel) c digit
      · decide
      · decide
      · decide
    rcases numberOf_cases value with number | ⟨c, u, rfl, sign, _⟩
    · obtain ⟨c, t, rfl, leading⟩ := number.first
      cases first
      exact shown _ (leading.imp_right .inl)
    · cases first
      exact shown _ (.inr (.inr sign))

end OpenHalo.MysScan
