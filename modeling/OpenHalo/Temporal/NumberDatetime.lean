import OpenHalo.Temporal.DecodeDatetime

namespace OpenHalo.Datetime
open Octets List

/-- The number at the label `ok`, with its century and time of day; nothing at `err`. -/
def widened (number : Int) (flags : Nat) : Except Bytes (Option Int) :=
  if number = 0 ∨ 10000101000000 ≤ number then
    if 99999999999999 < number then
      .error (ascii "Incorrect datetime value: '" ++ signedDecimal number ++ ascii "' out of range")
    else .ok (some number)
  else if number < 101 then .ok none
  else if number ≤ 691231 then .ok (some ((number + 20000000) * 1000000))
  else if number < 700101 then .ok none
  else if number ≤ 991231 then .ok (some ((number + 19000000) * 1000000))
  else if number < 10000101 ∧ flags &&& MYS_TIME_FUZZY_DATE = 0 then .ok none
  else if number ≤ 99991231 then .ok (some (number * 1000000))
  else if number < 101000000 then .ok none
  else if number ≤ 691231235959 then .ok (some (number + 20000000000000))
  else if number < 700101000000 then .ok none
  else if number ≤ 991231235959 then .ok (some (number + 19000000000000))
  else .ok (some number)

/-- `YYYYMMDDhhmmss`. -/
def numberTm (number : Int) : PgTm :=
  let part1 := (number / 1000000).toNat
  let part2 := (number - number / 1000000 * 1000000).toNat
  { tm_year := part1 / 10000
    tm_mon := part1 % 10000 / 100
    tm_mday := part1 % 10000 % 100
    tm_hour := part2 / 10000
    tm_min := part2 % 10000 / 100
    tm_sec := part2 % 10000 % 100 }

def mysDecodeNumberDatetime (outside : Int) (number : Int) (flags : Nat) : Except Bytes (Option PgTm) :=
  match widened number flags with
  | .error message => .error message
  | .ok none => .ok none
  | .ok (some number) =>
    if mysCheckTimestampRange (numberTm number) 0 && mysCheckDate outside (numberTm number) (number ≠ 0) flags then
      .ok (some (numberTm number))
    else .ok none

section Text

/-- The last `k` pairs of digits of a number. -/
def pairs : Nat → Nat → List Numeral
  | 0, _ => []
  | k + 1, n => pairs k (n / 100) ++ [Numeral.padded 2 (n % 100)]

variable {k n w : Nat}

theorem pairs_length (k n : Nat) : (pairs k n).length = k := by
  induction k generalizing n with
  | zero => rfl
  | succ k ih => rw [pairs, length_append, ih, length_singleton]

theorem mem_pairs {p : Numeral} (member : p ∈ pairs k n) : p.digits.length = 2 ∧ p.value ≤ 99 := by
  induction k generalizing n with
  | zero => cases member
  | succ k ih =>
    rcases mem_append.mp member with before | last
    · exact ih before
    have small : n % 100 < 100 := Nat.mod_lt n (by decide)
    rw [mem_singleton.mp last, Numeral.value_padded]
    exact ⟨Numeral.padded_length (by decide) small, by omega⟩

theorem pairs_digits (k n : Nat) : ∀ c ∈ (pairs k n).flatMap Numeral.digits, isDigit c = true := by
  intro c member
  obtain ⟨p, -, inside⟩ := mem_flatMap.mp member
  exact p.numeric c inside

theorem pairs_digits_length (k n : Nat) : ((pairs k n).flatMap Numeral.digits).length = 2 * k := by
  induction k generalizing n with
  | zero => rfl
  | succ k ih =>
    have small : n % 100 < 10 ^ 2 := Nat.mod_lt n (by decide)
    rw [pairs, flatMap_append, length_append, ih, flatMap_singleton, Numeral.padded_length (by decide) small]
    omega

theorem pairs_value (k n : Nat) : digitsValue ((pairs k n).flatMap Numeral.digits) = n % 100 ^ k := by
  induction k generalizing n with
  | zero => simp [pairs, digitsValue, Nat.mod_one]
  | succ k ih =>
    have small : n % 100 < 10 ^ 2 := Nat.mod_lt n (by decide)
    have last := Numeral.value_padded 2 (n % 100)
    rw [Numeral.value] at last
    rw [pairs, flatMap_append, digitsValue_append, ih, flatMap_singleton, last, Numeral.padded_length (by decide) small,
      show 100 ^ (k + 1) = 100 * 100 ^ k from Nat.pow_succ', Nat.mod_mul]
    omega

theorem decimal_pairs (width : 0 < w) (length : (decimal n).length = w + 2 * k) :
    decimal n = (Numeral.padded w (n / 100 ^ k)).digits ++ (pairs k n).flatMap Numeral.digits := by
  have bound := digitsValue_lt (decimal_digits n)
  rw [digitsValue_decimal, length, Nat.pow_add, Nat.pow_mul] at bound
  have year : n / 100 ^ k < 10 ^ w := Nat.div_lt_of_lt_mul (by rw [Nat.mul_comm]; exact bound)
  have front := Numeral.value_padded w (n / 100 ^ k)
  rw [Numeral.value] at front
  apply digits_ext (decimal_digits n)
  · exact forall_mem_append.mpr ⟨Numeral.numeric _, pairs_digits k n⟩
  · rw [length, length_append, pairs_digits_length, Numeral.padded_length width year]
  · rw [digitsValue_decimal, digitsValue_append, pairs_digits_length, pairs_value, front, Nat.pow_mul, Nat.div_add_mod']

def numberScan (w k n : Nat) : Scan :=
  ⟨(n / 100 ^ k, w) :: (pairs k n).map fun p => (p.value, 2), [], none, false, false⟩

theorem scanDatetime_decimal {displacement : Bytes → Option Int} (length : (decimal n).length = w + 2 * k)
    (width : 0 < w) (short : w ≤ 6)
    (few : k ≤ 5) (year : (if w + 2 * k = 4 ∨ w + 2 * k = 8 ∨ 14 ≤ w + 2 * k then 4 else 2) = w) :
    scanDatetime displacement (decimal n) = some (numberScan w k n, w) := by
  have text := decimal_pairs width length
  have bound := digitsValue_lt (decimal_digits n)
  rw [digitsValue_decimal, length, Nat.pow_add, Nat.pow_mul] at bound
  have small : n / 100 ^ k < 10 ^ w := Nat.div_lt_of_lt_mul (by rw [Nat.mul_comm]; exact bound)
  have digits : ∀ c ∈ decimal n, (isDigit c || c == 84) = true := fun c member => by simp [decimal_digits n c member]
  have fixed : isInternalFormat (decimal n) = true := by
    have dropped := dropWhile_row digits ends_nil
    rw [append_nil] at dropped
    rw [isInternalFormat, dropped]
    rfl
  have yearLen : internalYearLen (decimal n) = w := by
    have taken := takeWhile_row digits ends_nil
    rw [append_nil] at taken
    rw [internalYearLen, taken, length]
    exact year
  have scanned :=
    @scanParts_widths displacement 6 w ⟨[], decimal n, none, false, false⟩ (Numeral.padded w (n / 100 ^ k)) (pairs k n)
    text (by
      intro p member
      rcases mem_cons.mp member with rfl | pair
      · have six : 10 ^ w ≤ 10 ^ 6 := Nat.pow_le_pow_right (by decide) short
        rw [Numeral.value_padded]
        omega
      · exact le_trans (mem_pairs pair).2 (by decide))
    (Numeral.padded_length width small) (fun p member => (mem_pairs member).1)
    (by rw [pairs_length]; exact Nat.lt_of_le_of_lt (Nat.add_le_add_left few 0) (by decide))
    (by rw [pairs_length]; omega)
  have parts : (pairs k n).map (fun p => (p.value, p.digits.length)) = (pairs k n).map fun p => (p.value, 2) :=
    map_congr_left fun p member => by rw [(mem_pairs member).1]
  rw [map_cons, Numeral.value_padded, Numeral.padded_length width small, parts] at scanned
  have noBlank : (decimal n).dropWhile isBlank = decimal n := by
    rw [text]
    exact dropWhile_blank _ _
  have digit : (decimal n).head?.any isDigit = true := by
    rw [text]
    exact head_digit _ _
  simp only [scanDatetime, noBlank, digit, fixed, yearLen, MYS_MAX_TIMESTAMP_PARTS, if_true, Nat.add_one_sub_one,
    Bool.not_true, Bool.false_eq_true, if_false, scanned, if_neg (Nat.ne_of_gt width)]
  rfl

end Text

section Agreement

variable {outside : Int} {number : Int} {tm : PgTm} {n : Nat}

def Plausible (tm : PgTm) : Prop :=
  (1 ≤ tm.tm_mon ∧ tm.tm_mon ≤ 12) ∧ (1 ≤ tm.tm_mday ∧ tm.tm_mday ≤ 31) ∧ tm.tm_hour ≤ 23 ∧ tm.tm_min ≤ 59 ∧
  tm.tm_sec ≤ 59

theorem plausible_of_checks {notZeroDate : Bool}
    (checked : (mysCheckTimestampRange tm 0 && mysCheckDate outside tm notZeroDate noZeros) = true) : Plausible tm := by
  rw [Bool.and_eq_true] at checked
  obtain ⟨-, -, day, -⟩ := mysCheckTimestampRange_iff.mp checked.1
  have real := real_of_checks checked.1 checked.2
  exact ⟨real.month, ⟨real.day.1, day⟩, real.hour, real.minute, real.second⟩

/-- The number arrives at `ok` with these fields, or neither can be accepted. -/
inductive Spells (number : Int) (tm : PgTm) : Prop
  | fields (m : Int) (arrives : widened number noZeros = .ok (some m)) (nonzero : m ≠ 0) (same : numberTm m = tm)
  | err (refused : widened number noZeros = .ok none) (bad : ¬Plausible tm)
  | both (m : Int) (arrives : widened number noZeros = .ok (some m)) (bad' : ¬Plausible (numberTm m))
    (bad : ¬Plausible tm)

theorem Spells.decode (spells : Spells number tm) : mysDecodeNumberDatetime outside number noZeros =
    .ok (if mysCheckTimestampRange tm 0 && mysCheckDate outside tm true noZeros then some tm else none) := by
  cases spells with
  | fields m arrives nonzero same =>
    have notZero : decide (m ≠ 0) = true := decide_eq_true nonzero
    simp only [mysDecodeNumberDatetime, arrives, notZero, same]
    split <;> rfl
  | err refused bad =>
    rw [mysDecodeNumberDatetime, refused, if_neg fun checked => bad (plausible_of_checks checked)]
  | both m arrives bad' bad =>
    simp only [mysDecodeNumberDatetime, arrives]
    rw [if_neg fun checked => bad' (plausible_of_checks checked),
      if_neg fun checked => bad (plausible_of_checks checked)]

def century (w year : Nat) : Nat := if w = 2 then year + (if year < 70 then 2000 else 1900) else year

theorem century_four (year : Nat) : century 4 year = year := rfl

theorem numberScan_date (w : Nat) (positive : n / 10000 ≠ 0) :
    (numberScan w 2 n).tm w = ⟨century w (n / 10000), n / 100 % 100, n % 100, 0, 0, 0⟩ := by
  have notZero : (numberScan w 2 n).notZeroDate = true := by simp [numberScan, Scan.notZeroDate, positive]
  simp only [Scan.tm, notZero]
  simp [Scan.part, numberScan, pairs, century]

theorem numberScan_datetime (w : Nat) (positive : n / 10000000000 ≠ 0) :
    (numberScan w 5 n).tm w = ⟨century w (n / 10000000000), n / 100000000 % 100, n / 1000000 % 100, n / 10000 % 100,
      n / 100 % 100, n % 100⟩ := by
  have notZero : (numberScan w 5 n).notZeroDate = true := by simp [numberScan, Scan.notZeroDate, positive]
  simp only [Scan.tm, notZero]
  simp [Scan.part, numberScan, pairs, century, Nat.div_div_eq_div_mul]

theorem spells_yymmdd (low : 100000 ≤ n) (high : n < 1000000) :
    Spells n ⟨century 2 (n / 10000), n / 100 % 100, n % 100, 0, 0, 0⟩ := by
  unfold century
  by_cases first : n ≤ 691231
  · refine .fields (((n : Int) + 20000000) * 1000000) ?_ (by omega) ?_
    · rw [widened, if_neg (by omega), if_neg (by omega), if_pos (by omega)]
    · rw [if_pos rfl, if_pos (by omega)]
      simp only [numberTm, PgTm.mk.injEq]
      omega
  · by_cases between : n < 700101
    · refine .err ?_ ?_
      · rw [widened]
        iterate 3 rw [if_neg (by omega)]
        rw [if_pos (by omega)]
      · simp only [Plausible]
        omega
    · by_cases second : n ≤ 991231
      · refine .fields (((n : Int) + 19000000) * 1000000) ?_ (by omega) ?_
        · rw [widened]
          iterate 4 rw [if_neg (by omega)]
          rw [if_pos (by omega)]
        · rw [if_pos rfl, if_neg (by omega)]
          simp only [numberTm, PgTm.mk.injEq]
          omega
      · refine .err ?_ ?_
        · rw [widened]
          iterate 5 rw [if_neg (by omega)]
          rw [if_pos ⟨by omega, by decide⟩]
        · simp only [Plausible]
          omega

theorem spells_yyyymmdd (low : 10000000 ≤ n) (high : n < 100000000) :
    Spells n ⟨century 4 (n / 10000), n / 100 % 100, n % 100, 0, 0, 0⟩ := by
  have early : widened n noZeros = if (n : Int) < 10000101 ∧ noZeros &&& MYS_TIME_FUZZY_DATE = 0 then .ok none
      else if (n : Int) ≤ 99991231 then .ok (some ((n : Int) * 1000000)) else .ok none := by
    rw [widened]
    iterate 5 rw [if_neg (by omega)]
    rw [if_pos (by omega : (n : Int) < 101000000)]
  by_cases first : n < 10000101
  · refine .err ?_ ?_
    · rw [early, if_pos ⟨by omega, by decide⟩]
    · simp only [Plausible]
      omega
  · by_cases inside : n ≤ 99991231
    · refine .fields ((n : Int) * 1000000) ?_ (by omega) ?_
      · rw [early, if_neg (by omega), if_pos (by omega)]
      · simp only [numberTm, PgTm.mk.injEq, century_four]
        omega
    · refine .err ?_ ?_
      · rw [early, if_neg (by omega), if_neg (by omega)]
      · simp only [Plausible]
        omega

theorem spells_yymmddhhmmss (low : 100000000000 ≤ n) (high : n < 1000000000000) :
    Spells n ⟨century 2 (n / 10000000000), n / 100000000 % 100, n / 1000000 % 100, n / 10000 % 100, n / 100 % 100,
      n % 100⟩ := by
  have late : widened n noZeros = if (n : Int) ≤ 691231235959 then .ok (some ((n : Int) + 20000000000000))
      else if (n : Int) < 700101000000 then .ok none
      else if (n : Int) ≤ 991231235959 then .ok (some ((n : Int) + 19000000000000)) else .ok (some (n : Int)) := by
    rw [widened]
    iterate 8 rw [if_neg (by omega)]
  unfold century
  by_cases first : n ≤ 691231235959
  · refine .fields ((n : Int) + 20000000000000) ?_ (by omega) ?_
    · rw [late, if_pos (by omega)]
    · rw [if_pos rfl, if_pos (by omega)]
      simp only [numberTm, PgTm.mk.injEq]
      omega
  · by_cases between : n < 700101000000
    · refine .err ?_ ?_
      · rw [late, if_neg (by omega), if_pos (by omega)]
      · simp only [Plausible]
        omega
    · by_cases second : n ≤ 991231235959
      · refine .fields ((n : Int) + 19000000000000) ?_ (by omega) ?_
        · rw [late, if_neg (by omega), if_neg (by omega), if_pos (by omega)]
        · rw [if_pos rfl, if_neg (by omega)]
          simp only [numberTm, PgTm.mk.injEq]
          omega
      · refine .both n ?_ ?_ ?_
        · rw [late]
          iterate 3 rw [if_neg (by omega)]
        · simp only [Plausible, numberTm]
          omega
        · simp only [Plausible]
          omega

theorem spells_yyyymmddhhmmss (low : 10000000000000 ≤ n) (high : n < 100000000000000) :
    Spells n ⟨century 4 (n / 10000000000), n / 100000000 % 100, n / 1000000 % 100, n / 10000 % 100, n / 100 % 100,
      n % 100⟩ := by
  refine .fields n ?_ (by omega) ?_
  · by_cases direct : 10000101000000 ≤ n
    · rw [widened, if_pos (by omega), if_neg (by omega)]
    · rw [widened]
      iterate 11 rw [if_neg (by omega)]
  · simp only [numberTm, PgTm.mk.injEq, century_four]
    omega

structure Agree (outside : Int) (n : Nat) : Prop where
  fields (tm : PgTm) : mysDecodeNumberDatetime outside n noZeros = .ok (some tm) ↔
    ∃ d, mysDecodeStringDatetime outside (decimal n) noZeros = some d ∧ d.tm = tm
  refused : mysDecodeNumberDatetime outside n noZeros = .ok none ↔
    mysDecodeStringDatetime outside (decimal n) noZeros = none
  whole (d : Decoded) : mysDecodeStringDatetime outside (decimal n) noZeros = some d → d.fsec = 0 ∧ d.tz = none

theorem agree_of_spells {w k : Nat} (length : (decimal n).length = w + 2 * k)
    (layout : (w = 2 ∨ w = 4) ∧ (k = 2 ∨ k = 5))
    (year : (if w + 2 * k = 4 ∨ w + 2 * k = 8 ∨ 14 ≤ w + 2 * k then 4 else 2) = w) (positive : n / 100 ^ k ≠ 0)
    (spells : Spells n ((numberScan w k n).tm w)) : Agree outside n := by
  have parts : (numberScan w k n).parts.length = k + 1 := by simp [numberScan, pairs_length]
  have noFraction : (numberScan w k n).parts[6]? = none := List.getElem?_eq_none (by omega)
  have fsec : (numberScan w k n).fsec = 0 := by simp [Scan.fsec, Scan.part, Scan.partLen, noFraction]
  have notZero : (numberScan w k n).notZeroDate = true := by simp [numberScan, Scan.notZeroDate, positive]
  have scanned := @scanDatetime_decimal k n w displacementHere length (by omega) (by omega) (by omega) year
  have string := @mysDecodeStringDatetime_whole outside (decimal n) noZeros w _ scanned rfl (by omega)
  rw [fsec, notZero] at string
  have decoded := @Spells.decode outside n _ spells
  cases checked : mysCheckTimestampRange ((numberScan w k n).tm w) 0 && mysCheckDate outside ((numberScan w k n).tm w)
    true noZeros with
  | false =>
    rw [checked] at string decoded
    exact ⟨fun tm => by simp [string, decoded], by simp [string, decoded],
      fun d accepted => by simp [string] at accepted⟩
  | true =>
    rw [checked] at string decoded
    refine ⟨fun tm => by simp [string, decoded], by simp [string, decoded], ?_⟩
    intro d accepted
    rw [string, if_pos rfl, Option.some.injEq] at accepted
    rw [← accepted]
    exact ⟨rfl, rfl⟩

/-- On 6, 8, 12 and 14 digits the two decoders agree. -/
theorem number_string_datetime (outside : Int) (n : Nat) (layout : (decimal n).length ∈ [6, 8, 12, 14]) :
    Agree outside n := by
  simp only [mem_cons, not_mem_nil, or_false] at layout
  rcases layout with six | eight | twelve | fourteen
  · have bounds := decimal_length_bounds (by decide) six
    refine agree_of_spells (w := 2) (k := 2) six (by decide) (by decide) (by omega) ?_
    rw [numberScan_date 2 (by omega)]
    exact spells_yymmdd (by omega) (by omega)
  · have bounds := decimal_length_bounds (by decide) eight
    refine agree_of_spells (w := 4) (k := 2) eight (by decide) (by decide) (by omega) ?_
    rw [numberScan_date 4 (by omega)]
    exact spells_yyyymmdd (by omega) (by omega)
  · have bounds := decimal_length_bounds (by decide) twelve
    refine agree_of_spells (w := 2) (k := 5) twelve (by decide) (by decide) (by omega) ?_
    rw [numberScan_datetime 2 (by omega)]
    exact spells_yymmddhhmmss (by omega) (by omega)
  · have bounds := decimal_length_bounds (by decide) fourteen
    refine agree_of_spells (w := 4) (k := 5) fourteen (by decide) (by decide) (by omega) ?_
    rw [numberScan_datetime 4 (by omega)]
    exact spells_yyyymmddhhmmss (by omega) (by omega)

theorem number_string_datetime_accepted : Agree 0 691231235959 ∧
    mysDecodeNumberDatetime 0 691231235959 noZeros = .ok (some ⟨2069, 12, 31, 23, 59, 59⟩) :=
  ⟨number_string_datetime 0 691231235959 (by decide), by decide⟩

end Agreement

end OpenHalo.Datetime
