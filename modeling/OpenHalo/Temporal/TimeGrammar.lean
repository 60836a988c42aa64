import OpenHalo.Temporal.PreTime

namespace OpenHalo.PreTime
open Octets Datetime List

/-- Days and a time, a time with colons, or digits alone. -/
inductive Layout
  | days (day : Digits) (gap : Blanks) (separated : gap.bytes ≠ []) (hour : Numeral)
    (further : Option (Numeral × Option Numeral))
  | colons (hour : Digits) (gap : Blanks) (minute : Digits) (second : Option Digits)
  | plain (group : Digits) (gap : Blanks)

namespace Layout

/-- The digits in front, which `scanDay` reads. -/
def first : Layout → Digits
  | days day .. => day
  | colons hour .. => hour
  | plain group _ => group

def text : Layout → Bytes
  | days day gap _ hour further => day.bytes ++ (gap.bytes ++ (hour.digits ++ further.elim [] fun (minute, second) =>
      58 :: (minute.digits ++ second.elim [] fun second => 58 :: second.digits)))
  | colons hour gap minute second =>
      hour.bytes ++ (gap.bytes ++ 58 :: (minute.bytes ++ second.elim [] fun second => 58 :: second.bytes))
  | plain group gap => group.bytes ++ gap.bytes

def hours : Layout → Nat
  | days day _ _ hour _ => 24 * day.value + hour.value
  | colons hour .. => hour.value
  | plain group _ => group.value / 10000

def minutes : Layout → Nat
  | days _ _ _ _ further => further.elim 0 fun (minute, _) => minute.value
  | colons _ _ minute _ => minute.value
  | plain group _ => group.value / 100 % 100

def seconds : Layout → Nat
  | days _ _ _ _ further => further.elim 0 fun (_, second) => second.elim 0 Numeral.value
  | colons _ _ _ second => second.elim 0 Row.value
  | plain group _ => group.value % 100

/-- A time of at most 838 hours. -/
def InRange (layout : Layout) : Prop := layout.hours ≤ 838 ∧ layout.minutes ≤ 59 ∧ layout.seconds ≤ 59

/-- What is read modulo 2^64 is in the range. -/
def Counts (layout : Layout) : Prop :=
  layout.hours % 2 ^ 64 ≤ 838 ∧ layout.minutes % 2 ^ 64 ≤ 59 ∧ layout.seconds % 2 ^ 64 ≤ 59

/-- The string is not refused for its numbers. -/
def InRangeWord (layout : Layout) : Prop := layout.first.value ≤ 4294967295 ∧ layout.Counts

instance (layout : Layout) : Decidable layout.InRange := inferInstanceAs (Decidable (_ ∧ _))

instance (layout : Layout) : Decidable layout.Counts := inferInstanceAs (Decidable (_ ∧ _))

instance (layout : Layout) : Decidable layout.InRangeWord := inferInstanceAs (Decidable (_ ∧ _))

theorem InRange.word {layout : Layout} (range : layout.InRange) : layout.InRangeWord := by
  obtain ⟨hours, minutes, seconds⟩ := range
  have small : layout.first.value ≤ 4294967295 := by
    cases layout <;> simp only [Layout.hours, first] at hours ⊢ <;> omega
  refine ⟨small, ?_⟩
  unfold Counts
  omega

end Layout

/-- The first seven digits of a fraction. -/
def tenMillionths (ds : Digits) : Nat := digitsValue (ds.bytes.take 7) * 10 ^ (7 - (ds.bytes.take 7).length)

def ending (fraction : Option Digits) (trail : Blanks) : Bytes :=
  fraction.elim [] (fun ds => 46 :: ds.bytes) ++ trail.bytes

/-- A time as the grammar has it. -/
structure Written where
  lead : Blanks
  negative : Bool
  layout : Layout
  fraction : Option Digits
  trail : Blanks

def Written.text (w : Written) : Bytes :=
  w.lead.bytes ++ ((if w.negative then [45] else []) ++ (w.layout.text ++ ending w.fraction w.trail))

/-- `h:mm:ss.fffffff`. -/
def clockText (hour minute second fraction : Nat) : Bytes :=
  decimal hour ++ ascii ":" ++ paddedDecimal 2 minute ++ ascii ":" ++ paddedDecimal 2 second ++ ascii "." ++
  paddedDecimal 7 fraction

/-- The text that stands for the time. -/
def Written.time (w : Written) : Bytes :=
  (if w.negative then ascii "-" else []) ++
    clockText w.layout.hours w.layout.minutes w.layout.seconds (w.fraction.elim 0 tenMillionths)

section Groups

variable {ds rest : Bytes} {value : Nat}

/-- Digits are read modulo 2^64. -/
theorem scanNumber_row (digits : ∀ c ∈ ds, isDigit c = true) (ends : Ends isDigit rest) (word : value < 2 ^ 64) :
    scanNumber value (ds ++ rest) = ((value * 10 ^ ds.length + digitsValue ds) % 2 ^ 64, rest) := by
  induction ds generalizing value with
  | nil =>
    have stays : scanNumber value rest = (value, rest) := by
      cases rest with
      | nil => rfl
      | cons c rest => simp [scanNumber, ends_cons.mp ends]
    rw [nil_append, stays, length_nil, Nat.pow_zero, Nat.mul_one, show digitsValue [] = 0 from rfl, Nat.add_zero,
      Nat.mod_eq_of_lt word]
  | cons d ds ih =>
    rw [cons_append, scanNumber, if_pos (digits d (mem_cons_self ..)),
      ih (forall_mem_cons.mp digits).2 (Nat.mod_lt _ (by decide)), Nat.add_mod, Nat.mod_mul_mod, ← Nat.add_mod,
      digitsValue_cons, length_cons, Nat.pow_succ]
    congr 2
    ring

theorem scanNumber_group (digits : Digits) (ends : Ends isDigit rest) :
    scanNumber 0 (digits.bytes ++ rest) = (digits.value % 2 ^ 64, rest) := by
  rw [scanNumber_row digits.all ends (by decide), Nat.zero_mul, Nat.zero_add]
  rfl

theorem scanNumber_numeral (n : Numeral) (ends : Ends isDigit rest) :
    scanNumber 0 (n.digits ++ rest) = (n.value % 2 ^ 64, rest) :=
  scanNumber_group ⟨n.digits, n.numeric⟩ ends

theorem scanDay_row (digits : ∀ c ∈ ds, isDigit c = true) (ends : Ends isDigit rest) (small : value ≤ 4294967295) :
    scanDay value (ds ++ rest) = if value * 10 ^ ds.length + digitsValue ds ≤ 4294967295 then some rest else none := by
  induction ds generalizing value with
  | nil =>
    have upTo : value * 10 ^ ([] : Bytes).length + digitsValue [] ≤ 4294967295 := by
      simpa [digitsValue, Positional.value] using small
    rw [if_pos upTo]
    cases rest with
    | nil => rfl
    | cons c rest => simp [scanDay, ends_cons.mp ends]
  | cons d ds ih =>
    have shift : value * 10 ^ (d :: ds).length + digitsValue (d :: ds) =
        (value * 10 + (d.toNat - 48)) * 10 ^ ds.length + digitsValue ds := by
      rw [digitsValue_cons, length_cons]
      ring
    rw [cons_append, scanDay, if_pos (digits d (mem_cons_self ..)), shift]
    by_cases beyond : 4294967295 < value * 10 + (d.toNat - 48)
    · have grows : value * 10 + (d.toNat - 48) ≤ (value * 10 + (d.toNat - 48)) * 10 ^ ds.length :=
        Nat.le_mul_of_pos_right _ (Nat.pow_pos (by decide))
      rw [if_pos beyond, if_neg (by omega)]
    · rw [if_neg beyond, ih (forall_mem_cons.mp digits).2 (by omega)]

end Groups

section Fractions

variable {hour minute second : Nat} {tail : Bytes}

/-- What is left behind a fraction: with at most six digits, a byte and the digits behind it are skipped. -/
def behindFraction (ds : Digits) (tail : Bytes) : Bytes :=
  if ds.bytes.length ≤ 6 then (tail.drop 1).dropWhile isDigit else tail

/-- A fraction is read to seven digits. -/
theorem scanFraction_dot (ds : Digits) (ends : Ends isDigit tail) : ∃ fsec nanoSecond, fsec ≤ 999999 ∧ nanoSecond ≤ 9 ∧
    fsec * 10 + nanoSecond = tenMillionths ds ∧
    scanFraction (46 :: (ds.bytes ++ tail)) = (fsec, nanoSecond, behindFraction ds tail) := by
  have row := takeWhile_row ds.all ends
  by_cases short : ds.bytes.length ≤ 6
  · have micro : ds.bytes.take 6 = ds.bytes := take_of_length_le short
    have seven : ds.bytes.take 7 = ds.bytes := take_of_length_le (by omega)
    have noDigit := ends_iff_head.mp ends
    have bound := digitsValue_lt ds.all
    have power : 10 ^ ds.bytes.length * 10 ^ (6 - ds.bytes.length) = 10 ^ 6 := by
      rw [← Nat.pow_add]
      congr 1
      omega
    have scaled : digitsValue ds.bytes * 10 ^ (6 - ds.bytes.length) < 10 ^ 6 := by
      rw [← power]
      exact Nat.mul_lt_mul_of_pos_right bound (Nat.pow_pos (by decide))
    refine ⟨digitsValue ds.bytes * 10 ^ (6 - ds.bytes.length), 0, by omega, by decide, ?_, ?_⟩
    · rw [tenMillionths, seven, show 7 - ds.bytes.length = 6 - ds.bytes.length + 1 by omega, Nat.pow_succ]
      ring
    · have value := foldl_digits ds.bytes 0
      rw [Nat.zero_mul, Nat.zero_add] at value
      simp only [scanFraction, row, micro, drop_left, noDigit, value, behindFraction, if_pos short]
      rfl
  · obtain ⟨front, d, back, split, six⟩ : ∃ front d back, ds.bytes = front ++ d :: back ∧ front.length = 6 := by
      refine ⟨ds.bytes.take 6, (ds.bytes.drop 6).headD 0, ds.bytes.drop 7, ?_, by rw [length_take]; omega⟩
      have further := drop_eq_getElem_cons (show 6 < ds.bytes.length by omega)
      rw [further, headD_cons, ← further, take_append_drop]
    have digits := ds.all
    rw [split] at digits row
    have digit : isDigit d = true := digits d (by simp)
    have backDigits : ∀ c ∈ back, isDigit c = true := fun c member => digits c (by simp [member])
    have frontDigits : ∀ c ∈ front, isDigit c = true := fun c member => digits c (by simp [member])
    have nine := (isDigit_value digit).2
    have bound := digitsValue_lt frontDigits
    rw [six] at bound
    have micro : (front ++ d :: back).take 6 = front := take_left' six
    refine ⟨digitsValue front, d.toNat - 48, by omega, by omega, ?_, ?_⟩
    · have seven : (front ++ d :: back).take 7 = front ++ [d] := by
        rw [show front ++ d :: back = (front ++ [d]) ++ back by simp]
        exact take_left' (by simp [six])
      rw [tenMillionths, split, seven, digitsValue_append]
      simp [six, digitsValue, Positional.value]
    · have value := foldl_digits front 0
      have left := dropWhile_row backDigits ends
      have behind : (front ++ d :: back ++ tail).drop 6 = d :: (back ++ tail) := by
        rw [append_assoc]
        exact drop_left' six
      have whole : behindFraction ds tail = tail := if_neg short
      simp only [whole, scanFraction, split, row, micro, value, six, behind, List.head?_cons, Option.any_some, digit,
        headD_cons, drop_one, tail_cons, left]
      simp

theorem timeText_eq {fsec nanoSecond : Nat} (micro : fsec ≤ 999999) (nano : nanoSecond ≤ 9) :
    timeText hour minute second fsec nanoSecond = clockText hour minute second (fsec * 10 + nanoSecond) := by
  have six := paddedDecimal_length (by decide : 0 < 6) (by omega : fsec < 10 ^ 6)
  have one : (decimal nanoSecond).length = 1 := by
    have short := decimal_length (by decide : 0 < 1) (by omega : nanoSecond < 10 ^ 1)
    have positive := (Numeral.ofNat nanoSecond).length_pos
    simp only [Numeral.ofNat] at positive
    omega
  have seven : paddedDecimal 6 fsec ++ decimal nanoSecond = paddedDecimal 7 (fsec * 10 + nanoSecond) := by
    apply digits_ext
    · exact forall_mem_append.mpr ⟨paddedDecimal_digits _ _, decimal_digits _⟩
    · exact paddedDecimal_digits _ _
    · rw [length_append, six, one, paddedDecimal_length (by decide) (by omega)]
    · rw [digitsValue_append, digitsValue_paddedDecimal, digitsValue_decimal, digitsValue_paddedDecimal, one]
      rfl
  rw [timeText, clockText, append_assoc _ (paddedDecimal 6 fsec), seven]

theorem finishTime_eq {str rest : Bytes} {fsec nanoSecond : Nat} (scanned : scanFraction str = (fsec, nanoSecond, rest))
    (micro : fsec ≤ 999999) (nano : nanoSecond ≤ 9) : finishTime hour minute second str =
      if rest.all isBlank = true ∧ hour ≤ 838 ∧ minute ≤ 59 ∧ second ≤ 59 then
        some (clockText hour minute second (fsec * 10 + nanoSecond))
      else none := by
  simp only [finishTime, scanned, timeText_eq micro nano, MYS_MAX_TIME_HOUR]
  cases blank : rest.all isBlank with
  | false => simp
  | true =>
    by_cases range : hour ≤ 838 ∧ minute ≤ 59 ∧ second ≤ 59
    · rw [if_neg (by decide), if_neg (by omega), if_pos ⟨rfl, range⟩]
    · rw [if_neg (by decide), if_pos (by omega), if_neg fun both => range both.2]

/-- Only blanks may stand behind what a fraction leaves. -/
theorem finishTime_dot (ds : Digits) (ends : Ends isDigit tail) :
    finishTime hour minute second (46 :: (ds.bytes ++ tail)) =
      if (behindFraction ds tail).all isBlank = true ∧ hour ≤ 838 ∧ minute ≤ 59 ∧ second ≤ 59
      then some (clockText hour minute second (tenMillionths ds)) else none := by
  obtain ⟨fsec, nanoSecond, micro, nano, value, scanned⟩ := scanFraction_dot ds ends
  rw [finishTime_eq scanned micro nano, value]

theorem finishTime_blank (ends : Ends (· == 46) tail) : finishTime hour minute second tail =
    if tail.all isBlank = true ∧ hour ≤ 838 ∧ minute ≤ 59 ∧ second ≤ 59 then some (clockText hour minute second 0)
    else none := by
  have scanned : scanFraction tail = (0, 0, tail) := by
    cases tail with
    | nil => rfl
    | cons c tail =>
      have noDot : c ≠ 46 := by simpa using ends_cons.mp ends
      unfold scanFraction
      split
      · rename_i same
        exact absurd (List.cons.inj same).1 noDot
      · rfl
  rw [finishTime_eq scanned (by decide) (by decide)]

end Fractions

section Layouts

variable {rest more : Bytes}

theorem ends_separated {gap : Blanks} (more : Bytes) (separated : gap.bytes ≠ []) :
    Ends isDigit (gap.bytes ++ more) := by
  obtain ⟨c, bytes, text, blank⟩ := Row.exists_cons separated
  rw [text]
  exact ends_cons.mpr (isBlank_not_digit blank)

theorem head_blank {gap : Blanks} (more : Bytes) (separated : gap.bytes ≠ []) :
    (gap.bytes ++ more).head?.any isBlank = true := by
  obtain ⟨c, bytes, text, blank⟩ := Row.exists_cons separated
  rw [text]
  exact blank

theorem ends_numeral (n : Numeral) (more : Bytes) : Ends isBlank (n.digits ++ more) := by
  obtain ⟨ds, nonempty, numeric⟩ := n
  cases ds with
  | nil => exact absurd rfl nonempty
  | cons d ds =>
    apply ends_cons.mpr
    apply Bool.eq_false_iff.mpr
    intro blank
    exact absurd (numeric d (mem_cons_self ..)) (by simp [isBlank_not_digit blank])

theorem skipColon_numeral (n : Numeral) (more : Bytes) :
    skipColon (58 :: (n.digits ++ more)) = some (n.digits ++ more) := by
  obtain ⟨ds, nonempty, numeric⟩ := n
  cases ds with
  | nil => exact absurd rfl nonempty
  | cons d ds => simp [skipColon, numeric d (mem_cons_self ..)]

/-- The layout does not go on in the rest. -/
def Layout.Closed (rest : Bytes) : Layout → Prop
  | .days _ _ _ _ (some (_, some _)) => Ends isDigit rest
  | .days .. => Ends isDigit rest ∧ skipColon rest = none
  | .colons _ _ _ (some _) => Ends isDigit rest
  | .colons _ _ _ none => Ends isDigit rest ∧ Ends (· == 58) rest
  | .plain .. => Ends isDigit rest ∧ Ends isBlank rest ∧ Ends (· == 58) rest

/-- What is left once the numbers are read. -/
def Layout.finish (layout : Layout) (rest : Bytes) : Option Bytes :=
  finishTime (layout.hours % 2 ^ 64) (layout.minutes % 2 ^ 64) (layout.seconds % 2 ^ 64) rest

theorem guard_false {str : Bytes} (nonempty : str ≠ []) (start : str.head? ≠ some 32) :
    (str.isEmpty || str.head? == some 32) = false := by
  rw [Bool.or_eq_false_iff, beq_eq_false_iff_ne]
  exact ⟨by simpa using nonempty, start⟩

/-- The three formats, by what follows the first digits. -/
theorem readLayout_group (digits : Digits) (ends : Ends isDigit rest) : readLayout (digits.bytes ++ rest) =
    if digits.value ≤ 4294967295 then
      if rest.head?.any isBlank && (rest.dropWhile isBlank).head?.any isDigit then
        mysProcessStringTimeForFormat1 (digits.bytes ++ rest)
      else if (rest.dropWhile isBlank).head? == some 58 then mysProcessStringTimeForFormat2 (digits.bytes ++ rest)
      else mysProcessStringTimeForFormat3 (digits.bytes ++ rest)
    else none := by
  rw [readLayout, scanDay_row digits.all ends (by decide), Nat.zero_mul, Nat.zero_add, ← Row.value]
  by_cases small : digits.value ≤ 4294967295
  · rw [if_pos small, if_pos small]
  · rw [if_neg small, if_neg small]

theorem Layout.Closed.digits {layout : Layout} (closed : layout.Closed rest) : Ends isDigit rest := by
  unfold Layout.Closed at closed
  split at closed
  · exact closed
  · exact closed.1
  · exact closed
  · exact closed.1
  · exact closed.1

section Days

variable {day : Digits} {gap : Blanks} {separated : gap.bytes ≠ []} {hour : Numeral}
  {further : Option (Numeral × Option Numeral)}

def furtherText (further : Option (Numeral × Option Numeral)) : Bytes :=
  further.elim [] fun (minute, second) => 58 :: (minute.digits ++ second.elim [] fun second => 58 :: second.digits)

theorem days_text : (Layout.days day gap separated hour further).text ++ rest =
    day.bytes ++ (gap.bytes ++ (hour.digits ++ (furtherText further ++ rest))) := by
  simp [Layout.text, furtherText]

theorem behindHour_eq (closed : (Layout.days day gap separated hour further).Closed rest) :
    behindHour ((24 * day.value + hour.value) % 2 ^ 64) (furtherText further ++ rest) =
      (Layout.days day gap separated hour further).finish rest := by
  cases further with
  | none =>
    show behindHour _ rest = _
    rw [behindHour, closed.2]
    rfl
  | some pair =>
    obtain ⟨minute, second⟩ := pair
    cases second with
    | none =>
      have text : furtherText (some (minute, none)) ++ rest = 58 :: (minute.digits ++ rest) := by simp [furtherText]
      rw [text, behindHour, skipColon_numeral]
      simp only [scanNumber_numeral minute closed.digits]
      rw [closed.2]
      rfl
    | some second =>
      have text : furtherText (some (minute, some second)) ++ rest =
          58 :: (minute.digits ++ 58 :: (second.digits ++ rest)) := by
        simp [furtherText]
      have colon : Ends isDigit (58 :: (second.digits ++ rest)) := ends_cons.mpr (by decide)
      rw [text, behindHour, skipColon_numeral]
      simp only [scanNumber_numeral minute colon]
      rw [skipColon_numeral]
      simp only [scanNumber_numeral second closed.digits]
      rfl

theorem readLayout_days (closed : (Layout.days day gap separated hour further).Closed rest)
    (start : ((Layout.days day gap separated hour further).text ++ rest).head? ≠ some 32) :
    readLayout ((Layout.days day gap separated hour further).text ++ rest) =
      if day.value ≤ 4294967295 then (Layout.days day gap separated hour further).finish rest else none := by
  have behind : Ends isDigit (furtherText further ++ rest) := by
    cases further with
    | none => exact closed.digits
    | some pair => exact ends_cons.mpr (by decide)
  rw [← behindHour_eq closed]
  rw [days_text] at start ⊢
  generalize furtherText further ++ rest = more at start behind ⊢
  have ends := ends_separated (hour.digits ++ more) separated
  have blank := head_blank (hour.digits ++ more) separated
  have dropped := dropWhile_row gap.all (ends_numeral hour more)
  have guard := guard_false (by simp [separated]) start
  have total : (day.value % 2 ^ 64 * 24 + hour.value % 2 ^ 64) % 2 ^ 64 = (24 * day.value + hour.value) % 2 ^ 64 := by
    omega
  rw [readLayout_group day ends]
  simp only [blank, dropped, head_digit, Bool.and_self, if_true]
  rw [mysProcessStringTimeForFormat1, guard]
  simp only [scanNumber_group day ends, blank, dropped, scanNumber_numeral hour behind, total, Bool.not_true,
    Bool.and_false, Bool.false_eq_true, if_false]

end Days

section Colons

variable {hour minute : Digits} {gap : Blanks} {second : Option Digits}

theorem colons_text : (Layout.colons hour gap minute second).text ++ rest =
    hour.bytes ++ (gap.bytes ++ 58 ::
      (minute.bytes ++ (second.elim [] (fun second => 58 :: second.bytes) ++ rest))) := by
  simp [Layout.text]

theorem readLayout_colons (closed : (Layout.colons hour gap minute second).Closed rest)
    (start : ((Layout.colons hour gap minute second).text ++ rest).head? ≠ some 32) :
    readLayout ((Layout.colons hour gap minute second).text ++ rest) =
      if hour.value ≤ 4294967295 then (Layout.colons hour gap minute second).finish rest else none := by
  rw [colons_text] at start ⊢
  have colon : ∀ more, Ends isDigit (58 :: more) := fun _ => ends_cons.mpr (by decide)
  have ends : ∀ more, Ends isDigit (gap.bytes ++ 58 :: more) :=
    fun more => (colon more).behind gap fun _ => isBlank_not_digit
  have dropped : ∀ more, (gap.bytes ++ 58 :: more).dropWhile isBlank = 58 :: more :=
    fun more => dropWhile_row gap.all (ends_cons.mpr (by decide))
  have guard := guard_false (by simp) start
  rw [readLayout_group hour (ends _)]
  simp only [dropped, List.head?_cons, Option.any_some, show isDigit 58 = false from rfl, Bool.and_false,
    Bool.false_eq_true, if_false, beq_self_eq_true, if_true]
  rw [mysProcessStringTimeForFormat2, guard]
  simp only [scanNumber_group hour (ends _), dropped, Bool.false_eq_true, if_false]
  congr 1
  cases second with
  | none =>
    have noColon : Ends (· == 58) rest := closed.2
    simp only [Option.elim_none, nil_append, scanNumber_group minute closed.digits]
    split
    · exact absurd (ends_cons.mp noColon) (by decide)
    · rfl
  | some second =>
    simp only [Option.elim_some, cons_append, scanNumber_group minute (colon _), scanNumber_group second closed.digits]
    rfl

end Colons

theorem readLayout_plain {group : Digits} {gap : Blanks} (closed : (Layout.plain group gap).Closed rest)
    (start : ((Layout.plain group gap).text ++ rest).head? ≠ some 32)
    (nonempty : (Layout.plain group gap).text ++ rest ≠ []) :
    readLayout ((Layout.plain group gap).text ++ rest) =
      if group.value ≤ 4294967295 then (Layout.plain group gap).finish rest else none := by
  have text : (Layout.plain group gap).text ++ rest = group.bytes ++ (gap.bytes ++ rest) := append_assoc ..
  obtain ⟨noDigit, noBlank, noColon⟩ := closed
  have ends : Ends isDigit (gap.bytes ++ rest) := noDigit.behind gap fun _ => isBlank_not_digit
  have dropped := dropWhile_row gap.all noBlank
  have behindDigit := ends_iff_head.mp noDigit
  have behindColon : (rest.head? == some 58) = false := by
    cases rest with
    | nil => rfl
    | cons c rest => simpa using ends_cons.mp noColon
  rw [text] at start nonempty ⊢
  rw [readLayout_group group ends]
  simp only [dropped, behindDigit, behindColon, Bool.and_false]
  by_cases small : group.value ≤ 4294967295
  · have word : group.value % 2 ^ 64 = group.value := by omega
    rw [if_pos small, if_pos small, mysProcessStringTimeForFormat3, guard_false nonempty start]
    simp only [scanNumber_group group ends, dropped, word, Bool.false_eq_true, if_false]
    show _ = finishTime (group.value / 10000 % 2 ^ 64) (group.value / 100 % 100 % 2 ^ 64) (group.value % 100 % 2 ^ 64)
        rest
    rw [Nat.mod_eq_of_lt (by omega : group.value / 10000 < 2 ^ 64),
      Nat.mod_eq_of_lt (by omega : group.value / 100 % 100 < 2 ^ 64),
      Nat.mod_eq_of_lt (by omega : group.value % 100 < 2 ^ 64)]
  · rw [if_neg small, if_neg small]

/-- A layout is read number by number. -/
theorem readLayout_eq (layout : Layout) (closed : layout.Closed rest) (start : (layout.text ++ rest).head? ≠ some 32)
    (nonempty : layout.text ++ rest ≠ []) :
    readLayout (layout.text ++ rest) = if layout.first.value ≤ 4294967295 then layout.finish rest else none := by
  cases layout with
  | days day gap separated hour further => exact readLayout_days closed start
  | colons hour gap minute second => exact readLayout_colons closed start
  | plain group gap => exact readLayout_plain closed start nonempty

theorem exists_numeral (digit : rest.head?.any isDigit = true) :
    ∃ (n : Numeral) (more : Bytes), rest = n.digits ++ more ∧ Ends isDigit more := by
  obtain ⟨ds, more, rfl, digits, ends⟩ := exists_row isDigit rest
  cases ds with
  | nil =>
    rw [nil_append, ends_iff_head.mp ends] at digit
    cases digit
  | cons d ds => exact ⟨⟨d :: ds, cons_ne_nil _ _, digits⟩, more, rfl, ends⟩

theorem skipColon_eq_some (skipped : skipColon rest = some more) :
    rest = 58 :: more ∧ more.head?.any isDigit = true := by
  unfold skipColon at skipped
  split at skipped
  · split at skipped
    · rename_i digit
      cases skipped
      exact ⟨rfl, by simpa using digit⟩
    · cases skipped
  · cases skipped

theorem readLayout_space {str : Bytes} (space : str.head? = some 32) : readLayout str = none := by
  have guard : (str.isEmpty || str.head? == some 32) = true := by simp [space]
  unfold readLayout mysProcessStringTimeForFormat1 mysProcessStringTimeForFormat2 mysProcessStringTimeForFormat3
  simp only [guard, if_true, ite_self]
  split <;> rfl

/-- Every string begins with some layout. -/
theorem exists_layout (body : Bytes) :
    ∃ (layout : Layout) (rest : Bytes), body = layout.text ++ rest ∧ layout.Closed rest := by
  obtain ⟨ds, behind, rfl, digits, noDigit⟩ := exists_row isDigit body
  obtain ⟨gap, rest, rfl, blanks, noBlank⟩ := exists_row isBlank behind
  by_cases colon : ∃ more, rest = 58 :: more
  · obtain ⟨more, rfl⟩ := colon
    obtain ⟨minute, more, rfl, minuteDigits, minuteEnds⟩ := exists_row isDigit more
    by_cases second : ∃ later, more = 58 :: later
    · obtain ⟨later, rfl⟩ := second
      obtain ⟨second, later, rfl, secondDigits, secondEnds⟩ := exists_row isDigit later
      exact ⟨.colons ⟨ds, digits⟩ ⟨gap, blanks⟩ ⟨minute, minuteDigits⟩ (some ⟨second, secondDigits⟩),
        later, by simp [Layout.text], secondEnds⟩
    · exact ⟨.colons ⟨ds, digits⟩ ⟨gap, blanks⟩ ⟨minute, minuteDigits⟩ none, more, by simp [Layout.text], minuteEnds,
        ends_byte fun later same => second ⟨later, same⟩⟩
  · have noColon : Ends (· == 58) rest := ends_byte fun more same => colon ⟨more, same⟩
    by_cases digit : rest.head?.any isDigit = true
    · have separated : gap ≠ [] := by
        rintro rfl
        have none := ends_iff_head.mp noDigit
        rw [nil_append, digit] at none
        cases none
      obtain ⟨hour, more, rfl, hourEnds⟩ := exists_numeral digit
      cases skipped : skipColon more with
      | none =>
          exact ⟨.days ⟨ds, digits⟩ ⟨gap, blanks⟩ separated hour none, more, by simp [Layout.text], hourEnds, skipped⟩
      | some later =>
        obtain ⟨rfl, further⟩ := skipColon_eq_some skipped
        obtain ⟨minute, later, rfl, minuteEnds⟩ := exists_numeral further
        cases again : skipColon later with
        | none =>
            exact ⟨.days ⟨ds, digits⟩ ⟨gap, blanks⟩ separated hour (some (minute, none)),
              later, by simp [Layout.text], minuteEnds, again⟩
        | some last =>
          obtain ⟨rfl, seconds⟩ := skipColon_eq_some again
          obtain ⟨second, last, rfl, secondEnds⟩ := exists_numeral seconds
          exact ⟨.days ⟨ds, digits⟩ ⟨gap, blanks⟩ separated hour (some (minute, some second)),
            last, by simp [Layout.text], secondEnds⟩
    · exact ⟨.plain ⟨ds, digits⟩ ⟨gap, blanks⟩,
        rest, by simp [Layout.text], ends_iff_head.mpr (Bool.eq_false_iff.mpr digit), noBlank, noColon⟩

end Layouts

section Endings

variable {layout : Layout} {rest : Bytes}

variable (fraction : Option Digits) (trail : Blanks)

theorem ends_ending {p : UInt8 → Bool} (dot : p 46 = false) (blank : ∀ c, isBlank c = true → p c = false) :
    Ends p (ending fraction trail) := by
  cases fraction with
  | some ds => exact ends_cons.mpr dot
  | none => exact trail.ends blank

theorem ending_noColon : Ends (· == 58) (ending fraction trail) :=
  ends_ending fraction trail (by decide)
  (forall_byte (p := fun c => isBlank c = true → (c == 58) = false) (by decide +kernel))

theorem ending_noDigit : Ends isDigit (ending fraction trail) :=
  ends_ending fraction trail (by decide) fun _ => isBlank_not_digit

theorem Layout.closed_of (noDigit : Ends isDigit rest) (noColon : Ends (· == 58) rest)
    (noBlank : ∀ group gap, layout = .plain group gap → Ends isBlank rest) : layout.Closed rest := by
  have noFurther : skipColon rest = none := by
    unfold skipColon
    split
    · exact absurd (ends_cons.mp noColon) (by decide)
    · rfl
  rcases layout with ⟨day, gap, separated, hour, _ | ⟨minute, _ | second⟩⟩ | ⟨hour, gap, minute, _ | second⟩ |
    ⟨group, gap⟩
  · exact ⟨noDigit, noFurther⟩
  · exact ⟨noDigit, noFurther⟩
  · exact noDigit
  · exact ⟨noDigit, noColon⟩
  · exact noDigit
  · exact ⟨noDigit, noBlank group gap rfl, noColon⟩

/-- Blanks in front of an ending belong to either. -/
theorem closed_ending (layout : Layout) (fraction : Option Digits) (trail : Blanks) :
    ∃ (layout' : Layout) (trail' : Blanks),
    layout'.text ++ ending fraction trail' = layout.text ++ ending fraction trail ∧
    layout'.Closed (ending fraction trail') ∧
      layout'.first = layout.first ∧ layout'.hours = layout.hours ∧ layout'.minutes = layout.minutes ∧
      layout'.seconds = layout.seconds := by
  have noDigit := ending_noDigit fraction trail
  have noColon := ending_noColon fraction trail
  cases layout with
  | days | colons => exact ⟨_, trail, rfl, Layout.closed_of noDigit noColon nofun, rfl, rfl, rfl, rfl⟩
  | plain group gap =>
    cases fraction with
    | some ds =>
      exact ⟨_, trail, rfl, Layout.closed_of noDigit noColon (fun _ _ _ => ends_cons.mpr (by decide)), rfl, rfl, rfl,
        rfl⟩
    | none =>
      exact ⟨.plain group (gap.append trail),
        .empty, by simp [Layout.text, ending, Row.append, Row.empty], ⟨ends_nil, ends_nil, ends_nil⟩,
        rfl, rfl, rfl, rfl⟩

/-- At most six digits, a byte that is no digit, and digits and blanks behind it. -/
structure Skipping where
  fraction : Digits
  short : fraction.bytes.length ≤ 6
  byte : UInt8
  noDigit : isDigit byte = false
  skipped : Digits
  trail : Blanks

def Skipping.text (e : Skipping) : Bytes := 46 :: (e.fraction.bytes ++ e.byte :: (e.skipped.bytes ++ e.trail.bytes))

def Layout.timeWord (layout : Layout) (fraction : Nat) : Bytes :=
  clockText (layout.hours % 2 ^ 64) (layout.minutes % 2 ^ 64) (layout.seconds % 2 ^ 64) fraction

theorem finish_dot {tail : Bytes} (ds : Digits) (ends : Ends isDigit tail)
    (blank : ∀ c ∈ behindFraction ds tail, isBlank c = true) :
    layout.finish (46 :: (ds.bytes ++ tail)) =
      if layout.Counts then some (layout.timeWord (tenMillionths ds)) else none := by
  rw [Layout.finish, finishTime_dot ds ends, all_eq_true.mpr blank]
  simp only [true_and]
  rfl

theorem finish_ending : layout.finish (ending fraction trail) =
    if layout.Counts then some (layout.timeWord (fraction.elim 0 tenMillionths)) else none := by
  cases fraction with
  | none =>
    have noDot : Ends (· == 46) trail.bytes :=
      trail.ends (forall_byte (p := fun c => isBlank c = true → (c == 46) = false) (by decide +kernel))
    show finishTime _ _ _ trail.bytes = _
    rw [finishTime_blank noDot, all_eq_true.mpr trail.all]
    simp only [true_and]
    rfl
  | some ds =>
    refine finish_dot ds (trail.ends fun _ => isBlank_not_digit) ?_
    intro c member
    apply trail.all c
    unfold behindFraction at member
    split at member
    · exact mem_of_mem_drop ((dropWhile_suffix isDigit).subset member)
    · exact member

theorem finish_skipping (e : Skipping) :
    layout.finish e.text = if layout.Counts then some (layout.timeWord (tenMillionths e.fraction)) else none := by
  have left : behindFraction e.fraction (e.byte :: (e.skipped.bytes ++ e.trail.bytes)) = e.trail.bytes := by
    rw [behindFraction, if_pos e.short, drop_one, tail_cons,
      dropWhile_row e.skipped.all (e.trail.ends fun _ => isBlank_not_digit)]
  refine finish_dot e.fraction (ends_cons.mpr e.noDigit) ?_
  rw [left]
  exact e.trail.all

/-- What is accepted at the end is an ending or skips a byte. -/
theorem finish_inv {text : Bytes} (accepted : layout.finish rest = some text) :
    (∃ fraction trail, rest = ending fraction trail) ∨ ∃ e : Skipping, rest = e.text := by
  by_cases dot : ∃ more, rest = 46 :: more
  · obtain ⟨more, rfl⟩ := dot
    obtain ⟨ds, tail, rfl, digits, ends⟩ := exists_row isDigit more
    unfold Layout.finish at accepted
    rw [finishTime_dot ⟨ds, digits⟩ ends] at accepted
    split at accepted
    · rename_i blank
      have left := all_eq_true.mp blank.1
      unfold behindFraction at left
      split at left
      · rename_i short
        cases tail with
        | nil => exact Or.inl ⟨some ⟨ds, digits⟩, .empty, rfl⟩
        | cons c tail =>
          obtain ⟨skipped, trail, rfl, skippedDigits, trailEnds⟩ := exists_row isDigit tail
          rw [drop_one, tail_cons, dropWhile_row skippedDigits trailEnds] at left
          exact Or.inr ⟨⟨⟨ds, digits⟩, short, c, ends_cons.mp ends, ⟨skipped, skippedDigits⟩, ⟨trail, left⟩⟩, rfl⟩
      · exact Or.inl ⟨some ⟨ds, digits⟩, ⟨tail, left⟩, rfl⟩
    · cases accepted
  · have noDot : Ends (· == 46) rest := ends_byte fun more same => dot ⟨more, same⟩
    unfold Layout.finish at accepted
    rw [finishTime_blank noDot] at accepted
    split at accepted
    · rename_i blank
      exact Or.inl ⟨none, ⟨rest, all_eq_true.mp blank.1⟩, rfl⟩
    · cases accepted

end Endings

section Strings

variable {s body : Bytes} {negative : Bool} {layout : Layout} {rest : Bytes}

theorem signAndBody_eq (lead : Blanks) (starts : negative = false → Ends isBlank body ∧ Ends (· == 45) body) :
    signAndBody (lead.bytes ++ ((if negative then [45] else []) ++ body)) = (negative, body) := by
  cases negative with
  | true =>
    have dropped : (lead.bytes ++ 45 :: body).dropWhile isBlank = 45 :: body :=
      dropWhile_row lead.all (ends_cons.mpr (by decide))
    show signAndBody (lead.bytes ++ 45 :: body) = _
    simp only [signAndBody, dropped]
  | false =>
    obtain ⟨noBlank, noSign⟩ := starts rfl
    show signAndBody (lead.bytes ++ body) = _
    rw [signAndBody, dropWhile_row lead.all noBlank]
    split
    · exact absurd (ends_cons.mp noSign) (by decide)
    · rfl

/-- Every string is blanks, a sign and a body. -/
theorem exists_signAndBody (s : Bytes) :
    ∃ lead : Blanks, s = lead.bytes ++ ((if (signAndBody s).1 then [45] else []) ++ (signAndBody s).2) ∧
    ((signAndBody s).1 = false → Ends isBlank (signAndBody s).2) := by
  obtain ⟨lead, behind, rfl, blanks, noBlank⟩ := exists_row isBlank s
  refine ⟨⟨lead, blanks⟩, ?_⟩
  rw [signAndBody, dropWhile_row blanks noBlank]
  split
  · exact ⟨rfl, fun none => nomatch none⟩
  · exact ⟨rfl, fun _ => noBlank⟩

theorem mysPreTimeInInternal_eq (split : signAndBody s = (negative, body)) (unrecognised : isTimestamp s = false)
    (nonempty : body ≠ []) :
    mysPreTimeInInternal s = (readLayout body).map fun text => (if negative then ascii "-" else []) ++ text := by
  have filled : body.isEmpty = false := by simpa using nonempty
  simp only [mysPreTimeInInternal, split, unrecognised, filled, Bool.false_eq_true, if_false]

theorem Layout.unsigned (layout : Layout) (ends : Ends (· == 45) rest) : Ends (· == 45) (layout.text ++ rest) := by
  have digit := forall_byte (p := fun c => isDigit c = true → (c == 45) = false) (by decide +kernel)
  have blank := forall_byte (p := fun c => isBlank c = true → (c == 45) = false) (by decide +kernel)
  cases layout with
  | days day gap separated hour further =>
    rw [days_text]
    obtain ⟨c, bytes, text, isBlank⟩ := Row.exists_cons separated
    rw [text]
    have noSign : ∀ more, Ends (· == 45) (c :: more) := fun _ => ends_cons.mpr (blank c isBlank)
    exact (noSign _).behind day digit
  | colons hour gap minute second =>
    rw [colons_text]
    have noSign : ∀ more, Ends (· == 45) (58 :: more) := fun _ => ends_cons.mpr (by decide)
    exact ((noSign _).behind gap blank).behind hour digit
  | plain group gap =>
    rw [Layout.text, append_assoc]
    exact (ends.behind gap blank).behind group digit

/-- A string that is accepted though a skipped byte follows its fraction. -/
structure Loose where
  lead : Blanks
  negative : Bool
  layout : Layout
  ending : Skipping
  noSpace : (layout.text ++ ending.text).head? ≠ some 32
  noBlank : negative = false → Ends isBlank (layout.text ++ ending.text)

def Loose.text (l : Loose) : Bytes :=
  l.lead.bytes ++ ((if l.negative then [45] else []) ++ (l.layout.text ++ l.ending.text))

/-- The text for the time, or an error. -/
def Layout.result (layout : Layout) (negative : Bool) (fraction : Nat) : Option Bytes :=
  if layout.InRangeWord then some ((if negative then ascii "-" else []) ++ layout.timeWord fraction) else none

theorem result_eq {fraction : Nat} (lead : Blanks) (closed : layout.Closed rest)
    (noSpace : (layout.text ++ rest).head? ≠ some 32)
    (nonempty : layout.text ++ rest ≠ []) (noBlank : negative = false → Ends isBlank (layout.text ++ rest))
    (noSign : Ends (· == 45) rest)
    (finish : layout.finish rest = if layout.Counts then some (layout.timeWord fraction) else none)
    (unrecognised : isTimestamp (lead.bytes ++ ((if negative then [45] else []) ++ (layout.text ++ rest))) = false) :
    mysPreTimeInInternal (lead.bytes ++ ((if negative then [45] else []) ++ (layout.text ++ rest))) =
      layout.result negative fraction := by
  have split := signAndBody_eq lead fun positive => ⟨noBlank positive, layout.unsigned noSign⟩
  rw [mysPreTimeInInternal_eq split unrecognised nonempty, readLayout_eq layout closed noSpace nonempty, finish]
  by_cases first : layout.first.value ≤ 4294967295
  · by_cases counts : layout.Counts <;> simp [Layout.result, Layout.InRangeWord, first, counts]
  · simp [Layout.result, Layout.InRangeWord, first]

theorem loose_result (l : Loose) (unrecognised : isTimestamp l.text = false) :
    mysPreTimeInInternal l.text = l.layout.result l.negative (tenMillionths l.ending.fraction) := by
  have closed : l.layout.Closed l.ending.text :=
    Layout.closed_of (ends_cons.mpr (by decide)) (ends_cons.mpr (by decide)) fun _ _ _ => ends_cons.mpr (by decide)
  exact result_eq l.lead closed l.noSpace (by simp [Skipping.text]) l.noBlank (ends_cons.mpr (by decide))
    (finish_skipping l.ending) unrecognised

theorem Layout.text_first (layout : Layout) : ∃ more, layout.text = layout.first.bytes ++ more := by
  cases layout <;> exact ⟨_, rfl⟩

/-- What is well formed is read modulo 2^64. -/
theorem written_result (w : Written) (first : w.layout.first.bytes ≠ []) (unrecognised : isTimestamp w.text = false) :
    mysPreTimeInInternal w.text = w.layout.result w.negative (w.fraction.elim 0 tenMillionths) := by
  obtain ⟨layout, trail, text, closed, sameFirst, hours, minutes, seconds⟩ := closed_ending w.layout w.fraction w.trail
  obtain ⟨c, more, body, digit⟩ : ∃ c more, layout.text ++ ending w.fraction trail = c :: more ∧ isDigit c = true := by
    obtain ⟨more, text⟩ := layout.text_first
    obtain ⟨c, bytes, digits, digit⟩ := Row.exists_cons (sameFirst ▸ first : layout.first.bytes ≠ [])
    exact ⟨c, bytes ++ (more ++ ending w.fraction trail), by rw [text, digits]; simp, digit⟩
  have notBlank : isBlank c = false :=
    forall_byte (p := fun c => isDigit c = true → isBlank c = false) (by decide +kernel) c digit
  have noSpace : (layout.text ++ ending w.fraction trail).head? ≠ some 32 := by
    rw [body, List.head?_cons, Ne, Option.some.injEq]
    rintro rfl
    cases digit
  have noSign : Ends (· == 45) (ending w.fraction trail) :=
    ends_ending _ _ (by decide) (forall_byte (p := fun c => isBlank c = true → (c == 45) = false) (by decide +kernel))
  rw [Written.text, ← text] at unrecognised ⊢
  rw [result_eq w.lead closed noSpace (by simp [body]) (fun _ => by rw [body]; exact ends_cons.mpr notBlank) noSign
    (finish_ending ..) unrecognised]
  have word : layout.InRangeWord ↔ w.layout.InRangeWord := by
    simp only [Layout.InRangeWord, Layout.Counts, sameFirst, hours, minutes, seconds]
  simp only [Layout.result, word, Layout.timeWord, hours, minutes, seconds]

/-- What is accepted is well formed or loose. -/
theorem accepted_cases {text : Bytes} (unrecognised : isTimestamp s = false)
    (accepted : mysPreTimeInInternal s = some text) :
    (∃ w : Written, w.text = s) ∨ ∃ l : Loose, l.text = s ∧ l.layout.InRangeWord := by
  obtain ⟨lead, parts, noBlank⟩ := exists_signAndBody s
  obtain ⟨layout, rest, body, closed⟩ := exists_layout (signAndBody s).2
  have nonempty : (signAndBody s).2 ≠ [] := by
    intro empty
    have filled : (signAndBody s).2.isEmpty = true := by simp [empty]
    simp [mysPreTimeInInternal, filled] at accepted
  have split : signAndBody s = ((signAndBody s).1, (signAndBody s).2) := rfl
  rw [mysPreTimeInInternal_eq split unrecognised nonempty, body] at accepted
  obtain ⟨time, read, -⟩ := Option.map_eq_some_iff.mp accepted
  have noSpace : (layout.text ++ rest).head? ≠ some 32 := by
    intro space
    have refused : readLayout (layout.text ++ rest) = none := readLayout_space space
    rw [refused] at read
    cases read
  rw [body] at nonempty parts noBlank
  rw [readLayout_eq layout closed noSpace nonempty] at read
  split at read
  · rename_i first
    rcases finish_inv read with ⟨fraction, trail, rfl⟩ | ⟨e, rfl⟩
    · exact Or.inl ⟨⟨lead, (signAndBody s).1, layout, fraction, trail⟩, parts.symm⟩
    refine Or.inr ⟨⟨lead, (signAndBody s).1, layout, e, noSpace, noBlank⟩, parts.symm, first, ?_⟩
    rw [finish_skipping] at read
    split at read
    · rename_i counts
      exact counts
    · cases read
  · cases read

/-- Accepted strings are well formed, and well-formed ones read as their time. -/
structure Exact (s : Bytes) : Prop where
  wellFormed : (mysPreTimeInInternal s).isSome = true → ∃ w : Written, w.text = s
  time (w : Written) (text : w.text = s) (first : w.layout.first.bytes ≠ []) :
    mysPreTimeInInternal s = if w.layout.InRange then some w.time else none

/-- A byte behind the fraction is skipped, so the string is not well formed. -/
def SkipsByte (s : Bytes) : Prop := (∃ l : Loose, l.text = s ∧ l.layout.InRangeWord) ∧ ¬∃ w : Written, w.text = s

/-- A number of 2^64 or more is taken for a small one. -/
def WrapsAround (s : Bytes) : Prop :=
  ∃ w : Written, w.text = s ∧ w.layout.first.bytes ≠ [] ∧ w.layout.InRangeWord ∧ ¬w.layout.InRange

theorem Layout.InRange.time {w : Written} (range : w.layout.InRange) :
    w.layout.result w.negative (w.fraction.elim 0 tenMillionths) = some w.time := by
  obtain ⟨hours, minutes, seconds⟩ := range
  rw [Layout.result, if_pos (Layout.InRange.word ⟨hours, minutes, seconds⟩), Layout.timeWord,
    Nat.mod_eq_of_lt (by omega), Nat.mod_eq_of_lt (by omega), Nat.mod_eq_of_lt (by omega)]
  rfl

/-- Strings are read as the grammar says, up to the two ways in which others are accepted. -/
theorem time_string_exact_iff (s : Bytes) (unrecognised : isTimestamp s = false) :
    Exact s ↔ ¬SkipsByte s ∧ ¬WrapsAround s := by
  constructor
  · intro exact
    refine ⟨?_, ?_⟩
    · rintro ⟨⟨l, rfl, range⟩, malformed⟩
      apply malformed
      apply exact.wellFormed
      rw [loose_result l unrecognised, Layout.result, if_pos range]
      rfl
    · rintro ⟨w, rfl, first, word, outside⟩
      have accepted := written_result w first unrecognised
      rw [exact.time w rfl first, if_neg outside, Layout.result, if_pos word] at accepted
      cases accepted
  · rintro ⟨noSkip, noWrap⟩
    refine ⟨?_, ?_⟩
    · intro accepted
      obtain ⟨text, accepted⟩ := Option.isSome_iff_exists.mp accepted
      rcases accepted_cases unrecognised accepted with written | loose
      · exact written
      · by_contra malformed
        exact noSkip ⟨loose, malformed⟩
    · rintro w rfl first
      rw [written_result w first unrecognised]
      by_cases range : w.layout.InRange
      · rw [if_pos range, range.time]
      · rw [if_neg range, Layout.result, if_neg fun word => noWrap ⟨w, rfl, first, word, range⟩]

/-- In a string of at most 18 bytes no number reaches 2^64. -/
theorem not_wrapsAround (short : s.length ≤ 18) : ¬WrapsAround s := by
  rintro ⟨w, rfl, -, ⟨first, counts⟩, outside⟩
  refine outside ?_
  have within : w.layout.text.length ≤ 18 := by
    simp only [Written.text, length_append] at short
    omega
  have digits (ds : Digits) (few : ds.bytes.length ≤ 18) : ds.value < 10 ^ 18 :=
    (digitsValue_lt ds.all).trans_le (Nat.pow_le_pow_right (by decide) few)
  have numeral (n : Numeral) (few : n.digits.length ≤ 18) : n.value < 10 ^ 18 :=
    (digitsValue_lt n.numeric).trans_le (Nat.pow_le_pow_right (by decide) few)
  have parts : w.layout.hours < 2 ^ 64 ∧ w.layout.minutes < 2 ^ 64 ∧ w.layout.seconds < 2 ^ 64 := by
    generalize w.layout = layout at first within
    rcases layout with ⟨day, gap, separated, hour, _ | ⟨minute, _ | second⟩⟩ | ⟨hour, gap, minute, _ | second⟩ |
      ⟨group, gap⟩ <;>
      simp only [Layout.text, Layout.first, Layout.hours, Layout.minutes, Layout.seconds, length_append, length_cons,
        Option.elim_none, Option.elim_some] at first within ⊢ <;>
      grind
  obtain ⟨hours, minutes, seconds⟩ := parts
  rwa [Layout.Counts, Nat.mod_eq_of_lt hours, Nat.mod_eq_of_lt minutes, Nat.mod_eq_of_lt seconds] at counts

theorem time_string_exact_clock : isTimestamp (ascii "10:11:12.5") = false ∧ Exact (ascii "10:11:12.5") := by
  let w : Written := ⟨.empty, false, .colons ⟨ascii "10", by decide +kernel⟩ .empty ⟨ascii "11", by decide +kernel⟩
    (some ⟨ascii "12", by decide +kernel⟩), some ⟨ascii "5", by decide +kernel⟩, .empty⟩
  exact ⟨by decide, (time_string_exact_iff _ (by decide)).mpr
    ⟨fun skips => skips.2 ⟨w, by decide⟩, not_wrapsAround (by decide)⟩⟩

theorem Written.mem_text {w : Written} {c : UInt8} (member : c ∈ w.text) :
    isDigit c = true ∨ isBlank c = true ∨ c = 45 ∨ c = 46 ∨ c = 58 := by
  have digits : ∀ {ds : Digits}, c ∈ ds.bytes → isDigit c = true := fun {ds} inside => ds.all c inside
  have numeral : ∀ {n : Numeral}, c ∈ n.digits → isDigit c = true := fun {n} inside => n.numeric c inside
  have blanks : ∀ {bs : Blanks}, c ∈ bs.bytes → isBlank c = true := fun {bs} inside => bs.all c inside
  obtain ⟨lead, negative, layout, fraction, trail⟩ := w
  have inLayout : c ∈ layout.text → isDigit c = true ∨ isBlank c = true ∨ c = 58 := by
    rcases layout with ⟨day, gap, separated, hour, _ | ⟨minute, _ | second⟩⟩ | ⟨hour, gap, minute, _ | second⟩ |
      ⟨group, gap⟩ <;>
      simp only [Layout.text, mem_append, mem_cons, Option.elim_none, Option.elim_some, not_mem_nil] <;>
      grind
  have inEnding : c ∈ ending fraction trail → isDigit c = true ∨ isBlank c = true ∨ c = 46 := by
    cases fraction <;> simp only [ending, mem_append, mem_cons, Option.elim_none, Option.elim_some,
      not_mem_nil] <;> grind
  simp only [Written.text] at member
  grind

/-- The `x` is skipped, and the second time is read modulo 2^64. -/
theorem time_string_not_exact :
    mysPreTimeInInternal (ascii "10:11:12.5x") = some (ascii "10:11:12.5000000") ∧ ¬Exact (ascii "10:11:12.5x") ∧
    mysPreTimeInInternal (ascii "0 18446744073709551617") = some (ascii "1:00:00.0000000") ∧
    ¬Exact (ascii "0 18446744073709551617") := by
  have skipped : mysPreTimeInInternal (ascii "10:11:12.5x") = some (ascii "10:11:12.5000000") := by decide +kernel
  have wrapped : mysPreTimeInInternal (ascii "0 18446744073709551617") = some (ascii "1:00:00.0000000") := by
    decide +kernel
  refine ⟨skipped, ?_, wrapped, ?_⟩
  · intro exact
    obtain ⟨w, text⟩ := exact.wellFormed (by rw [skipped]; rfl)
    have member : 120 ∈ w.text := by rw [text]; decide
    exact absurd (Written.mem_text member) (by decide)
  · intro exact
    let hour : Numeral := ⟨ascii "18446744073709551617", by decide +kernel, by decide +kernel⟩
    let w : Written :=
      ⟨.empty, false, .days ⟨ascii "0", by decide +kernel⟩ ⟨ascii " ", by decide +kernel⟩ (by decide) hour none, none,
        .empty⟩
    have refused := exact.time w (by decide) (by decide)
    cases refused

end Strings

end OpenHalo.PreTime
