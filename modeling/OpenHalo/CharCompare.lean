import OpenHalo.Lib.NoCase
import OpenHalo.TextCompare

namespace OpenHalo
open Octets Memory Function List

variable {m m' : Mem} {a len1 len2 n str1 str2 : Nat} {cut : Mem → Nat → Nat → Mem × Nat}

/-- `bpchareq` ends the value at its first blank behind the text. -/
def cutAtBlanks (m : Mem) (str len : Nat) : Mem × Nat :=
  if stop m str len < len then (update m (str + stop m str len) 0, stop m str len) else (m, len)

/-- The other functions do so only where the loop has found some text. -/
def cutBehindText (m : Mem) (str len : Nat) : Mem × Nat :=
  if 0 < stop m str len ∧ stop m str len < len then (update m (str + stop m str len) 0, stop m str len) else (m, len)

namespace Collations

def equalChars (env : Collations) (collid : Nat) (m : Mem) (str1 len1 str2 len2 : Nat) : Except TextError Bool :=
  if collid = 0 then .error .indeterminateCollation
  else if env.bytewise collid then
    if len1 ≠ len2 then .ok false
    else if collid = env.caseInsensitiveId then .ok (eqNoCase len1 (read m str1 len1) (read m str2 len2))
    else .ok (memcmp len1 (read m str1 len1) (read m str2 len2) = 0)
  else do
    let result ← env.varstrCmp (read m str1 len1) (read m str2 len2) collid
    .ok (result = 0)

def compareChars (env : Collations) (cut : Mem → Nat → Nat → Mem × Nat) (negated : Bool) (collid : Nat) (c : ArgPair) :
    Except TextError Bool × Mem :=
  let cut1 := cut c.mem c.str1 c.len1
  let cut2 := cut cut1.1 c.str2 c.len2
  match env.equalChars collid cut2.1 c.str1 cut1.2 c.str2 cut2.2 with
  | .error e => (.error e, cut2.1)
  | .ok result =>
    let m := if stop c.mem c.str1 c.len1 < c.len1 then update cut2.1 (c.str1 + cut1.2) 32 else cut2.1
    let m := if stop cut1.1 c.str2 c.len2 < c.len2 then update m (c.str2 + cut2.2) 32 else m
    (.ok (result != negated), m)

/-- The branch for other clients, with `bcTruelen`. -/
def compareTrueLen (env : Collations) (negated : Bool) (collid : Nat) (c : ArgPair) : Except TextError Bool :=
  let str1 := read c.mem c.str1 (stop c.mem c.str1 c.len1)
  let str2 := read c.mem c.str2 (stop c.mem c.str2 c.len2)
  if collid = 0 then .error .indeterminateCollation
  else if env.bytewise collid then
    if str1.length ≠ str2.length then .ok negated
    else .ok ((memcmp str1.length str1 str2 = 0) != negated)
  else do
    let result ← env.varstrCmp str1 str2 collid
    .ok ((result = 0) != negated)

def bpchareq (env : Collations) (collid : Nat) (c : ArgPair) : Except TextError Bool × Mem :=
  if env.mysql then env.compareChars cutAtBlanks false collid c else (env.compareTrueLen false collid c, c.mem)

def bpcharne (env : Collations) (collid : Nat) (c : ArgPair) : Except TextError Bool × Mem :=
  if env.mysql then env.compareChars cutBehindText true collid c else (env.compareTrueLen true collid c, c.mem)

end Collations

structure LikeLibrary where
  Error : Type
  genericMatchText : Bytes → Bytes → Nat → Except Error Bool
  genericTextIcLike : Bytes → Bytes → Nat → Except Error Bool

namespace Collations

/-- `bpcharlike` and `bpcharnlike`, for a value and a pattern. Without case, the values are matched in
full length. -/
def charLike (env : Collations) (lib : LikeLibrary) (negated : Bool) (collid : Nat) (c : ArgPair) :
    Except lib.Error Bool × Mem :=
  let cut := cutBehindText c.mem c.str1 c.len1
  let outcome :=
    if collid = env.caseInsensitiveId then
      lib.genericTextIcLike (read cut.1 c.str1 c.len1) (read cut.1 c.str2 c.len2) 100
    else lib.genericMatchText (read cut.1 c.str1 cut.2) (read cut.1 c.str2 c.len2) collid
  match outcome with
  | .error e => (.error e, cut.1)
  | .ok result =>
    (.ok (result != negated), if stop c.mem c.str1 c.len1 < c.len1 then update cut.1 (c.str1 + cut.2) 32 else cut.1)

def bpcharlike (env : Collations) (lib : LikeLibrary) (collid : Nat) (c : ArgPair) : Except lib.Error Bool × Mem :=
  env.charLike lib false collid c

def bpcharnlike (env : Collations) (lib : LikeLibrary) (collid : Nat) (c : ArgPair) : Except lib.Error Bool × Mem :=
  env.charLike lib true collid c

end Collations

structure CharArgs extends ArgPair where
  text1 : 0 ∉ toArgPair.first
  text2 : 0 ∉ toArgPair.second

namespace Collations

def textKey (env : Collations) (collid : Nat) (s : Bytes) : Bytes :=
  if collid = env.caseInsensitiveId then s.map lower else s

/-- Equality under a deterministic collation, without the blanks behind the values. -/
def BlankEqual (env : Collations) (collid : Nat) (a b : Bytes) : Prop :=
  env.textKey collid (trimBlanks a) = env.textKey collid (trimBlanks b)

instance (env : Collations) (collid : Nat) (a b : Bytes) : Decidable (env.BlankEqual collid a b) :=
  inferInstanceAs (Decidable (_ = _))

/-- `=` and `<>` are blank-padded equality and its negation. -/
structure BlankPadded (env : Collations) (collid : Nat) (c : CharArgs) : Prop where
  equal : (env.bpchareq collid c.toArgPair).1 = .ok (decide (env.BlankEqual collid c.first c.second))
  unequal : (env.bpcharne collid c.toArgPair).1 = .ok (!decide (env.BlankEqual collid c.first c.second))

end Collations

/-- A value compared with itself has no blanks behind it; two values of blanks have one length. -/
structure CharArgs.Plain (c : CharArgs) : Prop where
  itself : c.str1 = c.str2 → trimBlanks c.first = c.first
  others : c.str1 ≠ c.str2 → trimBlanks c.first = [] → trimBlanks c.second = [] → c.len1 = c.len2

def CutsInside (cut : Mem → Nat → Nat → Mem × Nat) : Prop :=
  ∀ m a n, cut m a n = (m, n) ∨ stop m a n < n ∧ cut m a n = (update m (a + stop m a n) 0, stop m a n)

theorem cutAtBlanks_inside : CutsInside cutAtBlanks := by
  intro m a n
  by_cases blanks : stop m a n < n
  · exact .inr ⟨blanks, if_pos blanks⟩
  · exact .inl (if_neg blanks)

theorem cutBehindText_inside : CutsInside cutBehindText := by
  intro m a n
  by_cases blanks : 0 < stop m a n ∧ stop m a n < n
  · exact .inr ⟨blanks.2, if_pos blanks⟩
  · exact .inl (if_neg blanks)

section Cut

variable {i : Nat}

theorem CutsInside.outside (inside : CutsInside cut) (elsewhere : i < a ∨ a + n ≤ i) : (cut m a n).1 i = m i := by
  rcases inside m a n with same | ⟨blanks, stored⟩
  · rw [same]
  · rw [stored]
    exact update_of_ne (by omega) 0 m

theorem CutsInside.text (inside : CutsInside cut) (before : i < (cut m a n).2) : (cut m a n).1 (a + i) = m (a + i) := by
  rcases inside m a n with same | ⟨blanks, stored⟩
  · rw [same]
  rw [stored] at before ⊢
  exact update_of_ne (by omega) 0 m

theorem CutsInside.le (inside : CutsInside cut) : (cut m a n).2 ≤ n := by
  rcases inside m a n with same | ⟨blanks, stored⟩
  · rw [same]
  · rw [stored]
    exact blanks.le

theorem CutsInside.read (inside : CutsInside cut) :
    Memory.read (cut m a n).1 a (cut m a n).2 = Memory.read m a (cut m a n).2 := by
  apply read_congr
  intro i lower upper
  obtain ⟨k, rfl⟩ := Nat.exists_eq_add_of_le lower
  exact inside.text (by omega)

theorem CutsInside.kept (inside : CutsInside cut) (later : ∀ i, (cut m a n).1 i = 0 → m' i = 0)
    (same : ∀ i ≤ n, m' (a + i) = m (a + i)) : (cut m a n).1 = m := by
  rcases inside m a n with whole | ⟨blanks, stored⟩
  · rw [whole]
  have zero : m' (a + stop m a n) = 0 := later _ (by rw [stored]; exact update_self ..)
  rw [same _ blanks.le, stop_blank (Nat.le_refl _) blanks] at zero
  cases zero

theorem CutsInside.zero (inside : CutsInside cut) (zero : m i = 0) : (cut m a n).1 i = 0 := by
  rcases inside m a n with same | ⟨_, stored⟩
  · rwa [same]
  rw [stored]
  dsimp only
  rw [update_apply, zero, ite_self]

theorem CutsInside.blank (inside : CutsInside cut) (blank : (cut m a n).1 i = 32) : m i = 32 := by
  rcases inside m a n with same | ⟨_, stored⟩
  · rwa [same] at blank
  rw [stored] at blank
  dsimp only at blank
  rw [update_apply] at blank
  split at blank
  · cases blank
  · exact blank

theorem read_cutAtBlanks (m : Mem) (a n : Nat) :
    Memory.read m a (cutAtBlanks m a n).2 = trimBlanks (Memory.read m a n) := by
  rw [trimBlanks_read, cutAtBlanks]
  split
  · rfl
  next whole => rw [Nat.le_antisymm (stop_le m a n) (Nat.not_lt.mp whole)]

theorem read_cutBehindText (m : Mem) (a n : Nat) :
    Memory.read m a (cutBehindText m a n).2 = behindText (Memory.read m a n) := by
  have empty : trimBlanks (Memory.read m a n) = [] ↔ stop m a n = 0 := by
    rw [← length_eq_zero_iff, trimBlanks_length]
  have upTo := stop_le m a n
  rw [cutBehindText, behindText]
  by_cases blank : stop m a n = 0
  · rw [if_pos (empty.mpr blank), if_neg (by omega)]
  rw [if_neg (fun nil => blank (empty.mp nil)), trimBlanks_read]
  split
  · rfl
  next whole => rw [show stop m a n = n by omega]

def Padded (s : Bytes) : Prop := trimBlanks s ≠ s

theorem padded_read_iff (m : Mem) (a n : Nat) : Padded (read m a n) ↔ stop m a n < n := by
  rw [Padded, trimBlanks_read]
  have upTo := stop_le m a n
  constructor
  · intro different
    refine Nat.lt_of_le_of_ne upTo fun same => different ?_
    rw [same]
  · intro blanks same
    have lengths := congrArg List.length same
    rw [read_length, read_length] at lengths
    omega

theorem cut_length_congr (same : ∀ i, i < n → m' (a + i) = m (a + i)) :
    (cutAtBlanks m' a n).2 = (cutAtBlanks m a n).2 ∧ (cutBehindText m' a n).2 = (cutBehindText m a n).2 := by
  have stops := stop_congr same
  simp only [cutAtBlanks, cutBehindText, stops]
  constructor <;> split <;> rfl

end Cut

/-- The first value and what is stored into it, and the second one after that. -/
abbrev cut1 (cut : Mem → Nat → Nat → Mem × Nat) (c : ArgPair) : Mem × Nat := cut c.mem c.str1 c.len1

abbrev cut2 (cut : Mem → Nat → Nat → Mem × Nat) (c : ArgPair) : Mem × Nat := cut (cut1 cut c).1 c.str2 c.len2

theorem stop_stored (blanks : stop m a n < n) :
    stop (update m (a + stop m a n) 0) a n = stop m a n + 1 := by
  apply stop_eq
  · intro i lower upper
    rw [update_of_ne (by omega)]
    exact stop_blank (by omega) upper
  · exact blanks
  · intro _
    rw [Nat.add_sub_cancel, update_self]
    decide

theorem cutAtBlanks_stored (blanks : stop m a n < n) :
    (cutAtBlanks (update m (a + stop m a n) 0) a n).2 = stop m a n + 1 := by
  rw [cutAtBlanks, stop_stored blanks]
  split
  · rfl
  · omega

structure Cutting (cut : Mem → Nat → Nat → Mem × Nat) (rest : Bytes → Bytes) : Prop where
  inside : CutsInside cut
  congr : ∀ {m m' : Mem} {a n : Nat}, (∀ i, i < n → m' (a + i) = m (a + i)) → (cut m' a n).2 = (cut m a n).2
  text : ∀ m a n, read m a (cut m a n).2 = rest (read m a n)
  again : ∀ {m : Mem} {a n : Nat}, 0 < stop m a n → cut m a n = cutAtBlanks m a n

theorem cutAtBlanks_cutting : Cutting cutAtBlanks trimBlanks :=
  ⟨cutAtBlanks_inside, fun same => (cut_length_congr same).1, read_cutAtBlanks, fun _ => rfl⟩

theorem cutBehindText_cutting : Cutting cutBehindText behindText :=
  ⟨cutBehindText_inside, fun same => (cut_length_congr same).2, read_cutBehindText,
    fun text => by simp [cutBehindText, cutAtBlanks, text]⟩

/-- The second string that is compared: compared with itself, a value ends behind the NUL stored into it. -/
def secondText (rest : Bytes → Bytes) (c : ArgPair) : Bytes :=
  if c.str1 = c.str2 ∧ rest c.first ≠ c.first then rest c.first ++ [0] else rest c.second

theorem Cutting.apart {rest : Bytes → Bytes} (cutting : Cutting cut rest) (c : ArgPair) (different : c.str1 ≠ c.str2) :
    read (cut2 cut c).1 c.str1 (cut1 cut c).2 = rest c.first ∧
    read (cut2 cut c).1 c.str2 (cut2 cut c).2 = rest c.second := by
  have inside := cutting.inside
  have apart : c.str1 + c.len1 < c.str2 ∨ c.str2 + c.len2 < c.str1 := c.apart.resolve_left fun same => different same.1
  -- the second value is still as it was, and storing into it leaves the first as it is
  have kept (i : Nat) (within : i < c.len2) : (cut1 cut c).1 (c.str2 + i) = c.mem (c.str2 + i) :=
    inside.outside (by omega)
  have short1 : (cut1 cut c).2 ≤ c.len1 := inside.le
  have short2 := inside.le (m := c.mem) (a := c.str2) (n := c.len2)
  rw [ArgPair.first, ArgPair.second, ← cutting.text, ← cutting.text]
  constructor
  · rw [← inside.read]
    apply read_congr
    intro i lower upper
    exact inside.outside (by omega)
  · rw [inside.read, cutting.congr kept]
    apply read_congr
    intro i lower upper
    exact inside.outside (by omega)

theorem Cutting.texts {rest : Bytes → Bytes} (cutting : Cutting cut rest) (c : ArgPair) :
    read (cut2 cut c).1 c.str1 (cut1 cut c).2 = rest c.first ∧
      read (cut2 cut c).1 c.str2 (cut2 cut c).2 = secondText rest c := by
  have text := cutting.text c.mem c.str1 c.len1
  rw [secondText, ArgPair.first, ArgPair.second]
  by_cases itself : c.str1 = c.str2
  · have length : c.len1 = c.len2 := c.same_length itself
    rw [cut2, cut1, ← itself, ← length]
    rcases cutting.inside c.mem c.str1 c.len1 with whole | ⟨blanks, stored⟩
    · rw [whole] at text ⊢
      rw [whole, if_neg (fun both => both.2 text.symm)]
      exact ⟨text, text⟩
    · rw [stored] at text ⊢
      dsimp only at text ⊢
      have next := stop_stored blanks
      have shorter : rest (read c.mem c.str1 c.len1) ≠ read c.mem c.str1 c.len1 := by
        intro same
        have lengths := congrArg List.length (text.trans same)
        rw [read_length, read_length] at lengths
        omega
      rw [cutting.again (by omega), cutAtBlanks_stored blanks, if_pos ⟨rfl, shorter⟩, ← text]
      have front : read (cutAtBlanks (update c.mem (c.str1 + stop c.mem c.str1 c.len1) 0) c.str1 c.len1).1 c.str1
          (stop c.mem c.str1 c.len1 + 1) = read c.mem c.str1 (stop c.mem c.str1 c.len1) ++ [0] := by
        have whole := cutAtBlanks_inside.read (m := update c.mem (c.str1 + stop c.mem c.str1 c.len1) 0) (a := c.str1)
          (n := c.len1)
        rw [cutAtBlanks_stored blanks, read_concat (update _ _ _), update_self] at whole
        rw [whole]
        congr 1
        apply read_congr
        intro i lower upper
        exact update_of_ne (by omega) 0 c.mem
      refine ⟨?_, front⟩
      rw [read_concat] at front
      exact (append_inj front (by rw [read_length, read_length])).1
  · rw [if_neg fun both => itself both.1]
    exact cutting.apart c itself

namespace Collations

variable {env : Collations} {collid : Nat} {c : ArgPair}

theorem textKey_length (s : Bytes) : (env.textKey collid s).length = s.length := by
  unfold textKey
  split
  · exact length_map lower
  · rfl

theorem equalChars_length (valid : collid ≠ 0) (bytewise : env.bytewise collid = true)
    (different : len1 ≠ len2) : env.equalChars collid m str1 len1 str2 len2 = .ok false := by
  rw [equalChars, if_neg valid, if_pos bytewise, if_pos different]

def equalTexts (env : Collations) (collid : Nat) (str1 str2 : Bytes) : Except TextError Bool :=
  if env.bytewise collid then
    if str1.length ≠ str2.length then .ok false
    else if collid = env.caseInsensitiveId then .ok (eqNoCase str1.length str1 str2)
    else .ok (memcmp str1.length str1 str2 = 0)
  else do
    let result ← env.varstrCmp str1 str2 collid
    .ok (result = 0)

theorem equalTexts_bytewise (bytewise : env.bytewise collid = true) {str1 str2 : Bytes} (text1 : 0 ∉ str1)
    (text2 : 0 ∉ str2) :
    env.equalTexts collid str1 str2 = .ok (decide (env.textKey collid str1 = env.textKey collid str2)) := by
  rw [equalTexts, if_pos bytewise]
  by_cases same : str1.length = str2.length
  · rw [if_neg (not_not.mpr same)]
    by_cases insensitive : collid = env.caseInsensitiveId
    · rw [if_pos insensitive, textKey, textKey, if_pos insensitive, if_pos insensitive]
      congr 1
      rw [Bool.eq_iff_iff, decide_eq_true_iff, eqNoCase_iff, cstr_eq text1, cstr_eq text2, take_of_length_le,
        take_of_length_le]
      · rw [length_map]
        omega
      · rw [length_map]
    · rw [if_neg insensitive, textKey, textKey, if_neg insensitive, if_neg insensitive]
      congr 1
      rw [Bool.eq_iff_iff, decide_eq_true_iff, decide_eq_true_iff, memcmp_eq_zero same]
  · rw [if_pos same]
    congr 1
    rw [eq_comm, decide_eq_false_iff_not]
    intro keys
    have lengths := congrArg List.length keys
    rw [textKey_length, textKey_length] at lengths
    exact same lengths

theorem equalChars_bytewise (valid : collid ≠ 0) (bytewise : env.bytewise collid = true)
    (text1 : 0 ∉ read m str1 len1) (text2 : 0 ∉ read m str2 len2) :
    env.equalChars collid m str1 len1 str2 len2 =
      .ok (decide (env.textKey collid (read m str1 len1) = env.textKey collid (read m str2 len2))) := by
  have texts : env.equalChars collid m str1 len1 str2 len2 = env.equalTexts collid (read m str1 len1)
      (read m str2 len2) := by
    rw [equalChars, if_neg valid, equalTexts, read_length, read_length]
  rw [texts, equalTexts_bytewise bytewise text1 text2]

theorem compareChars_fst (cut : Mem → Nat → Nat → Mem × Nat) (negated : Bool) :
    (env.compareChars cut negated collid c).1 =
      (env.equalChars collid (cut2 cut c).1 c.str1 (cut1 cut c).2 c.str2 (cut2 cut c).2).map (· != negated) := by
  rw [compareChars]
  cases env.equalChars collid (cut2 cut c).1 c.str1 (cut1 cut c).2 c.str2 (cut2 cut c).2 <;> rfl

theorem compareChars_apart (valid : collid ≠ 0) (bytewise : env.bytewise collid = true) {rest : Bytes → Bytes}
    (cutting : Cutting cut rest) (negated : Bool) (c : CharArgs) (different : c.str1 ≠ c.str2) :
    (env.compareChars cut negated collid c.toArgPair).1 =
      .ok (decide (env.textKey collid (rest c.first) = env.textKey collid (rest c.second)) != negated) := by
  obtain ⟨read1, read2⟩ := cutting.apart c.toArgPair different
  have shorter {m : Mem} {a n : Nat} (text : 0 ∉ read m a n) : 0 ∉ rest (read m a n) := by
    obtain ⟨behind, length⟩ := Nat.exists_eq_add_of_le (@CutsInside.le m a n _ cutting.inside)
    rw [length, read_append, cutting.text] at text
    exact fun zero => text (mem_append_left _ zero)
  rw [compareChars_fst, equalChars_bytewise valid bytewise, read1, read2]
  · rfl
  · rw [read1]
    exact shorter c.text1
  · rw [read2]
    exact shorter c.text2

theorem lower_eq_blank (b : UInt8) : lower b = 32 ↔ b = 32 := by
  revert b
  apply forall_byte
  decide +kernel

theorem trimBlanks_textKey (s : Bytes) : trimBlanks (env.textKey collid s) = env.textKey collid (trimBlanks s) := by
  have blank : (· == (32 : UInt8)) ∘ lower = (· == 32) :=
    funext fun b => Bool.eq_iff_iff.mpr (by simpa using lower_eq_blank b)
  unfold textKey
  split
  · rw [trimBlanks, trimBlanks, rdropWhile, rdropWhile, ← map_reverse, dropWhile_map, blank, map_reverse]
  · rfl

theorem textKey_blank_iff {a b : Bytes} :
    (env.textKey collid (behindText a) = env.textKey collid (behindText b) ↔ env.BlankEqual collid a b) ↔
      (trimBlanks a = [] → trimBlanks b = [] → a.length = b.length) := by
  have blanks {s : Bytes} (empty : trimBlanks s = []) : s = List.replicate s.length 32 :=
    eq_replicate_of_mem fun x member => beq_iff_eq.mp (rdropWhile_eq_nil_iff.mp empty x member)
  have lengths {s t : Bytes} (same : env.textKey collid s = env.textKey collid t) : s.length = t.length := by
    have length := congrArg List.length same
    rwa [textKey_length, textKey_length] at length
  have empties {t : Bytes} (nonempty : t ≠ []) : env.textKey collid [] ≠ env.textKey collid t :=
    fun same => nonempty (length_eq_zero_iff.mp (lengths same).symm)
  have text {s t : Bytes} (empty : trimBlanks s = []) (nonempty : trimBlanks t ≠ []) :
      env.textKey collid s ≠ env.textKey collid (trimBlanks t) := by
    intro same
    have trimmed := congrArg trimBlanks same
    rw [trimBlanks_textKey, trimBlanks_textKey, empty, trimBlanks, trimBlanks, rdropWhile_idempotent] at trimmed
    exact empties nonempty trimmed
  unfold BlankEqual behindText
  by_cases emptyA : trimBlanks a = [] <;> by_cases emptyB : trimBlanks b = []
  · rw [if_pos emptyA, if_pos emptyB, emptyA, emptyB]
    simp only [iff_true, forall_const]
    refine ⟨lengths, fun same => ?_⟩
    rw [blanks emptyA, same, ← blanks emptyB]
  · rw [if_pos emptyA, if_neg emptyB, emptyA]
    simp [text emptyA emptyB, empties emptyB, emptyB]
  · rw [if_neg emptyA, if_pos emptyB, emptyB]
    simp [Ne.symm (text emptyB emptyA), Ne.symm (empties emptyA), emptyA]
  · rw [if_neg emptyA, if_neg emptyB]
    simp [emptyA]

theorem blankEqual_equivalence (env : Collations) (collid : Nat) : Equivalence (env.BlankEqual collid) :=
  ⟨fun _ => rfl, fun same => same.symm, fun first second => first.trans second⟩

theorem blankPadded_apart (mysql : env.mysql = true) (valid : collid ≠ 0) (bytewise : env.bytewise collid = true)
    (c : CharArgs) (different : c.str1 ≠ c.str2) :
    env.BlankPadded collid c ↔ (trimBlanks c.first = [] → trimBlanks c.second = [] → c.len1 = c.len2) := by
  have equal : (env.bpchareq collid c.toArgPair).1 = .ok (decide (env.BlankEqual collid c.first c.second)) := by
    rw [bpchareq, if_pos mysql, compareChars_apart valid bytewise cutAtBlanks_cutting false c different, Bool.bne_false]
    rfl
  have unequal := compareChars_apart valid bytewise cutBehindText_cutting true c different
  rw [Bool.bne_true] at unequal
  have lengths := @textKey_blank_iff env collid c.first c.second
  rw [ArgPair.first, ArgPair.second, read_length, read_length] at lengths
  change _ ↔ (trimBlanks (read c.mem c.str1 c.len1) = [] → trimBlanks (read c.mem c.str2 c.len2) = [] → c.len1 = c.len2)
  rw [← lengths]
  constructor
  · rintro ⟨_, negation⟩
    rw [bpcharne, if_pos mysql, unequal] at negation
    exact decide_eq_decide.mp (Bool.not_inj (Except.ok.inj negation))
  · intro same
    refine ⟨equal, ?_⟩
    rw [bpcharne, if_pos mysql, unequal]
    exact congrArg (fun answer => Except.ok (!answer)) (decide_eq_decide.mpr same)

theorem cutAtBlanks_twice (blanks : stop m a n < n) :
    (cutAtBlanks m a n).2 ≠ (cutAtBlanks (cutAtBlanks m a n).1 a n).2 := by
  have cut : cutAtBlanks m a n = (update m (a + stop m a n) 0, stop m a n) := if_pos blanks
  rw [cut, cutAtBlanks_stored blanks]
  exact Nat.ne_of_lt (Nat.lt_succ_self _)

theorem blankPadded_itself (mysql : env.mysql = true) (valid : collid ≠ 0) (bytewise : env.bytewise collid = true)
    (c : CharArgs) (itself : c.str1 = c.str2) : env.BlankPadded collid c ↔ trimBlanks c.first = c.first := by
  have length : c.len1 = c.len2 := c.same_length itself
  have values : c.second = c.first := by rw [ArgPair.second, ArgPair.first, itself, length]
  have equals : env.BlankEqual collid c.first c.second := by rw [values]; rfl
  have whole : trimBlanks c.first = c.first ↔ ¬ stop c.mem c.str1 c.len1 < c.len1 := by
    rw [← padded_read_iff, Padded, not_not, ArgPair.first]
  rw [whole]
  constructor
  · rintro ⟨equal, _⟩ blanks
    rw [bpchareq, if_pos mysql, compareChars_fst, cut2, cut1, ← itself, ← length,
      equalChars_length valid bytewise (cutAtBlanks_twice blanks), decide_eq_true equals] at equal
    cases equal
  · intro none
    have answer {cut : Mem → Nat → Nat → Mem × Nat} (kept : cut c.mem c.str1 c.len1 = (c.mem, c.len1))
        (negated : Bool) :
        (env.compareChars cut negated collid c.toArgPair).1 = .ok (true != negated) := by
      rw [compareChars_fst, cut2, cut1, ← itself, ← length, kept]
      rw [kept]
      rw [equalChars_bytewise valid bytewise c.text1 c.text1, decide_eq_true rfl]
      rfl
    refine ⟨?_, ?_⟩ <;> rw [decide_eq_true equals]
    · rw [bpchareq, if_pos mysql, answer (if_neg none)]
      rfl
    · rw [bpcharne, if_pos mysql, answer (if_neg fun both => none both.2)]
      rfl

/-- Under a deterministic collation `=` and `<>` are blank-padded equality and its negation exactly for
plain arguments. -/
theorem char_equality_iff (mysql : env.mysql = true) (valid : collid ≠ 0) (bytewise : env.bytewise collid = true)
    (c : CharArgs) :
    (env.BlankPadded collid c ↔ c.Plain) ∧ Equivalence (env.BlankEqual collid) := by
  refine ⟨?_, env.blankEqual_equivalence collid⟩
  by_cases itself : c.str1 = c.str2
  · rw [blankPadded_itself mysql valid bytewise c itself]
    exact ⟨fun whole => ⟨fun _ => whole, fun different => absurd itself different⟩, fun plain => plain.itself itself⟩
  · rw [blankPadded_apart mysql valid bytewise c itself]
    exact ⟨fun lengths => ⟨fun same => absurd same itself, fun _ => lengths⟩, fun plain => plain.others itself⟩

/-- The values `ab` and `ab` with two blanks. -/
def paddedChars : CharArgs :=
  ⟨⟨load (ascii "ab  #ab") 0 fun _ => 0, 0, 4, 5, 2, by decide⟩, by decide, by decide⟩

theorem char_equality_padded : cLocale.BlankPadded 950 paddedChars ∧ Equivalence (cLocale.BlankEqual 950) :=
  ⟨(char_equality_iff rfl (by decide) rfl paddedChars).1.mpr ⟨by decide, by decide⟩,
    (char_equality_iff rfl (by decide) rfl paddedChars).2⟩

/-- `a` with a blank is not equal to itself, and values of blanks are equal and unequal. -/
theorem char_equality_broken :
    (cLocale.bpchareq 950 ⟨load (ascii "a ") 0 fun _ => 0, 0, 2, 0, 2, by decide⟩).1 = .ok false ∧
      (cLocale.bpchareq 950 ⟨load (ascii "  # ") 0 fun _ => 0, 0, 2, 3, 1, by decide⟩).1 = .ok true ∧
      (cLocale.bpcharne 950 ⟨load (ascii "  # ") 0 fun _ => 0, 0, 2, 3, 1, by decide⟩).1 = .ok true := by
  refine ⟨?_, ?_, ?_⟩ <;> rfl

end Collations

def Blank (s : Bytes) : Prop := s ≠ [] ∧ trimBlanks s = []

theorem blank_read_iff (m : Mem) (a n : Nat) : Blank (read m a n) ↔ stop m a n = 0 ∧ 0 < n := by
  rw [Blank, ← length_pos_iff, read_length, ← length_eq_zero_iff, trimBlanks_length, and_comm]

theorem cutAtBlanks_fst_iff (m : Mem) (a n : Nat) : (cutAtBlanks m a n).1 = m ↔ ¬ Padded (read m a n) := by
  rw [padded_read_iff, cutAtBlanks]
  split
  next blanks => exact ⟨fun same => absurd same (update_stop_ne blanks), fun none => absurd blanks none⟩
  next none => exact ⟨fun _ => none, fun _ => rfl⟩

theorem cutBehindText_fst_iff (m : Mem) (a n : Nat) :
    (cutBehindText m a n).1 = m ↔ (Padded (read m a n) → Blank (read m a n)) := by
  rw [padded_read_iff, blank_read_iff, cutBehindText]
  split
  next blanks =>
    exact ⟨fun same => absurd same (update_stop_ne blanks.2), fun allBlank => absurd (allBlank blanks.2).1 (by omega)⟩
  next none =>
    refine ⟨fun _ blanks => ?_, fun _ => rfl⟩
    omega

section Kept

variable (inside : CutsInside cut) (c : ArgPair)

include inside in
theorem unchanged_raised_iff :
    c.Unchanged (cut2 cut c).1 ↔
      (cut1 cut c).1 = c.mem ∧ (cut c.mem c.str2 c.len2).1 = c.mem := by
  refine ⟨fun both => ?_, fun ⟨first, second⟩ => by rw [cut2, first, second]; exact c.unchanged_rfl⟩
  have first : (cut1 cut c).1 = c.mem := inside.kept (fun _ => inside.zero) both.1
  rw [cut2, first] at both
  exact ⟨first, inside.kept (fun _ zero => zero) both.2⟩

def restored (cut : Mem → Nat → Nat → Mem × Nat) (c : ArgPair) : Mem :=
  let cut1 := cut c.mem c.str1 c.len1
  let cut2 := cut cut1.1 c.str2 c.len2
  let m := if stop c.mem c.str1 c.len1 < c.len1 then update cut2.1 (c.str1 + cut1.2) 32 else cut2.1
  if stop cut1.1 c.str2 c.len2 < c.len2 then update m (c.str2 + cut2.2) 32 else m

omit c in
theorem back_apply (m m' : Mem) (a n i : Nat) : (if stop m a n < n then update m' (a + (cut m a n).2) 32 else m') i =
    if stop m a n < n ∧ i = a + (cut m a n).2 then 32 else m' i := by
  by_cases blanks : stop m a n < n
  · simp [blanks, update_apply]
  · rw [if_neg blanks, if_neg fun both => blanks both.1]

include inside in
theorem cut_elsewhere {i : Nat} (elsewhere : ¬ (stop m a n < n ∧ i = a + (cut m a n).2)) : (cut m a n).1 i = m i := by
  rcases inside m a n with same | ⟨blanks, stored⟩
  · rw [same]
  · rw [stored] at elsewhere ⊢
    exact update_of_ne (fun here => elsewhere ⟨blanks, here⟩) 0 m

include inside in
theorem restored_apply (i : Nat) :
    restored cut c i =
      if stop c.mem c.str1 c.len1 < c.len1 ∧ i = c.str1 + (cut1 cut c).2 ∨
        stop (cut1 cut c).1 c.str2 c.len2 < c.len2 ∧
          i = c.str2 + (cut2 cut c).2 then 32
      else c.mem i := by
  dsimp only [restored]
  rw [back_apply]
  split
  next second => rw [if_pos (.inr second)]
  next apart =>
    rw [back_apply]
    split
    next first => rw [if_pos (.inl first)]
    next apart' => rw [if_neg (not_or.mpr ⟨apart', apart⟩), cut_elsewhere inside apart, cut_elsewhere inside apart']

include inside in
theorem unchanged_restored_iff :
    c.Unchanged (restored cut c) ↔
      (stop c.mem c.str1 c.len1 < c.len1 → c.mem (c.str1 + (cut1 cut c).2) = 32) ∧
        (stop (cut1 cut c).1 c.str2 c.len2 < c.len2 →
          c.mem (c.str2 + (cut2 cut c).2) = 32) := by
  constructor
  · rintro ⟨first, second⟩
    constructor
    · intro blanks
      rw [← first _ inside.le, restored_apply inside, if_pos (.inl ⟨blanks, rfl⟩)]
    · intro blanks
      rw [← second _ inside.le, restored_apply inside, if_pos (.inr ⟨blanks, rfl⟩)]
  · rintro ⟨first, second⟩
    have all (i : Nat) : restored cut c i = c.mem i := by
      rw [restored_apply inside]
      split
      next here =>
        rcases here with ⟨blanks, here⟩ | ⟨blanks, here⟩
        · rw [here, first blanks]
        · rw [here, second blanks]
      next => rfl
    exact ⟨fun i _ => all _, fun i _ => all _⟩

end Kept

/-- `bpchareq` puts everything back. -/
theorem unchanged_cutAtBlanks (c : ArgPair) : c.Unchanged (restored cutAtBlanks c) := by
  have blank {m : Mem} {a n : Nat} (blanks : stop m a n < n) : m (a + (cutAtBlanks m a n).2) = 32 := by
    rw [cutAtBlanks, if_pos blanks]
    exact stop_blank (Nat.le_refl _) blanks
  rw [unchanged_restored_iff cutAtBlanks_inside]
  exact ⟨fun blanks => blank blanks, fun blanks => cutAtBlanks_inside.blank (blank blanks)⟩

theorem stop_cutBehindText (c : ArgPair) :
    stop (cut1 cutBehindText c).1 c.str2 c.len2 = 0 ↔ stop c.mem c.str2 c.len2 = 0 := by
  constructor
  · intro zero
    apply stop_eq
    · intro i _ within
      have blank := stop_blank (zero ▸ Nat.zero_le i) within
      exact cutBehindText_inside.blank blank
    · exact Nat.zero_le _
    · omega
  · intro zero
    rw [← zero]
    apply stop_congr
    intro i within
    unfold cut1 cutBehindText
    split
    next blanks =>
      refine update_of_ne (fun here => ?_) 0 c.mem
      rcases c.apart with ⟨place, length⟩ | apart
      · rw [place, length, zero] at blanks
        exact Nat.lt_irrefl 0 blanks.1
      · omega
    next => rfl

/-- The others store a blank behind a value of blanks; `m'` is the memory before them. -/
theorem cutBehindText_back_iff (before : ∀ i, m i = 32 → m' i = 32) (a n : Nat) :
    (stop m a n < n → m' (a + (cutBehindText m a n).2) = 32) ↔ (stop m a n = 0 ∧ 0 < n → m' (a + n) = 32) := by
  rw [cutBehindText]
  by_cases text : 0 < stop m a n
  · by_cases blanks : stop m a n < n
    · rw [if_pos ⟨text, blanks⟩]
      exact ⟨fun _ empty => absurd empty.1 (by omega), fun _ _ => before _ (stop_blank (Nat.le_refl _) blanks)⟩
    · exact ⟨fun _ empty => absurd empty.1 (by omega), fun _ less => absurd less blanks⟩
  · have zero : stop m a n = 0 := by omega
    rw [zero]
    exact ⟨fun back empty => back empty.2, fun back positive => back ⟨rfl, positive⟩⟩

theorem unchanged_cutBehindText_iff (c : ArgPair) :
    c.Unchanged (restored cutBehindText c) ↔
      (Blank c.first → c.mem (c.str1 + c.len1) = 32) ∧ (Blank c.second → c.mem (c.str2 + c.len2) = 32) := by
  rw [unchanged_restored_iff cutBehindText_inside, cutBehindText_back_iff (fun _ blank => blank),
    cutBehindText_back_iff (fun _ => cutBehindText_inside.blank), stop_cutBehindText, ArgPair.first, ArgPair.second,
    blank_read_iff, blank_read_iff]

namespace Collations

def Raises (env : Collations) (collid : Nat) (str1 str2 : Bytes) : Prop :=
  collid = 0 ∨ env.bytewise collid = false ∧ ∃ e, env.varstrCmp str1 str2 collid = .error e

variable {env : Collations} {collid : Nat} {c : ArgPair}

theorem equalChars_cases (env : Collations) (collid : Nat) (m : Mem) (str1 len1 str2 len2 : Nat) :
    (env.Raises collid (read m str1 len1) (read m str2 len2) ∧ ∃ e,
      env.equalChars collid m str1 len1 str2 len2 = .error e) ∨
      (¬ env.Raises collid (read m str1 len1) (read m str2 len2) ∧
        ∃ result, env.equalChars collid m str1 len1 str2 len2 = .ok result) := by
  rw [equalChars, Raises]
  by_cases valid : collid = 0
  · rw [if_pos valid]
    exact .inl ⟨.inl valid, _, rfl⟩
  rw [if_neg valid]
  cases bytewise : env.bytewise collid with
  | true =>
    refine .inr ⟨by simp [valid], ?_⟩
    rw [if_pos rfl]
    split
    · exact ⟨_, rfl⟩
    · split <;> exact ⟨_, rfl⟩
  | false =>
    cases env.varstrCmp (read m str1 len1) (read m str2 len2) collid with
    | error e => exact .inl ⟨.inr ⟨rfl, e, rfl⟩, e, rfl⟩
    | ok result => exact .inr ⟨by simp [valid], _, rfl⟩

theorem compareChars_kept_iff {rest : Bytes → Bytes} (cutting : Cutting cut rest) (negated : Bool) :
    c.Unchanged (env.compareChars cut negated collid c).2 ↔
      (env.Raises collid (rest c.first) (secondText rest c) →
        (cut1 cut c).1 = c.mem ∧ (cut c.mem c.str2 c.len2).1 = c.mem) ∧
      (¬ env.Raises collid (rest c.first) (secondText rest c) → c.Unchanged (restored cut c)) := by
  obtain ⟨text1, text2⟩ := cutting.texts c
  rw [← text2, ← text1, compareChars, ← unchanged_raised_iff cutting.inside]
  rcases equalChars_cases env collid (cut2 cut c).1 c.str1 (cut1 cut c).2 c.str2 (cut2 cut c).2 with
    ⟨raises, e, raised⟩ | ⟨returns, result, done⟩
  · rw [raised]
    exact ⟨fun kept => ⟨fun _ => kept, fun returns => absurd raises returns⟩, fun both => both.1 raises⟩
  · rw [done]
    exact ⟨fun kept => ⟨fun raises => absurd raises returns, fun _ => kept⟩, fun both => both.2 returns⟩

end Collations

inductive CharOp
  | bpchareq | bpcharne | bpcharlike | bpcharnlike
deriving Repr, DecidableEq

section Operators

variable (env : Collations) (lib : LikeLibrary) (collid : Nat)

def CharOp.run (c : ArgPair) : CharOp → Option Bool × Mem
  | .bpchareq => ((env.bpchareq collid c).1.toOption, (env.bpchareq collid c).2)
  | .bpcharne => ((env.bpcharne collid c).1.toOption, (env.bpcharne collid c).2)
  | .bpcharlike => ((env.bpcharlike lib collid c).1.toOption, (env.bpcharlike lib collid c).2)
  | .bpcharnlike => ((env.bpcharnlike lib collid c).1.toOption, (env.bpcharnlike lib collid c).2)

def TextPadded (s : Bytes) : Prop := Padded s ∧ ¬ Blank s

def storedText (s : Bytes) : Bytes := if trimBlanks s = [] ∨ trimBlanks s = s then s else s.set (trimBlanks s).length 0

/-- The matching raises an error, given the value as it is stored, or its text, and the pattern. -/
def LikeRaises (c : ArgPair) : Prop :=
  ∃ e, (if collid = env.caseInsensitiveId then
      lib.genericTextIcLike (storedText c.first) (if c.str1 = c.str2 then storedText c.second else c.second) 100
    else lib.genericMatchText (behindText c.first) (if c.str1 = c.str2 then storedText c.second else c.second) collid) =
      .error e

/-- Nothing is raised while a NUL stands in a value, and behind a value of blanks that is put back
stands a blank. -/
def CharOp.Spares (c : ArgPair) : CharOp → Prop
  | .bpchareq => env.mysql = true → env.Raises collid (trimBlanks c.first) (secondText trimBlanks c) →
    ¬ Padded c.first ∧ ¬ Padded c.second
  | .bpcharne => env.mysql = true →
    (env.Raises collid (behindText c.first) (secondText behindText c) → ¬ TextPadded c.first ∧ ¬ TextPadded c.second) ∧
      (¬ env.Raises collid (behindText c.first) (secondText behindText c) →
        (Blank c.first → c.mem (c.str1 + c.len1) = 32) ∧ (Blank c.second → c.mem (c.str2 + c.len2) = 32))
  | .bpcharlike | .bpcharnlike =>
    (LikeRaises env lib collid c → ¬ TextPadded c.first) ∧
      (¬ LikeRaises env lib collid c → Blank c.first → c.mem (c.str1 + c.len1) = 32)

variable {env lib collid} {c : ArgPair}

theorem cutBehindText_kept_iff (m : Mem) (a n : Nat) : (cutBehindText m a n).1 = m ↔ ¬ TextPadded (read m a n) := by
  rw [cutBehindText_fst_iff, TextPadded, not_and, not_not]

theorem bpchareq_kept_iff :
    c.Unchanged (CharOp.run env lib collid c .bpchareq).2 ↔ CharOp.Spares env lib collid c .bpchareq := by
  simp only [CharOp.run, Collations.bpchareq]
  by_cases mysql : env.mysql = true
  · rw [if_pos mysql, Collations.compareChars_kept_iff cutAtBlanks_cutting, cutAtBlanks_fst_iff, cutAtBlanks_fst_iff]
    exact ⟨fun both _ => both.1, fun raised => ⟨raised mysql, fun _ => unchanged_cutAtBlanks c⟩⟩
  · rw [if_neg mysql]
    exact ⟨fun _ isMysql => absurd isMysql mysql, fun _ => c.unchanged_rfl⟩

theorem bpcharne_kept_iff :
    c.Unchanged (CharOp.run env lib collid c .bpcharne).2 ↔ CharOp.Spares env lib collid c .bpcharne := by
  simp only [CharOp.run, Collations.bpcharne]
  by_cases mysql : env.mysql = true
  · rw [if_pos mysql, Collations.compareChars_kept_iff cutBehindText_cutting, cutBehindText_kept_iff,
      cutBehindText_kept_iff, unchanged_cutBehindText_iff]
    exact ⟨fun both _ => both, fun both => both mysql⟩
  · rw [if_neg mysql]
    exact ⟨fun _ isMysql => absurd isMysql mysql, fun _ => c.unchanged_rfl⟩

theorem read_update_inside (m : Mem) (a n k : Nat) : read (update m (a + k) 0) a n = (read m a n).set k 0 := by
  apply ext_getElem
  · rw [read_length, length_set, read_length]
  · intro i _ _
    rw [getElem_read, getElem_set, getElem_read, update_apply]
    by_cases here : k = i
    · rw [if_pos here, if_pos (by omega)]
    · rw [if_neg here, if_neg (by omega)]

theorem cutBehindText_stored (c : ArgPair) :
    read (cut1 cutBehindText c).1 c.str1 c.len1 = storedText c.first ∧
      read (cut1 cutBehindText c).1 c.str2 c.len2 = if c.str1 = c.str2 then storedText c.second else c.second := by
  have first : read (cut1 cutBehindText c).1 c.str1 c.len1 = storedText c.first := by
    have length := trimBlanks_length c.mem c.str1 c.len1
    have blank : trimBlanks c.first = [] ↔ stop c.mem c.str1 c.len1 = 0 := by
      rw [← length_eq_zero_iff, ArgPair.first, length]
    have padded : trimBlanks c.first ≠ c.first ↔ stop c.mem c.str1 c.len1 < c.len1 :=
      padded_read_iff c.mem c.str1 c.len1
    rw [cut1, cutBehindText, storedText]
    by_cases text : 0 < stop c.mem c.str1 c.len1 ∧ stop c.mem c.str1 c.len1 < c.len1
    · rw [if_pos text, if_neg, ArgPair.first, length]
      · exact read_update_inside _ _ _ _
      · rintro (empty | whole)
        · have zero := blank.mp empty
          omega
        · exact padded.mpr text.2 whole
    · rw [if_neg text, if_pos]
      · rfl
      · by_cases positive : 0 < stop c.mem c.str1 c.len1
        · exact .inr (not_not.mp fun different => text ⟨positive, padded.mp different⟩)
        · exact .inl (blank.mpr (by omega))
  refine ⟨first, ?_⟩
  by_cases itself : c.str1 = c.str2
  · have length : c.len1 = c.len2 := c.same_length itself
    rw [if_pos itself, ArgPair.second, ← itself, ← length]
    exact first
  · rw [if_neg itself, ArgPair.second]
    have apart : c.str1 + c.len1 < c.str2 ∨ c.str2 + c.len2 < c.str1 := c.apart.resolve_left fun same => itself same.1
    apply read_congr
    intro i lower upper
    exact cutBehindText_inside.outside (by omega)

theorem charLike_cases (negated : Bool) :
    (LikeRaises env lib collid c ∧ (env.charLike lib negated collid c).2 = (cut1 cutBehindText c).1) ∨
      (¬ LikeRaises env lib collid c ∧ (env.charLike lib negated collid c).2 =
        if stop c.mem c.str1 c.len1 < c.len1 then
          update (cut1 cutBehindText c).1 (c.str1 + (cut1 cutBehindText c).2) 32
        else (cut1 cutBehindText c).1) := by
  obtain ⟨value, pattern⟩ := cutBehindText_stored c
  have text : read (cut1 cutBehindText c).1 c.str1 (cut1 cutBehindText c).2 = behindText c.first :=
    cutBehindText_inside.read.trans (read_cutBehindText c.mem c.str1 c.len1)
  rw [Collations.charLike, LikeRaises, value, pattern, text]
  generalize (if collid = env.caseInsensitiveId then _ else _ : Except lib.Error Bool) = outcome
  cases outcome with
  | error e => exact .inl ⟨⟨e, rfl⟩, rfl⟩
  | ok result => exact .inr ⟨by simp, rfl⟩

theorem unchanged_cut_iff (inside : CutsInside cut) :
    c.Unchanged (cut1 cut c).1 ↔ (cut1 cut c).1 = c.mem :=
  ⟨fun unchanged => inside.kept (fun _ zero => zero) unchanged.1, fun same => by rw [same]; exact c.unchanged_rfl⟩

theorem unchanged_back_iff (inside : CutsInside cut) :
    c.Unchanged (if stop c.mem c.str1 c.len1 < c.len1 then
        update (cut1 cut c).1 (c.str1 + (cut1 cut c).2) 32 else (cut1 cut c).1) ↔
      (stop c.mem c.str1 c.len1 < c.len1 → c.mem (c.str1 + (cut1 cut c).2) = 32) := by
  constructor
  · intro unchanged blanks
    rw [← unchanged.1 _ inside.le, back_apply, if_pos ⟨blanks, rfl⟩]
  · intro back
    have all (i : Nat) : (if stop c.mem c.str1 c.len1 < c.len1 then
        update (cut1 cut c).1 (c.str1 + (cut1 cut c).2) 32 else (cut1 cut c).1) i = c.mem i := by
      rw [back_apply]
      split
      next here => rw [here.2, back here.1]
      next apart => exact cut_elsewhere inside apart
    exact ⟨fun i _ => all _, fun i _ => all _⟩

theorem charLike_kept_iff (negated : Bool) :
    c.Unchanged (env.charLike lib negated collid c).2 ↔
      (LikeRaises env lib collid c → ¬ TextPadded c.first) ∧
        (¬ LikeRaises env lib collid c → Blank c.first → c.mem (c.str1 + c.len1) = 32) := by
  rcases @charLike_cases env lib collid c negated with ⟨raises, raised⟩ | ⟨returns, done⟩
  · rw [raised, unchanged_cut_iff cutBehindText_inside, cutBehindText_kept_iff]
    exact ⟨fun none => ⟨fun _ => none, fun returns => absurd raises returns⟩, fun both => both.1 raises⟩
  · rw [done, unchanged_back_iff cutBehindText_inside, cutBehindText_back_iff (fun _ blank => blank), ArgPair.first,
      blank_read_iff]
    exact ⟨fun back => ⟨fun raises => absurd raises returns, fun _ => back⟩, fun both => both.2 returns⟩

/-- The functions leave the values and the bytes behind them as they were exactly if they spare them. -/
theorem char_memory_kept_iff (env : Collations) (lib : LikeLibrary) (collid : Nat) (op : CharOp) (c : ArgPair) :
    c.Unchanged (op.run env lib collid c).2 ↔ op.Spares env lib collid c := by
  cases op with
  | bpchareq => exact bpchareq_kept_iff
  | bpcharne => exact bpcharne_kept_iff
  | bpcharlike => exact charLike_kept_iff false
  | bpcharnlike => exact charLike_kept_iff true

end Operators

def matchAll : LikeLibrary := ⟨Unit, fun _ _ _ => .ok true, fun _ _ _ => .ok true⟩

def blankChars : ArgPair := ⟨load (ascii "  ##a ") 0 fun _ => 0, 0, 2, 4, 2, by decide⟩

/-- The byte behind a value of blanks is overwritten, and an error leaves a NUL in the other one. -/
theorem char_memory_changed :
    ¬ blankChars.Unchanged (CharOp.run Collations.cLocale matchAll 950 blankChars .bpcharne).2 ∧
      ¬ blankChars.Unchanged (CharOp.run Collations.cLocale matchAll 950 blankChars .bpcharlike).2 ∧
      ¬ blankChars.Unchanged (CharOp.run Collations.cLocale matchAll 950 blankChars .bpcharnlike).2 ∧
      ¬ blankChars.Unchanged (CharOp.run Collations.cLocale matchAll 0 blankChars .bpchareq).2 := by
  refine ⟨fun kept => ?_, fun kept => ?_, fun kept => ?_, fun kept => ?_⟩
  · exact absurd (kept.1 2 (by decide)) (by decide)
  · exact absurd (kept.1 2 (by decide)) (by decide)
  · exact absurd (kept.1 2 (by decide)) (by decide)
  · exact absurd (kept.2 1 (by decide)) (by decide)

end OpenHalo
