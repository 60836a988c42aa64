import OpenHalo.CharCompare

namespace OpenHalo.TextEquality
open Octets Memory List

/-- `TextDatumGetCString`: the bytes and a terminator. -/
def copy (arg : Text) : Bytes := arg.data ++ [0]

def store (str : Bytes) (i : Nat) : Option Bytes := if i < str.length then some (str.set i 0) else none

/-- The loop of `texteq` that takes off blanks; `n` is one more than its signed index. -/
def shorten : Nat → Bytes → Nat → Option (Bytes × Nat)
  | 0, str, len => some (str, len)
  | i + 1, str, len => do
    let b ← str[i]?
    if b ≠ 32 then some (str, len) else shorten i (str.set i 0) i

inductive Index
  | signed
  | unsigned
deriving Repr, DecidableEq

/-- The other loops look for the last byte that is no blank. `0 <= i` ends them if `i` is signed; an
unsigned one becomes `SIZE_MAX`, and the byte in front of the string is read. -/
def search (index : Index) (str : Bytes) : Nat → Option (Option Nat)
  | 0 => if index = .signed then some none else none
  | i + 1 => do
    let b ← str[i]?
    if b ≠ 32 then some (some i) else search index str i

/-- A loop over `str` that, at its last byte but blanks, stores a NUL into `target`. The length is
`start` if nothing is stored. -/
def cut (index : Index) (start strlen : Nat) (str target : Bytes) : Option (Bytes × Nat) := do
  let found ← search index str strlen
  match found with
  | some i =>
    if i < strlen - 1 then do
      let target ← store target (i + 1)
      some (target, i + 1)
    else some (target, start)
  | none => some (target, start)

section Functions

variable (env : Collations) (arg1 arg2 : Text) (collid : Nat)

def compareCut (index : Index) (negated : Bool) : Option (Except TextError Bool) := do
  let cut1 ← cut index arg1.data.length arg1.data.length (copy arg1) (copy arg1)
  let cut2 ← cut index arg2.data.length arg2.data.length (copy arg2) (copy arg2)
  some ((env.equalTexts collid (cut1.1.take cut1.2) (cut2.1.take cut2.2)).map (· != negated))

/-- The branch of the `_mys` functions for nondeterministic collations: lengths are zero at first, and
the second NUL goes into the first string. -/
def compareCutMys (negated : Bool) : Option (Except TextError Bool) := do
  let cut1 ← cut .signed 0 arg1.data.length (copy arg1) (copy arg1)
  let cut2 ← cut .signed 0 arg2.data.length (copy arg2) cut1.1
  some ((env.equalTexts collid (cut2.1.take cut1.2) ((copy arg2).take cut2.2)).map (· != negated))

def texteq : Option (Except TextError Bool) :=
  if collid = 0 then some (.error .indeterminateCollation)
  else if env.mysql then
    if env.bytewise collid then do
      let cut1 ← shorten arg1.data.length (copy arg1) arg1.data.length
      let cut2 ← shorten arg2.data.length (copy arg2) arg2.data.length
      some (env.equalTexts collid (cut1.1.take cut1.2) (cut2.1.take cut2.2))
    else compareCut env arg1 arg2 collid .signed false
  else some (env.texteq arg1 arg2 collid)

/-- For other clients `textne` is the negation of `texteq`. -/
def textne : Option (Except TextError Bool) :=
  if collid = 0 then some (.error .indeterminateCollation)
  else if env.mysql then
    if env.bytewise collid then compareCut env arg1 arg2 collid .unsigned true
    else compareCut env arg1 arg2 collid .signed true
  else some ((env.texteq arg1 arg2 collid).map (!·))

def compareMys (negated : Bool) : Option (Except TextError Bool) :=
  if collid = 0 then some (.error .indeterminateCollation)
  else if env.bytewise collid then compareCut env arg1 arg2 collid .unsigned negated
  else compareCutMys env arg1 arg2 collid negated

def texteqMys : Option (Except TextError Bool) := compareMys env arg1 arg2 collid false

def textneMys : Option (Except TextError Bool) := compareMys env arg1 arg2 collid true

end Functions

/-- A collation: `varstr_cmp` finds no difference where two strings are the same. -/
structure Collates (env : Collations) (collid : Nat) (same : Bytes → Bytes → Prop) : Prop where
  valid : collid ≠ 0
  equivalence : Equivalence same
  compares : env.bytewise collid = false → ∀ a b, ∃ result, env.varstrCmp a b collid = .ok result ∧
    (result = 0 ↔ same a b)

section Specification

variable (env : Collations) (collid : Nat) (same : Bytes → Bytes → Prop) (a b : Text)

def Same (x y : Bytes) : Prop := if env.bytewise collid then env.textKey collid x = env.textKey collid y else same x y

/-- All four functions give the equality of the strings without blanks behind them, or its negation. -/
def BlankPadded : Prop :=
  ∃ answer : Bool, (answer = true ↔ Same env collid same (trimBlanks a.data) (trimBlanks b.data)) ∧
    texteq env a b collid = some (.ok answer) ∧ textne env a b collid = some (.ok !answer) ∧
    texteqMys env a b collid = some (.ok answer) ∧ textneMys env a b collid = some (.ok !answer)

def cutOff (s : Bytes) : Bytes := if trimBlanks s = s then [] else trimBlanks s

def overwritten (s t : Bytes) : Bytes := if cutOff t = [] then cutOff s else (cutOff s).set (cutOff t).length 0

/-- An empty string, or blanks behind some text. -/
def EmptyOrPadded (s : Bytes) : Prop := s = [] ∨ trimBlanks s ≠ [] ∧ trimBlanks s ≠ s

/-- Twice the same string, or two that are empty or padded, the second empty or with at least as much
text as the first and not more than the first has room for. -/
def Comparable (s t : Bytes) : Prop :=
  s = t ∨ EmptyOrPadded s ∧ EmptyOrPadded t ∧
    (t = [] ∨ (trimBlanks s).length ≤ (trimBlanks t).length ∧ (trimBlanks t).length ≤ s.length)

end Specification

section Loops

variable {str : Bytes} {n i : Nat}

theorem take_getElem? (within : n < str.length) : ∃ b, str[n]? = some b ∧ str.take (n + 1) = str.take n ++ [b] :=
  ⟨str[n], List.getElem?_eq_getElem within, take_succ_eq_append_getElem within⟩

theorem shorten_eq (within : n ≤ str.length) :
    ∃ str', shorten n str n = some (str', (trimBlanks (str.take n)).length) ∧
      str'.take (trimBlanks (str.take n)).length = trimBlanks (str.take n) := by
  induction n generalizing str with
  | zero => exact ⟨str, rfl, rfl⟩
  | succ n ih =>
    obtain ⟨b, byte, last⟩ := take_getElem? within
    rw [shorten, byte, last, trimBlanks_concat]
    by_cases blank : b = 32
    · have length : n ≤ (str.set n 0).length := by
        rw [length_set]
        omega
      have shorter := ih length
      rw [take_set_of_le (Nat.le_refl n)] at shorter
      simpa [blank] using shorter
    · rw [if_neg blank, ← last]
      refine ⟨str, ?_, ?_⟩
      · rw [length_take_of_le within]
        exact if_pos blank
      · rw [length_take_of_le within]

theorem search_eq (index : Index) (within : n ≤ str.length) :
    search index str n =
      if trimBlanks (str.take n) = [] then (if index = .signed then some none else none)
      else some (some ((trimBlanks (str.take n)).length - 1)) := by
  induction n with
  | zero => rfl
  | succ n ih =>
    obtain ⟨b, byte, last⟩ := take_getElem? within
    rw [search, byte, last, trimBlanks_concat]
    by_cases blank : b = 32
    · rw [if_pos blank, ← ih (by omega)]
      exact if_neg (not_not.mpr blank)
    · rw [if_neg blank, if_neg (by simp), ← last, length_take_of_le within]
      exact if_pos blank

end Loops

theorem cut_eq (index : Index) (start : Nat) (s target : Bytes) :
    cut index start s.length (s ++ [0]) target =
      if trimBlanks s = [] then (if index = .signed then some (target, start) else none)
      else if trimBlanks s = s then some (target, start)
      else (store target (trimBlanks s).length).map (·, (trimBlanks s).length) := by
  have front : (s ++ [0]).take s.length = s := take_left' rfl
  rw [cut, search_eq index (by simp), front]
  by_cases blank : trimBlanks s = []
  · rw [if_pos blank, if_pos blank]
    split <;> rfl
  have positive := length_pos_iff.mpr blank
  rw [if_neg blank, if_neg blank]
  by_cases whole : trimBlanks s = s
  · rw [if_pos whole, whole]
    exact if_neg (Nat.lt_irrefl _)
  have shorter := trimBlanks_length_lt whole
  have behind : (trimBlanks s).length - 1 + 1 = (trimBlanks s).length := by omega
  rw [if_neg whole]
  change (if (trimBlanks s).length - 1 < s.length - 1 then _ else _) = _
  rw [if_pos (by omega), behind]
  cases store target (trimBlanks s).length <;> rfl

theorem store_inside {str : Bytes} {i : Nat} (inside : i < str.length) : store str i = some (str.set i 0) :=
  if_pos inside

theorem copy_take {arg : Text} {n : Nat} (within : n ≤ arg.data.length) : (copy arg).take n = arg.data.take n :=
  take_append_of_le_length within

theorem copy_length (arg : Text) : (copy arg).length = arg.data.length + 1 := length_append

section Copies

variable {env : Collations} {collid : Nat} {a b : Text} {index : Index} {negated : Bool}

variable (arg : Text)

theorem shorten_copy :
    ∃ str, shorten arg.data.length (copy arg) arg.data.length = some (str, (trimBlanks arg.data).length) ∧
      str.take (trimBlanks arg.data).length = trimBlanks arg.data := by
  have within : arg.data.length ≤ (copy arg).length := by
    rw [copy_length]
    omega
  have front : (copy arg).take arg.data.length = arg.data := take_left' rfl
  have shorter := shorten_eq within
  rwa [front] at shorter

theorem cut_copy (ends : trimBlanks arg.data = [] → index = .signed) :
    ∃ str, cut index arg.data.length arg.data.length (copy arg) (copy arg) = some (str, (behindText arg.data).length) ∧
      str.take (behindText arg.data).length = behindText arg.data := by
  have front : (copy arg).take arg.data.length = arg.data := take_left' rfl
  rw [copy, cut_eq, behindText, ← copy]
  by_cases blank : trimBlanks arg.data = []
  · rw [if_pos blank, if_pos blank, if_pos (ends blank)]
    exact ⟨copy arg, rfl, front⟩
  rw [if_neg blank, if_neg blank]
  by_cases whole : trimBlanks arg.data = arg.data
  · rw [if_pos whole, whole]
    exact ⟨copy arg, rfl, front⟩
  have shorter := trimBlanks_length_lt whole
  rw [if_neg whole, store_inside (by rw [copy_length]; omega)]
  refine ⟨_, rfl, ?_⟩
  rw [take_set_of_le (Nat.le_refl _), copy_take shorter.le, trimBlanks_take]

theorem cut_outside (blank : trimBlanks arg.data = []) (start : Nat) (target : Bytes) :
    cut .unsigned start arg.data.length (copy arg) target = none := by
  rw [copy, cut_eq, if_pos blank]
  rfl

theorem compareCut_eq (ends1 : trimBlanks a.data = [] → index = .signed)
    (ends2 : trimBlanks b.data = [] → index = .signed) :
    compareCut env a b collid index negated =
      some ((env.equalTexts collid (behindText a.data) (behindText b.data)).map (· != negated)) := by
  obtain ⟨str1, cut1, text1⟩ := cut_copy a ends1
  obtain ⟨str2, cut2, text2⟩ := cut_copy b ends2
  rw [compareCut, cut1, cut2]
  change some ((env.equalTexts collid (str1.take (behindText a.data).length) (str2.take (behindText b.data).length)).map
    (· != negated)) = _
  rw [text1, text2]

theorem compareCut_outside (blank : trimBlanks a.data = [] ∨ trimBlanks b.data = []) :
    compareCut env a b collid .unsigned negated = none := by
  rw [compareCut]
  rcases blank with blank | blank
  · rw [cut_outside a blank]
    rfl
  · rw [cut_outside b blank]
    cases cut .unsigned a.data.length a.data.length (copy a) (copy a) <;> rfl

theorem cut_mys (target : Bytes) :
    cut .signed 0 arg.data.length (copy arg) target =
      if cutOff arg.data = [] then some (target, 0) else
        (store target (cutOff arg.data).length).map (·, (cutOff arg.data).length) := by
  rw [copy, cut_eq, cutOff, if_pos rfl]
  by_cases whole : trimBlanks arg.data = arg.data
  · split <;> rfl
  · rw [if_neg whole, if_neg whole]

theorem cutOff_length_le (s : Bytes) : (cutOff s).length ≤ s.length := by
  rw [cutOff]
  split
  · exact Nat.zero_le _
  · exact (trimBlanks_front s).length_le

theorem cutOff_take (s : Bytes) : s.take (cutOff s).length = cutOff s := by
  rw [cutOff]
  split
  · rfl
  · exact trimBlanks_take s

theorem cut_mys_copy :
    ∃ str, cut .signed 0 arg.data.length (copy arg) (copy arg) = some (str, (cutOff arg.data).length) ∧
      str.take (cutOff arg.data).length = cutOff arg.data ∧ str.length = arg.data.length + 1 := by
  have upTo := cutOff_length_le arg.data
  rw [cut_mys]
  by_cases empty : cutOff arg.data = []
  · rw [if_pos empty, empty]
    exact ⟨copy arg, rfl, rfl, copy_length arg⟩
  rw [if_neg empty, store_inside (by rw [copy_length]; omega)]
  refine ⟨_, rfl, ?_, ?_⟩
  · rw [take_set_of_le (Nat.le_refl _), copy_take upTo, cutOff_take]
  · rw [length_set, copy_length]

theorem compareCutMys_eq :
    compareCutMys env a b collid negated =
      if (cutOff b.data).length ≤ a.data.length then
        some ((env.equalTexts collid (overwritten a.data b.data) (cutOff b.data)).map (· != negated))
      else none := by
  obtain ⟨str, cut1, text, length⟩ := cut_mys_copy a
  have second : (copy b).take (cutOff b.data).length = cutOff b.data := by
    rw [copy_take (cutOff_length_le b.data), cutOff_take]
  rw [compareCutMys, cut1]
  change (cut .signed 0 b.data.length (copy b) str).bind (fun cut2 =>
    some ((env.equalTexts collid (cut2.1.take (cutOff a.data).length) ((copy b).take cut2.2)).map (· != negated))) = _
  rw [cut_mys, overwritten]
  by_cases empty : cutOff b.data = []
  · rw [if_pos empty, if_pos empty, empty, length_nil, if_pos (Nat.zero_le _)]
    change some ((env.equalTexts collid (str.take (cutOff a.data).length) []).map (· != negated)) = _
    rw [text]
  · rw [if_neg empty, if_neg empty]
    by_cases inside : (cutOff b.data).length ≤ a.data.length
    · rw [if_pos inside, store_inside (by omega)]
      change some ((env.equalTexts collid ((str.set (cutOff b.data).length 0).take (cutOff a.data).length)
        ((copy b).take (cutOff b.data).length)).map (· != negated)) = _
      rw [second, take_set, text]
    · rw [if_neg inside, store, if_neg (by omega)]
      rfl

end Copies

section Functions

variable {env : Collations} {collid : Nat} {same : Bytes → Bytes → Prop} {a b : Text}

theorem texteq_bytewise (valid : collid ≠ 0) (mysql : env.mysql = true) (bytewise : env.bytewise collid = true) :
    texteq env a b collid = some (env.equalTexts collid (trimBlanks a.data) (trimBlanks b.data)) := by
  obtain ⟨str1, cut1, text1⟩ := shorten_copy a
  obtain ⟨str2, cut2, text2⟩ := shorten_copy b
  rw [texteq, if_neg valid, if_pos mysql, if_pos bytewise, cut1, cut2]
  change some (env.equalTexts collid (str1.take (trimBlanks a.data).length) (str2.take (trimBlanks b.data).length)) = _
  rw [text1, text2]

theorem behindText_eq {s : Bytes} (text : trimBlanks s ≠ []) : behindText s = trimBlanks s := if_neg text

theorem Collates.equalTexts_ok (collates : Collates env collid same) (other : env.bytewise collid = false)
    (x y : Bytes) :
    ∃ answer, env.equalTexts collid x y = .ok answer ∧ (answer = true ↔ same x y) := by
  obtain ⟨result, compared, zero⟩ := collates.compares other x y
  refine ⟨decide (result = 0), ?_, by rw [decide_eq_true_iff, zero]⟩
  rw [Collations.equalTexts, if_neg (by rw [other]; decide), compared]
  rfl

/-- `texteq` is right for all strings; the others leave a string without text. -/
theorem blankPadded_bytewise (mysql : env.mysql = true) (valid : collid ≠ 0) (bytewise : env.bytewise collid = true) :
    BlankPadded env collid same a b ↔ trimBlanks a.data ≠ [] ∧ trimBlanks b.data ≠ [] := by
  have keys := Collations.equalTexts_bytewise bytewise (trimBlanks_text a.text) (trimBlanks_text b.text)
  simp only [BlankPadded, texteq_bytewise valid mysql bytewise, keys, textne, texteqMys, textneMys, compareMys,
    if_neg valid, if_pos mysql, if_pos bytewise]
  constructor
  · rintro ⟨answer, _, _, unequal, _⟩
    by_contra noText
    have blank : trimBlanks a.data = [] ∨ trimBlanks b.data = [] := by
      rw [← not_or, not_not] at noText
      exact noText
    rw [compareCut_outside blank] at unequal
    cases unequal
  · rintro ⟨text1, text2⟩
    refine ⟨decide (env.textKey collid (trimBlanks a.data) = env.textKey collid (trimBlanks b.data)), ?_, rfl, ?_, ?_,
      ?_⟩
    · rw [decide_eq_true_iff, Same, if_pos bytewise]
    all_goals
      rw [compareCut_eq (fun blank => absurd blank text1) (fun blank => absurd blank text2), behindText_eq text1,
        behindText_eq text2, keys]
      simp [Except.map]

theorem blankPadded_collation (mysql : env.mysql = true) (collates : Collates env collid same)
    (other : env.bytewise collid = false) :
    BlankPadded env collid same a b ↔
      (same (behindText a.data) (behindText b.data) ↔ same (trimBlanks a.data) (trimBlanks b.data)) ∧
        (cutOff b.data).length ≤ a.data.length ∧
        (same (overwritten a.data b.data) (cutOff b.data) ↔ same (trimBlanks a.data) (trimBlanks b.data)) := by
  obtain ⟨first, compared, isSame⟩ := collates.equalTexts_ok other (behindText a.data) (behindText b.data)
  obtain ⟨second, comparedMys, isSameMys⟩ := collates.equalTexts_ok other (overwritten a.data b.data) (cutOff b.data)
  have nondeterministic : ¬ env.bytewise collid = true := by
    rw [other]
    decide
  simp only [BlankPadded, texteq, textne, texteqMys, textneMys, compareMys, if_neg collates.valid, if_pos mysql,
    if_neg nondeterministic, compareCut_eq (fun _ => rfl) (fun _ => rfl), compareCutMys_eq, compared, comparedMys, Same,
    ← isSame, ← isSameMys]
  by_cases inside : (cutOff b.data).length ≤ a.data.length
  · rw [if_pos inside, if_pos inside]
    constructor
    · rintro ⟨answer, right, equal, _, equalMys, _⟩
      have answer1 : first = answer := by simpa [Except.map] using equal
      have answer2 : second = answer := by simpa [Except.map] using equalMys
      rw [answer1, answer2]
      exact ⟨right, inside, right⟩
    · rintro ⟨right, _, rightMys⟩
      have agree : second = first := by
        rw [Bool.eq_iff_iff, right, rightMys]
      refine ⟨first, right, ?_, ?_, ?_, ?_⟩
      all_goals simp [agree, Except.map]
  · rw [if_neg inside, if_neg inside]
    constructor
    · rintro ⟨answer, _, _, _, outside, _⟩
      cases outside
    · rintro ⟨_, within, _⟩
      exact absurd within inside

end Functions

section Strings

variable {s t x y u v : Bytes}

/-- Two strings are the same and all others are different. -/
def joined (u v x y : Bytes) : Prop := x = y ∨ (x = u ∨ x = v) ∧ (y = u ∨ y = v)

instance (u v : Bytes) : DecidableRel (joined u v) := fun _ _ => inferInstanceAs (Decidable (_ ∨ _))

theorem joined_equivalence (u v : Bytes) : Equivalence (joined u v) where
  refl x := .inl rfl
  symm := by
    rintro x y (rfl | ⟨first, second⟩)
    · exact .inl rfl
    · exact .inr ⟨second, first⟩
  trans := by
    rintro x y z (rfl | ⟨first, middle⟩) (rfl | ⟨again, last⟩)
    · exact .inl rfl
    · exact .inr ⟨again, last⟩
    · exact .inr ⟨first, middle⟩
    · exact .inr ⟨first, last⟩

theorem joined_self : joined u u x y ↔ x = y := by
  constructor
  · rintro (same | ⟨first | first, second | second⟩)
    · exact same
    all_goals exact first.trans second.symm
  · exact .inl

/-- Only the same two strings are equal under every equivalence. -/
theorem same_pair (agree : ∀ p q, joined p q x y ↔ joined p q u v) (apart : u ≠ v) : x = u ∧ y = v ∨ x = v ∧ y = u := by
  have different : x ≠ y := by
    intro same
    have equal := agree [] []
    rw [joined_self, joined_self] at equal
    exact apart (equal.mp same)
  rcases (agree u v).mpr (.inr ⟨.inl rfl, .inr rfl⟩) with same | ⟨first | first, second | second⟩
  · exact absurd same different
  · exact absurd (first.trans second.symm) different
  · exact .inl ⟨first, second⟩
  · exact .inr ⟨first, second⟩
  · exact absurd (first.trans second.symm) different

theorem trimBlanks_trimBlanks (s : Bytes) : trimBlanks (trimBlanks s) = trimBlanks s := rdropWhile_idempotent _ _

theorem behindText_of_emptyOrPadded (shape : EmptyOrPadded s) : behindText s = trimBlanks s := by
  rcases shape with rfl | ⟨text, _⟩
  · rfl
  · exact if_neg text

theorem cutOff_of_emptyOrPadded (shape : EmptyOrPadded s) : cutOff s = trimBlanks s := by
  rcases shape with rfl | ⟨_, blanks⟩
  · rfl
  · exact if_neg blanks

theorem overwritten_eq (short : cutOff t = [] ∨ (cutOff s).length ≤ (cutOff t).length) :
    overwritten s t = cutOff s := by
  rw [overwritten]
  split
  · rfl
  · exact set_eq_of_length_le (short.resolve_left (by assumption))

/-- A string that both kinds of loops compare without its blanks. -/
theorem emptyOrPadded_of (behind : behindText s = trimBlanks s) (cut : cutOff s = trimBlanks s) : EmptyOrPadded s := by
  by_cases whole : trimBlanks s = s
  · rw [cutOff, if_pos whole] at cut
    exact .inl (whole.symm.trans cut.symm)
  · refine .inr ⟨fun blank => ?_, whole⟩
    rw [behindText, if_pos blank] at behind
    exact whole behind.symm

/-- A string of blanks is no text without blanks behind it. -/
theorem behindText_ne (apart : trimBlanks s ≠ trimBlanks t) : behindText s ≠ trimBlanks t := by
  intro same
  apply apart
  by_cases blank : trimBlanks s = []
  · rw [behindText, if_pos blank] at same
    rw [same, trimBlanks_trimBlanks]
  · rwa [behindText, if_neg blank] at same

/-- The stored NUL is in none of the strings without blanks. -/
theorem cutOff_of_overwritten (text : 0 ∉ s) (kept : overwritten s t = trimBlanks s) :
    cutOff s = trimBlanks s ∧ (cutOff t = [] ∨ (cutOff s).length ≤ (cutOff t).length) := by
  have short : cutOff t = [] ∨ (cutOff s).length ≤ (cutOff t).length := by
    by_contra long
    rw [not_or, Nat.not_le] at long
    rw [overwritten, if_neg long.1] at kept
    have zero : 0 ∈ (cutOff s).set (cutOff t).length 0 := mem_set long.2 0
    rw [kept] at zero
    exact trimBlanks_text text zero
  exact ⟨(overwritten_eq short).symm.trans kept, short⟩

theorem comparable_of_same (behind : behindText s = behindText t) (cut : overwritten s t = cutOff t)
    (trimmed : trimBlanks s = trimBlanks t) : Comparable s t := by
  by_cases blank : trimBlanks s = []
  · rw [behindText, if_pos blank, behindText, if_pos (trimmed ▸ blank)] at behind
    exact .inl behind
  by_cases padded : trimBlanks t = t
  · have nothing : cutOff t = [] := if_pos padded
    rw [overwritten, if_pos nothing, nothing, cutOff] at cut
    split at cut
    · rename_i whole
      exact .inl (whole.symm.trans (trimmed.trans padded))
    · exact absurd cut blank
  have text : cutOff t = trimBlanks t := if_neg padded
  by_cases whole : trimBlanks s = s
  · rw [overwritten, if_neg (by rw [text, ← trimmed]; exact blank), cutOff, if_pos whole, text, set_nil,
      ← trimmed] at cut
    exact absurd cut.symm blank
  · refine .inr ⟨.inr ⟨blank, whole⟩, .inr ⟨trimmed ▸ blank, padded⟩, .inr ⟨(congrArg length trimmed).le, ?_⟩⟩
    rw [← trimmed]
    exact (trimBlanks_front s).length_le

theorem comparable_of_agree (text : 0 ∉ s)
    (behind : ∀ p q, joined p q (behindText s) (behindText t) ↔ joined p q (trimBlanks s) (trimBlanks t))
    (inside : (cutOff t).length ≤ s.length)
    (cut : ∀ p q, joined p q (overwritten s t) (cutOff t) ↔ joined p q (trimBlanks s) (trimBlanks t)) : Comparable s
    t := by
  by_cases trimmed : trimBlanks s = trimBlanks t
  · exact comparable_of_same (joined_self.mp ((behind [] []).mpr (.inl trimmed)))
      (joined_self.mp ((cut [] []).mpr (.inl trimmed))) trimmed
  rcases same_pair behind trimmed with ⟨behindS, behindT⟩ | ⟨crossed, _⟩
  · rcases same_pair cut trimmed with ⟨kept, cutT⟩ | ⟨crossed, cutT⟩
    · obtain ⟨cutS, short⟩ := cutOff_of_overwritten text kept
      have shape := emptyOrPadded_of behindT cutT
      refine .inr ⟨emptyOrPadded_of behindS cutS, shape, ?_⟩
      rw [cutS, cutT] at short
      rw [cutT] at inside
      rcases shape with empty | ⟨nonempty, _⟩
      · exact .inl empty
      · exact .inr ⟨short.resolve_left nonempty, inside⟩
    · rw [cutOff] at cutT
      split at cutT
      · have nothing : cutOff t = [] := if_pos (by assumption)
        rw [overwritten, if_pos nothing, cutOff] at crossed
        split at crossed
        · exact absurd (cutT.symm.trans crossed) trimmed
        · exact absurd crossed trimmed
      · exact absurd cutT.symm trimmed
  · exact absurd crossed (behindText_ne trimmed)

end Strings

section Functions

variable {env : Collations} {collid : Nat} {same : Bytes → Bytes → Prop} {a b : Text}

theorem Comparable.blankPadded (comparable : Comparable a.data b.data) (mysql : env.mysql = true)
    (collates : Collates env collid same) (other : env.bytewise collid = false) : BlankPadded env collid same a b := by
  refine (blankPadded_collation mysql collates other).mpr ?_
  rcases comparable with equal | ⟨shapeA, shapeB, room⟩
  · have refl (x : Bytes) : same x x := collates.equivalence.refl x
    rw [equal, overwritten_eq (.inr (Nat.le_refl _))]
    exact ⟨iff_of_true (refl _) (refl _), cutOff_length_le _, iff_of_true (refl _) (refl _)⟩
  · have cutA := cutOff_of_emptyOrPadded shapeA
    have cutB := cutOff_of_emptyOrPadded shapeB
    have short : cutOff b.data = [] ∨ (cutOff a.data).length ≤ (cutOff b.data).length := by
      rw [cutA, cutB]
      rcases room with empty | ⟨short, _⟩
      · rw [empty]
        exact .inl rfl
      · exact .inr short
    have inside : (trimBlanks b.data).length ≤ a.data.length := by
      rcases room with empty | ⟨_, inside⟩
      · rw [empty]
        exact Nat.zero_le _
      · exact inside
    rw [behindText_of_emptyOrPadded shapeA, behindText_of_emptyOrPadded shapeB, overwritten_eq short, cutA, cutB]
    exact ⟨Iff.rfl, inside, Iff.rfl⟩

/-- A session with a nondeterministic collation. -/
def icuLocale (same : Bytes → Bytes → Prop) [DecidableRel same] : Collations :=
  ⟨true, 4294967295, fun _ => false, fun _ => ⟨false, .icu fun a b => some (if same a b then 0 else 1)⟩, strcmp⟩

theorem icuLocale_collates [DecidableRel same] (equivalence : Equivalence same) : Collates (icuLocale same) 1 same := by
  refine ⟨by decide, equivalence, fun _ a b => ?_⟩
  have icu : ¬(icuLocale same).lcCollateIsC 1 = true := Bool.false_ne_true
  by_cases bytes : a.length = b.length ∧ memcmp a.length a b = 0
  · obtain rfl := (memcmp_eq_zero bytes.1).mp bytes.2
    refine ⟨0, ?_, iff_of_true rfl (equivalence.refl a)⟩
    rw [Collations.varstrCmp, if_neg (by decide), if_neg icu, if_pos bytes]
  · refine ⟨if same a b then 0 else 1, ?_, ?_⟩
    · rw [Collations.varstrCmp, if_neg (by decide), if_neg icu, if_neg bytes]
      simp [Collations.locale, Collations.collate, icuLocale, DEFAULT_COLLATION_OID]
    · split <;> simp [*]

/-- The four functions are blank-padded equality exactly if both strings have some text or, under other
collations, are comparable. -/
theorem text_equality_iff (a b : Text) :
    (∀ env collid same, env.mysql = true → Collates env collid same → env.bytewise collid = true →
      (BlankPadded env collid same a b ↔ trimBlanks a.data ≠ [] ∧ trimBlanks b.data ≠ [])) ∧
    ((∀ env collid same, env.mysql = true → Collates env collid same → env.bytewise collid = false →
      BlankPadded env collid same a b) ↔ Comparable a.data b.data) := by
  refine ⟨fun env collid same mysql collates bytewise => blankPadded_bytewise mysql collates.valid bytewise,
    fun padded => ?_, fun comparable env collid same mysql collates other =>
      comparable.blankPadded mysql collates other⟩
  have agree (p q : Bytes) := (blankPadded_collation rfl (icuLocale_collates (joined_equivalence p q)) rfl).mp
    (padded _ _ _ rfl (icuLocale_collates (joined_equivalence p q)) rfl)
  exact comparable_of_agree a.text (fun p q => (agree p q).1) (agree [] []).2.1 fun p q => (agree p q).2.2

end Functions

theorem cLocale_collates : Collates Collations.cLocale DEFAULT_COLLATION_OID (· = ·) :=
  ⟨by decide, eq_equivalence, fun other => by cases other⟩

/-- The values `a ` and `a` under a deterministic collation, `a ` and `bb ` under another. -/
theorem text_equality_letters :
    BlankPadded Collations.cLocale DEFAULT_COLLATION_OID (· = ·) ⟨[97, 32], by decide⟩ ⟨[97], by decide⟩ ∧
      BlankPadded (icuLocale (· = ·)) 1 (· = ·) ⟨[97, 32], by decide⟩ ⟨[98, 98, 32], by decide⟩ :=
  ⟨((text_equality_iff _ _).1 _ _ _ rfl cLocale_collates rfl).mpr (by decide),
    (text_equality_iff _ _).2.mpr (.inr ⟨.inr (by decide), .inr (by decide), .inr (by decide)⟩) _ _ _ rfl
      (icuLocale_collates eq_equivalence) rfl⟩

/-- The copy of an empty string is left; under another collation `a` and `b` are the same for
`texteq_mys`, a blank and an empty string are not for `texteq`, and a store leaves `a`. -/
theorem text_equality_broken :
    (texteq Collations.cLocale ⟨[], by decide⟩ ⟨[32], by decide⟩ DEFAULT_COLLATION_OID = some (.ok true) ∧
      textne Collations.cLocale ⟨[], by decide⟩ ⟨[32], by decide⟩ DEFAULT_COLLATION_OID = none ∧
      texteqMys Collations.cLocale ⟨[], by decide⟩ ⟨[32], by decide⟩ DEFAULT_COLLATION_OID = none) ∧
    (texteqMys (icuLocale (· = ·)) ⟨[97], by decide⟩ ⟨[98], by decide⟩ 1 = some (.ok true) ∧
      texteq (icuLocale (· = ·)) ⟨[], by decide⟩ ⟨[32], by decide⟩ 1 = some (.ok false) ∧
      textneMys (icuLocale (· = ·)) ⟨[97], by decide⟩ ⟨[98, 98, 32], by decide⟩ 1 = none) ∧
    (¬ BlankPadded Collations.cLocale DEFAULT_COLLATION_OID (· = ·) ⟨[], by decide⟩ ⟨[32], by decide⟩ ∧
      Collates (icuLocale (· = ·)) 1 (· = ·) ∧
      ¬ BlankPadded (icuLocale (· = ·)) 1 (· = ·) ⟨[97], by decide⟩ ⟨[98], by decide⟩) := by
  refine ⟨by decide, by decide, ?_, icuLocale_collates eq_equivalence, ?_⟩
  · rintro ⟨answer, _, _, outside, _⟩
    cases outside
  · rintro ⟨answer, right, _, _, equal, _⟩
    cases equal
    have equal : trimBlanks [97] = trimBlanks [98] := right.mp rfl
    exact absurd equal (by decide)

end OpenHalo.TextEquality
