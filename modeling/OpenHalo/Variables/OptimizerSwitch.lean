import Mathlib.Data.List.Infix
import OpenHalo.Lib.NoCase
import OpenHalo.Variables.SystemVar

namespace OpenHalo.SysVars
open Octets List

variable {fuel k o : Nat} {after before pieces ps xs ys : List Bytes} {name p rest varValue : Bytes} {a item : Item}
variable {args stored : List Item}

def firstMatch (name text : Bytes) : Option Nat :=
  (List.range text.length).find? fun k => eqNoCase name.length (text.drop k) name

def Occurs (name text : Bytes) : Prop := name.map lower <:+: text.map lower

section search
variable {name text : Bytes}

theorem eqNoCase_drop_iff (plain : 0 ∉ name) (clean : 0 ∉ text) (k : Nat) :
    eqNoCase name.length (text.drop k) name = true ↔ name.map lower <+: (text.drop k).map lower := by
  have whole : 0 ∉ text.drop k := fun member => clean (mem_of_mem_drop member)
  rw [eqNoCase_iff, cstr_eq plain, cstr_eq whole, prefix_iff_eq_take, length_map,
    ← @length_map _ _ name lower, take_length, eq_comm]

theorem firstMatch_eq_some_iff (plain : 0 ∉ name) (clean : 0 ∉ text) :
    firstMatch name text = some k ↔ name.map lower <+: (text.drop k).map lower ∧ k < text.length ∧
      ∀ j < k, ¬ name.map lower <+: (text.drop j).map lower := by
  simp only [firstMatch, List.find?_range_eq_some, mem_range, Bool.not_eq_true', ← Bool.not_eq_true,
    eqNoCase_drop_iff plain clean]

theorem firstMatch_eq_none_iff (plain : 0 ∉ name) (clean : 0 ∉ text) (nonempty : name ≠ []) :
    firstMatch name text = none ↔ ¬ Occurs name text := by
  simp only [firstMatch, List.find?_range_eq_none, Bool.not_eq_true', ← Bool.not_eq_true, eqNoCase_drop_iff plain clean]
  constructor
  · rintro none ⟨front, back, split⟩
    refine none front.length ?_ ?_
    · have lengths := congrArg List.length split
      have positive := length_pos_iff.mpr nonempty
      simp only [length_append, length_map] at lengths
      omega
    · rw [map_drop, ← split, append_assoc, drop_left]
      exact prefix_append _ _
  · intro absent k _ found
    refine absent (found.isInfix.trans ?_)
    rw [map_drop]
    exact (drop_suffix _ _).isInfix

end search

def listed (pieces : List Bytes) : Bytes := [44].intercalate pieces

theorem listed_singleton (p : Bytes) : listed [p] = p := by simp [listed]

theorem listed_cons (p : Bytes) (more : ps ≠ []) : listed (p :: ps) = p ++ 44 :: listed ps := by
  cases ps with
  | nil => exact absurd rfl more
  | cons q ps =>
    rfl

theorem listed_inj (left : ∀ p ∈ xs, 44 ∉ p) (right : ∀ p ∈ ys, 44 ∉ p) (some : xs ≠ []) (some' : ys ≠ [])
    (same : listed xs = listed ys) : xs = ys := by
  rw [← splitOn_intercalate 44 left some, ← splitOn_intercalate 44 right some']
  exact congrArg (List.splitOn 44) same

theorem listed_clean (clean : ∀ p ∈ pieces, 0 ∉ p) : 0 ∉ listed pieces := by
  induction pieces with
  | nil => exact not_mem_nil
  | cons p ps ih =>
    obtain ⟨first, others⟩ := forall_mem_cons.mp clean
    by_cases more : ps = []
    · rwa [more, listed_singleton]
    rw [listed_cons p more]
    simpa [first] using ih others

theorem lower_eq_comma (c : UInt8) : lower c = 44 ↔ c = 44 := by
  revert c
  apply forall_byte
  decide +kernel

theorem drop_behind (p rest : Bytes) (j : Nat) : (p ++ 44 :: rest).drop (p.length + 1 + j) = rest.drop j := by
  rw [Nat.add_assoc, ← drop_drop, drop_left, Nat.add_comm, drop_succ_cons]

theorem prefix_before_comma (commaless : 44 ∉ name)
    (found : name.map lower <+: (p ++ 44 :: rest).map lower) : name.map lower <+: p.map lower := by
  rw [map_append] at found
  rcases List.prefix_or_prefix_of_prefix found (prefix_append (p.map lower) _) with inside | ⟨more, across⟩
  · exact inside
  rw [← across, prefix_append_right_inj] at found
  cases more with
  | nil =>
    rw [← across, append_nil]
  | cons c more =>
    exfalso
    have comma : c = 44 := (cons_prefix_cons.mp found).1
    have member : c ∈ name.map lower := by
      rw [← across]
      exact mem_append_right _ mem_cons_self
    obtain ⟨d, inside, lowered⟩ := mem_map.mp member
    rw [comma, lower_eq_comma] at lowered
    exact commaless (lowered ▸ inside)

/-- An item `name=setting` of the value. -/
structure Item where
  name : Bytes
  setting : Bytes
deriving DecidableEq

def Item.text (a : Item) : Bytes := a.name ++ 61 :: a.setting

structure Item.WellFormed (a : Item) : Prop where
  nonempty : a.name ≠ []
  name : 0 ∉ a.name ∧ 44 ∉ a.name ∧ 61 ∉ a.name
  setting : 0 ∉ a.setting ∧ 44 ∉ a.setting

section pieces
variable {a : Item} (wellFormed : a.WellFormed)
include wellFormed

theorem firstMatch_append (clean : 0 ∉ p) (clean' : 0 ∉ rest) :
    firstMatch a.name (p ++ 44 :: rest) =
      (firstMatch a.name p).or ((firstMatch a.name rest).map (p.length + 1 + ·)) := by
  have whole : 0 ∉ p ++ 44 :: rest := by
    simp only [mem_append, mem_cons, not_or]
    exact ⟨clean, by decide, clean'⟩
  have early {k : Nat} (early : k ≤ p.length) :
      eqNoCase a.name.length ((p ++ 44 :: rest).drop k) a.name = eqNoCase a.name.length (p.drop k) a.name := by
    rw [Bool.eq_iff_iff, eqNoCase_drop_iff wellFormed.name.1 whole, eqNoCase_drop_iff wellFormed.name.1 clean,
      drop_append_of_le_length early]
    refine ⟨prefix_before_comma wellFormed.name.2.1, fun found => ?_⟩
    rw [map_append]
    exact found.trans (prefix_append _ _)
  have comma : eqNoCase a.name.length ((p ++ 44 :: rest).drop p.length) a.name = false := by
    rw [early (Nat.le_refl _), Bool.eq_false_iff, Ne, eqNoCase_drop_iff wellFormed.name.1 clean, drop_length, map_nil,
      prefix_nil, map_eq_nil_iff]
    exact wellFormed.nonempty
  have places :
      range (p ++ 44 :: rest).length = range p.length ++ [p.length] ++ (range rest.length).map (p.length + 1 + ·) := by
    rw [length_append, length_cons, Nat.add_comm rest.length, ← Nat.add_assoc, range_add, range_succ]
  have first : (range p.length).find? (fun k => eqNoCase a.name.length ((p ++ 44 :: rest).drop k) a.name) =
      firstMatch a.name p := by
    rw [firstMatch, ← head?_filter, ← head?_filter, filter_congr fun k member => early (mem_range.mp member).le]
  rw [firstMatch, places, find?_append, find?_append, first, find?_singleton, comma, find?_map]
  simp only [Function.comp_def, drop_behind, Bool.false_eq_true, if_false, Option.or_none]
  rfl

theorem firstMatch_listed_none (clean : ∀ p ∈ pieces, 0 ∉ p) (absent : ∀ p ∈ pieces, ¬ Occurs a.name p) :
    firstMatch a.name (listed pieces) = none := by
  induction pieces with
  | nil => rfl
  | cons p ps ih =>
    obtain ⟨clean, others⟩ := forall_mem_cons.mp clean
    have first := (firstMatch_eq_none_iff wellFormed.name.1 clean wellFormed.nonempty).mpr (absent p mem_cons_self)
    by_cases more : ps = []
    · rwa [more, listed_singleton]
    rw [listed_cons p more, firstMatch_append wellFormed clean (listed_clean others), first,
      ih others (forall_mem_cons.mp absent).2]
    rfl

end pieces

/-- The text with an item put over what stands between `k` and the next comma. -/
def spliced (text : Bytes) (k : Nat) (item : Bytes) : Bytes :=
  text.take k ++ item ++ text.drop (k + ((text.drop k).takeWhile (· != 44)).length)

theorem takeWhile_stop {stop : UInt8} (absent : stop ∉ p) (rest : Bytes) : p.takeWhile (· != stop) = p ∧
    (p ++ stop :: rest).takeWhile (· != stop) = p ∧ (p ++ stop :: rest).dropWhile (· != stop) = stop :: rest := by
  have all : ∀ c ∈ p, (c != stop) = true := fun c member => bne_iff_ne.mpr fun same => absent (same ▸ member)
  refine ⟨takeWhile_eq_self_iff.mpr all, ?_, ?_⟩
  · rw [takeWhile_append_of_pos all]
    simp
  · rw [dropWhile_append_of_pos all]
    simp

theorem spliced_behind (p rest item : Bytes) (r : Nat) :
    spliced (p ++ 44 :: rest) (p.length + 1 + r) item = p ++ 44 :: spliced rest r item := by
  have front : (p ++ 44 :: rest).take (p.length + 1 + r) = p ++ 44 :: rest.take r := by
    rw [Nat.add_assoc, take_length_add_append, Nat.add_comm, take_succ_cons]
  rw [spliced, front, drop_behind, Nat.add_assoc (p.length + 1), drop_behind, spliced]
  simp

/-- In the first piece that has the name, everything from there on is replaced. -/
theorem spliced_listed (wellFormed : a.WellFormed) (item : Bytes) (clean : ∀ q ∈ before ++ p :: after, 0 ∉ q)
    (whole : 44 ∉ p) (absent : ∀ q ∈ before, ¬ Occurs a.name q) (found : firstMatch a.name p = some o) :
    ∃ k, firstMatch a.name (listed (before ++ p :: after)) = some k ∧
      spliced (listed (before ++ p :: after)) k item = listed (before ++ (p.take o ++ item) :: after) := by
  induction before with
  | nil =>
    obtain ⟨clean, others⟩ := forall_mem_cons.mp clean
    obtain ⟨_, bound, _⟩ := (firstMatch_eq_some_iff wellFormed.name.1 clean).mp found
    have inside : 44 ∉ p.drop o := fun comma => whole (mem_of_mem_drop comma)
    have size : o + (p.drop o).length = p.length := by
      rw [length_drop]
      omega
    rw [nil_append, nil_append]
    by_cases more : after = []
    · refine ⟨o, by rwa [more, listed_singleton], ?_⟩
      rw [more, listed_singleton, listed_singleton, spliced, (takeWhile_stop inside []).1, size, drop_length,
        append_nil]
    · have dropped : (p ++ 44 :: listed after).drop o = p.drop o ++ 44 :: listed after :=
        drop_append_of_le_length (by omega)
      refine ⟨o, ?_, ?_⟩
      · rw [listed_cons p more, firstMatch_append wellFormed clean (listed_clean others), found]
        rfl
      · rw [listed_cons p more, listed_cons _ more, spliced, take_append_of_le_length (by omega), dropped,
          (takeWhile_stop inside _).2.1, size, drop_left]
  | cons q before ih =>
    rw [cons_append] at clean
    obtain ⟨clean, others⟩ := forall_mem_cons.mp clean
    have nothing := (firstMatch_eq_none_iff wellFormed.name.1 clean wellFormed.nonempty).mpr (absent q mem_cons_self)
    obtain ⟨k, later, result⟩ := ih others (forall_mem_cons.mp absent).2
    have more (x : Bytes) : before ++ x :: after ≠ [] := by simp
    refine ⟨q.length + 1 + k, ?_, ?_⟩
    · rw [cons_append, listed_cons q (more p), firstMatch_append wellFormed clean (listed_clean others), nothing, later]
      rfl
    · rw [cons_append, listed_cons q (more p), spliced_behind, result, cons_append, listed_cons q (more _)]

def render (items : List Item) : Bytes := listed (items.map Item.text)

def SameName (a b : Item) : Prop := a.name.map lower = b.name.map lower

instance (a b : Item) : Decidable (SameName a b) := inferInstanceAs (Decidable (_ = _))

def Distinct (items : List Item) : Prop := items.Pairwise fun a b => ¬ SameName a b

def replaceItem (items : List Item) (a : Item) : List Item := items.map fun i => if SameName i a then a else i

def setItem (items : List Item) (a : Item) : Option (List Item) :=
  if ∃ i ∈ items, SameName i a then some (replaceItem items a) else none

def setItems : List Item → List Item → Option (List Item)
  | items, [] => some items
  | items, a :: args => (setItem items a).bind (setItems · args)

def ChangesNamed (stored args : List Item) : Prop :=
  setSystemVarValueByVarName (ascii "optimizer_switch") (some (render args)) (render stored) =
    match setItems stored args with
    | some items => (render items, .ok ())
    | none => (render stored, .error (invalidSwitch (render args)))

section item
variable {a : Item} (wellFormed : a.WellFormed)
include wellFormed

theorem Item.WellFormed.clean : 0 ∉ a.text := by
  simp only [Item.text, mem_append, mem_cons, not_or]
  exact ⟨wellFormed.name.1, by decide, wellFormed.setting.1⟩

theorem Item.WellFormed.commaless : 44 ∉ a.text := by
  simp only [Item.text, mem_append, mem_cons, not_or]
  exact ⟨wellFormed.name.2.1, by decide, wellFormed.setting.2⟩

theorem Item.WellFormed.name_ends (tail : Bytes) : (a.name ++ 61 :: tail).takeWhile (· != 61) = a.name ∧
    (a.name ++ 61 :: tail).dropWhile (· != 61) = 61 :: tail :=
  (takeWhile_stop wellFormed.name.2.2 tail).2

theorem firstMatch_own (same : SameName item a) (clean : 0 ∉ item.text) : firstMatch a.name item.text = some 0 := by
  refine (firstMatch_eq_some_iff wellFormed.name.1 clean).mpr ⟨?_, ?_, fun j early => absurd early (Nat.not_lt_zero j)⟩
  · rw [drop_zero, Item.text, map_append, same]
    exact prefix_append _ _
  · simp [Item.text]

end item

theorem occurs_own (same : SameName item a) : Occurs a.name item.text := by
  rw [Occurs, Item.text, map_append, same]
  exact (prefix_append _ _).isInfix

variable {items : List Item} {before after : List Item}

theorem render_clean (wellFormed : ∀ i ∈ items, i.WellFormed) : ∀ p ∈ items.map Item.text, 0 ∉ p := by
  rw [forall_mem_map]
  exact fun i inside => (wellFormed i inside).clean

theorem render_nulless (wellFormed : ∀ i ∈ items, i.WellFormed) : 0 ∉ render items :=
  listed_clean (render_clean wellFormed)

theorem render_commaless (wellFormed : ∀ i ∈ items, i.WellFormed) : ∀ p ∈ items.map Item.text, 44 ∉ p := by
  rw [forall_mem_map]
  exact fun i inside => (wellFormed i inside).commaless

theorem Item.text_inj {b : Item} (left : a.WellFormed) (right : b.WellFormed) (same : a.text = b.text) : a = b := by
  have name : a.name = b.name := by
    rw [← (left.name_ends a.setting).1, ← (right.name_ends b.setting).1]
    exact congrArg (List.takeWhile (· != 61)) same
  have setting : a.setting = b.setting := by
    have rest : a.name ++ 61 :: a.setting = b.name ++ 61 :: b.setting := same
    rw [name] at rest
    exact (List.cons.inj (append_cancel_left rest)).2
  cases b
  cases name
  cases setting
  rfl

theorem optimizerItems_nil (value varValue : Bytes) (fuel : Nat) :
    optimizerItems value fuel [] varValue = (varValue, .ok ()) := by
  cases fuel <;> rfl

theorem optimizerItems_cons (value : Bytes) (fuel : Nat) (wellFormed : a.WellFormed) (args : List Item)
    (clean : 0 ∉ varValue) :
    optimizerItems value (fuel + 1) (render (a :: args)) varValue =
      match firstMatch a.name varValue with
      | none => (varValue, .error (invalidSwitch value))
      | some k =>
        if SYSTEM_VAR_VALUE_MAX_LEN ≤ (spliced varValue k a.text).length then (varValue, .error .crashed)
        else optimizerItems value fuel (render args) (spliced varValue k a.text) := by
  obtain ⟨behind, text, ends, next⟩ : ∃ behind, render (a :: args) = a.name ++ 61 :: (a.setting ++ behind) ∧
      Ends (· != 44) behind ∧ behind.drop 1 = render args := by
    by_cases more : args = []
    · refine ⟨[], ?_, ends_nil, by rw [more]; rfl⟩
      rw [more, render, map_cons, map_nil, listed_singleton, Item.text, append_nil]
    · have some : args.map Item.text ≠ [] := fun none => more (map_eq_nil_iff.mp none)
      refine ⟨44 :: render args, ?_, ends_cons.mpr rfl, rfl⟩
      rw [render, map_cons, listed_cons _ some, Item.text, append_assoc]
      rfl
  obtain ⟨name, rest⟩ := wellFormed.name_ends (a.setting ++ behind)
  have setting : ∀ c ∈ a.setting, (c != 44) = true :=
    fun c member => bne_iff_ne.mpr fun comma => wellFormed.setting.2 (comma ▸ member)
  rw [optimizerItems, text]
  simp only [name, rest, if_neg wellFormed.nonempty, takeWhile_row setting ends, dropWhile_row setting ends, next]
  have search : ((List.range varValue.length).find? fun k => eqNoCase a.name.length (varValue.drop k) a.name) =
      firstMatch a.name varValue := rfl
  rw [search]
  cases found : firstMatch a.name varValue with
  | none => rfl
  | some k =>
    obtain ⟨inside, bound, _⟩ := (firstMatch_eq_some_iff wellFormed.name.1 clean).mp found
    -- what is found is no comma
    have width : 0 < ((varValue.drop k).takeWhile (· != 44)).length := by
      obtain ⟨c, name', head⟩ := exists_cons_of_ne_nil wellFormed.nonempty
      cases here : varValue.drop k with
      | nil =>
        rw [drop_eq_nil_iff] at here
        omega
      | cons d rest =>
        rw [here, head] at inside
        have other : d ≠ 44 := by
          rintro rfl
          have lowered : lower c = 44 := (cons_prefix_cons.mp inside).1
          rw [lower_eq_comma] at lowered
          exact wellFormed.name.2.1 (by rw [head, lowered]; exact mem_cons_self)
        rw [takeWhile_cons, if_pos (bne_iff_ne.mpr other)]
        exact Nat.succ_pos _
    have length : (spliced varValue k a.text).length =
        k + a.text.length + (varValue.length - (k + ((varValue.drop k).takeWhile (· != 44)).length)) := by
      rw [spliced, length_append, length_append, length_take, length_drop]
      omega
    have whole : a.name ++ 61 :: a.setting = a.text := rfl
    simp only [whole]
    rw [if_neg (by omega)]
    split
    · rw [if_pos (by omega)]
    · rw [if_neg (by omega)]
      rfl

theorem first_occurrence (wellFormed : a.WellFormed) (clean : ∀ i ∈ items, i.WellFormed) :
    (∀ i ∈ items, ¬ Occurs a.name i.text) ∨ ∃ before item after o, items = before ++ item :: after ∧
      (∀ i ∈ before, ¬ Occurs a.name i.text) ∧ firstMatch a.name item.text = some o := by
  induction items with
  | nil => exact .inl fun i member => by cases member
  | cons i items ih =>
    cases found : firstMatch a.name i.text with
    | some o => exact .inr ⟨[], i, items, o, rfl, (fun j member => by cases member), found⟩
    | none =>
      have absent :=
        (firstMatch_eq_none_iff wellFormed.name.1 (clean i mem_cons_self).clean wellFormed.nonempty).mp found
      rcases ih (forall_mem_cons.mp clean).2 with none | ⟨before, item, after, o, rfl, first, here⟩
      · exact .inl (forall_mem_cons.mpr ⟨absent, none⟩)
      · exact .inr ⟨i :: before, item, after, o, rfl, forall_mem_cons.mpr ⟨absent, first⟩, here⟩

section step
variable {a : Item} (wellFormed : a.WellFormed) (args : List Item) (value : Bytes) (fuel : Nat)
include wellFormed

theorem optimizerItems_absent (clean : ∀ i ∈ items, i.WellFormed)
    (absent : ∀ i ∈ items, ¬ Occurs a.name i.text) :
    optimizerItems value (fuel + 1) (render (a :: args)) (render items) =
      (render items, .error (invalidSwitch value)) := by
  have texts : ∀ p ∈ items.map Item.text, ¬ Occurs a.name p := forall_mem_map.mpr absent
  have nothing : firstMatch a.name (render items) = none :=
    firstMatch_listed_none wellFormed (render_clean clean) texts
  rw [optimizerItems_cons value fuel wellFormed args (render_nulless clean), nothing]

theorem optimizerItems_found
    (clean : ∀ i ∈ before ++ item :: after, i.WellFormed) (absent : ∀ i ∈ before, ¬ Occurs a.name i.text)
    (found : firstMatch a.name item.text = some o) :
    optimizerItems value (fuel + 1) (render (a :: args)) (render (before ++ item :: after)) =
      let text := listed (before.map Item.text ++ (item.text.take o ++ a.text) :: after.map Item.text)
      if SYSTEM_VAR_VALUE_MAX_LEN ≤ text.length then (render (before ++ item :: after), .error .crashed)
      else optimizerItems value fuel (render args) text := by
  have split : (before ++ item :: after).map Item.text = before.map Item.text ++ item.text :: after.map Item.text := by
    rw [map_append, map_cons]
  have texts : ∀ p ∈ before.map Item.text, ¬ Occurs a.name p := forall_mem_map.mpr absent
  have commaless := (clean item (mem_append_right _ mem_cons_self)).commaless
  have whole := render_clean clean
  rw [split] at whole
  obtain ⟨k, here, result⟩ := spliced_listed wellFormed a.text whole commaless texts found
  have here : firstMatch a.name (render (before ++ item :: after)) = some k := by rwa [render, split]
  have result : spliced (render (before ++ item :: after)) k a.text =
      listed (before.map Item.text ++ (item.text.take o ++ a.text) :: after.map Item.text) := by rwa [render, split]
  rw [optimizerItems_cons value fuel wellFormed args (render_nulless clean), here]
  simp [result]

end step

/-- Arguments that do what they say: every name is found in its own item first, or in one that ends with
the very text to be set, which the own item has, too; and the new value fits its buffer. An unknown name
occurs nowhere, and nothing was changed before it. -/
inductive Lawful (stored : List Item) : List Item → List Item → Prop
  | done {items : List Item} : Lawful stored items []
  | own {before after args : List Item} {item a : Item} : SameName item a → (∀ i ∈ before, ¬ Occurs a.name i.text) →
      (render (before ++ a :: after)).length < SYSTEM_VAR_VALUE_MAX_LEN → Lawful stored (before ++ a :: after) args →
      Lawful stored (before ++ item :: after) (a :: args)
  | idle {before after args : List Item} {item a : Item} {front : Bytes} : a ∈ after →
      (∀ i ∈ before, ¬ Occurs a.name i.text) → item.text = front ++ a.text →
      firstMatch a.name item.text = some front.length →
      (render (before ++ item :: after)).length < SYSTEM_VAR_VALUE_MAX_LEN →
      Lawful stored (before ++ item :: after) args → Lawful stored (before ++ item :: after) (a :: args)
  | unknown {items args : List Item} {a : Item} : (∀ i ∈ items, ¬ Occurs a.name i.text) → render items = render stored →
      Lawful stored items (a :: args)

theorem replaceItem_own (distinct : Distinct (before ++ item :: after)) (same : SameName item a) :
    replaceItem (before ++ item :: after) a = before ++ a :: after := by
  obtain ⟨_, behind, front⟩ := pairwise_append.mp distinct
  have others (items : List Item) (apart : ∀ i ∈ items, ¬ SameName i item) :
      (items.map fun i => if SameName i a then a else i) = items := by
    refine (map_congr_left fun i member => ?_).trans (map_id _)
    exact if_neg fun also => apart i member (Eq.trans also (Eq.symm same))
  rw [replaceItem, map_append, map_cons, if_pos same,
    others before fun i member => front i member item mem_cons_self,
    others after fun i member also => (pairwise_cons.mp behind).1 i member (Eq.symm also)]

theorem setItem_own (distinct : Distinct (before ++ item :: after)) (same : SameName item a) :
    setItem (before ++ item :: after) a = some (before ++ a :: after) := by
  rw [setItem, if_pos ⟨item, mem_append_right _ mem_cons_self, same⟩, replaceItem_own distinct same]

theorem setItem_idle (distinct : Distinct items) (member : a ∈ items) : setItem items a = some items := by
  obtain ⟨before, after, rfl⟩ := append_of_mem member
  exact setItem_own distinct rfl

theorem setItem_absent (absent : ∀ i ∈ items, ¬ Occurs a.name i.text) : setItem items a = none :=
  if_neg fun ⟨i, member, same⟩ => absent i member (occurs_own same)

theorem Distinct.own {item a : Item} (distinct : Distinct (before ++ item :: after)) (same : SameName item a) :
    Distinct (before ++ a :: after) := by
  obtain ⟨first, behind, front⟩ := pairwise_append.mp distinct
  obtain ⟨here, rest⟩ := pairwise_cons.mp behind
  refine pairwise_append.mpr ⟨first, pairwise_cons.mpr ⟨fun i member also => ?_, rest⟩, fun i member => ?_⟩
  · exact here i member (Eq.trans same also)
  · obtain ⟨apart, others⟩ := forall_mem_cons.mp (front i member)
    exact forall_mem_cons.mpr ⟨fun also => apart (Eq.trans also (Eq.symm same)), others⟩

theorem length_le_render (items : List Item) : items.length ≤ (render items).length + 1 := by
  induction items with
  | nil => exact Nat.zero_le _
  | cons i items ih =>
    by_cases more : items = []
    · rw [more, length_singleton]
      omega
    have some : items.map Item.text ≠ [] := fun none => more (map_eq_nil_iff.mp none)
    rw [render, map_cons, listed_cons _ some, length_append, length_cons, length_cons]
    rw [render] at ih
    omega

theorem Lawful.run (lawful : Lawful stored items args) (clean : ∀ i ∈ items, i.WellFormed)
    (distinct : Distinct items) (wellFormed : ∀ a ∈ args, a.WellFormed) (value : Bytes)
    (enough : args.length ≤ fuel) :
    optimizerItems value fuel (render args) (render items) =
      match setItems items args with
      | some result => (render result, .ok ())
      | none => (render stored, .error (invalidSwitch value)) := by
  induction lawful generalizing fuel with
  | done => exact optimizerItems_nil value _ fuel
  | @own before after args item a same absent fits _ ih =>
    obtain ⟨fuel, rfl⟩ := Nat.exists_eq_add_one.mpr (Nat.zero_lt_of_lt enough)
    have this : a.WellFormed := wellFormed a mem_cons_self
    have found := firstMatch_own this same (clean item (mem_append_right _ mem_cons_self)).clean
    have next : ∀ i ∈ before ++ a :: after, i.WellFormed := by
      obtain ⟨first, later⟩ := forall_mem_append.mp clean
      exact forall_mem_append.mpr ⟨first, forall_mem_cons.mpr ⟨this, (forall_mem_cons.mp later).2⟩⟩
    have text : listed (before.map Item.text ++ (item.text.take 0 ++ a.text) :: after.map Item.text) =
        render (before ++ a :: after) := by
      rw [take_zero, nil_append, render, map_append, map_cons]
    rw [optimizerItems_found this args value fuel clean absent found]
    simp only [text, if_neg (Nat.not_le.mpr fits)]
    rw [ih next (distinct.own same) (forall_mem_cons.mp wellFormed).2
      (Nat.le_of_succ_le_succ enough), setItems, setItem_own distinct same, Option.bind_some]
  | @idle before after args item a front member absent ends found fits _ ih =>
    obtain ⟨fuel, rfl⟩ := Nat.exists_eq_add_one.mpr (Nat.zero_lt_of_lt enough)
    have this : a.WellFormed := wellFormed a mem_cons_self
    have text : listed (before.map Item.text ++ (item.text.take front.length ++ a.text) :: after.map Item.text) =
        render (before ++ item :: after) := by
      have same : item.text.take front.length ++ a.text = item.text := by rw [ends, take_left]
      rw [same, render, map_append, map_cons]
    rw [optimizerItems_found this args value fuel clean absent found]
    simp only [text, if_neg (Nat.not_le.mpr fits)]
    rw [ih clean distinct (forall_mem_cons.mp wellFormed).2 (Nat.le_of_succ_le_succ enough),
      setItems, setItem_idle distinct (mem_append_right _ (mem_cons_of_mem _ member)), Option.bind_some]
  | @unknown items args a absent unchanged =>
    obtain ⟨fuel, rfl⟩ := Nat.exists_eq_add_one.mpr (Nat.zero_lt_of_lt enough)
    rw [optimizerItems_absent (wellFormed a mem_cons_self) args value fuel clean absent, setItems,
      setItem_absent absent, Option.bind_none, unchanged]

theorem setSystemVarValueByVarName_switch (value varValue : Bytes) :
    setSystemVarValueByVarName (ascii "optimizer_switch") (some value) varValue =
      optimizerItems value (value.length + 1) value varValue :=
  if_pos (by decide)

theorem ChangesNamed.lawful (clean : ∀ i ∈ stored, i.WellFormed) (distinct : Distinct stored)
    (wellFormed : a.WellFormed) (changes : ChangesNamed stored [a]) : Lawful stored stored [a] := by
  rw [ChangesNamed, setSystemVarValueByVarName_switch] at changes
  rcases first_occurrence wellFormed clean with absent | ⟨before, item, after, o, rfl, absent, found⟩
  · exact .unknown absent rfl
  rw [optimizerItems_found wellFormed [] _ _ clean absent found] at changes
  have outcome : setItems (before ++ item :: after) [a] = setItem (before ++ item :: after) a := by
    rw [setItems]
    cases setItem (before ++ item :: after) a <;> rfl
  rw [outcome] at changes
  dsimp only at changes
  split at changes
  · split at changes <;> cases (Prod.mk.inj changes).2
  rename_i fits
  have empty : render [] = [] := rfl
  rw [empty, optimizerItems_nil] at changes
  cases result : setItem (before ++ item :: after) a with
  | none => rw [result] at changes; cases (Prod.mk.inj changes).2
  | some items =>
    rw [result] at changes
    have same := (Prod.mk.inj changes).1
    have whole := clean item (mem_append_right _ mem_cons_self)
    by_cases own : SameName item a
    · obtain rfl : o = 0 := Option.some.inj (found.symm.trans (firstMatch_own wellFormed own whole.clean))
      refine .own own absent ?_ .done
      rwa [take_zero, nil_append, Nat.not_le, ← map_cons, ← map_append] at fits
    · obtain ⟨i, member, named⟩ : ∃ i ∈ before ++ item :: after, SameName i a := by
        by_contra none
        rw [setItem, if_neg none] at result
        cases result
      have behind : i ∈ after := by
        rcases mem_append.mp member with first | later
        · exact absurd (occurs_own named) (absent i first)
        rcases mem_cons.mp later with rfl | behind
        · exact absurd named own
        · exact behind
      obtain ⟨mid, rest, rfl⟩ := append_of_mem behind
      have shape : before ++ item :: (mid ++ i :: rest) = (before ++ item :: mid) ++ i :: rest := by
        rw [append_assoc, cons_append]
      rw [shape] at distinct result
      rw [setItem_own distinct named] at result
      cases result
      have texts := render_commaless clean
      have pieces := listed_inj ?_ ?_ (by simp) (by simp) same
      · simp only [append_assoc, cons_append, map_append, map_cons] at pieces
        obtain ⟨kept, others⟩ := List.cons.inj (append_cancel_left pieces)
        have text := (List.cons.inj (append_cancel_left others)).1
        obtain rfl := Item.text_inj (clean i member) wellFormed text
        obtain ⟨_, bound, _⟩ := (firstMatch_eq_some_iff wellFormed.name.1 whole.clean).mp found
        have size : (item.text.take o).length = o := length_take_of_le (Nat.le_of_lt bound)
        refine .idle behind absent kept.symm (by rw [size]; exact found) ?_ .done
        rwa [kept, Nat.not_le, ← map_cons, ← map_append] at fits
      · rw [map_append, map_cons, forall_mem_append, forall_mem_cons] at texts
        refine forall_mem_append.mpr ⟨texts.1, forall_mem_cons.mpr ⟨fun comma => ?_, texts.2.2⟩⟩
        rcases mem_append.mp comma with part | all
        · exact whole.commaless (mem_of_mem_take part)
        · exact wellFormed.commaless all
      · apply render_commaless
        simp only [forall_mem_append, forall_mem_cons] at clean ⊢
        exact ⟨⟨clean.1, whole, clean.2.2.1⟩, wellFormed, clean.2.2.2.2⟩

/-- SET changes exactly the named items if the argument is lawful, and an argument of one item must be. -/
theorem optimizerSwitch_lawful {stored args : List Item} (clean : ∀ i ∈ stored, i.WellFormed)
    (distinct : Distinct stored) (wellFormed : ∀ a ∈ args, a.WellFormed) :
    (Lawful stored stored args → ChangesNamed stored args) ∧
      ∀ a, args = [a] → (ChangesNamed stored args ↔ Lawful stored stored args) := by
  have enough : Lawful stored stored args → ChangesNamed stored args := by
    intro lawful
    exact lawful.run clean distinct wellFormed _ (length_le_render args)
  refine ⟨enough, ?_⟩
  rintro a rfl
  exact ⟨fun changes => changes.lawful clean distinct (wellFormed a mem_cons_self), enough⟩

def mrrItems : List Item := [⟨ascii "mrr", ascii "on"⟩, ⟨ascii "mrr_cost_based", ascii "on"⟩]

theorem mrrItems_wellFormed : ∀ i ∈ mrrItems, i.WellFormed :=
  forall_mem_cons.mpr ⟨⟨by decide, by decide, by decide⟩, forall_mem_singleton.mpr ⟨by decide, by decide, by decide⟩⟩

theorem mrrItems_distinct : Distinct mrrItems := by
  simp only [mrrItems, Distinct, pairwise_cons, mem_singleton, forall_eq, not_mem_nil, false_implies,
    implies_true, List.Pairwise.nil, and_true]
  decide

theorem optimizerSwitch_mrr : ChangesNamed mrrItems [⟨ascii "mrr", ascii "off"⟩] :=
  (optimizerSwitch_lawful mrrItems_wellFormed mrrItems_distinct fun a member => by
      rw [mem_singleton.mp member]
      exact ⟨by decide, by decide, by decide⟩).1
    (@Lawful.own mrrItems [] [⟨ascii "mrr_cost_based", ascii "on"⟩] [] ⟨ascii "mrr", ascii "on"⟩ _ rfl
      (fun i member => by cases member) (by decide +kernel) .done)

/-- A name is found inside a longer one, and an unknown name leaves half of the change. -/
theorem optimizerSwitch_substring :
    ¬ ChangesNamed mrrItems.reverse [⟨ascii "mrr", ascii "off"⟩] ∧
      ¬ ChangesNamed mrrItems [⟨ascii "mrr", ascii "off"⟩, ⟨ascii "none", ascii "on"⟩] := by
  constructor <;>
  · intro changes
    have texts := congrArg Prod.fst changes
    revert texts
    decide +kernel

end OpenHalo.SysVars
