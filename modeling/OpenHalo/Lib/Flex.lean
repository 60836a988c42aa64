import Mathlib.Computability.Language

namespace Flex
open List

/-- Patterns of a scanner generator. -/
inductive Pattern (α : Type)
  | empty
  | eps
  | cls (p : α → Bool)
  | alt (r s : Pattern α)
  | seq (r s : Pattern α)
  | star (r : Pattern α)

namespace Pattern
variable {α : Type}

def plus (r : Pattern α) : Pattern α := seq r (star r)
def opt (r : Pattern α) : Pattern α := alt eps r

/-- A constant text. -/
def word [BEq α] : List α → Pattern α
  | [] => eps
  | [c] => cls (· == c)
  | c :: cs => seq (cls (· == c)) (word cs)

def lang : Pattern α → Language α
  | empty => 0
  | eps => 1
  | cls p => {w | ∃ c, p c = true ∧ w = [c]}
  | alt r s => r.lang + s.lang
  | seq r s => r.lang * s.lang
  | star r => KStar.kstar r.lang

def nullable : Pattern α → Bool
  | empty | cls _ => false
  | eps | star _ => true
  | alt r s => r.nullable || s.nullable
  | seq r s => r.nullable && s.nullable

/-- Alternative and sequence that notice a dead or spent pattern, which is where the search stops. -/
def altOf : Pattern α → Pattern α → Pattern α
  | empty, s => s
  | r, empty => r
  | r, s => alt r s

def seqOf : Pattern α → Pattern α → Pattern α
  | empty, _ => empty
  | eps, s => s
  | r, s => seq r s

/-- What is left of a pattern after one character. -/
def deriv (c : α) : Pattern α → Pattern α
  | empty | eps => empty
  | cls p => if p c then eps else empty
  | alt r s => altOf (r.deriv c) (s.deriv c)
  | seq r s => if r.nullable then altOf (seqOf (r.deriv c) s) (s.deriv c) else seqOf (r.deriv c) s
  | star r => seqOf (r.deriv c) (star r)

variable {w : List α} {r : Pattern α} (p : α → Bool) (t : List α)

theorem mem_cls {p : α → Bool} : w ∈ (cls p).lang ↔ ∃ c, p c = true ∧ w = [c] := Iff.rfl

theorem mem_alt {r s : Pattern α} : w ∈ (alt r s).lang ↔ w ∈ r.lang ∨ w ∈ s.lang :=
  Language.mem_add r.lang s.lang w

theorem mem_seq {r s : Pattern α} : w ∈ (seq r s).lang ↔ ∃ u ∈ r.lang, ∃ v ∈ s.lang, u ++ v = w := Language.mem_mul

theorem mem_eps : w ∈ (eps : Pattern α).lang ↔ w = [] := Language.mem_one w

theorem not_mem_empty (w : List α) : w ∉ (empty : Pattern α).lang := Language.notMem_zero w

theorem mem_altOf {r s : Pattern α} : w ∈ (altOf r s).lang ↔ w ∈ r.lang ∨ w ∈ s.lang := by
  cases r <;> cases s <;> simp [altOf, mem_alt, not_mem_empty]

theorem lang_seqOf (r s : Pattern α) : (seqOf r s).lang = (seq r s).lang := by
  cases r <;> simp [seqOf, lang]

theorem nil_mem_lang (r : Pattern α) : [] ∈ r.lang ↔ r.nullable = true := by
  induction r with
  | empty | eps => simp [lang, nullable]
  | cls p => simp [mem_cls, nullable]
  | alt r s ihr ihs => simp [mem_alt, nullable, ihr, ihs]
  | seq r s ihr ihs => simp [mem_seq, nullable, ihr, ihs]
  | star r ih => simp [lang, nullable, Language.nil_mem_kstar]

/-- A non-empty word of an iteration starts with a non-empty word of the body. -/
theorem cons_mem_star {c : α} : c :: w ∈ (star r).lang ↔ ∃ u v, c :: u ∈ r.lang ∧ v ∈ (star r).lang ∧ u ++ v = w := by
  constructor
  · intro member
    obtain ⟨parts, whole, all⟩ := Language.mem_kstar_iff_exists_nonempty.mp member
    cases parts with
    | nil => simp at whole
    | cons part parts =>
      obtain ⟨inBody, nonempty⟩ := all part mem_cons_self
      cases part with
      | nil => exact absurd rfl nonempty
      | cons d u =>
        simp only [flatten_cons, cons_append, List.cons.injEq] at whole
        obtain ⟨rfl, rest⟩ := whole
        refine ⟨u, parts.flatten, inBody, ?_, rest.symm⟩
        exact Language.mem_kstar.mpr ⟨parts, rfl, fun y inside => (all y (mem_cons_of_mem _ inside)).1⟩
  · rintro ⟨u, v, inBody, inStar, rfl⟩
    obtain ⟨parts, rfl, all⟩ := Language.mem_kstar.mp inStar
    exact Language.mem_kstar.mpr ⟨(c :: u) :: parts, rfl, forall_mem_cons.mpr ⟨inBody, all⟩⟩

theorem mem_deriv (r : Pattern α) (c : α) (w : List α) : w ∈ (r.deriv c).lang ↔ c :: w ∈ r.lang := by
  induction r generalizing w with
  | empty | eps => simp [deriv, lang]
  | cls p =>
    unfold deriv
    split
    · simp [mem_eps, mem_cls, *]
    · simp [mem_cls, not_mem_empty, *]
  | alt r s ihr ihs => rw [deriv, mem_altOf, mem_alt, ihr, ihs]
  | seq r s ihr ihs =>
    have first : (w ∈ (seqOf (r.deriv c) s).lang) ↔ ∃ u v, c :: u ∈ r.lang ∧ v ∈ s.lang ∧ u ++ v = w := by
      rw [lang_seqOf]
      constructor
      · rintro ⟨u, inR, v, inS, whole⟩
        exact ⟨u, v, (ihr u).mp inR, inS, whole⟩
      · rintro ⟨u, v, inR, inS, whole⟩
        exact ⟨u, (ihr u).mpr inR, v, inS, whole⟩
    have split : c :: w ∈ (seq r s).lang ↔
        (∃ u v, c :: u ∈ r.lang ∧ v ∈ s.lang ∧ u ++ v = w) ∨ (r.nullable = true ∧ c :: w ∈ s.lang) := by
      rw [mem_seq]
      constructor
      · rintro ⟨u, inR, v, inS, whole⟩
        cases u with
        | nil => exact .inr ⟨(nil_mem_lang r).mp inR, by simpa [← whole] using inS⟩
        | cons d u =>
          obtain ⟨rfl, rfl⟩ := List.cons.inj whole
          exact .inl ⟨u, v, inR, inS, rfl⟩
      · rintro (⟨u, v, inR, inS, rfl⟩ | ⟨spent, inS⟩)
        · exact ⟨c :: u, inR, v, inS, rfl⟩
        · exact ⟨[], (nil_mem_lang r).mpr spent, c :: w, inS, rfl⟩
    rw [split, ← first, deriv]
    by_cases spent : r.nullable = true
    · rw [if_pos spent, mem_altOf, ihs]
      simp [spent]
    · simp [spent]
  | star r ih =>
    rw [deriv, lang_seqOf, cons_mem_star]
    constructor
    · rintro ⟨u, inR, v, inS, whole⟩
      exact ⟨u, v, (ih u).mp inR, inS, whole⟩
    · rintro ⟨u, v, inR, inS, whole⟩
      exact ⟨u, (ih u).mpr inR, v, inS, whole⟩

theorem mem_star_cls {p : α → Bool} : w ∈ (star (cls p)).lang ↔ ∀ c ∈ w, p c = true := by
  induction w with
  | nil => simp [nil_mem_lang, nullable]
  | cons c w ih =>
    rw [cons_mem_star]
    constructor
    · rintro ⟨u, v, first, rest, rfl⟩
      obtain ⟨d, holds, same⟩ := mem_cls.mp first
      obtain ⟨rfl, rfl⟩ := List.cons.inj same
      exact forall_mem_cons.mpr ⟨holds, ih.mp rest⟩
    · intro all
      obtain ⟨holds, rest⟩ := forall_mem_cons.mp all
      exact ⟨[], w, ⟨c, holds, rfl⟩, ih.mpr rest, rfl⟩

theorem mem_plus_cls {p : α → Bool} : w ∈ (plus (cls p)).lang ↔ w ≠ [] ∧ ∀ c ∈ w, p c = true := by
  constructor
  · rintro ⟨u, first, v, rest, rfl⟩
    obtain ⟨d, holds, rfl⟩ := mem_cls.mp first
    exact ⟨cons_ne_nil d v, forall_mem_cons.mpr ⟨holds, mem_star_cls.mp rest⟩⟩
  · rintro ⟨nonempty, all⟩
    cases w with
    | nil => exact absurd rfl nonempty
    | cons c w =>
      obtain ⟨holds, rest⟩ := forall_mem_cons.mp all
      exact ⟨[c], ⟨c, holds, rfl⟩, w, mem_star_cls.mpr rest, rfl⟩

theorem mem_word [BEq α] [LawfulBEq α] {cs w : List α} : w ∈ (word cs).lang ↔ w = cs := by
  induction cs generalizing w with
  | nil => exact mem_eps
  | cons c cs ih =>
    have first {v : List α} : v ∈ (cls (· == c)).lang ↔ v = [c] := by simp [mem_cls]
    cases cs with
    | nil => exact first
    | cons d cs =>
      rw [word]
      · constructor
        · rintro ⟨u, atFront, v, behind, rfl⟩
          rw [first.mp atFront, ih.mp behind]
          rfl
        · rintro rfl
          exact ⟨[c], first.mpr rfl, d :: cs, ih.mpr rfl, rfl⟩
      · simp

/-- The length of the longest prefix that matches. -/
def longest : Pattern α → List α → Option Nat
  | empty, _ => none
  | r, [] => if r.nullable then some 0 else none
  | r, c :: t =>
    match longest (r.deriv c) t with
    | some n => some (n + 1)
    | none => if r.nullable then some 0 else none

theorem longest_nil (r : Pattern α) : r.longest [] = if r.nullable then some 0 else none := by
  cases r <;> rfl

theorem longest_cons (r : Pattern α) (c : α) (t : List α) :
    r.longest (c :: t) = match (r.deriv c).longest t with
      | some n => some (n + 1)
      | none => if r.nullable then some 0 else none := by
  cases r with
  | empty => cases t <;> rfl
  | _ => rfl

theorem longest_some {t : List α} {n : Nat} (found : r.longest t = some n) : n ≤ t.length ∧ t.take n ∈ r.lang := by
  induction t generalizing r n with
  | nil =>
    rw [longest_nil] at found
    split at found
    · cases found
      exact ⟨Nat.le_refl 0, (nil_mem_lang r).mpr ‹_›⟩
    · cases found
  | cons c t ih =>
    rw [longest_cons] at found
    split at found
    · rename_i m further
      cases found
      obtain ⟨within, member⟩ := ih further
      exact ⟨Nat.succ_le_succ within, (mem_deriv r c _).mp member⟩
    · split at found
      · cases found
        exact ⟨Nat.zero_le _, (nil_mem_lang r).mpr ‹_›⟩
      · cases found

theorem longest_max {t : List α} {m : Nat} (within : m ≤ t.length) (member : t.take m ∈ r.lang) :
    ∃ n, r.longest t = some n ∧ m ≤ n := by
  induction t generalizing r m with
  | nil =>
    have spent := (nil_mem_lang r).mp (by simpa using member)
    exact ⟨0, by rw [longest_nil, if_pos spent], within⟩
  | cons c t ih =>
    rw [longest_cons]
    cases m with
    | zero =>
      have spent := (nil_mem_lang r).mp (by simpa using member)
      cases (r.deriv c).longest t with
      | some n => exact ⟨n + 1, rfl, Nat.zero_le _⟩
      | none => exact ⟨0, if_pos spent, Nat.le_refl 0⟩
    | succ m =>
      obtain ⟨n, further, atLeast⟩ := ih (Nat.le_of_succ_le_succ within) ((mem_deriv r c _).mpr member)
      rw [further]
      exact ⟨n + 1, rfl, Nat.succ_le_succ atLeast⟩

theorem longest_empty : (empty : Pattern α).longest t = none := by
  cases t <;> rfl

theorem longest_eps : (eps : Pattern α).longest t = some 0 := by
  cases t with
  | nil => rfl
  | cons c t => rw [longest_cons, deriv, longest_empty]; rfl

theorem longest_cls (c : α) (t : List α) : (cls p).longest (c :: t) = if p c then some 1 else none := by
  rw [longest_cons, deriv]
  by_cases holds : p c = true
  · rw [if_pos holds, if_pos holds, longest_eps]
  · rw [if_neg holds, if_neg holds, longest_empty]
    rfl

theorem longest_seq_cls (r : Pattern α) (c : α) (t : List α) :
    (seq (cls p) r).longest (c :: t) = if p c then (r.longest t).map (· + 1) else none := by
  rw [longest_cons, deriv, nullable, if_neg Bool.false_ne_true, deriv]
  by_cases holds : p c = true
  · rw [if_pos holds, if_pos holds, seqOf]
    cases r.longest t <;> rfl
  · rw [if_neg holds, if_neg holds, seqOf, longest_empty]
    rfl

theorem longest_star_cls : (star (cls p)).longest t = some (t.takeWhile p).length := by
  induction t with
  | nil => rfl
  | cons c t ih =>
    rw [longest_cons, deriv, deriv, takeWhile_cons]
    by_cases holds : p c = true
    · rw [if_pos holds, if_pos holds, seqOf, ih]
      rfl
    · rw [if_neg holds, if_neg holds, seqOf, longest_empty]
      rfl

theorem longest_plus_cls (c : α) (t : List α) :
    (plus (cls p)).longest (c :: t) = if p c then some ((t.takeWhile p).length + 1) else none := by
  rw [plus, longest_seq_cls, longest_star_cls]
  rfl

/-- Whether a character can stand in a word of the pattern. -/
def may (c : α) : Pattern α → Bool
  | empty | eps => false
  | cls p => p c
  | alt r s | seq r s => r.may c || s.may c
  | star r => r.may c

/-- Whether a character can stand behind the first one in a word of the pattern. -/
def tailMay (c : α) : Pattern α → Bool
  | empty | eps | cls _ => false
  | alt r s => r.tailMay c || s.tailMay c
  | seq r s => r.tailMay c || s.may c
  | star r => r.may c

theorem may_of_mem {c : α} (member : w ∈ r.lang) (inside : c ∈ w) : r.may c = true := by
  induction r generalizing w with
  | empty => exact absurd member (not_mem_empty w)
  | eps =>
    rw [mem_eps.mp member] at inside
    cases inside
  | cls p =>
    obtain ⟨d, holds, rfl⟩ := mem_cls.mp member
    rw [mem_singleton.mp inside]
    exact holds
  | alt r s ihr ihs =>
    rw [may, Bool.or_eq_true]
    exact (mem_alt.mp member).imp (fun inR => ihr inR inside) fun inS => ihs inS inside
  | seq r s ihr ihs =>
    obtain ⟨u, inR, v, inS, rfl⟩ := mem_seq.mp member
    rw [may, Bool.or_eq_true]
    exact (mem_append.mp inside).imp (ihr inR) (ihs inS)
  | star r ih =>
    obtain ⟨parts, rfl, all⟩ := Language.mem_kstar.mp member
    obtain ⟨part, inParts, inPart⟩ := mem_flatten.mp inside
    exact ih (all part inParts) inPart

theorem tailMay_of_mem {c d : α} (member : d :: w ∈ r.lang) (inside : c ∈ w) : r.tailMay c = true := by
  induction r generalizing w d with
  | empty => exact absurd member (not_mem_empty _)
  | eps => cases mem_eps.mp member
  | cls p =>
    obtain ⟨e, _, same⟩ := mem_cls.mp member
    obtain ⟨_, rfl⟩ := List.cons.inj same
    cases inside
  | alt r s ihr ihs =>
    rw [tailMay, Bool.or_eq_true]
    exact (mem_alt.mp member).imp (fun inR => ihr inR inside) fun inS => ihs inS inside
  | seq r s ihr ihs =>
    obtain ⟨u, inR, v, inS, whole⟩ := mem_seq.mp member
    rw [tailMay, Bool.or_eq_true]
    cases u with
    | nil =>
      subst whole
      exact .inr (may_of_mem inS (mem_cons_of_mem d inside))
    | cons e u =>
      obtain ⟨rfl, rfl⟩ := List.cons.inj whole
      exact (mem_append.mp inside).imp (ihr inR) (may_of_mem inS)
  | star r ih =>
    exact may_of_mem (r := star r) member (mem_cons_of_mem d inside)

/-- The character behind the front is in a match that goes further. -/
theorem tailMay_of_longest {d c : α} {u x : List α} {n : Nat} (found : r.longest (d :: u ++ c :: x) = some n)
    (further : (d :: u).length < n) : r.tailMay c = true := by
  obtain ⟨within, member⟩ := longest_some found
  obtain ⟨m, rfl⟩ := Nat.exists_eq_add_of_lt further
  refine tailMay_of_mem (d := d) (w := u ++ c :: x.take m) ?_ (by simp)
  have taken : (d :: u ++ c :: x).take ((d :: u).length + m + 1) = d :: (u ++ c :: x.take m) := by
    rw [Nat.add_assoc, take_length_add_append]
    rfl
  rwa [taken] at member

end Pattern

section
variable {α A : Type}

/-- The rule a scanner applies: the first with the longest match, if that is not empty. -/
def choose (t : List α) : List (Pattern α × A) → Option (A × Nat)
  | [] => none
  | (r, a) :: rules =>
    match r.longest t, choose t rules with
    | some (n + 1), some (b, m) => if m ≤ n + 1 then some (a, n + 1) else some (b, m)
    | some (n + 1), none => some (a, n + 1)
    | _, chosen => chosen

theorem choose_nil (rules : List (Pattern α × A)) : choose [] rules = none := by
  induction rules with
  | nil => rfl
  | cons rule rules ih =>
    rw [choose, ih, Pattern.longest_nil]
    cases rule.1.nullable <;> rfl

theorem choose_some {t : List α} {rules : List (Pattern α × A)} {a : A} {n : Nat}
    (chosen : choose t rules = some (a, n)) : 0 < n ∧ ∃ r, (r, a) ∈ rules ∧ r.longest t = some n := by
  induction rules with
  | nil => cases chosen
  | cons rule rules ih =>
    obtain ⟨r, b⟩ := rule
    have later : choose t rules = some (a, n) → 0 < n ∧ ∃ r', (r', a) ∈ (r, b) :: rules ∧ r'.longest t = some n := by
      intro same
      obtain ⟨positive, r', member, found⟩ := ih same
      exact ⟨positive, r', mem_cons_of_mem _ member, found⟩
    unfold choose at chosen
    split at chosen
    · rename_i k c m found rest
      split at chosen
      · cases chosen
        exact ⟨Nat.succ_pos k, r, mem_cons_self, found⟩
      · exact later (rest.trans chosen)
    · rename_i k found rest
      cases chosen
      exact ⟨Nat.succ_pos k, r, mem_cons_self, found⟩
    · exact later chosen

/-- A rule wins if earlier ones match less and later ones no more. -/
theorem choose_eq {t : List α} {before after : List (Pattern α × A)} {r : Pattern α} {a : A} {n : Nat}
    (found : r.longest t = some (n + 1))
    (less : ∀ rule ∈ before, ∀ m, rule.1.longest t = some m → m ≤ n)
    (noMore : ∀ rule ∈ after, ∀ m, rule.1.longest t = some m → m ≤ n + 1) :
    choose t (before ++ (r, a) :: after) = some (a, n + 1) := by
  induction before with
  | nil =>
    rw [nil_append, choose, found]
    cases rest : choose t after with
    | none => rfl
    | some other =>
      obtain ⟨_, r', member, longest⟩ := choose_some rest
      exact if_pos (noMore _ member _ longest)
  | cons rule before ih =>
    rw [cons_append, choose, ih (forall_mem_cons.mp less).2]
    have shorter := less rule mem_cons_self
    split
    · rename_i k _ m longest same
      cases same
      exact if_neg (Nat.not_le.mpr (Nat.lt_succ_of_le (shorter _ longest)))
    · rename_i impossible
      cases impossible
    · rfl

/-- The rules that can match a text with a given first character. -/
def alive (c : α) : List (Pattern α × A) → List (Pattern α × A)
  | [] => []
  | (r, a) :: rules =>
    match r.deriv c with
    | .empty => alive c rules
    | _ => (r, a) :: alive c rules

theorem choose_alive (c : α) (t : List α) (rules : List (Pattern α × A)) :
    choose (c :: t) rules = choose (c :: t) (alive c rules) := by
  induction rules with
  | nil => rfl
  | cons rule rules ih =>
    obtain ⟨r, a⟩ := rule
    rw [alive]
    split
    · rename_i dead
      rw [choose, ← ih, Pattern.longest_cons, dead]
      cases r.nullable <;> cases t <;> simp [Pattern.longest]
    · rw [choose, choose, ih]

end

end Flex
