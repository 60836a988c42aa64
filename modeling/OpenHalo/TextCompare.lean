import OpenHalo.Lib.Blanks
import OpenHalo.Lib.ThreeWay

namespace OpenHalo
open Octets Memory List

variable {a b str : Bytes} {n : Nat}

def DEFAULT_COLLATION_OID : Nat := 100

/-- How a locale compares: ICU, which may report a failure, or the C library. -/
inductive Provider
  | icu (ucolStrcoll : Bytes → Bytes → Option Int)
  | libc (strcollL : Bytes → Bytes → Int)

structure Locale where
  deterministic : Bool
  provider : Provider

/-- Whether the client speaks MySQL, the case-insensitive collation, the collations and the library's
locale. -/
structure Collations where
  mysql : Bool
  caseInsensitiveId : Nat
  lcCollateIsC : Nat → Bool
  newlocale : Nat → Locale
  strcoll : Bytes → Bytes → Int

inductive TextError
  | indeterminateCollation
  | collationFailed
deriving Repr, DecidableEq

/-- A text value holds no NUL: a copy with a terminator is the same C string. -/
structure Text where
  data : Bytes
  text : 0 ∉ data

instance : DecidableEq Text := fun a b =>
  decidable_of_iff (a.data = b.data) ⟨fun same => by cases a; cases b; cases same; rfl, congrArg Text.data⟩

/-- `memcmp` of `n` bytes. -/
def memcmp : Nat → Bytes → Bytes → Int
  | n + 1, x :: xs, y :: ys => if x = y then memcmp n xs ys else (x.toNat : Int) - y.toNat
  | _, _, _ => 0

/-- `strcmp`: the terminator stands behind the last byte. -/
def strcmp : Bytes → Bytes → Int
  | [], [] => 0
  | [], y :: _ => -(y.toNat : Int)
  | x :: _, [] => x.toNat
  | x :: xs, y :: ys => if x = y then strcmp xs ys else (x.toNat : Int) - y.toNat

def compareBytes (arg1 arg2 : Bytes) : Int :=
  let result := memcmp (min arg1.length arg2.length) arg1 arg2
  if result = 0 ∧ arg1.length ≠ arg2.length then (if arg1.length < arg2.length then -1 else 1) else result

namespace Collations

def collate (env : Collations) (mylocale : Option Locale) (arg1 arg2 a1p a2p : Bytes) : Except TextError Int :=
  match mylocale with
  | some ⟨_, .icu ucolStrcoll⟩ =>
    match ucolStrcoll arg1 arg2 with
    | some result => .ok result
    | none => .error .collationFailed
  | some ⟨_, .libc strcollL⟩ => .ok (strcollL a1p a2p)
  | none => .ok (env.strcoll a1p a2p)

def locale (env : Collations) (collid : Nat) : Option Locale :=
  if collid = DEFAULT_COLLATION_OID then none else some (env.newlocale collid)

/-- `varstr_cmp`. -/
def varstrCmp (env : Collations) (arg1 arg2 : Bytes) (collid : Nat) : Except TextError Int :=
  if collid = 0 then .error .indeterminateCollation
  else if env.lcCollateIsC collid then .ok (compareBytes arg1 arg2)
  else if arg1.length = arg2.length ∧ memcmp arg1.length arg1 arg2 = 0 then .ok 0
  else
    let mylocale := env.locale collid
    let lowered := env.mysql ∧ collid = env.caseInsensitiveId
    let a1p := if lowered then arg1.map lower else arg1
    let a2p := if lowered then arg2.map lower else arg2
    match env.collate mylocale arg1 arg2 a1p a2p with
    | .error e => .error e
    | .ok result =>
      if result = 0 ∧ mylocale.all (·.deterministic) then .ok (strcmp a1p a2p) else .ok result

/-- `text_cmp`. -/
def textCmp (env : Collations) (arg1 arg2 : Text) (collid : Nat) : Except TextError Int :=
  env.varstrCmp arg1.data arg2.data collid

/-- `text_lt`. -/
def textLt (env : Collations) (arg1 arg2 : Text) (collid : Nat) : Except TextError Bool := do
  let result ← env.textCmp arg1 arg2 collid
  .ok (result < 0)

end Collations

/-- The loop of `texteq` over the first `n` bytes back to the last that is no blank. -/
def lastNonBlank (str : Bytes) : Nat → Option Nat
  | 0 => none
  | i + 1 => if str.getD i 0 ≠ 32 then some i else lastNonBlank str i

def trimmed (str : Bytes) : Bytes := str.take ((lastNonBlank str str.length).elim 0 (· + 1))

/-- The loop that shortens a string only where it finds another byte than blanks. -/
def trimmedBehind (str : Bytes) : Bytes :=
  match lastNonBlank str str.length with
  | some i => if i < str.length - 1 then str.take (i + 1) else str
  | none => str

namespace Collations

/-- What both versions of `texteq` ask before they compare bytes. -/
def bytewise (env : Collations) (collid : Nat) : Bool :=
  env.lcCollateIsC collid || collid = DEFAULT_COLLATION_OID || (env.newlocale collid).deterministic

def texteq (env : Collations) (arg1 arg2 : Text) (collid : Nat) : Except TextError Bool :=
  if collid = 0 then .error .indeterminateCollation
  else if env.mysql then
    if env.bytewise collid then
      let str1 := trimmed arg1.data
      let str2 := trimmed arg2.data
      if str1.length ≠ str2.length then .ok false
      else if collid = env.caseInsensitiveId then .ok (eqNoCase str1.length str1 str2)
      else .ok (memcmp str1.length str1 str2 = 0)
    else do
      let result ← env.varstrCmp (trimmedBehind arg1.data) (trimmedBehind arg2.data) collid
      .ok (result = 0)
  else if env.bytewise collid then
    if arg1.data.length ≠ arg2.data.length then .ok false
    else .ok (memcmp arg1.data.length arg1.data arg2.data = 0)
  else do
    let result ← env.textCmp arg1 arg2 collid
    .ok (result = 0)

/-- A valid collation, deterministic and not the case-insensitive one, whose library comparison is an
order. -/
structure Deterministic (env : Collations) (collid : Nat) : Prop where
  valid : collid ≠ 0
  sensitive : collid ≠ env.caseInsensitiveId
  bytewise : env.bytewise collid = true
  library : env.lcCollateIsC collid = false →
    ∃ order, ThreeWay order ∧ ∀ a b, env.collate (env.locale collid) a b a b = .ok (order a b)

/-- A btree over a text column: the rows in the order of `text_cmp`. -/
structure TextIndex (env : Collations) (collid : Nat) where
  rows : List Text
  sorted : rows.Pairwise fun a b => ∃ order ≤ 0, env.textCmp a b collid = .ok order

/-- A scan goes to the first row not below the key and returns the rows that compare equal. -/
def TextIndex.scan {env : Collations} {collid : Nat} (index : TextIndex env collid) (key : Text) : List Text :=
  (index.rows.dropWhile fun row => env.textLt row key collid = .ok true).takeWhile fun row =>
    env.textCmp row key collid = .ok 0

/-- A sequential scan with `=`. -/
def seqScan (env : Collations) (collid : Nat) (rows : List Text) (key : Text) : List Text :=
  rows.filter fun row => env.texteq row key collid = .ok true

/-- `=` holds where the order finds no difference, and exactly one of `<`, `=` and `>` holds. -/
structure Agree (env : Collations) (collid : Nat) (a b : Text) : Prop where
  equal : env.texteq a b collid = .ok true ↔ env.textCmp a b collid = .ok 0
  some : env.textLt a b collid = .ok true ∨ env.texteq a b collid = .ok true ∨ env.textLt b a collid = .ok true
  notBelow : ¬ (env.textLt a b collid = .ok true ∧ env.texteq a b collid = .ok true)
  notAbove : ¬ (env.textLt b a collid = .ok true ∧ env.texteq a b collid = .ok true)
  notBoth : ¬ (env.textLt a b collid = .ok true ∧ env.textLt b a collid = .ok true)

end Collations

/-- The values are the same up to the number of blanks behind them, and differ. -/
def BlanksApart (a b : Text) : Prop :=
  ∃ base m n, m ≠ n ∧ a.data = base ++ List.replicate m 32 ∧ b.data = base ++ List.replicate n 32

theorem memcmp_eq_zero (length : a.length = b.length) : memcmp a.length a b = 0 ↔ a = b := by
  induction a generalizing b with
  | nil =>
    cases b with
    | nil => exact ⟨fun _ => rfl, fun _ => rfl⟩
    | cons y ys => cases length
  | cons x xs ih =>
    cases b with
    | nil => cases length
    | cons y ys =>
      rw [length_cons, memcmp]
      by_cases same : x = y
      · rw [if_pos same, ih (Nat.succ.inj length), same, List.cons.injEq]
        exact (and_iff_right rfl).symm
      have apart := mt UInt8.toNat_inj.mp same
      rw [if_neg same, List.cons.injEq]
      constructor
      · omega
      · exact fun both => absurd both.1 same

section Lexicographic

variable (x y : UInt8) (xs ys : Bytes)

theorem compareBytes_nil_cons : compareBytes [] (y :: ys) = -1 := by
  simp [compareBytes, memcmp]

theorem compareBytes_cons_nil : compareBytes (x :: xs) [] = 1 := by
  simp [compareBytes, memcmp]

theorem compareBytes_cons_cons :
    compareBytes (x :: xs) (y :: ys) = if x = y then compareBytes xs ys else (x.toNat : Int) - y.toNat := by
  have shorter : min (xs.length + 1) (ys.length + 1) = min xs.length ys.length + 1 := by omega
  by_cases same : x = y
  · simp [compareBytes, shorter, memcmp, same]
  have apart := mt UInt8.toNat_inj.mp same
  have nonzero : ¬ ((x.toNat : Int) - y.toNat = 0) := by omega
  simp [compareBytes, memcmp, same, nonzero]

end Lexicographic

theorem compareBytes_swap (a b : Bytes) : compareBytes a b < 0 ↔ 0 < compareBytes b a := by
  induction a generalizing b with
  | nil =>
    cases b with
    | nil => decide
    | cons y ys => simp [compareBytes_nil_cons, compareBytes_cons_nil]
  | cons x xs ih =>
    cases b with
    | nil => simp [compareBytes_nil_cons, compareBytes_cons_nil]
    | cons y ys =>
      rw [compareBytes_cons_cons, compareBytes_cons_cons]
      by_cases same : x = y
      · rw [if_pos same, if_pos same.symm, ih]
      · rw [if_neg same, if_neg (Ne.symm same)]
        omega

theorem compareBytes_trans {c : Bytes} (first : compareBytes a b ≤ 0) (second : compareBytes b c ≤ 0) :
    compareBytes a c ≤ 0 := by
  induction a generalizing b c with
  | nil =>
    cases c with
    | nil => decide
    | cons z zs => simp [compareBytes_nil_cons]
  | cons x xs ih =>
    cases b with
    | nil => simp [compareBytes_cons_nil] at first
    | cons y ys =>
      cases c with
      | nil => simp [compareBytes_cons_nil] at second
      | cons z zs =>
        rw [compareBytes_cons_cons] at first second ⊢
        by_cases xy : x = y <;> by_cases yz : y = z
        · rw [if_pos xy] at first
          rw [if_pos yz] at second
          rw [if_pos (xy.trans yz)]
          exact ih first second
        · rw [if_neg yz] at second
          rw [xy, if_neg yz]
          exact second
        · rw [if_neg xy] at first
          rw [← yz, if_neg xy]
          exact first
        · have apart := mt UInt8.toNat_inj.mp xy
          rw [if_neg xy] at first
          rw [if_neg yz] at second
          have below : x ≠ z := fun h => by subst h; omega
          rw [if_neg below]
          omega

theorem compareBytes_order : ThreeWay compareBytes :=
  ⟨compareBytes_swap, fun _ _ _ => compareBytes_trans⟩

theorem compareBytes_eq_zero (a b : Bytes) : compareBytes a b = 0 ↔ a = b := by
  by_cases length : a.length = b.length
  · have all : min a.length b.length = a.length := by omega
    rw [compareBytes, if_neg (fun both => both.2 length), all, memcmp_eq_zero length]
  refine ⟨fun zero => ?_, fun same => absurd (congrArg List.length same) length⟩
  unfold compareBytes at zero
  dsimp only at zero
  split at zero
  · split at zero <;> cases zero
  · rename_i other
    exact absurd ⟨zero, length⟩ other

/-- Without NULs `strcmp` orders like the C locale. -/
theorem strcmp_signs (textA : 0 ∉ a) (textB : 0 ∉ b) :
    (strcmp a b < 0 ↔ compareBytes a b < 0) ∧ (0 < strcmp a b ↔ 0 < compareBytes a b) := by
  have positive : ∀ {z : UInt8} {zs : Bytes}, 0 ∉ z :: zs → 0 < z.toNat := by
    intro z zs text
    have nonzero : z.toNat ≠ 0 := fun zero => text (mem_cons.mpr (.inl (UInt8.toNat_inj.mp zero.symm)))
    omega
  induction a generalizing b with
  | nil =>
    cases b with
    | nil => decide
    | cons y ys =>
      have above := positive textB
      rw [strcmp, compareBytes_nil_cons]
      omega
  | cons x xs ih =>
    cases b with
    | nil =>
      have above := positive textA
      rw [strcmp, compareBytes_cons_nil]
      omega
    | cons y ys =>
      rw [strcmp, compareBytes_cons_cons]
      by_cases same : x = y
      · rw [if_pos same, if_pos same]
        exact ih (fun later => textA (mem_cons_of_mem x later)) (fun later => textB (mem_cons_of_mem y later))
      · rw [if_neg same, if_neg same]
        exact ⟨Iff.rfl, Iff.rfl⟩

theorem strcmp_order : ThreeWay fun a b : Text => strcmp a.data b.data :=
  (compareBytes_order.comap Text.data).of_signs (fun a b => (strcmp_signs a.text b.text).1)
    (fun a b => (strcmp_signs a.text b.text).2)

theorem strcmp_eq_zero (a b : Text) : strcmp a.data b.data = 0 ↔ a.data = b.data := by
  obtain ⟨below, above⟩ := strcmp_signs a.text b.text
  rw [← compareBytes_eq_zero]
  omega

theorem Text.eq_iff (a b : Text) : a = b ↔ a.data = b.data :=
  ⟨congrArg Text.data, fun same => by cases a; cases b; cases same; rfl⟩

namespace Collations

variable {env : Collations} {collid : Nat}

/-- Under a deterministic collation `text_cmp` is a total order. -/
theorem Deterministic.textCmp_order (collation : env.Deterministic collid) :
    ∃ order : Text → Text → Int, ThreeWay order ∧ (∀ a b, order a b = 0 ↔ a = b) ∧
      ∀ a b, env.textCmp a b collid = .ok (order a b) := by
  by_cases isC : env.lcCollateIsC collid = true
  · refine ⟨fun a b => compareBytes a.data b.data, compareBytes_order.comap Text.data, fun a b => ?_, fun a b => ?_⟩
    · rw [compareBytes_eq_zero, Text.eq_iff]
    · rw [textCmp, varstrCmp, if_neg collation.valid, if_pos isC]
  · obtain ⟨order, lawful, library⟩ := collation.library (Bool.eq_false_iff.mpr isC)
    have broken : (env.locale collid).all (·.deterministic) = true := by
      have bytewise := collation.bytewise
      unfold Collations.bytewise at bytewise
      unfold locale
      by_cases default : collid = DEFAULT_COLLATION_OID
      · rw [if_pos default]
        rfl
      · simpa [isC, default] using bytewise
    have whole := (lawful.comap Text.data).tieBreak_order strcmp_order
    have zero : ∀ a b : Text,
        ThreeWay.tieBreak (fun a b : Text => order a.data b.data) (fun a b => strcmp a.data b.data) a b = 0 ↔
          a = b := by
      intro a b
      constructor
      · intro tie
        unfold ThreeWay.tieBreak at tie
        split at tie
        · exact (Text.eq_iff a b).mpr ((strcmp_eq_zero a b).mp tie)
        · rename_i differ
          exact absurd tie differ
      · intro same
        subst same
        have refl := whole.swap a a
        omega
    refine ⟨_, whole, zero, fun a b => ?_⟩
    rw [textCmp, varstrCmp, if_neg collation.valid, if_neg isC]
    by_cases same : a = b
    · rw [if_pos (by subst same; exact ⟨rfl, (memcmp_eq_zero rfl).mpr rfl⟩), (zero a b).mpr same]
    rw [if_neg]
    · simp only [collation.sensitive, and_false, if_false, library, broken, and_true, ThreeWay.tieBreak]
      split <;> rfl
    · rintro ⟨length, equal⟩
      exact same ((Text.eq_iff a b).mpr ((memcmp_eq_zero length).mp equal))

/-- In a MySQL session `=` compares the values without the blanks behind them. -/
theorem Deterministic.texteq_trimmed (collation : env.Deterministic collid) (session : env.mysql = true) (a b : Text) :
    env.texteq a b collid = .ok true ↔ trimmed a.data = trimmed b.data := by
  rw [texteq, if_neg collation.valid, if_pos session, if_pos collation.bytewise]
  by_cases length : (trimmed a.data).length = (trimmed b.data).length
  · have equal := memcmp_eq_zero length
    simp [length, collation.sensitive, ← equal]
  simp only [length, ne_eq]
  constructor
  · intro h
    cases h
  · exact fun same => absurd (congrArg List.length same) length

end Collations

theorem lastNonBlank_take (within : n ≤ str.length) :
    str.take ((lastNonBlank str n).elim 0 (· + 1)) = trimBlanks (str.take n) := by
  induction n with
  | zero => rfl
  | succ n ih =>
    rw [lastNonBlank, getD_eq_getElem _ _ within, take_succ_eq_append_getElem within, trimBlanks_concat]
    by_cases blank : str[n] = 32
    · rw [if_neg (not_not.mpr blank), if_pos blank, ih (by omega)]
    · rw [if_pos blank, if_neg blank]
      exact take_succ_eq_append_getElem within

theorem trimmed_eq (str : Bytes) : trimmed str = trimBlanks str := by
  have whole := lastNonBlank_take (Nat.le_refl str.length)
  rwa [take_length] at whole

theorem blanksApart_iff (a b : Text) : BlanksApart a b ↔ trimmed a.data = trimmed b.data ∧ a ≠ b := by
  constructor
  · rintro ⟨base, m, n, differ, left, right⟩
    refine ⟨by rw [left, right, trimmed_eq, trimmed_eq, trimBlanks_blanks, trimBlanks_blanks], fun same => differ ?_⟩
    have length := congrArg List.length ((Text.eq_iff a b).mp same)
    rw [left, right, length_append, length_append, length_replicate, length_replicate] at length
    omega
  · rintro ⟨same, differ⟩
    obtain ⟨m, left⟩ := trimBlanks_split a.data
    obtain ⟨n, right⟩ := trimBlanks_split b.data
    rw [← trimmed_eq, ← same, trimmed_eq] at right
    refine ⟨trimBlanks a.data, m, n, fun equal => differ ?_, left, right⟩
    rw [Text.eq_iff, left, right, equal]

namespace Collations

variable {env : Collations} {collid : Nat}

theorem Deterministic.agree_iff (collation : env.Deterministic collid) (session : env.mysql = true) (a b : Text) :
    env.Agree collid a b ↔ ¬ BlanksApart a b := by
  obtain ⟨order, lawful, zero, compared⟩ := collation.textCmp_order
  have below : ∀ a b, env.textLt a b collid = .ok true ↔ order a b < 0 := by
    intro a b
    rw [textLt, compared]
    simp [bind, Except.bind]
  have equal := collation.texteq_trimmed session a b
  have same : env.textCmp a b collid = .ok 0 ↔ a = b := by
    rw [compared, Except.ok.injEq, zero]
  constructor
  · intro agree apart
    obtain ⟨trim, differ⟩ := (blanksApart_iff a b).mp apart
    exact differ (same.mp (agree.equal.mp (equal.mpr trim)))
  · intro close
    have both : env.texteq a b collid = .ok true ↔ order a b = 0 := by
      rw [equal, zero]
      refine ⟨fun trim => ?_, fun h => by rw [h]⟩
      by_contra differ
      exact close ((blanksApart_iff a b).mpr ⟨trim, differ⟩)
    have swapped' := lawful.swap b a
    refine ⟨by rw [both, same, zero], ?_, ?_, ?_, ?_⟩
    · rw [below, both, below]
      omega
    · rw [below, both]
      omega
    · rw [below, both]
      omega
    · rw [below, below]
      omega

theorem Deterministic.scan_eq (collation : env.Deterministic collid) (index : TextIndex env collid) (key : Text) :
    index.scan key = index.rows.filter fun row => env.textCmp row key collid = .ok 0 := by
  obtain ⟨order, lawful, zero, compared⟩ := collation.textCmp_order
  have sorted : index.rows.Pairwise fun a b => order a b ≤ 0 := by
    refine index.sorted.imp ?_
    rintro a b ⟨sign, below, known⟩
    rw [compared] at known
    cases known
    exact below
  have found := lawful.search_eq_filter key sorted
  simpa [TextIndex.scan, textLt, compared, bind, Except.bind] using found

/-- In a MySQL session, under every C or deterministic collation but the case-insensitive one: `=`
agrees with the order on the rows of an index, and index and sequential scans return the same, exactly
if no row differs from the key in trailing blanks only. -/
theorem text_equality_agrees_iff (session : env.mysql = true) (collation : env.Deterministic collid)
    (index : TextIndex env collid) (key : Text) :
    (∀ row ∈ index.rows, env.Agree collid row key) ∧ index.scan key = seqScan env collid index.rows key ↔
      ∀ row ∈ index.rows, ¬ BlanksApart row key := by
  constructor
  · rintro ⟨agree, _⟩ row member
    exact (collation.agree_iff session row key).mp (agree row member)
  · intro close
    have agree : ∀ row ∈ index.rows, env.Agree collid row key := fun row member =>
      (collation.agree_iff session row key).mpr (close row member)
    refine ⟨agree, ?_⟩
    rw [collation.scan_eq]
    apply filter_congr
    intro row member
    exact decide_eq_decide.mpr (agree row member).equal.symm

def cLocale : Collations := ⟨true, 4294967295, fun _ => true, fun _ => ⟨true, .libc strcmp⟩, strcmp⟩

theorem cLocale_deterministic : cLocale.Deterministic DEFAULT_COLLATION_OID :=
  ⟨by decide, by decide, rfl, fun other => by cases other⟩

/-- The rows `a ` and `b`. -/
def blankIndex : TextIndex cLocale DEFAULT_COLLATION_OID :=
  ⟨[⟨[97, 32], by decide⟩, ⟨[98], by decide⟩], pairwise_pair.mpr ⟨-1, by decide, rfl⟩⟩

theorem text_equality_agrees_letters :
    (∀ row ∈ blankIndex.rows, cLocale.Agree DEFAULT_COLLATION_OID row ⟨[98], by decide⟩) ∧
      blankIndex.scan ⟨[98], by decide⟩ = seqScan cLocale DEFAULT_COLLATION_OID blankIndex.rows ⟨[98], by decide⟩ := by
  refine (text_equality_agrees_iff rfl cLocale_deterministic blankIndex _).mpr ?_
  have letters : ∀ row ∈ blankIndex.rows, trimmed row.data = trimmed [98] → row = ⟨[98], by decide⟩ := by decide
  intro row member apart
  obtain ⟨trim, differ⟩ := (blanksApart_iff _ _).mp apart
  exact differ (letters row member trim)

/-- The row `a ` is equal to the key `a` and greater, and the index does not find it. -/
theorem text_equality_disagrees :
    cLocale.texteq ⟨[97, 32], by decide⟩ ⟨[97], by decide⟩ DEFAULT_COLLATION_OID = .ok true ∧
      cLocale.textCmp ⟨[97, 32], by decide⟩ ⟨[97], by decide⟩ DEFAULT_COLLATION_OID = .ok 1 ∧
      cLocale.textLt ⟨[97], by decide⟩ ⟨[97, 32], by decide⟩ DEFAULT_COLLATION_OID = .ok true ∧
      blankIndex.scan ⟨[97], by decide⟩ = [] ∧
      seqScan cLocale DEFAULT_COLLATION_OID blankIndex.rows ⟨[97], by decide⟩ = [⟨[97, 32], by decide⟩] := by
  decide

end Collations

end OpenHalo
