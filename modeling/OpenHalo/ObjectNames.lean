import OpenHalo.Lib.Memory

namespace OpenHalo.ObjectNames
open Octets Memory List

variable {text word : Bytes}

def NAMEDATALEN : Nat := 64

/-- `pg_snprintf(buf + pos, size, "%s", text)`. -/
def snprintf (buf : Mem) (pos size : Nat) (text : Bytes) : Mem := write buf pos (text.take (size - 1) ++ [0])

/-- `palloc0(NAMEDATALEN)`. -/
def palloc0 : Mem := fun _ => 0

def nameIn (buf : Mem) : Bytes := cstr (read buf 0 NAMEDATALEN)

/-- The room of two parts that do not fit: two thirds and the rest, and what one does not need for the
other. -/
def allocatedSizes (prefixLen firstPartLen secondPartLen : Nat) : Nat × Nat :=
  let room := NAMEDATALEN - 1 - prefixLen
  let sizes := (room / 3 * 2, room - room / 3 * 2)
  let sizes := if firstPartLen < sizes.1 then (firstPartLen, room - firstPartLen) else sizes
  if secondPartLen < sizes.2 then (room - secondPartLen, secondPartLen) else sizes

def tailor (pre firstPart secondPart : Bytes) : Bytes :=
  if pre.length + firstPart.length + secondPart.length ≤ NAMEDATALEN - 1 then
    nameIn (snprintf palloc0 0 NAMEDATALEN (pre ++ firstPart ++ secondPart))
  else
    let sizes := allocatedSizes pre.length firstPart.length secondPart.length
    let ret := snprintf palloc0 0 (pre.length + 1) pre
    let ret := snprintf ret pre.length (sizes.1 + 1) firstPart
    nameIn (snprintf ret (pre.length + sizes.1) (sizes.2 + 1) secondPart)

def headed (word tableName : Bytes) : Bytes := nameIn (snprintf palloc0 0 NAMEDATALEN (word ++ tableName))

def mysBuildSeqName (tableName : Bytes) : Bytes := headed (ascii "seq") tableName

def mysBuildTrigFuncNameForAutoInc (tableName : Bytes) : Bytes := headed (ascii "aitf") tableName

def mysBuildTrigFuncNameForOnUpdateNow (tableName colName : Bytes) : Bytes := tailor (ascii "autf") tableName colName

def mysBuildSetDomainName (tableName colName : Bytes) : Bytes := tailor (ascii "set_") tableName colName

def mysBuildEnumDomainName (tableName colName : Bytes) : Bytes := tailor (ascii "enum_") tableName colName

def mysBuildPartitionTableName (tableName pTableName : Bytes) : Bytes := tailor [] tableName pTableName

structure Identifier where
  bytes : Bytes
  text : 0 ∉ bytes
  short : bytes.length ≤ 63

instance : DecidableEq Identifier := fun a b =>
  decidable_of_iff (a.bytes = b.bytes) ⟨fun same => by cases a; cases b; cases same; rfl, congrArg Identifier.bytes⟩

def columnNames (t c : Identifier) : List Bytes :=
  [mysBuildSetDomainName t.bytes c.bytes, mysBuildEnumDomainName t.bytes c.bytes,
    mysBuildTrigFuncNameForOnUpdateNow t.bytes c.bytes, mysBuildPartitionTableName t.bytes c.bytes]

def tableNames (t : Identifier) : List Bytes := [mysBuildSeqName t.bytes, mysBuildTrigFuncNameForAutoInc t.bytes]

/-- Names of the same kind for different objects differ, and all are short enough. -/
structure CollisionFree (t₁ c₁ t₂ c₂ : Identifier) : Prop where
  columns : (t₁, c₁) ≠ (t₂, c₂) → List.Forall₂ (· ≠ ·) (columnNames t₁ c₁) (columnNames t₂ c₂)
  tables : t₁ ≠ t₂ → List.Forall₂ (· ≠ ·) (tableNames t₁) (tableNames t₂)
  short : ∀ name ∈ columnNames t₁ c₁ ++ columnNames t₂ c₂ ++ tableNames t₁ ++ tableNames t₂, name.length ≤ 63

/-- How much of the two names is kept behind a word of `n` bytes. -/
def keptSizes (n : Nat) (t c : Bytes) : Nat × Nat :=
  if n + t.length + c.length ≤ NAMEDATALEN - 1 then (t.length, c.length) else allocatedSizes n t.length c.length

def keptTable (n : Nat) (t c : Bytes) : Bytes := t.take (keptSizes n t c).1

def keptColumn (n : Nat) (t c : Bytes) : Bytes := c.take (keptSizes n t c).2

/-- What is kept of the second table is what is kept of the first and some more, which the second column
lacks. -/
def Shifted (n : Nat) (t₁ c₁ t₂ c₂ : Bytes) : Prop :=
  ∃ more, keptTable n t₂ c₂ = keptTable n t₁ c₁ ++ more ∧ keptColumn n t₁ c₁ = more ++ keptColumn n t₂ c₂

/-- No bytes can be shifted between the names, and the tables differ in their first 59 bytes. -/
structure Apart (t₁ c₁ t₂ c₂ : Identifier) : Prop where
  columns : (t₁, c₁) ≠ (t₂, c₂) → ∀ n ∈ [0, 4, 5],
    ¬ Shifted n t₁.bytes c₁.bytes t₂.bytes c₂.bytes ∧ ¬ Shifted n t₂.bytes c₂.bytes t₁.bytes c₁.bytes
  tables : t₁ ≠ t₂ → t₁.bytes.take 59 ≠ t₂.bytes.take 59

theorem nameIn_snprintf (nonzero : 0 ∉ text) (short : text.length ≤ 63) :
    nameIn (write palloc0 0 (text ++ [0])) = text := by
  have parts : NAMEDATALEN = (text ++ [0]).length + (63 - text.length) := by
    rw [length_append, length_singleton, NAMEDATALEN]
    omega
  rw [nameIn, parts, read_append, read_write_self, append_assoc]
  exact cstr_append nonzero _

theorem write_behind (buf : Mem) (first second : Bytes) :
    write (write buf 0 (first ++ [0])) first.length (second ++ [0]) = write buf 0 (first ++ second ++ [0]) := by
  have start : 0 + first.length = first.length := Nat.zero_add _
  have terminator : write buf 0 (first ++ [0]) = write (write buf 0 first) first.length [0] := by
    rw [write_append, start]
  have both : write buf 0 (first ++ (second ++ [0])) = write (write buf 0 first) first.length (second ++ [0]) := by
    rw [write_append, start]
  rw [terminator, write_write (by simp), append_assoc, both]

theorem headed_eq {tableName : Bytes} (nonzero : 0 ∉ word ++ tableName) :
    headed word tableName = (word ++ tableName).take 63 := by
  exact nameIn_snprintf (fun zero => nonzero (mem_of_mem_take zero)) (length_take_le 63 _)

theorem allocatedSizes_spec {n t c : Nat} (long : 63 < n + t + c) (word : n ≤ 63) :
    (allocatedSizes n t c).1 ≤ t ∧ (allocatedSizes n t c).2 ≤ c ∧
    n + (allocatedSizes n t c).1 + (allocatedSizes n t c).2 = 63 := by
  have whole : NAMEDATALEN - 1 = 63 := rfl
  unfold allocatedSizes
  rw [whole]
  dsimp only
  by_cases first : t < (63 - n) / 3 * 2
  · rw [if_pos first]
    rw [if_neg (by omega)]
    omega
  · rw [if_neg first]
    split <;>
    · omega

section Tailor

variable {pre t c : Bytes}

theorem tailor_eq (nonzero : 0 ∉ pre ++ (t ++ c)) (word : pre.length ≤ 63) :
    tailor pre t c = pre ++ (keptTable pre.length t c ++ keptColumn pre.length t c) := by
  have whole : NAMEDATALEN - 1 = 63 := rfl
  by_cases fits : pre.length + t.length + c.length ≤ NAMEDATALEN - 1
  · have length : (pre ++ (t ++ c)).length ≤ 63 := by
      rw [length_append, length_append]
      omega
    rw [tailor, if_pos fits, keptTable, keptColumn, keptSizes, if_pos fits, take_length, take_length, append_assoc,
      snprintf, whole, take_of_length_le length, nameIn_snprintf nonzero length]
  · obtain ⟨first, second, all⟩ := allocatedSizes_spec (by omega : 63 < pre.length + t.length + c.length) word
    rw [tailor, if_neg fits, keptTable, keptColumn, keptSizes, if_neg fits]
    generalize allocatedSizes pre.length t.length c.length = sizes at first second all
    obtain ⟨a, b⟩ := sizes
    have behind : pre.length + a = (pre ++ t.take a).length := by
      rw [length_append, length_take, min_eq_left first]
    have cut : (pre ++ t.take a ++ c.take b).length ≤ 63 := by
      rw [length_append, ← behind, length_take, min_eq_left second, all]
    have text : 0 ∉ pre ++ t.take a ++ c.take b := by
      intro zero
      apply nonzero
      rw [append_assoc] at zero
      rw [mem_append, mem_append] at zero ⊢
      exact zero.imp_right (Or.imp mem_of_mem_take mem_of_mem_take)
    simp only [snprintf, Nat.add_sub_cancel, take_length]
    rw [write_behind, behind, write_behind, nameIn_snprintf text cut, append_assoc]

theorem tailor_length (nonzero : 0 ∉ pre ++ (t ++ c)) (word : pre.length ≤ 63) : (tailor pre t c).length ≤ 63 := by
  rw [tailor_eq nonzero word, keptTable, keptColumn, keptSizes, length_append, length_append, length_take,
    length_take]
  split
  next fits =>
    have whole : NAMEDATALEN - 1 = 63 := rfl
    omega
  next cut =>
    have whole : NAMEDATALEN - 1 = 63 := rfl
    have := allocatedSizes_spec (by omega : 63 < pre.length + t.length + c.length) word
    omega

theorem tailor_eq_iff {t' c' : Bytes} (nonzero : 0 ∉ pre ++ (t ++ c)) (nonzero' : 0 ∉ pre ++ (t' ++ c'))
    (word : pre.length ≤ 63) :
    tailor pre t c = tailor pre t' c' ↔ Shifted pre.length t c t' c' ∨ Shifted pre.length t' c' t c := by
  rw [tailor_eq nonzero word, tailor_eq nonzero' word, append_cancel_left_eq, append_eq_append_iff]
  exact Iff.rfl

end Tailor

variable {t₁ c₁ t₂ c₂ : Identifier}

theorem Identifier.nonzero (text : 0 ∉ word) (t c : Identifier) : 0 ∉ word ++ (t.bytes ++ c.bytes) := by
  rw [mem_append, mem_append]
  rintro (zero | zero | zero)
  · exact text zero
  · exact t.text zero
  · exact c.text zero

theorem tailor_ne_iff (text : 0 ∉ word) (short : word.length ≤ 63) :
    tailor word t₁.bytes c₁.bytes ≠ tailor word t₂.bytes c₂.bytes ↔
      ¬ Shifted word.length t₁.bytes c₁.bytes t₂.bytes c₂.bytes ∧
      ¬ Shifted word.length t₂.bytes c₂.bytes t₁.bytes c₁.bytes := by
  rw [Ne, tailor_eq_iff (Identifier.nonzero text t₁ c₁) (Identifier.nonzero text t₂ c₂) short, not_or]

theorem headed_nonzero (text : 0 ∉ word) (t : Identifier) : 0 ∉ word ++ t.bytes := by
  rw [mem_append]
  rintro (zero | zero)
  · exact text zero
  · exact t.text zero

theorem headed_ne_iff (text : 0 ∉ word) (short : word.length ≤ 63) :
    headed word t₁.bytes ≠ headed word t₂.bytes ↔
      t₁.bytes.take (63 - word.length) ≠ t₂.bytes.take (63 - word.length) := by
  rw [headed_eq (headed_nonzero text t₁), headed_eq (headed_nonzero text t₂), take_append, take_append,
    take_of_length_le short, Ne, append_cancel_left_eq]

theorem names_short (t c : Identifier) : ∀ name ∈ columnNames t c ++ tableNames t, name.length ≤ 63 := by
  have cut {word : Bytes} (text : 0 ∉ word) (short : word.length ≤ 63) : (tailor word t.bytes c.bytes).length ≤ 63 :=
    tailor_length (Identifier.nonzero text t c) short
  have front {word : Bytes} (text : 0 ∉ word) : (headed word t.bytes).length ≤ 63 := by
    rw [headed_eq (headed_nonzero text t)]
    exact length_take_le 63 _
  simp only [columnNames, tableNames, cons_append, nil_append, forall_mem_cons]
  exact ⟨cut (by decide) (by decide), cut (by decide) (by decide), cut (by decide) (by decide),
    cut (by decide) (by decide), front (by decide), front (by decide), forall_mem_nil _⟩

/-- The names of two objects are different exactly if the objects are apart. -/
theorem object_names_apart_iff (t₁ c₁ t₂ c₂ : Identifier) : CollisionFree t₁ c₁ t₂ c₂ ↔ Apart t₁ c₁ t₂ c₂ := by
  have columns : List.Forall₂ (· ≠ ·) (columnNames t₁ c₁) (columnNames t₂ c₂) ↔ ∀ n ∈ [0, 4, 5],
      ¬ Shifted n t₁.bytes c₁.bytes t₂.bytes c₂.bytes ∧ ¬ Shifted n t₂.bytes c₂.bytes t₁.bytes c₁.bytes := by
    simp only [columnNames, forall₂_cons, List.Forall₂.nil, and_true, mysBuildSetDomainName, mysBuildEnumDomainName,
      mysBuildTrigFuncNameForOnUpdateNow, mysBuildPartitionTableName, forall_mem_cons]
    rw [tailor_ne_iff (by decide) (by decide), tailor_ne_iff (by decide) (by decide),
      tailor_ne_iff (by decide) (by decide), tailor_ne_iff (by decide) (by decide)]
    constructor
    · rintro ⟨four, five, _, bare⟩
      exact ⟨bare, four, five, forall_mem_nil _⟩
    · rintro ⟨bare, four, five, _⟩
      exact ⟨four, five, four, bare⟩
  have tables : List.Forall₂ (· ≠ ·) (tableNames t₁) (tableNames t₂) ↔ t₁.bytes.take 59 ≠ t₂.bytes.take 59 := by
    simp only [tableNames, forall₂_cons, List.Forall₂.nil, and_true, mysBuildSeqName, mysBuildTrigFuncNameForAutoInc]
    rw [headed_ne_iff (by decide) (by decide), headed_ne_iff (by decide) (by decide)]
    refine ⟨fun both => both.2, fun apart => ⟨fun same => apart ?_, apart⟩⟩
    have shorter := congrArg (List.take 59) same
    rwa [take_take, take_take] at shorter
  constructor
  · rintro ⟨different, differentTables, _⟩
    exact ⟨fun pair => columns.mp (different pair), fun table => tables.mp (differentTables table)⟩
  · rintro ⟨different, differentTables⟩
    refine ⟨fun pair => columns.mpr (different pair), fun table => tables.mpr (differentTables table),
      fun name member => ?_⟩
    have first := names_short t₁ c₁ name
    have second := names_short t₂ c₂ name
    simp only [mem_append] at member first second
    rcases member with ((column | column) | table) | table
    · exact first (.inl column)
    · exact second (.inl column)
    · exact first (.inr table)
    · exact second (.inr table)

def longName (last : UInt8) (text : 0 ≠ last) : Identifier :=
  ⟨List.replicate 60 97 ++ [last], by simp [text], by simp⟩

/-- The columns `c` of `ab` and `bc` of `a` share their names, and two long tables their sequence. -/
theorem object_names_collide :
    columnNames ⟨ascii "ab", by decide, by decide⟩ ⟨ascii "c", by decide, by decide⟩ =
        columnNames ⟨ascii "a", by decide, by decide⟩ ⟨ascii "bc", by decide, by decide⟩ ∧
      tableNames (longName 120 (by decide)) = tableNames (longName 121 (by decide)) := by
  decide +kernel

end OpenHalo.ObjectNames
