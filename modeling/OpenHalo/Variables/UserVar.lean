import Mathlib.Logic.Function.Basic
import OpenHalo.Variables.UserVarText

namespace OpenHalo.UserVar
open Octets List

variable {name : Name} {value : Option Datum} {op : Op}

/-- The name of a variable, a C string of at most 64 bytes. -/
abbrev Name := { name : Bytes // name.length ≤ 64 ∧ 0 ∉ name }

/-- `HASH_STRINGS` hashes, compares and copies only `NAMEDATALEN - 1` bytes. -/
def Name.key (name : Name) : Bytes := name.1.take 63

/-- An entry; its pointer is `none` where it is NULL or points at no value. -/
structure Item where
  varValue : Option Bytea
  isnull : Bool
deriving Repr, DecidableEq

abbrev Table := Bytes → Option Item

structure State where
  bytea_output : ByteaOutput
  mysql_user_variables : Option Table

def State.table (s : State) : Table := s.mysql_user_variables.getD fun _ => none

def copyUserVarValue (varValue : Bytea) : Bytea := ⟨varValue.data, extend varValue.isDigit⟩

/-- A call that returns or raises; `none` is a crash on a pointer that points at no value. -/
abbrev Call (α : Type) := Option (State × Except String α)

def mysGetUserVarValueInternal (s : State) (userVarName : Name) : Call (Option Bytea) :=
  let created := { s with mysql_user_variables := some s.table }
  match s.table userVarName.key with
  | some ⟨varValue, false⟩ => varValue.map fun v => (created, .ok (some (copyUserVarValue v)))
  | some ⟨_, true⟩ => some (created, .ok none)
  | none => some (created, .ok none)

/-- `hash_search` with `HASH_ENTER`: a new entry holds what its memory held; and the free of the old value. -/
def enterUserVar (fresh : Item) (s : State) (userVarName : Name) : Option Item :=
  match s.table userVarName.key with
  | some ⟨some _, false⟩ => some ⟨none, false⟩
  | some ⟨none, false⟩ => none
  | some ⟨varValue, true⟩ => some ⟨varValue, true⟩
  | none => some fresh

def State.store (s : State) (userVarName : Name) (item : Item) : State :=
  { s with mysql_user_variables := some (Function.update s.table userVarName.key (some item)) }

def setUserVar (fresh : Item) (s : State) (userVarName : Name) (converted : Option (Except String Bytea)) : Call Unit :=
  (enterUserVar fresh s userVarName).map fun entry =>
    match converted with
    | none => (s.store userVarName { entry with isnull := true }, .ok ())
    | some (.ok result) => (s.store userVarName ⟨some result, false⟩, .ok ())
    | some (.error message) => (s.store userVarName entry, .error message)

def mysSetUserVarInternal (fresh : Item) (s : State) (userVarName : Name) (varValue : Option (Value × Bytes × Bool)) :
    Call Unit :=
  setUserVar fresh s userVarName (varValue.map fun (value, text, isDigit) => value.convert text isDigit)

def mysSetUserVarForPl (fresh : Item) (s : State) (userVarName : Name) (userVarValue : Option Datum) : Call Unit :=
  setUserVar fresh s userVarName (userVarValue.map fun d => do
    let varValue ← d.value.output s.bytea_output
    d.value.convert varValue (varValueIsDigit d.declared))

def mysSetUserVar (fresh : Item) (s : State) (varName : Name) (value : Option Datum) : Call Unit :=
  match value with
  | none => mysSetUserVarInternal fresh s varName none
  | some d =>
    match d.value.output s.bytea_output with
    | .error message => some (s, .error message)
    | .ok varValue => mysSetUserVarInternal fresh s varName (some (d.value, varValue, varValueIsDigit d.declared))

def mysSetUserVarInExpr (fresh : Item) (s : State) (varName : Name) (value : Option Datum) : Call (Option Bytea) :=
  (mysSetUserVar fresh s varName value).bind fun (s, ended) =>
    match ended with
    | .error message => some (s, .error message)
    | .ok () => mysGetUserVarValueInternal s varName

def clearUserVars (s : State) : State := { s with mysql_user_variables := none }

inductive Op
  | byteaOutput (bytea_output : ByteaOutput)
  | set (varName : Name) (value : Option Datum)
  | setInExpr (varName : Name) (value : Option Datum)
  | setForPl (varName : Name) (value : Option Datum)
  | get (varName : Name)
  | clear

/-- One operation; `fresh` is the memory of the entry it may create. -/
def perform (fresh : Item) (s : State) : Op → Call (Option Bytea)
  | .byteaOutput bytea_output => some ({ s with bytea_output := bytea_output }, .ok none)
  | .set varName value => (mysSetUserVar fresh s varName value).map fun (s, ended) => (s, ended.map fun _ => none)
  | .setInExpr varName value => mysSetUserVarInExpr fresh s varName value
  | .setForPl varName value => (mysSetUserVarForPl fresh s varName value).map fun (s, ended) =>
      (s, ended.map fun _ => none)
  | .get varName => mysGetUserVarValueInternal s varName
  | .clear => some (clearUserVars s, .ok none)

/-- The map that the variables are meant to be. -/
abbrev Variables := Name → Option (Bytes × Bool)

def Variables.assign {α : Type} (vars : Variables) (name : Name) (value : Option Datum) : Except String α → Variables
  | .ok _ => Function.update vars name (value.map Datum.meaning)
  | .error _ => vars

/-- What an operation that ended in `ended` does to the map. -/
def Variables.after (vars : Variables) (op : Op) (ended : Except String (Option Bytea)) : Variables :=
  match op with
  | .set varName value => vars.assign varName value ended
  | .setInExpr varName value => vars.assign varName value ended
  | .setForPl varName value => vars.assign varName value ended
  | .clear => fun _ => none
  | .get _ => vars
  | .byteaOutput _ => vars

/-- The states after operations, with the map beside them and any memory of new entries; `none` after a
crash. -/
inductive Reaches : List Op → Option (State × Variables) → Prop
  | start (bytea_output : ByteaOutput) : Reaches [] (some (⟨bytea_output, none⟩, fun _ => none))
  | perform {before : List Op} {s : State} {vars : Variables} (reached : Reaches before (some (s, vars))) (op : Op)
      (fresh : Item) :
      Reaches (before ++ [op]) ((perform fresh s op).map fun (s', ended) => (s', vars.after op ended))

/-- Every read gives what the map holds, and an entry that is not NULL has a
value. -/
structure Mirrors (s : State) (vars : Variables) : Prop where
  reads : ∀ name, ∃ s' value, mysGetUserVarValueInternal s name = some (s', .ok value) ∧
    value.map (fun b => (b.data, b.isDigit)) = vars name
  valid : ∀ key item, s.table key = some item → item.isnull = false → item.varValue.isSome

def Faithful (run : List Op) : Prop :=
  ∀ before, before <+: run → ∀ state, Reaches before state → ∃ s vars, state = some (s, vars) ∧ Mirrors s vars

def State.HoldsNull (s : State) (name : Name) : Prop := ∃ item, s.table name.key = some item ∧ item.isnull = true

/-- A stored value goes to a name below 63 bytes; a refused one meets a NULL entry. -/
def State.Takes (s : State) (name : Name) (d : Datum) : Prop :=
  (d.value.Storable s.bytea_output ∧ name.1.length < 63) ∨ (¬ d.value.Storable s.bytea_output ∧ s.HoldsNull name)

def State.CarefulSet (s : State) (name : Name) : Option Datum → Prop
  | none => True
  | some d => (∃ message, d.value.output s.bytea_output = .error message) ∨ s.Takes name d

def State.Careful (s : State) : Op → Prop
  | .set name value => s.CarefulSet name value
  | .setInExpr name value => s.CarefulSet name value
  | .setForPl name (some d) => s.Takes name d
  | .setForPl _ none => True
  | .get _ => True
  | .clear => True
  | .byteaOutput _ => True

def Item.reading : Option Item → Option (Bytes × Bool)
  | some ⟨some v, false⟩ => some (v.data, v.isDigit)
  | some ⟨none, false⟩ => none
  | some ⟨_, true⟩ => none
  | none => none

def State.Valid (s : State) : Prop := ∀ key item, s.table key = some item → item.isnull = false → item.varValue.isSome

theorem extend_isDigit (data : Bytes) (isDigit : Bool) : (Bytea.mk data (extend isDigit)).isDigit = isDigit := by
  cases isDigit <;> rfl

variable {s : State} {vars : Variables} {d : Datum}

theorem mysGetUserVarValueInternal_reading (valid : s.Valid) (name : Name) :
    ∃ value, mysGetUserVarValueInternal s name = some ({ s with mysql_user_variables := some s.table }, .ok value) ∧
      value.map (fun b => (b.data, b.isDigit)) = Item.reading (s.table name.key) := by
  unfold mysGetUserVarValueInternal
  split
  next varValue entry =>
    obtain ⟨v, present⟩ := Option.isSome_iff_exists.mp (valid _ _ entry rfl)
    subst present
    refine ⟨some (copyUserVarValue v), rfl, ?_⟩
    rw [entry, Item.reading, Option.map_some, copyUserVarValue, extend_isDigit]
  next entry =>
    rw [entry]
    exact ⟨none, rfl, by simp only [Item.reading, Option.map_none]⟩
  next entry =>
    rw [entry]
    exact ⟨none, rfl, rfl⟩

theorem mirrors_iff : Mirrors s vars ↔ s.Valid ∧ ∀ name : Name, Item.reading (s.table name.key) = vars name := by
  constructor
  · intro mirrors
    refine ⟨mirrors.valid, fun name => ?_⟩
    obtain ⟨s', value, read, agrees⟩ := mirrors.reads name
    obtain ⟨value', read', reading⟩ := mysGetUserVarValueInternal_reading mirrors.valid name
    rw [read] at read'
    cases read'
    exact reading.symm.trans agrees
  · rintro ⟨valid, readings⟩
    refine ⟨fun name => ?_, valid⟩
    obtain ⟨value, read, reading⟩ := mysGetUserVarValueInternal_reading valid name
    exact ⟨_, value, read, reading.trans (readings name)⟩

theorem Mirrors.congr {s s' : State} (mirrors : Mirrors s' vars) (table : s.table = s'.table) : Mirrors s vars := by
  obtain ⟨valid, readings⟩ := mirrors_iff.mp mirrors
  unfold State.Valid at valid
  rw [← table] at valid readings
  exact mirrors_iff.mpr ⟨valid, readings⟩

theorem sibling (long : 63 ≤ name.1.length) :
    ∃ other : Name, other ≠ name ∧ other.key = name.key ∧ 63 ≤ other.1.length := by
  obtain ⟨bytes, short, text⟩ := name
  dsimp only at long
  rcases Nat.lt_or_ge bytes.length 64 with exact63 | exact64
  · have length : bytes.length = 63 := by omega
    have proper : (bytes ++ [97]).length ≤ 64 ∧ 0 ∉ bytes ++ [97] := by
      rw [length_append, length]
      exact ⟨Nat.le_refl 64, by simp [text]⟩
    refine ⟨⟨bytes ++ [97], proper⟩, ?_, ?_, ?_⟩
    · intro same
      have lengths := congrArg (fun n : Name => n.1.length) same
      simp at lengths
    · simp [Name.key, take_append_of_le_length (by omega : 63 ≤ bytes.length)]
    · rw [length_append]
      omega
  · have proper : (bytes.take 63).length ≤ 64 ∧ 0 ∉ bytes.take 63 :=
      ⟨by rw [length_take]; omega, fun member => text (mem_of_mem_take member)⟩
    refine ⟨⟨bytes.take 63, proper⟩, ?_, ?_, ?_⟩
    · intro same
      have lengths := congrArg (fun n : Name => n.1.length) same
      simp only [length_take] at lengths
      omega
    · simp [Name.key]
    · rw [length_take]
      omega

theorem key_injective {other : Name} (short : name.1.length < 63) (same : other.key = name.key) : other = name := by
  have lengths := congrArg List.length same
  simp only [Name.key, length_take] at lengths
  apply Subtype.ext
  rw [Name.key, Name.key, take_of_length_le (by omega), take_of_length_le (by omega)] at same
  exact same

/-- The variables mirror the map, and the names that share their keys are all
NULL. -/
structure Sound (s : State) (vars : Variables) : Prop where
  mirrors : Mirrors s vars
  long : ∀ name : Name, 63 ≤ name.1.length → vars name = none

theorem Sound.congr {s' : State} (sound : Sound s vars) (table : s'.table = s.table) : Sound s' vars :=
  ⟨sound.mirrors.congr table, sound.long⟩

theorem Sound.start (bytea_output : ByteaOutput) : Sound ⟨bytea_output, none⟩ fun _ => none := by
  refine ⟨mirrors_iff.mpr ⟨?_, fun name => rfl⟩, fun name _ => rfl⟩
  intro key item found
  cases found

theorem table_store (s : State) (name : Name) (item : Item) :
    (s.store name item).table = Function.update s.table name.key (some item) := rfl

theorem Sound.store (sound : Sound s vars) {item : Item} {value : Option (Bytes × Bool)}
    (reading : Item.reading (some item) = value) (valid : item.isnull = false → item.varValue.isSome)
    (short : value = none ∨ name.1.length < 63) : Sound (s.store name item) (Function.update vars name value) := by
  obtain ⟨validAll, readings⟩ := mirrors_iff.mp sound.mirrors
  have long : ∀ other : Name, 63 ≤ other.1.length → Function.update vars name value other = none := by
    intro other isLong
    by_cases same : other = name
    · subst same
      rw [Function.update_self]
      exact short.resolve_right (by omega)
    · rw [Function.update_of_ne same]
      exact sound.long other isLong
  refine ⟨mirrors_iff.mpr ⟨?_, ?_⟩, long⟩
  · intro key entry found
    rw [table_store] at found
    by_cases same : key = name.key
    · subst same
      rw [Function.update_self] at found
      cases found
      exact valid
    · rw [Function.update_of_ne same] at found
      exact validAll key entry found
  · intro other
    rw [table_store]
    by_cases same : other.key = name.key
    · rw [same, Function.update_self, reading]
      rcases short with rfl | short
      · by_cases self : other = name
        · rw [self, Function.update_self]
        · have isLong : 63 ≤ other.1.length := by
            by_contra isShort
            exact self (key_injective (by omega) same.symm).symm
          rw [Function.update_of_ne self, sound.long other isLong]
      · rw [key_injective short same, Function.update_self]
    · have different : other ≠ name := fun self => same (congrArg Name.key self)
      rw [Function.update_of_ne same, Function.update_of_ne different]
      exact readings other

theorem Sound.valid (sound : Sound s vars) : s.Valid := sound.mirrors.valid

theorem enterUserVar_some (valid : s.Valid) (fresh : Item) (name : Name) :
    (∃ item, s.table name.key = some item ∧ item.isnull = true ∧ enterUserVar fresh s name = some item) ∨
      (s.table name.key = none ∧ enterUserVar fresh s name = some fresh) ∨
      ((∃ v, s.table name.key = some ⟨some v, false⟩) ∧ enterUserVar fresh s name = some ⟨none, false⟩) := by
  unfold enterUserVar
  split
  next v entry => exact .inr (.inr ⟨⟨v, entry⟩, rfl⟩)
  next entry => exact absurd (valid _ _ entry rfl) (by simp)
  next varValue entry => exact .inl ⟨_, entry, rfl, rfl⟩
  next entry => exact .inr (.inl ⟨entry, rfl⟩)

theorem enterUserVar_isSome (valid : s.Valid) (fresh : Item) (name : Name) :
    ∃ entry, enterUserVar fresh s name = some entry := by
  obtain ⟨_, _, _, entered⟩ | ⟨_, entered⟩ | ⟨_, entered⟩ := enterUserVar_some valid fresh name <;> exact ⟨_, entered⟩

/-- The call ends, and the variables mirror the map, with the assignment if it succeeded. -/
def Settles {α : Type} (vars : Variables) (name : Name) (value : Option Datum) (c : Call α) : Prop :=
  ∃ s' ended, c = some (s', ended) ∧ Sound s' (vars.assign name value ended)

theorem setUserVar_null (sound : Sound s vars) (fresh : Item) (name : Name) :
    Settles vars name none (setUserVar fresh s name none) := by
  obtain ⟨entry, entered⟩ := enterUserVar_isSome sound.valid fresh name
  refine ⟨_, .ok (), by rw [setUserVar, entered]; rfl, ?_⟩
  exact sound.store (by simp only [Item.reading]; rfl) (by simp) (.inl rfl)

theorem setUserVar_takes (sound : Sound s vars) (fresh : Item) (takes : s.Takes name d) :
    Settles vars name (some d) (setUserVar fresh s name (some (d.stored s.bytea_output))) := by
  rcases takes with ⟨storable, short⟩ | ⟨refused, item, entry, isnull⟩
  · obtain ⟨old, entered⟩ := enterUserVar_isSome sound.valid fresh name
    refine ⟨_, .ok (), by rw [setUserVar, entered, stored_ok storable]; rfl, ?_⟩
    refine sound.store ?_ (fun _ => rfl) (.inr short)
    rw [Item.reading, extend_isDigit]
    rfl
  · obtain ⟨message, raised⟩ := stored_error refused
    have entered : enterUserVar fresh s name = some item := by
      obtain ⟨varValue, isnull⟩ := item
      subst isnull
      simp [enterUserVar, entry]
    refine ⟨_, .error message, by rw [setUserVar, entered, raised]; rfl, ?_⟩
    -- the entry is written back as it was
    exact sound.congr (by rw [table_store, ← entry, Function.update_eq_self])

theorem setUserVar_careless (sound : Sound s vars) (careless : ¬ s.Takes name d) :
    ∃ fresh s' ended, setUserVar fresh s name (some (d.stored s.bytea_output)) = some (s', ended) ∧
      ¬ Mirrors s' (vars.assign name (some d) ended) := by
  by_cases storable : d.value.Storable s.bytea_output
  · have long : 63 ≤ name.1.length := by
      by_contra short
      exact careless (.inl ⟨storable, by omega⟩)
    obtain ⟨other, different, key, isLong⟩ := sibling long
    obtain ⟨old, entered⟩ := enterUserVar_isSome sound.valid ⟨none, true⟩ name
    refine ⟨⟨none, true⟩, _, .ok (), by rw [setUserVar, entered, stored_ok storable]; rfl, ?_⟩
    intro mirrors
    have reading := (mirrors_iff.mp mirrors).2 other
    rw [table_store, key, Function.update_self, Variables.assign, Function.update_of_ne different,
      sound.long other isLong] at reading
    cases reading
  · obtain ⟨message, raised⟩ := stored_error storable
    have entered : enterUserVar ⟨none, false⟩ s name = some ⟨none, false⟩ := by
      obtain ⟨item, entry, isnull, _⟩ | ⟨_, entered⟩ | ⟨_, entered⟩ := enterUserVar_some sound.valid ⟨none, false⟩ name
      · exact absurd (.inr ⟨storable, item, entry, isnull⟩) careless
      · exact entered
      · exact entered
    refine ⟨⟨none, false⟩, _, .error message, by rw [setUserVar, entered, raised]; rfl, ?_⟩
    intro mirrors
    have present := mirrors.valid name.key ⟨none, false⟩ (by rw [table_store, Function.update_self]) rfl
    cases present

theorem assign_map {α β : Type} (vars : Variables) (name : Name) (value : Option Datum) (ended : Except String α)
    (f : α → β) : vars.assign name value (ended.map f) = vars.assign name value ended := by
  cases ended <;> rfl

theorem mysSetUserVar_raised {message : String} (raised : d.value.output s.bytea_output = .error message) (fresh : Item)
    (name : Name) : mysSetUserVar fresh s name (some d) = some (s, .error message) := by
  simp [mysSetUserVar, raised]

theorem mysSetUserVar_output {varValue : Bytes} (output : d.value.output s.bytea_output = .ok varValue) (fresh : Item)
    (name : Name) : mysSetUserVar fresh s name (some d) = setUserVar fresh s name (some (d.stored s.bytea_output)) := by
  have stored := stored_output output d.declared
  simp only [mysSetUserVar, output, mysSetUserVarInternal, Option.map_some, ← stored]

theorem mysSetUserVar_settles (sound : Sound s vars) (fresh : Item)
    (careful : s.CarefulSet name value) : Settles vars name value (mysSetUserVar fresh s name value) := by
  cases value with
  | none => exact setUserVar_null sound fresh name
  | some d =>
    cases output : d.value.output s.bytea_output with
    | error message =>
      rw [mysSetUserVar_raised output]
      exact ⟨s, _, rfl, sound⟩
    | ok varValue =>
      rw [mysSetUserVar_output output]
      rcases careful with ⟨message, raised⟩ | takes
      · cases output.symm.trans raised
      · exact setUserVar_takes sound fresh takes

theorem Settles.silent {c : Call Unit} (settles : Settles vars name value c) :
    ∃ s' ended, c.map (fun (s, ended) => (s, ended.map fun _ => (none : Option Bytea))) = some (s', ended) ∧
      Sound s' (vars.assign name value ended) := by
  obtain ⟨s', ended, rfl, kept⟩ := settles
  refine ⟨s', _, rfl, ?_⟩
  rw [assign_map]
  exact kept

theorem perform_careful (sound : Sound s vars) (careful : s.Careful op) (fresh : Item) :
    ∃ s' ended, perform fresh s op = some (s', ended) ∧ Sound s' (vars.after op ended) := by
  have table (s : State) : State.table { s with mysql_user_variables := some s.table } = s.table := rfl
  cases op with
  | byteaOutput bytea_output => exact ⟨_, _, rfl, sound.congr rfl⟩
  | set name value => exact (mysSetUserVar_settles sound fresh careful).silent
  | setInExpr name value =>
    obtain ⟨s', ended, called, kept⟩ := mysSetUserVar_settles sound fresh careful
    cases ended with
    | error message => exact ⟨s', .error message, by rw [perform, mysSetUserVarInExpr, called]; rfl, kept⟩
    | ok =>
      obtain ⟨result, read, _⟩ := mysGetUserVarValueInternal_reading kept.valid name
      refine ⟨_, .ok result, ?_, kept.congr (table s')⟩
      rw [perform, mysSetUserVarInExpr, called]
      exact read
  | setForPl name value =>
    cases value with
    | none => exact (setUserVar_null sound fresh name).silent
    | some d => exact (setUserVar_takes sound fresh careful).silent
  | get name =>
    obtain ⟨result, read, _⟩ := mysGetUserVarValueInternal_reading sound.valid name
    exact ⟨_, .ok result, read, sound.congr (table s)⟩
  | clear => exact ⟨_, _, rfl, .start s.bytea_output⟩

theorem mysGetUserVarValueInternal_table {s s' : State} {ended : Except String (Option Bytea)}
    (called : mysGetUserVarValueInternal s name = some (s', ended)) : s'.table = s.table ∧
    ∃ value, ended = .ok value := by
  unfold mysGetUserVarValueInternal at called
  split at called
  next varValue _ =>
    obtain ⟨v, _, result⟩ := Option.map_eq_some_iff.mp called
    cases result
    exact ⟨rfl, _, rfl⟩
  next =>
    cases called
    exact ⟨rfl, _, rfl⟩
  next =>
    cases called
    exact ⟨rfl, _, rfl⟩

theorem mysSetUserVar_careless (sound : Sound s vars)
    (careless : ¬ s.CarefulSet name value) :
    ∃ fresh s' ended, mysSetUserVar fresh s name value = some (s', ended) ∧
      ¬ Mirrors s' (vars.assign name value ended) := by
  cases value with
  | none => exact absurd trivial careless
  | some d =>
    obtain ⟨written, untaken⟩ := not_or.mp careless
    obtain ⟨fresh, lost⟩ := setUserVar_careless sound untaken
    refine ⟨fresh, ?_⟩
    cases output : d.value.output s.bytea_output with
    | error message => exact absurd ⟨message, output⟩ written
    | ok varValue =>
      rw [mysSetUserVar_output output]
      exact lost

theorem perform_careless (sound : Sound s vars) (careless : ¬ s.Careful op) :
    ∃ fresh, ∀ s' ended, perform fresh s op = some (s', ended) → ¬ Mirrors s' (vars.after op ended) := by
  cases op with
  | byteaOutput | get | clear => exact absurd trivial careless
  | set name value =>
    obtain ⟨fresh, s', ended, called, lost⟩ := mysSetUserVar_careless sound careless
    refine ⟨fresh, fun s'' ended' performed mirrors => lost ?_⟩
    rw [perform, called] at performed
    cases performed
    rwa [Variables.after, assign_map] at mirrors
  | setInExpr name value =>
    obtain ⟨fresh, s', ended, called, lost⟩ := mysSetUserVar_careless sound careless
    refine ⟨fresh, fun s'' ended' performed mirrors => lost ?_⟩
    rw [perform, mysSetUserVarInExpr, called] at performed
    cases ended with
    | error message =>
      cases performed
      exact mirrors
    | ok =>
      obtain ⟨table, value, returned⟩ := mysGetUserVarValueInternal_table performed
      subst returned
      exact mirrors.congr table.symm
  | setForPl name value =>
    cases value with
    | none => exact absurd trivial careless
    | some d =>
      obtain ⟨fresh, s', ended, called, lost⟩ := setUserVar_careless sound careless
      refine ⟨fresh, fun s'' ended' performed mirrors => lost ?_⟩
      have called' : mysSetUserVarForPl fresh s name (some d) = some (s', ended) := called
      rw [perform, called'] at performed
      cases performed
      rwa [Variables.after, assign_map] at mirrors

theorem Reaches.sound {before : List Op} {state : Option (State × Variables)} (reached : Reaches before state)
    (careful : ∀ earlier op, earlier ++ [op] <+: before → ∀ s vars, Reaches earlier (some (s, vars)) → Sound s vars →
      s.Careful op) : ∃ s vars, state = some (s, vars) ∧ Sound s vars := by
  induction reached with
  | start bytea_output => exact ⟨_, _, rfl, Sound.start bytea_output⟩
  | @perform before s vars reached op fresh ih =>
    obtain ⟨s', vars', same, sound⟩ := ih fun earlier op initial =>
      careful earlier op (initial.trans (prefix_append before _))
    cases same
    obtain ⟨s', ended, performed, kept⟩ :=
      perform_careful sound (careful before op prefix_rfl s vars reached sound) fresh
    exact ⟨s', _, by rw [performed]; rfl, kept⟩

theorem Faithful.careful {run : List Op} (faithful : Faithful run) {before : List Op}
    (initial : before ++ [op] <+: run) (reached : Reaches before (some (s, vars)))
    (sound : Sound s vars) : s.Careful op := by
  by_contra careless
  obtain ⟨fresh, lost⟩ := perform_careless sound careless
  obtain ⟨s', vars', same, mirrors⟩ := faithful _ initial _ (.perform reached op fresh)
  obtain ⟨⟨s'', ended⟩, performed, result⟩ := Option.map_eq_some_iff.mp same
  cases result
  exact lost s' ended performed mirrors

/-- The user variables are a map of names to values, at every point of a run, exactly if every
assignment stores its value under a name of less than 63 bytes, or fails at an entry that is NULL, or
before it reaches the table. -/
theorem user_variables_map_iff (run : List Op) :
    Faithful run ↔
      ∀ before op, before ++ [op] <+: run → ∀ s vars, Reaches before (some (s, vars)) → s.Careful op := by
  constructor
  · intro faithful before op initial s vars reached
    obtain ⟨s', vars', same, sound⟩ := reached.sound fun earlier op' within s vars reached sound =>
      faithful.careful ((within.trans (prefix_append before [op])).trans initial) reached sound
    cases same
    exact faithful.careful initial reached sound
  · intro careful before initial state reached
    obtain ⟨s, vars, same, sound⟩ := reached.sound fun earlier op within s vars reached _ =>
      careful earlier op (within.trans initial) s vars reached
    exact ⟨s, vars, same, sound.mirrors⟩

def sampleName : Name := ⟨ascii "a", by decide⟩

def longName (c : UInt8) (text : c ≠ 0) : Name :=
  ⟨List.replicate 63 97 ++ [c], by simp, by simp [text.symm]⟩

def sampleText : Datum := ⟨.other (.ok (ascii "x")), .category 83⟩

/-- A failed assignment destroys the old value, and a value is read under another name. -/
theorem user_variables_lose_values :
    (∃ s vars, Reaches [.set sampleName (some sampleText), .byteaOutput .BYTEA_OUTPUT_ESCAPE,
        .set sampleName (some ⟨.bytea (ascii "y"), .BYTEAOID 0⟩)] (some (s, vars)) ∧
      vars sampleName = some (ascii "x", false) ∧ mysGetUserVarValueInternal s sampleName = none) ∧
    ∃ s vars, Reaches [.set (longName 98 (by decide)) (some sampleText)] (some (s, vars)) ∧
      vars (longName 99 (by decide)) = none ∧
      (mysGetUserVarValueInternal s (longName 99 (by decide))).map (·.2) = some (.ok (some ⟨ascii "x", 0⟩)) := by
  have first := Reaches.perform (.start .BYTEA_OUTPUT_HEX) (.set sampleName (some sampleText)) ⟨none, true⟩
  have second := Reaches.perform first (.byteaOutput .BYTEA_OUTPUT_ESCAPE) ⟨none, true⟩
  have third := Reaches.perform second (.set sampleName (some ⟨.bytea (ascii "y"), .BYTEAOID 0⟩)) ⟨none, true⟩
  have long :=
    Reaches.perform (.start .BYTEA_OUTPUT_HEX) (.set (longName 98 (by decide)) (some sampleText)) ⟨none, true⟩
  exact ⟨⟨_, _, third, rfl, rfl⟩, _, _, long, rfl, rfl⟩

end OpenHalo.UserVar
