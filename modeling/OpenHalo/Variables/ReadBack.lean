import Mathlib.Data.List.Infix
import OpenHalo.Variables.SetAtomic

namespace OpenHalo.SysVars
open Octets Process List

variable {s s' t : State} {v : SystemVar} {c k : Bytes} {ops : List Op} {trace : List State}

/-- The name of a variable, which fits the key of the tables. -/
abbrev VarName := { name : Bytes // 0 ∉ name ∧ name.length < SYSTEM_VAR_NAME_MAX_LEN }

def VarName.lowered (name : VarName) : Bytes := lowerSystemVarName name.1

def State.table (s : State) : Bool → Table
  | true => s.session
  | false => s.globalSystemVars

inductive Action
  | set (name : VarName) (value : Option Bytes) (isSession : Bool)
  | get (name : VarName) (isSession : Bool) (reading : Reading)

structure Op where
  env : Env
  action : Action

def Op.perform (op : Op) : Proc (Option Bytes) :=
  match op.action with
  | .set name value isSession => do
    setSystemVariableValue op.env (some name.1) value isSession
    pure none
  | .get name isSession reading => getSystemVariableValue op.env (some name.1) isSession reading

/-- The operations succeed in turn; `trace` has the states they start from and leave. -/
inductive Succeeds (start : State) : List Op → List State → State → Prop
  | start (free : start.locked = false) : Succeeds start [] [start] start
  | perform {ops : List Op} {trace : List State} {s s' : State} {op : Op} {value : Option Bytes}
      (before : Succeeds start ops trace s) (performed : op.perform s = .ok value s') :
      Succeeds start (ops ++ [op]) (trace ++ [s']) s'

def firstEntry (trace : List State) (isSession : Bool) (name : Bytes) : Option SystemVar :=
  trace.findSome? fun s => s.table isSession name

def Op.sets (op : Op) (isSession : Bool) (name : Bytes) : Option Bytes :=
  match op.action with
  | .set name' value isSession' => if isSession' = isSession ∧ name'.lowered = name then value else none
  | .get _ _ _ => none

def lastSet (ops : List Op) (isSession : Bool) (name : Bytes) : Option Bytes :=
  ops.reverse.findSome? fun op => op.sets isSession name

/-- A value under the rules of a variable: itself, or the result shown as the value. -/
def SystemVar.canonical (v : SystemVar) (value : Bytes) : Option Bytes :=
  if v.result = [] then some value else matchResult value v.shown 0 v.result

/-- A variable with the last value set, in canonical form, or its initial one. -/
def current (ops : List Op) (trace : List State) (isSession : Bool) (name : Bytes) (v : SystemVar) : SystemVar :=
  match (lastSet ops isSession name).bind fun value => (firstEntry trace true name).bind fun w => w.canonical value with
  | some value => { v with varConfValue := value }
  | none => v

/-- Neither `optimizer_switch` nor DEFAULT. -/
def Op.Plain (op : Op) : Prop :=
  match op.action with
  | .set name value _ => startsWith name.lowered (ascii "optimizer_switch") = false ∧ ∀ v ∈ value, isDefault v = false
  | .get _ _ _ => True

structure Kept (t : State) (name value : Bytes) (isSession : Bool) : Prop where
  /-- The variable is in the table already. -/
  present : (t.table isSession name).isSome = true
  /-- The size of the query cache is in whole megabytes. -/
  whole : startsWith name (ascii "query_cache_size") = true →
    queryCacheSize value = .ok value ∧ ∃ w, t.session name = some w ∧ w.result = []
  /-- The value fits the variable. -/
  short : ∀ w c, t.session name = some w → w.canonical value = some c → c.length < SYSTEM_VAR_VALUE_MAX_LEN
  /-- The session has no copy that is set as well. -/
  single : isSession = false → ∀ v, t.globalSystemVars name = some v → v.copied = false

/-- The state a call starts from: the tables are made when they are first
needed. -/
def opened (env : Env) (s : State) : State :=
  match needSystemVariables env s with
  | .ok _ t => t
  | .error _ _ => s

def Op.Careful (op : Op) (s : State) : Prop :=
  match op.action with
  | .set name value isSession => ∃ v, value = some v ∧ Kept (opened op.env s) name.lowered v isSession
  | .get _ _ _ => True

theorem key_lowered (name : VarName) : key name.lowered = name.lowered := by
  rw [key, take_of_length_le]
  rw [VarName.lowered, lowerSystemVarName, length_map]
  omega

theorem text_lowered (name : VarName) : 0 ∉ name.lowered := lowerSystemVarName_text name.2.1

def Grows (s t : State) : Prop := ∀ isSession k v, s.table isSession k = some v → t.table isSession k = some v

theorem Grows.rfl : Grows s s := fun _ _ _ => id

theorem Grows.trans {u : State} (first : Grows s t) (second : Grows t u) : Grows s u :=
  fun isSession k v found => second isSession k v (first isSession k v found)

variable {env : Env} {table : Table} {w : SystemVar} {name : VarName} {isSession : Bool} {value : Bytes}

theorem enter_grows (found : table k = some w) : enter env table v k = some w := by
  rw [enter]
  cases present : table (key v.varName) with
  | some entry => exact found
  | none =>
    have other : k ≠ key v.varName := by
      intro same
      rw [same, present] at found
      cases found
    dsimp only
    rw [Function.update_of_ne other, found]

theorem enter_missing (missing : table (key v.varName) = none) :
    enter env table v (key v.varName) = some (copySystemVar env v) := by
  rw [enter, missing]
  exact Function.update_self _ _ _

theorem foldl_enter_grows (vars : List SystemVar) (found : table k = some w) :
    vars.foldl (enter env) table k = some w := by
  induction vars generalizing table with
  | nil => exact found
  | cons v vars ih => exact ih (enter_grows found)

theorem added_grows (env : Env) (v : SystemVar) (s : State) : Grows s (s.added env v) := by
  intro isSession k w found
  cases isSession <;> exact enter_grows found

theorem initSystemVariables_global (env : Env) (k : Bytes) (v : SystemVar) :
    Keeps (fun s : State => s.globalSystemVars k = some v) (initSystemVariables env) := by
  have lock : Keeps (fun s : State => s.globalSystemVars k = some v) lockGlobalSystemVars := by
    refine Keeps.get.bind fun s => ?_
    split
    · exact Keeps.throw _
    · exact Keeps.modify fun _ => id
  have global : Keeps (fun s : State => s.globalSystemVars k = some v) (initGlobalSystemVars env) := by
    refine Keeps.modify fun s found => ?_
    split
    · exact found
    · exact foldl_enter_grows _ (enter_grows found)
  have session : Keeps (fun s : State => s.globalSystemVars k = some v) (initSessionSystemVars env) := by
    have reset : Keeps (fun s : State => s.globalSystemVars k = some v)
        (modify fun s : State => { s with sessionSystemVars := some fun _ => none } : Proc Unit) := fun _ => id
    refine reset.bind fun _ => Keeps.get.bind fun s => ?_
    exact keeps_addSessionSystemVars (fun _ _ => id) (fun _ _ => id) env _
  refine (keeps_initBaseSystemVars (fun _ _ => id) env).bind fun _ => lock.bind fun _ => global.bind fun _ => ?_
  exact session.bind fun _ _ => id

theorem needSystemVariables_grows (made : needSystemVariables env s = .ok () t) :
    Grows s t ∧ t.sessionSystemVars.isSome = true := by
  rw [needSystemVariables, get_bind] at made
  cases tables : s.sessionSystemVars with
  | some table =>
    rw [tables] at made
    cases made
    exact ⟨.rfl, by rw [tables]; rfl⟩
  | none =>
    rw [tables] at made
    refine ⟨?_, (initSystemVariables_made made).2⟩
    intro isSession k v found
    cases isSession with
    | true =>
      rw [State.table, State.session, tables] at found
      cases found
    | false => exact (initSystemVariables_global env k v).ok found made

theorem findOrAdd_ok (isSession : Bool) {place : Place} {found : Option (Place × SystemVar)}
    (returned : findOrAdd env (fun s => s.table isSession (key name.lowered)) place name.lowered s = .ok found s') :
    Grows s s' ∧ s'.locked = s.locked ∧ (s.sessionSystemVars.isSome = true → s'.sessionSystemVars.isSome = true) ∧
      ∀ pair ∈ found, ∃ w, s'.table isSession name.lowered = some w ∧
        ∀ reading, getConfValue w reading = getConfValue pair.2 reading ∧
        w.sessionGlobalType = pair.2.sessionGlobalType := by
  rw [key_lowered] at returned
  cases entry : s.table isSession name.lowered with
  | some v =>
    rw [findOrAdd_found entry] at returned
    cases returned
    refine ⟨.rfl, rfl, id, ?_⟩
    rintro pair ⟨⟩
    exact ⟨v, entry, fun _ => ⟨rfl, rfl⟩⟩
  | none =>
    obtain ⟨message, _, result⟩ | ⟨rows, _, _, result⟩ | ⟨rows, v, settings, read, _, valid, added⟩ :=
      findOrAdd_cases env (fun s => s.table isSession name.lowered) place name.lowered entry
    · rw [result] at returned
      cases returned
    · rw [result] at returned
      cases returned
      exact ⟨.rfl, rfl, id, fun pair member => by cases member⟩
    · have grown : Grows s { s.added env v with settings := settings } := added_grows env v s
      have stored : State.table { s.added env v with settings := settings } isSession name.lowered =
          some (copySystemVar env v) := by
        have keyed := initBaseSystemVar_key (text_lowered name) (lowerSystemVarName_lower name.1) valid
        rw [key_lowered] at keyed
        rw [← keyed] at entry ⊢
        cases isSession <;> exact enter_missing entry
      obtain ⟨index, result⟩ | ⟨failure, result⟩ := added
      · rw [result] at returned
        cases returned
        refine ⟨grown, rfl, fun _ => rfl, ?_⟩
        rintro pair ⟨⟩
        exact ⟨_, stored, fun reading => ⟨by cases reading <;> rfl, rfl⟩⟩
      · rw [result] at returned
        cases returned

theorem getSystemVariableValue_ok {reading : Reading} {value : Option Bytes} (free : s.locked = false)
    (returned : getSystemVariableValue env (some name.1) isSession reading s = .ok value s') :
    Grows s s' ∧ s'.locked = false ∧ ∃ v, s'.table isSession name.lowered = some v ∧
      value = getConfValue v reading := by
  obtain ⟨_, t, made, returned⟩ := bind_eq_ok returned
  obtain ⟨grown, _⟩ := needSystemVariables_grows made
  have free' := needSystemVariables_free free made
  cases isSession with
  | true =>
    obtain ⟨found, u, searched, returned⟩ := bind_eq_ok returned
    obtain ⟨more, unlocked, _, entries⟩ := findOrAdd_ok true searched
    cases found with
    | none => cases returned
    | some pair =>
      cases returned
      obtain ⟨w, stored, same⟩ := entries pair rfl
      exact ⟨grown.trans more, unlocked.trans free', w, stored, (same reading).1.symm⟩
  | false =>
    obtain ⟨_, t', locked, returned⟩ := bind_eq_ok returned
    rw [lockGlobalSystemVars_free free'] at locked
    cases locked
    obtain ⟨found, u, searched, returned⟩ := bind_eq_ok returned
    obtain ⟨more, _, _, entries⟩ := findOrAdd_ok false searched
    cases found with
    | none => cases returned
    | some pair =>
      obtain ⟨w, stored, same⟩ := entries pair rfl
      obtain ⟨_, _, unlocked, returned⟩ := bind_eq_ok returned
      cases unlocked
      split at returned
      · cases returned
      · cases returned
        exact ⟨fun sc k v found => more sc k v (grown sc k v found), rfl, w, stored, (same reading).1.symm⟩

theorem setSessionVariable_ok {name : Bytes}
    (plain : startsWith name (ascii "optimizer_switch") = false) (found : t.session (key name) = some v)
    (returned : setSessionVariable env name (some value) t = .ok () s') :
    s'.session = Function.update t.session (key name) (some { v with varConfValue := setSystemVarValue (some value) }) ∧
      s'.globalSystemVars = t.globalSystemVars ∧ s'.locked = t.locked := by
  rw [setSessionVariable, bind_ok (findOrAdd_found found), assignSession] at returned
  split at returned
  · split at returned
    · obtain ⟨_, u, stored, applied⟩ := bind_eq_ok returned
      rw [storeValue_eq, setSystemVarValueByVarName, plain] at stored
      cases stored
      rw [applySystemVarValue_eq] at applied
      split at applied
      · cases applied
        exact ⟨rfl, rfl, rfl⟩
      · cases applied
    · cases returned
  · cases returned

theorem setGlobalVariable_ok {name : Bytes} (free : t.locked = false)
    (plain : startsWith name (ascii "optimizer_switch") = false) (found : t.globalSystemVars (key name) = some v)
    (single : v.copied = false) (returned : setGlobalVariable env name (some value) t = .ok () s') :
    s'.globalSystemVars =
        Function.update t.globalSystemVars (key name) (some { v with varConfValue := setSystemVarValue (some value) }) ∧
      s'.sessionSystemVars = t.sessionSystemVars ∧ s'.locked = false := by
  have found' : findOrAdd env (fun s => s.globalSystemVars (key name)) (.global (key name)) name
      { t with locked := true } = .ok (some (.global (key name), v)) { t with locked := true } := findOrAdd_found found
  rw [setGlobalVariable, bind_ok (lockGlobalSystemVars_free free), bind_ok found', assignGlobal] at returned
  split at returned
  · split at returned
    · obtain ⟨_, u, stored, returned⟩ := bind_eq_ok returned
      rw [storeValue_eq, setSystemVarValueByVarName, plain] at stored
      cases stored
      rw [single] at returned
      cases returned
      exact ⟨rfl, rfl, rfl⟩
    · cases returned
  · cases returned

theorem rectified_ok {name value : Bytes} (found : table (key name) = some w)
    (whole : startsWith name (ascii "query_cache_size") = true → queryCacheSize value = .ok value ∧ w.result = [])
    (returned : rectified table name value = .ok c) : w.canonical value = some c := by
  unfold rectified at returned
  split at returned
  next isSize =>
    obtain ⟨unchanged, unruled⟩ := whole isSize
    rw [unchanged] at returned
    cases returned
    rw [SystemVar.canonical, if_pos unruled]
  next =>
    rw [found] at returned
    dsimp only at returned
    rw [SystemVar.canonical]
    split at returned
    next unruled =>
      cases returned
      rw [if_pos unruled]
    next ruled =>
      rw [if_neg ruled]
      split at returned
      next c' matched =>
        cases returned
        exact matched
      next => cases returned

theorem rectified_known (kept : Kept t name.lowered value isSession)
    (returned : rectified t.session name.lowered value = .ok c) :
    ∃ w, t.session name.lowered = some w ∧ w.canonical value = some c := by
  cases isSize : startsWith name.lowered (ascii "query_cache_size") with
  | true =>
    obtain ⟨unchanged, w, found, unruled⟩ := kept.whole isSize
    have keyed : t.session (key name.lowered) = some w := by rw [key_lowered]; exact found
    exact ⟨w, found, rectified_ok keyed (fun _ => ⟨unchanged, unruled⟩) returned⟩
  | false =>
    cases keyed : t.session (key name.lowered) with
    | none =>
      rw [rectified, isSize, keyed] at returned
      cases returned
    | some w =>
      have form := rectified_ok keyed (fun isSize' => by rw [isSize] at isSize'; cases isSize') returned
      rw [key_lowered] at keyed
      exact ⟨w, keyed, form⟩

theorem rectifySystemVarValue_ok {name : Bytes} {t' : State} {rectified' : Option Bytes}
    (given : isDefault value = false)
    (returned : rectifySystemVarValue name (some value) isSession t = .ok rectified' t') :
    t' = t ∧ ∃ c, rectified' = some c ∧ rectified t.session name value = .ok c := by
  rw [rectifySystemVarValue, given] at returned
  obtain ⟨t'', _, read, returned⟩ := bind_eq_ok returned
  cases read
  cases form : rectified t.session name value with
  | ok c =>
    rw [form] at returned
    cases returned
    exact ⟨rfl, c, rfl, rfl⟩
  | error message =>
    rw [form] at returned
    cases returned

theorem set_ok (free : s.locked = false) (plain : startsWith name.lowered (ascii "optimizer_switch") = false)
    (given : isDefault value = false) (kept : Kept (opened env s) name.lowered value isSession)
    (returned : setSystemVariableValue env (some name.1) (some value) isSession s = .ok () s') :
    ∃ t v w c, Grows s t ∧ t.table isSession name.lowered = some v ∧ t.session name.lowered = some w ∧
      w.canonical value = some c ∧ s'.locked = false ∧
      s'.table isSession = Function.update (t.table isSession) name.lowered (some { v with varConfValue := c }) ∧
      s'.table (!isSession) = t.table (!isSession) := by
  obtain ⟨_, t, made, returned⟩ := bind_eq_ok returned
  obtain ⟨grown, _⟩ := needSystemVariables_grows made
  have free' := needSystemVariables_free free made
  have start : opened env s = t := by rw [opened, made]
  rw [start] at kept
  obtain ⟨value', t', rectified', returned⟩ := bind_eq_ok returned
  obtain ⟨same, c, stored, form⟩ := rectifySystemVarValue_ok given rectified'
  subst same stored
  obtain ⟨w, known, canonical⟩ := rectified_known kept form
  obtain ⟨v, present⟩ := Option.isSome_iff_exists.mp kept.present
  have short : setSystemVarValue (some c) = c := by
    have fits := kept.short w c known canonical
    rw [setSystemVarValue, Option.getD_some, take_of_length_le]
    omega
  refine ⟨t', v, w, c, grown, present, known, canonical, ?_⟩
  cases isSession with
  | true =>
    have found : t'.session (key name.lowered) = some v := by rw [key_lowered]; exact present
    obtain ⟨session, global, locked⟩ := setSessionVariable_ok plain found returned
    rw [short, key_lowered] at session
    exact ⟨locked.trans free', session, global⟩
  | false =>
    have found : t'.globalSystemVars (key name.lowered) = some v := by rw [key_lowered]; exact present
    obtain ⟨global, session, locked⟩ := setGlobalVariable_ok free' plain found (kept.single rfl v present) returned
    rw [short, key_lowered] at global
    refine ⟨locked, global, ?_⟩
    change s'.session = t'.session
    rw [State.session, State.session, session]

structure Tracked (ops : List Op) (trace : List State) (s : State) : Prop where
  free : s.locked = false
  entries : ∀ isSession name, s.table isSession name =
    (firstEntry trace isSession name).map (current ops trace isSession name)
  /-- A value that was set has a canonical form, for a variable that is there. -/
  known : ∀ isSession name value, lastSet ops isSession name = some value →
    (firstEntry trace isSession name).isSome = true ∧ ∃ w c, firstEntry trace true name = some w ∧
    w.canonical value = some c

theorem firstEntry_append (trace : List State) (s : State) (isSession : Bool) (name : Bytes) :
    firstEntry (trace ++ [s]) isSession name = (firstEntry trace isSession name).or (s.table isSession name) := by
  simp [firstEntry]

theorem lastSet_append (ops : List Op) (op : Op) (isSession : Bool) (name : Bytes) :
    lastSet (ops ++ [op]) isSession name = (op.sets isSession name).or (lastSet ops isSession name) := by
  rw [lastSet, reverse_append, reverse_singleton, singleton_append, List.findSome?_cons]
  cases op.sets isSession name <;> rfl

theorem current_canonical (ops : List Op) (trace : List State) (isSession : Bool) (name : Bytes) (v : SystemVar) :
    (current ops trace isSession name v).canonical = v.canonical := by
  unfold current
  split <;> rfl

theorem current_unset {name : Bytes} (unset : lastSet ops isSession name = none) (trace : List State)
    (v : SystemVar) : current ops trace isSession name v = v := by
  rw [current, unset]
  rfl

theorem current_set {name value : Bytes} (last : lastSet ops isSession name = some value)
    (first : firstEntry trace true name = some w) (form : w.canonical value = some c) (v : SystemVar) :
    current ops trace isSession name v = { v with varConfValue := c } := by
  rw [current, last, first, Option.bind_some, Option.bind_some, form]

theorem firstEntry_kept {name : Bytes} (first : firstEntry trace isSession name = some v)
    (s : State) : firstEntry (trace ++ [s]) isSession name = some v := by
  rw [firstEntry_append, first, Option.some_or]

section Step

variable {ops : List Op} {trace : List State} {s s' : State} {op : Op} (tracked : Tracked ops trace s)

include tracked

variable {isSession : Bool}

theorem Tracked.entry_kept {name : Bytes} (unset : lastSet (ops ++ [op]) isSession name = lastSet ops isSession name)
    (grown : ∀ v, s.table isSession name = some v → s'.table isSession name = some v) :
    s'.table isSession name =
      (firstEntry (trace ++ [s']) isSession name).map (current (ops ++ [op]) (trace ++ [s']) isSession name) := by
  have entry := tracked.entries isSession name
  cases first : firstEntry trace isSession name with
  | some v =>
    rw [first] at entry
    rw [grown _ entry, firstEntry_kept first]
    cases last : lastSet ops isSession name with
    | none => rw [Option.map_some, current_unset last, current_unset (unset.trans last)]
    | some value =>
      obtain ⟨_, w, c, known, form⟩ := tracked.known isSession name value last
      rw [Option.map_some, current_set last known form, current_set (unset.trans last) (firstEntry_kept known s') form]
  | none =>
    have never : lastSet ops isSession name = none := by
      cases last : lastSet ops isSession name with
      | none => rfl
      | some value =>
        obtain ⟨present, _⟩ := tracked.known isSession name value last
        rw [first] at present
        cases present
    rw [firstEntry_append, first, Option.none_or]
    cases s'.table isSession name with
    | none => rfl
    | some v => rw [Option.map_some, current_unset (unset.trans never)]

theorem Tracked.known_kept {name value : Bytes} (last : lastSet ops isSession name = some value) (s' : State) :
    (firstEntry (trace ++ [s']) isSession name).isSome = true ∧
      ∃ w c, firstEntry (trace ++ [s']) true name = some w ∧ w.canonical value = some c := by
  obtain ⟨present, w, c, known, form⟩ := tracked.known isSession name value last
  obtain ⟨v, first⟩ := Option.isSome_iff_exists.mp present
  refine ⟨?_, w, c, firstEntry_kept known s', form⟩
  rw [firstEntry_kept first]
  rfl

theorem Tracked.get (unset : ∀ isSession name, op.sets isSession name = none) (grown : Grows s s')
    (free : s'.locked = false) : Tracked (ops ++ [op]) (trace ++ [s']) s' := by
  have same (isSession : Bool) (name : Bytes) : lastSet (ops ++ [op]) isSession name = lastSet ops isSession name := by
    rw [lastSet_append, unset, Option.none_or]
  refine ⟨free, fun isSession name => tracked.entry_kept (same isSession name) (grown isSession name), ?_⟩
  intro isSession name value last
  exact tracked.known_kept ((same isSession name).symm.trans last) s'

theorem Tracked.set {name value : Bytes}
    (sets : ∀ isSession' name', op.sets isSession' name' =
      if isSession = isSession' ∧ name = name' then some value else none)
    (grown : Grows s t) (present : t.table isSession name = some v) (known : t.session name = some w)
    (form : w.canonical value = some c) (free : s'.locked = false)
    (table : s'.table isSession = Function.update (t.table isSession) name (some { v with varConfValue := c }))
    (other : s'.table (!isSession) = t.table (!isSession)) : Tracked (ops ++ [op]) (trace ++ [s']) s' := by
  have last : lastSet (ops ++ [op]) isSession name = some value := by
    rw [lastSet_append, sets, if_pos ⟨rfl, rfl⟩, Option.some_or]
  -- the rules of the session's entry are those of its first appearance
  have rules : ∃ w', firstEntry (trace ++ [s']) true name = some w' ∧ w'.canonical value = some c := by
    have entry := tracked.entries true name
    cases first : firstEntry trace true name with
    | some w₀ =>
      rw [first] at entry
      have same := grown true name _ entry
      rw [State.table, known] at same
      injection same with same
      refine ⟨w₀, firstEntry_kept first s', ?_⟩
      rw [same, current_canonical] at form
      exact form
    | none =>
      rw [firstEntry_append, first]
      cases isSession with
      | true =>
        have same : v = w := Option.some.inj (present.symm.trans known)
        rw [table, Function.update_self]
        exact ⟨_, rfl, by rw [same]; exact form⟩
      | false =>
        have same : s'.table true name = some w := by
          change s'.table (!false) name = some w
          rw [other]
          exact known
        exact ⟨w, same, form⟩
  obtain ⟨w', first', form'⟩ := rules
  have here : s'.table isSession name =
      (firstEntry (trace ++ [s']) isSession name).map (current (ops ++ [op]) (trace ++ [s']) isSession name) := by
    have entry := tracked.entries isSession name
    rw [firstEntry_append]
    cases first : firstEntry trace isSession name with
    | some v₀ =>
      rw [first] at entry
      have same := grown isSession name _ entry
      rw [present] at same
      injection same with same
      rw [Option.some_or, Option.map_some, current_set last first' form', table, Function.update_self, same]
      unfold current
      split <;> rfl
    | none => rw [Option.none_or, table, Function.update_self, Option.map_some, current_set last first' form']
  have elsewhere {isSession' : Bool} {name' : Bytes} (different : ¬ (isSession = isSession' ∧ name = name')) :
      lastSet (ops ++ [op]) isSession' name' = lastSet ops isSession' name' := by
    rw [lastSet_append, sets, if_neg different, Option.none_or]
  refine ⟨free, fun isSession' name' => ?_, fun isSession' name' value' last' => ?_⟩
  · by_cases same : isSession = isSession' ∧ name = name'
    · obtain ⟨rfl, rfl⟩ := same
      exact here
    · refine tracked.entry_kept (elsewhere same) fun v' found => ?_
      have old := grown isSession' name' v' found
      by_cases scope : isSession = isSession'
      · subst scope
        rw [table, Function.update_of_ne fun same' => same ⟨rfl, same'.symm⟩]
        exact old
      · have opposite : isSession' = !isSession := by
          cases isSession <;> cases isSession' <;> simp_all
        rw [opposite] at old ⊢
        rw [other]
        exact old
  · by_cases same : isSession = isSession' ∧ name = name'
    · obtain ⟨rfl, rfl⟩ := same
      cases last.symm.trans last'
      refine ⟨?_, w', c, first', form'⟩
      have entry := here
      rw [table, Function.update_self] at entry
      obtain ⟨first, isFirst, _⟩ := Option.map_eq_some_iff.mp entry.symm
      rw [isFirst]
      rfl
    · exact tracked.known_kept ((elsewhere same).symm.trans last') s'

end Step

/-- After careful operations the tables are what the last values make of the first entries. -/
theorem Succeeds.tracked {start s : State} (run : Succeeds start ops trace s)
    (plain : ∀ op ∈ ops, op.Plain)
    (careful : ∀ before op trace s, before ++ [op] <+: ops → Succeeds start before trace s → op.Careful s) :
    Tracked ops trace s := by
  induction run with
  | start free =>
    refine ⟨free, fun isSession name => ?_, fun isSession name value last => by cases last⟩
    rw [firstEntry, List.findSome?_singleton]
    cases start.table isSession name <;> rfl
  | @perform ops trace s s' op result before performed ih =>
    have tracked := ih (fun op' member => plain op' (mem_append_left _ member)) fun earlier op' trace' u within =>
      careful earlier op' trace' u (within.trans (prefix_append ops _))
    have isPlain := plain op (mem_append_right _ (mem_singleton_self op))
    have isCareful := careful ops op trace s prefix_rfl before
    obtain ⟨env, action⟩ := op
    cases action with
    | get name isSession reading =>
      obtain ⟨grown, free, _⟩ := getSystemVariableValue_ok tracked.free performed
      exact tracked.get (fun _ _ => rfl) grown free
    | set name value isSession =>
      obtain ⟨notSwitch, given⟩ := isPlain
      obtain ⟨bytes, rfl, kept⟩ := isCareful
      obtain ⟨_, u, returned, last⟩ := bind_eq_ok performed
      cases last
      obtain ⟨t, v, w, c, grown, present, known, form, free, table, other⟩ :=
        set_ok tracked.free notSwitch (given bytes rfl) kept returned
      exact tracked.set (fun _ _ => rfl) grown present known form free table other

theorem getSystemVariableValue_found (free : s.locked = false)
    (made : s.sessionSystemVars.isSome = true) (found : s.table isSession name.lowered = some v)
    (shown : isSession = false → v.sessionGlobalType ≠ .sessionOnly) (reading : Reading) :
    getSystemVariableValue env (some name.1) isSession reading s = .ok (getConfValue v reading) s := by
  have ready : needSystemVariables env s = .ok () s := by
    rw [needSystemVariables, get_bind]
    cases tables : s.sessionSystemVars with
    | none =>
      rw [tables] at made
      cases made
    | some table => rfl
  unfold getSystemVariableValue
  rw [bind_ok ready]
  rw [← key_lowered] at found
  cases isSession with
  | true =>
    have searched : findOrAdd env (fun s => s.session (key name.lowered))
        (.session (key name.lowered)) name.lowered s = _ :=
      findOrAdd_found found
    exact bind_ok searched
  | false =>
    have searched : findOrAdd env (fun s => s.globalSystemVars (key name.lowered))
        (.global (key name.lowered)) name.lowered
        { s with locked := true } = .ok (some (.global (key name.lowered), v)) { s with locked := true } :=
      findOrAdd_found found
    have unlocked : { s with locked := false } = s := by
      rw [← free]
    refine (bind_ok (lockGlobalSystemVars_free free)).trans ((bind_ok searched).trans ?_)
    rw [answerGlobal, if_neg (shown rfl)]
    change EStateM.Result.ok (getConfValue v reading) { s with locked := false } = _
    rw [unlocked]

/-- A variable reads as the last value set in its scope, in canonical form, or as it first appeared. -/
theorem system_variables_read_back {start s : State} {ops : List Op} {trace : List State}
    (run : Succeeds start ops trace s) (plain : ∀ op ∈ ops, op.Plain)
    (careful : ∀ before op trace s, before ++ [op] <+: ops → Succeeds start before trace s → op.Careful s)
    (env : Env) (name : VarName) (isSession : Bool) (reading : Reading) :
    (∀ value s', getSystemVariableValue env (some name.1) isSession reading s = .ok value s' →
      ∃ v, firstEntry (trace ++ [s']) isSession name.lowered = some v ∧
        value = getConfValue (current ops (trace ++ [s']) isSession name.lowered v) reading) ∧
    ∀ v, s.sessionSystemVars.isSome = true → firstEntry trace isSession name.lowered = some v →
      (isSession = false → v.sessionGlobalType ≠ .sessionOnly) →
      getSystemVariableValue env (some name.1) isSession reading s =
        .ok (getConfValue (current ops trace isSession name.lowered v) reading) s := by
  have tracked := run.tracked plain careful
  constructor
  · intro value s' returned
    obtain ⟨grown, free, w, found, read⟩ := getSystemVariableValue_ok tracked.free returned
    have after : Tracked (ops ++ [⟨env, .get name isSession reading⟩]) (trace ++ [s']) s' :=
      tracked.get (fun _ _ => rfl) grown free
    have entry := after.entries isSession name.lowered
    rw [found] at entry
    obtain ⟨v, first, same⟩ := Option.map_eq_some_iff.mp entry.symm
    refine ⟨v, first, ?_⟩
    rw [read, ← same, current, lastSet_append]
    rfl
  · intro v made first shown
    have entry := tracked.entries isSession name.lowered
    rw [first] at entry
    refine getSystemVariableValue_found tracked.free made entry ?_ reading
    intro global
    have kind : (current ops trace isSession name.lowered v).sessionGlobalType = v.sessionGlobalType := by
      unfold current
      split <;> rfl
    rw [kind]
    exact shown global

theorem Succeeds.start_eq {start : State} (run : Succeeds start ops trace s)
    (none : ops = []) : s = start := by
  cases run with
  | start free => rfl
  | perform before performed => exact absurd none (append_ne_nil_of_right_ne_nil _ (cons_ne_nil _ _))

def weekFormat : VarName := ⟨ascii "default_week_format", by decide⟩

def Op.sample : Op := ⟨.sample, .set weekFormat (some (ascii "3")) true⟩

theorem week_format_reads_back :
    ∃ s, Succeeds .sample [.sample] [.sample, s] s ∧
      getSystemVariableValue .sample (some (ascii "default_week_format")) true .select s =
        .ok (some (ascii "3")) s := by
  have run : Succeeds .sample [] [.sample] .sample := .start rfl
  refine ⟨_, run.perform rfl, ?_⟩
  have plain : ∀ op ∈ [Op.sample], op.Plain := forall_mem_singleton.mpr ⟨rfl, fun v same => by cases same; rfl⟩
  refine (system_variables_read_back (run.perform rfl) plain ?_ .sample weekFormat true .select).2 _ rfl rfl
    (fun global => by cases global)
  intro before op trace s (within : before ++ [op] <+: [.sample]) earlier
  have short := within.length_le
  rw [length_append, length_singleton, length_singleton] at short
  have none : before = [] := eq_nil_of_length_eq_zero (by omega)
  rw [earlier.start_eq none]
  rw [none] at within
  rw [(cons_prefix_cons.mp within).1]
  refine ⟨ascii "3", rfl, ?_⟩
  refine ⟨rfl, fun isSize => (by cases isSize), fun w c found form => ?_, fun global => (by cases global)⟩
  cases found
  cases form
  decide

def Row.sample (sess_global_type : String) : Row :=
  ⟨ascii "net_retry_count", some (ascii "10"), some (ascii "10"), some (ascii sess_global_type), some (ascii "1"),
    some (ascii "1"), none, none, none⟩

def Env.one (sess_global_type : String) : Env := { Env.sample with rows := .ok [.sample sess_global_type] }

def State.fresh (globalSystemVars : Table) : State :=
  { State.sample with sessionSystemVars := none, globalSystemVars := globalSystemVars }

def retryCount : VarName := ⟨ascii "net_retry_count", by decide⟩

/-- A late variable is set in the base array, and a global value reaches the session. -/
theorem system_variables_not_read_back :
    (∃ s s', Op.perform ⟨.one "0", .set retryCount (some (ascii "20")) false⟩
      (.fresh (enter .sample (fun _ => none) initFlag)) =
        .ok none s ∧
      Op.perform ⟨.one "0", .get retryCount false .select⟩ s = .ok (some (ascii "10")) s') ∧
    ∃ s s' s'', Op.perform ⟨.one "1", .get retryCount true .select⟩ (.fresh fun _ => none) = .ok (some (ascii "10")) s ∧
      Op.perform ⟨.one "1", .set retryCount (some (ascii "20")) false⟩ s = .ok none s' ∧
      Op.perform ⟨.one "1", .get retryCount true .select⟩ s' = .ok (some (ascii "20")) s'' := by
  constructor
  · exact ⟨_, _, rfl, rfl⟩
  · exact ⟨_, _, _, rfl, rfl, rfl⟩

end OpenHalo.SysVars
