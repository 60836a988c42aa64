import OpenHalo.Variables.SystemVar

namespace OpenHalo.SysVars
open Octets Process

variable {inv : State → Prop} {table : Table} {message value varName : Bytes} {s s' : State}

structure SetCall where
  /-- The name, which is a C string. -/
  varName : Option { name : Bytes // 0 ∉ name }
  varValue : Option Bytes
  isSessionSystemVar : Bool

def SetCall.run (call : SetCall) (env : Env) : Proc Unit :=
  setSystemVariableValue env (call.varName.map (·.1)) call.varValue call.isSessionSystemVar

/-- The settings agree but for the one that may depend on the variable. -/
structure SameBut (d : Option Derived) (a b : Settings) : Prop where
  autoCommit : d ≠ some .autocommit → b.autoCommit = a.autoCommit
  timezone : d ≠ some .timeZone → b.timezone = a.timezone
  mys_sqlMode : d ≠ some .sqlMode → b.mys_sqlMode = a.mys_sqlMode
  default_week_format : d ≠ some .weekFormat → b.default_week_format = a.default_week_format

structure Unchanged (t s : State) : Prop where
  session : s.sessionSystemVars = t.sessionSystemVars
  global : s.globalSystemVars = t.globalSystemVars
  settings : SameBut none t.settings s.settings
  free : s.locked = false

def Revalued (varName : Bytes) (table table' : Table) : Prop :=
  ∃ v value, table (key varName) = some v ∧
    table' = Function.update table (key varName) (some { v with varConfValue := value })

/-- Exactly the variable of the session has changed, and its setting. -/
structure SessionAssigned (varName : Bytes) (t s : State) : Prop where
  session : ∃ table table', t.sessionSystemVars = some table ∧ s.sessionSystemVars = some table' ∧
    Revalued varName table table'
  global : s.globalSystemVars = t.globalSystemVars
  settings : SameBut (derivedOf varName) t.settings s.settings
  free : s.locked = false

/-- Exactly the global variable has changed, with the session's copy if it is only global. -/
structure GlobalAssigned (varName : Bytes) (t s : State) : Prop where
  global : Revalued varName t.globalSystemVars s.globalSystemVars
  session : ∀ v, t.globalSystemVars (key varName) = some v →
    if v.copied then ∃ table table', t.sessionSystemVars = some table ∧ s.sessionSystemVars = some table' ∧
      Revalued varName table table'
    else s.sessionSystemVars = t.sessionSystemVars
  settings : SameBut none t.settings s.settings
  free : s.locked = false

def SetCall.Assigned (call : SetCall) (t s : State) : Prop :=
  match call.varName with
  | none => False
  | some varName =>
    if call.isSessionSystemVar then SessionAssigned (lowerSystemVarName varName.1) t s
    else GlobalAssigned (lowerSystemVarName varName.1) t s

/-- `good` in the state it returns in, `same` where it raises an error, and no crash. -/
def Ends (good same : State → Prop) : EStateM.Result Failure State Unit → Prop
  | .ok _ s => good s
  | .error (.raised _) s => same s
  | .error .crashed _ => False

/-- SET changes exactly what it names, or nothing if it ends in an error. It starts in `s`, which is `t`
once the tables are made. -/
def Atomic (env : Env) (s t : State) (call : SetCall) : Prop :=
  Ends (call.Assigned t) (Unchanged t) (call.run env s)

/-- What an item does to `optimizer_switch`: its name is missing, the new value overflows, or it takes
its place. -/
inductive Put
  | missing
  | overflow
  | done (varValue : Bytes)

def putItem (name item varValue : Bytes) : Put :=
  if name = [] then .missing
  else
    match (List.range varValue.length).find? fun k => eqNoCase name.length (varValue.drop k) name with
    | none => .missing
    | some k =>
      let next := k + ((varValue.drop k).takeWhile (· != 44)).length
      if k = 0 ∧ next = 0 then .missing
      else if SYSTEM_VAR_VALUE_MAX_LEN < k + item.length + (varValue.length - next + 1) then .overflow
      else .done (varValue.take k ++ item ++ varValue.drop next)

/-- The items of an argument with their names; `fuel` counts characters. -/
def switchItems : Nat → Bytes → List (Bytes × Bytes)
  | 0, _ => []
  | fuel + 1, rest =>
    match rest.dropWhile (· != 61) with
    | [] => []
    | _ :: tail =>
      let name := rest.takeWhile (· != 61)
      (name, name ++ 61 :: tail.takeWhile (· != 44)) :: switchItems fuel ((tail.dropWhile (· != 44)).drop 1)

/-- All items are found in turn, and what they lead to is `wanted`. -/
def InTurn (wanted : Bytes → Prop) : List (Bytes × Bytes) → Bytes → Prop
  | [], varValue => wanted varValue
  | (name, item) :: more, varValue => ∃ next, putItem name item varValue = .done next ∧ InTurn wanted more next

/-- An item is not found, when the items before it have led to `old`. -/
def StopsAt (old : Bytes) : List (Bytes × Bytes) → Bytes → Prop
  | [], _ => False
  | (name, item) :: more, varValue =>
    putItem name item varValue = .missing ∧ varValue = old ∨
      ∃ next, putItem name item varValue = .done next ∧ StopsAt old more next

/-- What is stored over `old` is `wanted`: the value, cut off behind 511 bytes, or what the items of
`optimizer_switch`, not NULL, make of the old value. -/
def Stores (varName : Bytes) (varValue : Option Bytes) (wanted : Bytes → Prop) (old : Bytes) : Prop :=
  if startsWith varName (ascii "optimizer_switch") then
    ∃ value, varValue = some value ∧ InTurn wanted (switchItems (value.length + 1) value) old
  else wanted ((varValue.getD []).take (SYSTEM_VAR_VALUE_MAX_LEN - 1))

/-- An item of `optimizer_switch` is not found, and those before it changed nothing. -/
def KeepsSwitch (varName : Bytes) (varValue : Option Bytes) (old : Bytes) : Prop :=
  startsWith varName (ascii "optimizer_switch") = true ∧
    ∃ value, varValue = some value ∧ StopsAt old (switchItems (value.length + 1) value) old

/-- The setting takes the value: not NULL, a known time zone, a list for `sql_mode`, a week format from
0 to 7. -/
def Applies (env : Env) (varName : Bytes) (varValue : Option Bytes) : Prop :=
  match derivedOf varName, varValue with
  | none, _ => True
  | some _, none => False
  | some .autocommit, some _ => True
  | some .timeZone, some value => ∃ zone, env.setTimezone (timeZoneText env value) = .ok zone
  | some .sqlMode, some value => (mysSplitIdentifierString env.enc 44 value).isSome = true
  | some .weekFormat, some value => (weekFormatOf value).isSome = true

/-- The value can be stored and applied, or is refused with the old value in its place. -/
def StoreSafe (env : Env) (varName : Bytes) (varValue : Option Bytes) (old : Bytes) : Prop :=
  KeepsSwitch varName varValue old ∨ (Stores varName varValue (fun _ => True) old ∧ Applies env varName varValue) ∨
    (Stores varName varValue (· = old) old ∧ varValue ≠ none)

def SessionSafe (env : Env) (t : State) (varName : Bytes) (varValue : Option Bytes) : Prop :=
  match t.session (key varName) with
  | some v => v.sessionSettable = true → v.isReadWrite = true → StoreSafe env varName varValue v.varConfValue
  | none => ∀ rows, env.rows = .ok rows → Refused varName rows t

/-- The session's copy can be set as well, or nothing has changed when it cannot. -/
def CopySafe (t : State) (varName : Bytes) (varValue : Option Bytes) (old : Bytes) : Prop :=
  match t.session (key varName) with
  | none => Stores varName varValue (· = old) old
  | some copy => Stores varName varValue (fun _ => True) copy.varConfValue ∨
      Stores varName varValue (· = old) old ∧ KeepsSwitch varName varValue copy.varConfValue

def GlobalSafe (env : Env) (t : State) (varName : Bytes) (varValue : Option Bytes) : Prop :=
  match t.globalSystemVars (key varName) with
  | some v => v.globalSettable = true → v.isReadWrite = true →
      Stores varName varValue (fun _ => True) v.varConfValue ∧
      (v.copied = true → CopySafe t varName varValue v.varConfValue)
  | none => ∃ rows, env.rows = .ok rows ∧ Refused varName rows t

/-- The value is refused, or it can be stored as the two conditions say. -/
def Safe (env : Env) (t : State) (call : SetCall) : Prop :=
  match call.varName with
  | none => True
  | some varName =>
    match rectifySystemVarValue (lowerSystemVarName varName.1) call.varValue call.isSessionSystemVar t with
    | .error _ _ => True
    | .ok varValue _ =>
      if call.isSessionSystemVar then SessionSafe env t (lowerSystemVarName varName.1) varValue
      else GlobalSafe env t (lowerSystemVarName varName.1) varValue

section Keeping

variable {inv : State → Prop}

theorem keeps_elog {α : Type} (message : Bytes) : Keeps inv (elog message : Proc α) := Keeps.throw _

theorem keeps_ended (outcome : Except Failure Unit) : Keeps inv (ended outcome) := by
  cases outcome with
  | ok => exact Keeps.pure ()
  | error failure => exact Keeps.throw failure

theorem keeps_applySystemVarValue (settings : ∀ s st, inv s → inv { s with settings := st }) (env : Env)
    (varName : Bytes) (varValue : Option Bytes) : Keeps inv (applySystemVarValue env varName varValue) := by
  refine Keeps.get.bind fun s => ?_
  exact (Keeps.modify fun s holds => settings s _ holds).bind fun _ => keeps_ended _

theorem keeps_readBaseVariablesTable (env : Env) : Keeps inv (readBaseVariablesTable env) := by
  unfold readBaseVariablesTable
  split
  next rows _ => exact Keeps.pure rows
  next => exact keeps_elog _

theorem keeps_add2BaseSystemVars (base : ∀ s vars, inv s → inv { s with baseSystemVars := vars }) (v : SystemVar) :
    Keeps inv (add2BaseSystemVars v) := by
  refine Keeps.get.bind fun s => ?_
  split
  · exact (Keeps.modify fun s holds => base s _ holds).bind fun _ => Keeps.pure true
  · exact Keeps.pure false

theorem keeps_addBaseSystemVars (base : ∀ s vars, inv s → inv { s with baseSystemVars := vars }) (rows : List Row) :
    Keeps inv (addBaseSystemVars rows) := by
  induction rows with
  | nil => exact Keeps.pure ()
  | cons row rows ih =>
    unfold addBaseSystemVars
    split
    next v _ =>
      refine (keeps_add2BaseSystemVars base v).bind fun added => ?_
      split
      · exact ih
      · exact keeps_elog _
    next => exact keeps_elog _

theorem keeps_initBaseSystemVars (base : ∀ s vars, inv s → inv { s with baseSystemVars := vars }) (env : Env) :
    Keeps inv (initBaseSystemVars env) := by
  refine (Keeps.modify fun s holds => base s _ holds).bind fun _ => ?_
  exact (keeps_readBaseVariablesTable env).bind fun rows => keeps_addBaseSystemVars base rows

theorem keeps_add2SessionSystemVars (settings : ∀ s st, inv s → inv { s with settings := st })
    (session : ∀ s table, inv s → inv { s with sessionSystemVars := some table }) (env : Env) (v : SystemVar) :
    Keeps inv (add2SessionSystemVars env v) := by
  refine (Keeps.modify fun s holds => session s _ holds).bind fun _ => Keeps.get.bind fun s => ?_
  unfold applyEntry
  split
  · exact keeps_applySystemVarValue settings env _ _
  · exact Keeps.pure ()

theorem keeps_addSessionSystemVars (settings : ∀ s st, inv s → inv { s with settings := st })
    (session : ∀ s table, inv s → inv { s with sessionSystemVars := some table }) (env : Env) (vars : List SystemVar) :
    Keeps inv (addSessionSystemVars env vars) := by
  induction vars with
  | nil => exact Keeps.pure ()
  | cons v vars ih => exact (keeps_add2SessionSystemVars settings session env v).bind fun _ => ih

end Keeping

theorem keeps_storeValue {place : Place} (put : ∀ s v, inv s → inv (place.put v s)) (v : SystemVar)
    (varName : Bytes) (varValue : Option Bytes) : Keeps inv (storeValue place v varName varValue) :=
  (Keeps.modify fun s holds => put s _ holds).bind fun _ => keeps_ended _

theorem keeps_assignSession (settings : ∀ s st, inv s → inv { s with settings := st }) (env : Env)
    (varName : Bytes) (varValue : Option Bytes) (found : Option (Place × SystemVar))
    (put : ∀ pair ∈ found, ∀ s v, inv s → inv (pair.1.put v s)) : Keeps inv
    (assignSession env varName varValue found) := by
  unfold assignSession
  split
  · exact keeps_elog _
  next place v =>
  split
  · split
    · refine (keeps_storeValue (put _ (Option.mem_some_self _)) v varName varValue).bind fun _ => ?_
      exact keeps_applySystemVarValue settings env varName varValue
    · exact keeps_elog _
  · exact keeps_elog _

def Reads {α : Type} (x : Proc α) (t : State) : Prop :=
  (∃ a, x t = .ok a t) ∨ ∃ message, x t = .error (.raised message) t

variable {t : State} {k : Bytes} {v : SystemVar} {st : Settings} {env : Env}

theorem Reads.bind {α β : Type} {x : Proc α} {f : α → Proc β} (first : Reads x t) (second : ∀ a, Reads (f a) t) :
    Reads (x >>= f) t := by
  rcases first with ⟨a, returned⟩ | ⟨message, raised⟩
  · have next := second a
    unfold Reads at next ⊢
    rwa [bind_ok returned]
  · exact .inr ⟨message, bind_error raised⟩

theorem Reads.pure {α : Type} (a : α) : Reads (Pure.pure a) t := .inl ⟨a, rfl⟩

theorem Reads.elog {α : Type} (message : Bytes) : Reads (elog message : Proc α) t := .inr ⟨message, rfl⟩

theorem Reads.get : Reads get t := .inl ⟨t, rfl⟩

theorem lockGlobalSystemVars_free (free : t.locked = false) :
    lockGlobalSystemVars t = .ok () { t with locked := true } := by
  rw [lockGlobalSystemVars, get_bind, free]
  rfl

theorem unlock_lock (free : t.locked = false) : { t with locked := false } = t := by
  obtain ⟨base, session, global, locked, settings⟩ := t
  cases free
  rfl

theorem globalDefault_reads (free : t.locked = false) (varName : Bytes) : Reads (globalDefault varName) t := by
  unfold Reads
  rw [globalDefault, bind_ok (lockGlobalSystemVars_free free), get_bind]
  cases t.globalSystemVars (key varName) with
  | some v =>
    refine .inl ⟨v.varConfValue, ?_⟩
    exact congrArg (EStateM.Result.ok v.varConfValue) (unlock_lock free)
  | none =>
    refine .inr ⟨ascii "Can not find system variable \"" ++ varName ++ ascii "\" from global.", ?_⟩
    exact congrArg (EStateM.Result.error _) (unlock_lock free)

theorem rectifySystemVarValue_reads (free : t.locked = false) (varName : Bytes) (varValue : Option Bytes)
    (isSessionSystemVar : Bool) : Reads (rectifySystemVarValue varName varValue isSessionSystemVar) t := by
  unfold rectifySystemVarValue
  split
  · exact .pure none
  split
  · unfold getDefaultValue sessionDefValueFromGlobal baseDefault
    refine Reads.bind ?_ fun value => .pure (some value)
    split
    · exact .elog _
    refine Reads.bind ?_ fun isFromGlobal => ?_
    · split
      · refine Reads.get.bind fun s => ?_
        split
        · exact .pure _
        · exact .elog _
      · exact .pure false
    · split
      · exact globalDefault_reads free varName
      · refine Reads.get.bind fun s => ?_
        split
        · exact .pure _
        · exact .elog _
  · refine Reads.get.bind fun s => ?_
    split
    · exact .pure _
    · exact .elog _

theorem session_some (found : t.session k = some v) : t.sessionSystemVars = some t.session := by
  unfold State.session at found ⊢
  cases tables : t.sessionSystemVars with
  | none =>
    rw [tables] at found
    cases found
  | some table => rfl

theorem update_eq_self_iff (found : table k = some v) :
    Function.update table k (some { v with varConfValue := value }) = table ↔ value = v.varConfValue := by
  constructor
  · intro same
    have entry := congrFun same k
    rw [Function.update_self, found] at entry
    injection entry with entry
    exact congrArg SystemVar.varConfValue entry
  · intro same
    subst same
    rw [Function.update_eq_self_iff]
    exact found.symm

theorem session_update_iff (found : t.session k = some v) :
    some (Function.update t.session k (some { v with varConfValue := value })) = t.sessionSystemVars ↔
      value = v.varConfValue := by
  rw [session_some found, Option.some.injEq, update_eq_self_iff found]

theorem SameBut.rfl {d : Option Derived} : SameBut d st st := by
  constructor <;> intro _ <;> exact Eq.refl _

/-- What `applySystemVarValue` does to the settings. -/
theorem applied_sameBut (env : Env) (varName : Bytes) (varValue : Option Bytes) (st : Settings) :
    SameBut (derivedOf varName) st (applied env varName varValue st).1 := by
  unfold applied
  split
  next => exact .rfl
  next => exact .rfl
  next value derived =>
    rw [derived]
    unfold applyAutocommit
    split <;> constructor <;> simp
  next value derived =>
    rw [derived]
    unfold applyTimeZone
    split <;> constructor <;> simp
  next value derived =>
    rw [derived]
    unfold applySqlMode
    split <;> constructor <;> simp
  next value derived =>
    rw [derived]
    unfold applyWeekFormat
    split <;> constructor <;> simp

/-- An error of `applySystemVarValue` leaves the settings alone. -/
theorem applied_error {varValue : Option Bytes} {failure : Failure}
    (raised : (applied env varName varValue st).2 = .error failure) : SameBut none st
    (applied env varName varValue st).1 := by
  unfold applied at raised ⊢
  split at raised
  next => cases raised
  next => exact .rfl
  next => cases raised
  next =>
    unfold applyTimeZone at raised ⊢
    split at raised
    next => cases raised
    next => exact .rfl
  next =>
    unfold applySqlMode at raised ⊢
    split at raised
    next => cases raised
    next => constructor <;> simp
  next =>
    unfold applyWeekFormat at raised ⊢
    split at raised
    next => cases raised
    next => exact .rfl

theorem optimizerItems_succ (value rest varValue : Bytes) (fuel : Nat) :
    optimizerItems value (fuel + 1) rest varValue =
      match rest.dropWhile (· != 61) with
      | [] => (varValue, .ok ())
      | _ :: tail =>
        match putItem (rest.takeWhile (· != 61)) (rest.takeWhile (· != 61) ++ 61 :: tail.takeWhile (· != 44))
          varValue with
        | .missing => (varValue, .error (invalidSwitch value))
        | .overflow => (varValue, .error .crashed)
        | .done next => optimizerItems value fuel ((tail.dropWhile (· != 44)).drop 1) next := by
  rw [optimizerItems]
  cases rest.dropWhile (· != 61) with
  | nil => rfl
  | cons c tail =>
    dsimp only [putItem]
    by_cases unnamed : rest.takeWhile (· != 61) = []
    · rw [if_pos unnamed, if_pos unnamed]
    rw [if_neg unnamed, if_neg unnamed]
    cases (List.range varValue.length).find? fun k =>
        eqNoCase (rest.takeWhile (· != 61)).length (varValue.drop k) (rest.takeWhile (· != 61)) with
    | none => rfl
    | some k =>
      dsimp only
      split
      · rfl
      · split <;> rfl

theorem inTurn_iff (wanted : Bytes → Prop) (value rest varValue : Bytes) (fuel : Nat) :
    InTurn wanted (switchItems fuel rest) varValue ↔
      (optimizerItems value fuel rest varValue).2 = .ok () ∧ wanted (optimizerItems value fuel rest varValue).1 := by
  induction fuel generalizing rest varValue with
  | zero => exact (and_iff_right rfl).symm
  | succ fuel ih =>
    rw [optimizerItems_succ, switchItems]
    cases rest.dropWhile (· != 61) with
    | nil => exact (and_iff_right rfl).symm
    | cons c tail =>
      simp only [InTurn]
      cases put : putItem (rest.takeWhile (· != 61)) (rest.takeWhile (· != 61) ++ 61 :: tail.takeWhile (· != 44))
        varValue with
      | missing | overflow => simp
      | done next => simp [ih]

theorem stopsAt_iff (old value rest varValue : Bytes) (fuel : Nat) :
    StopsAt old (switchItems fuel rest) varValue ↔
      (∃ message, (optimizerItems value fuel rest varValue).2 = .error (.raised message)) ∧
        (optimizerItems value fuel rest varValue).1 = old := by
  induction fuel generalizing rest varValue with
  | zero => simp [switchItems, StopsAt, optimizerItems]
  | succ fuel ih =>
    rw [optimizerItems_succ, switchItems]
    cases rest.dropWhile (· != 61) with
    | nil => simp [StopsAt]
    | cons c tail =>
      simp only [StopsAt]
      cases put : putItem (rest.takeWhile (· != 61)) (rest.takeWhile (· != 61) ++ 61 :: tail.takeWhile (· != 44))
        varValue with
      | missing => simp [invalidSwitch]
      | overflow => simp
      | done next => simp [ih]

theorem stores_iff (varName : Bytes) (varValue : Option Bytes) (wanted : Bytes → Prop) (old : Bytes) :
    Stores varName varValue wanted old ↔ (setSystemVarValueByVarName varName varValue old).2 = .ok () ∧
      wanted (setSystemVarValueByVarName varName varValue old).1 := by
  unfold Stores setSystemVarValueByVarName
  split
  · cases varValue with
    | none => simp
    | some value => simpa [setSystemVarValueForOptimizerSwitch] using inTurn_iff wanted value value old _
  · exact (and_iff_right rfl).symm

theorem keepsSwitch_iff (varName : Bytes) (varValue : Option Bytes) (old : Bytes) :
    KeepsSwitch varName varValue old ↔
      (∃ message, (setSystemVarValueByVarName varName varValue old).2 = .error (.raised message)) ∧
        (setSystemVarValueByVarName varName varValue old).1 = old := by
  unfold KeepsSwitch setSystemVarValueByVarName
  split
  · cases varValue with
    | none => simp
    | some value => simpa [*, setSystemVarValueForOptimizerSwitch] using stopsAt_iff old value value old _
  · simp [*]

theorem applies_iff (varValue : Option Bytes) (st : Settings) :
    Applies env varName varValue ↔ (applied env varName varValue st).2 = .ok () := by
  unfold Applies applied
  cases derivedOf varName with
  | none => exact iff_of_true trivial rfl
  | some derived =>
    cases varValue with
    | none => cases derived <;> exact iff_of_false id (by simp)
    | some value =>
      cases derived with
      | autocommit => exact iff_of_true trivial rfl
      | timeZone =>
        dsimp only [applyTimeZone]
        cases env.setTimezone (timeZoneText env value) <;> simp
      | sqlMode =>
        dsimp only [applySqlMode]
        cases mysSplitIdentifierString env.enc 44 value <;> simp
      | weekFormat =>
        dsimp only [applyWeekFormat]
        cases weekFormatOf value <;> simp

/-- Only NULL is dereferenced, for a variable with a setting. -/
theorem applied_crashed {varValue : Option Bytes} (crashed : (applied env varName varValue st).2 = .error .crashed) :
    varValue = none := by
  unfold applied at crashed
  split at crashed
  · cases crashed
  · rfl
  · cases crashed
  · unfold applyTimeZone at crashed
    split at crashed <;> cases crashed
  · unfold applySqlMode at crashed
    split at crashed <;> cases crashed
  · unfold applyWeekFormat at crashed
    split at crashed <;> cases crashed

theorem storeSafe_iff (varValue : Option Bytes) (old : Bytes) (st : Settings) :
    StoreSafe env varName varValue old ↔
      match (setSystemVarValueByVarName varName varValue old).2, (applied env varName varValue st).2 with
      | .ok (), .ok () => True
      | .ok (), .error (.raised _) | .error (.raised _), _ => (setSystemVarValueByVarName varName varValue old).1 = old
      | .ok (), .error .crashed | .error .crashed, _ => False := by
  rw [StoreSafe, keepsSwitch_iff, stores_iff, stores_iff, applies_iff varValue st]
  cases (setSystemVarValueByVarName varName varValue old).2 with
  | error failure => cases failure <;> simp
  | ok =>
    cases last : (applied env varName varValue st).2 with
    | ok => simp
    | error failure =>
      cases failure with
      | raised message =>
        have given : varValue ≠ none := by
          rintro rfl
          unfold applied at last
          split at last <;> simp_all
        simp [given]
      | crashed => simp [applied_crashed last]

theorem not_ends {good same : State → Prop} {x : Proc Unit} (keeps : Keeps inv x) (holds : inv s) (bad : ∀ s, ¬ good s)
    (changed : ∀ s, inv s → ¬ same s) : ¬ Ends good same (x s) := by
  cases final : x s with
  | ok _ s' => exact bad s'
  | error failure s' =>
    cases failure with
    | raised message => exact changed s' (keeps.error holds final)
    | crashed => exact id

/-- The checks in front of an assignment. -/
theorem ends_checked_iff {good same : State → Prop} {settable writable : Bool} {x y z : Proc Unit}
    (fixed : Ends good same (y t)) (misplaced : Ends good same (z t)) :
    Ends good same ((if settable then if writable then x else y else z) t) ↔
      (settable = true → writable = true → Ends good same (x t)) := by
  cases settable with
  | false => simpa using misplaced
  | true =>
    cases writable with
    | false => simpa using fixed
    | true => simp

theorem Unchanged.rfl (free : t.locked = false) : Unchanged t t := ⟨Eq.refl _, Eq.refl _, .rfl, free⟩

theorem enter_ne (missing : table (key v.varName) = none) : enter env table v ≠ table := by
  intro same
  obtain ⟨entry, entered⟩ := enter_isSome env table v
  rw [same, missing] at entered
  cases entered

theorem findOrAdd_cases (env : Env) (find : State → Option SystemVar) (place : Place) (varName : Bytes)
    (missing : find t = none) :
    (∃ message, env.rows = .error message ∧ findOrAdd env find place varName t = .error (.raised message) t) ∨
    (∃ rows, env.rows = .ok rows ∧ Refused varName rows t ∧ findOrAdd env find place varName t = .ok none t) ∨
    ∃ rows v settings, env.rows = .ok rows ∧ ¬ Refused varName rows t ∧
      (findRow varName rows).bind initBaseSystemVar = some v ∧ ((∃ index, findOrAdd env find place varName t =
          .ok (some (.base index, v)) { t.added env v with settings := settings }) ∨
        ∃ failure, findOrAdd env find place varName t =
          .error failure { t.added env v with settings := settings }) := by
  simp only [findOrAdd, get_bind, missing]
  cases read : env.rows with
  | error message => exact .inl ⟨message, rfl, bind_error (dynAddSystemVar_unread read varName t)⟩
  | ok rows =>
    refine .inr ?_
    by_cases refused : Refused varName rows t
    · exact .inl ⟨rows, rfl, refused, bind_ok (dynAddSystemVar_refused read refused)⟩
    refine .inr ?_
    obtain ⟨valid, room⟩ := not_or.mp refused
    obtain ⟨v, found⟩ := Option.ne_none_iff_exists'.mp valid
    obtain ⟨settings, added | ⟨failure, raised⟩⟩ := dynAddSystemVar_added read found (Nat.lt_of_not_le room)
    · exact ⟨rows, v, settings, rfl, refused, found, .inl ⟨_, bind_ok added⟩⟩
    · exact ⟨rows, v, settings, rfl, refused, found, .inr ⟨failure, bind_error raised⟩⟩

theorem unchanged_session_iff (free : t.locked = false) (found : t.session k = some v)
    (settings : SameBut none t.settings st) :
    Unchanged t { (Place.session k).put { v with varConfValue := value } t with settings := st } ↔
      value = v.varConfValue := by
  constructor
  · intro unchanged
    exact (session_update_iff found).mp unchanged.session
  · intro same
    exact ⟨(session_update_iff found).mpr same, rfl, settings, free⟩

theorem assignSession_iff (free : t.locked = false) (found : t.session (key varName) = some v)
    (varValue : Option Bytes) :
    Ends (SessionAssigned varName t) (Unchanged t)
    (assignSession env varName varValue (some (.session (key varName), v)) t) ↔
      (v.sessionSettable = true → v.isReadWrite = true → StoreSafe env varName varValue v.varConfValue) := by
  have refused (message : Bytes) : Ends (SessionAssigned varName t) (Unchanged t) ((elog message : Proc Unit) t) :=
    Unchanged.rfl free
  rw [assignSession, ends_checked_iff (refused _) (refused _)]
  refine imp_congr_right fun _ => imp_congr_right fun _ => ?_
  rw [storeSafe_iff varValue v.varConfValue t.settings]
  have stored := storeValue_eq (.session (key varName)) v varName varValue t
  have settled := applySystemVarValue_eq env varName varValue
    ((Place.session (key varName)).put
      { v with varConfValue := (setSystemVarValueByVarName varName varValue v.varConfValue).1 } t)
  rw [Place.put_settings] at settled
  cases outcome : (setSystemVarValueByVarName varName varValue v.varConfValue).2 with
  | ok =>
    rw [outcome] at stored
    rw [bind_ok stored]
    cases last : (applied env varName varValue t.settings).2 with
    | ok =>
      rw [settled]
      simp only [last, iff_true]
      exact ⟨⟨_, _, session_some found, rfl, v, _, found, rfl⟩, rfl, applied_sameBut env varName varValue t.settings,
        free⟩
    | error failure =>
      rw [settled]
      cases failure with
      | raised message =>
        simp only [last]
        exact unchanged_session_iff free found (applied_error last)
      | crashed =>
        simp only [last]
        rfl
  | error failure =>
    rw [outcome] at stored
    rw [bind_error stored]
    cases failure with
    | raised message => exact unchanged_session_iff free found .rfl
    | crashed => rfl

theorem setSessionVariable_iff (free : t.locked = false) (text : 0 ∉ varName)
    (lowered : lowerSystemVarName varName = varName) (varValue : Option Bytes) :
    Ends (SessionAssigned varName t) (Unchanged t) (setSessionVariable env varName varValue t) ↔
      SessionSafe env t varName varValue := by
  cases found : t.session (key varName) with
  | some v =>
    rw [setSessionVariable, bind_ok (findOrAdd_found found), SessionSafe, found]
    exact assignSession_iff free found varValue
  | none =>
    rw [setSessionVariable, SessionSafe, found]
    obtain ⟨message, read, result⟩ | ⟨rows, read, refused, result⟩ | ⟨rows, v, settings, read, admitted, valid,
      added⟩ :=
      findOrAdd_cases env (fun s => s.session (key varName)) (.session (key varName)) varName found
    · rw [bind_error result]
      refine ⟨fun _ rows' read' => ?_, fun _ => .rfl free⟩
      rw [read] at read'
      cases read'
    · rw [bind_ok result]
      refine ⟨fun _ rows' read' => ?_, fun _ => .rfl free⟩
      rw [read] at read'
      cases read'
      exact refused
    · refine iff_of_false ?_ fun safe => admitted (safe rows read)
      -- an error is raised, if at all, with the variable in the table of the session
      have changed (s : State) (tables : s.sessionSystemVars = some (enter env t.session v)) : ¬ Unchanged t s := by
        intro unchanged
        have same : t.session = enter env t.session v := by
          rw [unchanged.session] at tables
          exact congrArg (fun tables : Option Table => tables.getD fun _ => none) tables
        rw [← initBaseSystemVar_key text lowered valid] at found
        exact enter_ne found same.symm
      have unassigned (s : State) : ¬ SessionAssigned varName t s := by
        intro assigned
        obtain ⟨table, _, tables, _, v, _, entry, _⟩ := assigned.session
        have same : t.session = table := by rw [State.session, tables, Option.getD_some]
        rw [same, entry] at found
        cases found
      obtain ⟨index, result⟩ | ⟨failure, result⟩ := added
      · rw [bind_ok result]
        have keeps : Keeps (fun s => s.sessionSystemVars = some (enter env t.session v))
            (assignSession env varName varValue (some (.base index, v))) := by
          refine keeps_assignSession (fun _ _ => id) env varName varValue _ ?_
          rintro pair ⟨⟩ s v tables
          exact tables
        exact not_ends keeps rfl unassigned changed
      · rw [bind_error result]
        cases failure with
        | raised message => exact changed _ rfl
        | crashed => exact id

theorem unchanged_global_iff (free : t.locked = false) (found : t.globalSystemVars k = some v) :
    Unchanged t ((Place.global k).put { v with varConfValue := value } t) ↔ value = v.varConfValue := by
  constructor
  · intro unchanged
    exact (update_eq_self_iff found).mp unchanged.global
  · intro same
    exact ⟨rfl, (update_eq_self_iff found).mpr same, .rfl, free⟩

theorem setSessionCopy_iff (free : t.locked = false) (found : t.globalSystemVars (key varName) = some v)
    (copied : v.copied = true) (varValue : Option Bytes)
    (made : (setSystemVarValueByVarName varName varValue v.varConfValue).2 = .ok ()) :
    Ends (GlobalAssigned varName t) (Unchanged t) (setSessionCopy varName varValue ((Place.global (key varName)).put
          { v with varConfValue := (setSystemVarValueByVarName varName varValue v.varConfValue).1 } t)) ↔
      CopySafe t varName varValue v.varConfValue := by
  change Ends _ _ (storeCopy varName varValue (t.session (key varName)) _) ↔ _
  cases copy : t.session (key varName) with
  | none =>
    simp only [CopySafe, copy, stores_iff, made, true_and]
    exact unchanged_global_iff free found
  | some w =>
    rw [storeCopy, storeValue_eq]
    cases outcome : (setSystemVarValueByVarName varName varValue w.varConfValue).2 with
    | ok =>
      simp only [CopySafe, copy, stores_iff, outcome, true_and, true_or, iff_true]
      refine ⟨⟨v, _, found, rfl⟩, ?_, .rfl, free⟩
      intro v' found'
      rw [found] at found'
      cases found'
      rw [if_pos copied]
      exact ⟨_, _, session_some copy, rfl, w, _, copy, rfl⟩
    | error failure =>
      cases failure with
      | raised message =>
        simp only [CopySafe, copy, stores_iff, keepsSwitch_iff, outcome, made, true_and, reduceCtorEq, false_and,
          false_or, Except.error.injEq, Failure.raised.injEq, exists_eq']
        constructor
        · intro unchanged
          exact ⟨(update_eq_self_iff found).mp unchanged.global, (session_update_iff copy).mp unchanged.session⟩
        · rintro ⟨global, session⟩
          exact ⟨(session_update_iff copy).mpr session, (update_eq_self_iff found).mpr global, .rfl, free⟩
      | crashed =>
        simp only [CopySafe, copy, stores_iff, keepsSwitch_iff, outcome, made, true_and, reduceCtorEq, false_and,
          false_or, Except.error.injEq, exists_false, and_false]
        rfl

theorem assignGlobal_iff (free : t.locked = false) (found : t.globalSystemVars (key varName) = some v)
    (varValue : Option Bytes) : Ends (GlobalAssigned varName t) (Unchanged t)
        (assignGlobal varName varValue (some (.global (key varName), v)) { t with locked := true }) ↔
      (v.globalSettable = true → v.isReadWrite = true →
        Stores varName varValue (fun _ => True) v.varConfValue ∧
          (v.copied = true → CopySafe t varName varValue v.varConfValue)) := by
  have unlocked (message : Bytes) : Ends (GlobalAssigned varName t) (Unchanged t)
      ((do unlockGlobalSystemVars; elog message : Proc Unit) { t with locked := true }) :=
    ⟨rfl, rfl, .rfl, rfl⟩
  rw [assignGlobal, ends_checked_iff (unlocked _) (unlocked _)]
  refine imp_congr_right fun _ => imp_congr_right fun _ => ?_
  rw [stores_iff]
  have stored := storeValue_eq (.global (key varName)) v varName varValue { t with locked := true }
  cases outcome : (setSystemVarValueByVarName varName varValue v.varConfValue).2 with
  | ok =>
    rw [outcome] at stored
    rw [bind_ok stored, unlockGlobalSystemVars, modify_bind]
    have released : { (Place.global (key varName)).put
        { v with varConfValue := (setSystemVarValueByVarName varName varValue v.varConfValue).1 }
        { t with locked := true } with locked := false } =
          (Place.global (key varName)).put
            { v with varConfValue := (setSystemVarValueByVarName varName varValue v.varConfValue).1 } t := by
      rw [Place.put, Place.put, free]
    rw [released]
    simp only [true_and]
    by_cases copied : v.copied = true
    · rw [if_pos copied, setSessionCopy_iff free found copied varValue outcome]
      exact ⟨fun safe _ => safe, fun safe => safe copied⟩
    rw [if_neg copied]
    refine iff_of_true ⟨⟨v, _, found, rfl⟩, ?_, .rfl, free⟩ fun isCopied => absurd isCopied copied
    intro v' found'
    rw [found] at found'
    cases found'
    rw [if_neg copied]
    rfl
  | error failure =>
    rw [outcome] at stored
    rw [bind_error stored]
    refine iff_of_false ?_ fun safe => by cases safe.1.1
    cases failure with
    | raised message => exact fun unchanged => by cases unchanged.free
    | crashed => exact id

theorem keeps_assignGlobal (lock : ∀ s b, inv s → inv { s with locked := b })
    (session : ∀ s table, inv s → inv { s with sessionSystemVars := some table })
    (varName : Bytes) (varValue : Option Bytes) (found : Option (Place × SystemVar))
    (put : ∀ pair ∈ found, ∀ s v, inv s → inv (pair.1.put v s)) : Keeps inv (assignGlobal varName varValue found) := by
  have unlock : Keeps inv unlockGlobalSystemVars := Keeps.modify fun s holds => lock s _ holds
  unfold assignGlobal
  split
  · exact unlock.bind fun _ => keeps_elog _
  next place v =>
  split
  · split
    · refine (keeps_storeValue (put _ (Option.mem_some_self _)) v varName varValue).bind fun _ => unlock.bind fun _ =>
        ?_
      split
      · refine Keeps.get.bind fun s => ?_
        unfold storeCopy
        split
        · have put (s : State) (w : SystemVar) (holds : inv s) : inv ((Place.session (key varName)).put w s) :=
            session s _ holds
          exact keeps_storeValue put _ varName varValue
        · exact keeps_elog _
      · exact Keeps.pure ()
    · exact unlock.bind fun _ => keeps_elog _
  · exact unlock.bind fun _ => keeps_elog _

theorem setGlobalVariable_iff (free : t.locked = false) (text : 0 ∉ varName)
    (lowered : lowerSystemVarName varName = varName) (varValue : Option Bytes) :
    Ends (GlobalAssigned varName t) (Unchanged t) (setGlobalVariable env varName varValue t) ↔
      GlobalSafe env t varName varValue := by
  rw [setGlobalVariable, bind_ok (lockGlobalSystemVars_free free)]
  cases found : t.globalSystemVars (key varName) with
  | some v =>
    have found' : findOrAdd env (fun s => s.globalSystemVars (key varName)) (.global (key varName)) varName
        { t with locked := true } = .ok (some (.global (key varName), v)) { t with locked := true } :=
        findOrAdd_found found
    rw [bind_ok found', GlobalSafe, found]
    exact assignGlobal_iff free found varValue
  | none =>
    rw [GlobalSafe, found]
    obtain ⟨message, read, result⟩ | ⟨rows, read, refused, result⟩ | ⟨rows, v, settings, read, admitted, valid,
      added⟩ :=
      findOrAdd_cases env (fun s => s.globalSystemVars (key varName)) (.global (key varName)) varName
        (t := { t with locked := true }) found
    · rw [bind_error result]
      refine iff_of_false (fun unchanged => by cases unchanged.free) ?_
      rintro ⟨rows, read', _⟩
      rw [read] at read'
      cases read'
    · rw [bind_ok result]
      exact iff_of_true ⟨rfl, rfl, .rfl, rfl⟩ ⟨rows, read, refused⟩
    · have unsafe' : ¬ ∃ rows, env.rows = .ok rows ∧ Refused varName rows t := by
        rintro ⟨rows', read', refused⟩
        rw [read] at read'
        cases read'
        exact admitted refused
      refine iff_of_false ?_ unsafe'
      have changed (s : State) (tables : s.globalSystemVars = enter env t.globalSystemVars v) : ¬ Unchanged t s := by
        intro unchanged
        rw [unchanged.global] at tables
        rw [← initBaseSystemVar_key text lowered valid] at found
        exact enter_ne found tables.symm
      have unassigned (s : State) : ¬ GlobalAssigned varName t s := by
        intro assigned
        obtain ⟨w, _, entry, _⟩ := assigned.global
        rw [entry] at found
        cases found
      obtain ⟨index, result⟩ | ⟨failure, result⟩ := added
      · rw [bind_ok result]
        have keeps : Keeps (fun s => s.globalSystemVars = enter env t.globalSystemVars v)
            (assignGlobal varName varValue (some (.base index, v))) := by
          refine keeps_assignGlobal (fun _ _ => id) (fun _ _ => id) varName varValue _ ?_
          rintro pair ⟨⟩ s v tables
          exact tables
        exact not_ends keeps rfl unassigned changed
      · rw [bind_error result]
        cases failure with
        | raised message => exact fun unchanged => by cases unchanged.free
        | crashed => exact id

theorem keeps_session_table (env : Env) (vars : List SystemVar) :
    Keeps (fun u : State => u.sessionSystemVars.isSome = true) (addSessionSystemVars env vars) :=
  keeps_addSessionSystemVars (fun _ _ => id) (fun _ _ _ => rfl) env vars

theorem initSystemVariables_made (made : initSystemVariables env s = .ok () t) :
    t.locked = false ∧ t.sessionSystemVars.isSome = true := by
  obtain ⟨_, s₁, _, made⟩ := bind_eq_ok made
  obtain ⟨_, s₂, _, made⟩ := bind_eq_ok made
  obtain ⟨_, s₃, _, made⟩ := bind_eq_ok made
  obtain ⟨_, s₄, session, made⟩ := bind_eq_ok made
  cases made
  have kept := (keeps_session_table env _).ok rfl session
  exact ⟨rfl, kept⟩

theorem needSystemVariables_free (free : s.locked = false) (made : needSystemVariables env s = .ok () t) :
    t.locked = false := by
  rw [needSystemVariables, get_bind] at made
  cases tables : s.sessionSystemVars with
  | none =>
    rw [tables] at made
    exact (initSystemVariables_made made).1
  | some table =>
    rw [tables] at made
    cases made
    exact free

theorem lowerSystemVarName_text {name : Bytes} (text : 0 ∉ name) : 0 ∉ lowerSystemVarName name := by
  intro zero
  obtain ⟨c, member, isZero⟩ := List.mem_map.mp zero
  rcases eq_or_ne c 0 with rfl | nonzero
  · exact text member
  · exact lower_ne_zero nonzero isZero

def Env.sample : Env := ⟨.ok [], .plain, ascii "8", .ok, fun _ => []⟩

def SystemVar.sample (varName varValue : String) : SystemVar :=
  ⟨ascii varName, ascii varValue, ascii varValue, .globalAndSession, true, true, [], [], [], fun _ => []⟩

def Table.sample : Table := fun k =>
  if k = ascii "default_week_format" then some (.sample "default_week_format" "0")
  else if k = ascii "optimizer_switch" then some (.sample "optimizer_switch" "mrr=on")
  else if k = ascii "sql_mode" then some (.sample "sql_mode" "")
  else none

def State.sample : State := ⟨[], some .sample, .sample, false, ⟨2, false, false, 0, false, 0, ascii "8"⟩⟩

end OpenHalo.SysVars
