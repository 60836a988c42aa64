import Mathlib.Logic.Function.Basic
import OpenHalo.Lib.Process
import OpenHalo.Logon.SearchPath

namespace OpenHalo.SysVars
open Octets List

variable {message varName : Bytes} {s : State}

def SYSTEM_VAR_NAME_MAX_LEN : Nat := 128
def SYSTEM_VAR_VALUE_MAX_LEN : Nat := 512
def SYSTEM_VAR_MAX_NUM : Nat := 1024
def SYSTEM_VAR_RESULT_RULE_NUM : Nat := 16
def SYSTEM_VAR_RESULT_RULE_LEN : Nat := 64

/-- `sessionGlobalType`, 0 to 3. -/
inductive SessionGlobalType
  | globalAndSession | globalOnly | sessionOnly | sessGlobal
deriving Repr, DecidableEq

structure SystemVar where
  varName : Bytes
  varDefValue : Bytes
  varConfValue : Bytes
  sessionGlobalType : SessionGlobalType
  sessionDefValueFromGlobal : Bool
  isReadWrite : Bool
  result : List Bytes
  selectResult : List Bytes
  showResult : List Bytes
  /-- What stands in the entries of `showResult` that were never assigned. -/
  behind : Nat → Bytes

/-- A row of `mys_informa_schema.base_variables`, as text. -/
structure Row where
  variable_name : Bytes
  def_value : Option Bytes
  conf_value : Option Bytes
  sess_global_type : Option Bytes
  sess_def_val_from_global : Option Bytes
  is_read_write : Option Bytes
  valid_result : Option Bytes
  select_result_rule : Option Bytes
  show_result_rule : Option Bytes

/-- The hash tables, which know 127 bytes of a name. -/
abbrev Table := Bytes → Option SystemVar

def key (varName : Bytes) : Bytes := varName.take (SYSTEM_VAR_NAME_MAX_LEN - 1)

/-- What `applySystemVarValue` sets. -/
structure Settings where
  autoCommit : Nat
  needCommitTrx : Bool
  needStartNewTrx : Bool
  mys_sqlMode : UInt64
  isStrictTransTablesOn : Bool
  default_week_format : Int
  timezone : Bytes
deriving DecidableEq

structure State where
  baseSystemVars : List SystemVar
  sessionSystemVars : Option Table
  globalSystemVars : Table
  /-- The spin lock of the global variables is held. -/
  locked : Bool
  settings : Settings

structure Env where
  /-- `readBaseVariablesTable`. -/
  rows : Except Bytes (List Row)
  enc : Encoding
  osTimeZone : Bytes
  /-- `ExecSetVariableStmt` for the setting `timezone`. -/
  setTimezone : Bytes → Except Bytes Bytes
  /-- The memory of a new entry of a hash table. -/
  behind : Nat → Bytes

inductive Failure
  | raised (message : Bytes)
  | crashed

abbrev Proc := EStateM Failure State

def elog {α : Type} (message : Bytes) : Proc α := throw (.raised message)

def lowerSystemVarName (varName : Bytes) : Bytes := varName.map lower

/-- The comparison of two texts by `strlen` and `strncasecmp`. -/
def sameText (a b : Bytes) : Bool := a.length == b.length && eqNoCase a.length a b

/-- `splitStr` at `|`. -/
def splitStr (str : Bytes) : List Bytes := (str.splitOn 124).filter fun item => item != []

/-- More than 16 items overrun their buffer; such rows are taken as refused. -/
def asignSystemVarResult : Option Bytes → Option (List Bytes)
  | none => some []
  | some srcResult =>
    let items := splitStr srcResult
    if items.length ≤ SYSTEM_VAR_RESULT_RULE_NUM ∧ ∀ item ∈ items, item.length < SYSTEM_VAR_RESULT_RULE_LEN - 1
    then some items else none

/-- `setSystemVarValue`, the value NULL included. -/
def setSystemVarValue (value : Option Bytes) : Bytes := (value.getD []).take (SYSTEM_VAR_VALUE_MAX_LEN - 1)

def asignSystemVar (varName : Bytes) (varDefValue varConfValue : Option Bytes) (sessionGlobalType : SessionGlobalType)
    (sessionDefValueFromGlobal isReadWrite : Bool) (result selectResult showResult : Option Bytes) : Option SystemVar :=
    do
  let result ← asignSystemVarResult result
  let selectResult ← asignSystemVarResult selectResult
  let showResult ← asignSystemVarResult showResult
  if result.length = 0 ∧ (0 < selectResult.length ∨ 0 < showResult.length) then none
  else if 0 < result.length ∧ ((selectResult.length ≠ result.length ∧ showResult.length ≠ result.length) ∨
      (0 < selectResult.length ∧ 0 < showResult.length ∧ selectResult.length ≠ showResult.length)) then none
  else some {
    varName := varName.take (SYSTEM_VAR_NAME_MAX_LEN - 1)
    varDefValue := setSystemVarValue varDefValue
    varConfValue := setSystemVarValue varConfValue
    sessionGlobalType := sessionGlobalType
    sessionDefValueFromGlobal := sessionDefValueFromGlobal
    isReadWrite := isReadWrite
    result := result
    selectResult := selectResult
    showResult := showResult
    behind := fun _ => [] }

def sessionGlobalTypeOf : Option Bytes → Option SessionGlobalType
  | none => some .globalAndSession
  | some val =>
    match val.head? with
    | some 48 => some .globalAndSession
    | some 49 => some .globalOnly
    | some 50 => some .sessionOnly
    | some 51 => some .sessGlobal
    | _ => none

def flagOf : Option Bytes → Bool
  | none => true
  | some val => val.head? == some 49

def initBaseSystemVar (row : Row) : Option SystemVar := do
  let sessionGlobalType ← sessionGlobalTypeOf row.sess_global_type
  asignSystemVar (lowerSystemVarName row.variable_name) row.def_value row.conf_value sessionGlobalType
    (flagOf row.sess_def_val_from_global) (flagOf row.is_read_write) row.valid_result row.select_result_rule
    row.show_result_rule

def readBaseVariablesTable (env : Env) : Proc (List Row) :=
  match env.rows with
  | .ok rows => pure rows
  | .error message => elog message

def add2BaseSystemVars (systemVar : SystemVar) : Proc Bool := do
  if (← get).baseSystemVars.length < SYSTEM_VAR_MAX_NUM then
    modify fun s => { s with baseSystemVars := s.baseSystemVars ++ [systemVar] }
    return true
  else return false

def addBaseSystemVars : List Row → Proc Unit
  | [] => pure ()
  | row :: rows => do
    match initBaseSystemVar row with
    | some systemVar =>
      if ← add2BaseSystemVars systemVar then addBaseSystemVars rows
      else elog (ascii "There are too many MySQL system variables. Connection will be disconnect.")
    | none =>
      elog (ascii "Invalid data '" ++ row.variable_name ++
        ascii "' in mys_informa_schema.base_variables table. Connection will be disconnect.")

def initBaseSystemVars (env : Env) : Proc Unit := do
  modify fun s => { s with baseSystemVars := [] }
  let rows ← readBaseVariablesTable env
  addBaseSystemVars rows

/-- `copySystemVar` into a new entry of a hash table. -/
def copySystemVar (env : Env) (src : SystemVar) : SystemVar :=
  { src with varName := key src.varName, behind := env.behind }

/-- `HASH_ENTER`, and the copy if the entry is new. -/
def enter (env : Env) (table : Table) (systemVar : SystemVar) : Table :=
  match table (key systemVar.varName) with
  | some _ => table
  | none => Function.update table (key systemVar.varName) (some (copySystemVar env systemVar))

/-- `SpinLockAcquire`; a lock that nobody releases ends in a PANIC. -/
def lockGlobalSystemVars : Proc Unit := do
  if (← get).locked then throw .crashed else modify fun s => { s with locked := true }

def unlockGlobalSystemVars : Proc Unit := modify fun s => { s with locked := false }

def add2GlobalSystemVars (env : Env) (systemVar : SystemVar) : Proc Unit :=
  modify fun s => { s with globalSystemVars := enter env s.globalSystemVars systemVar }

def initFlag : SystemVar where
  varName := ascii "global_system_vars_init_flag"
  varDefValue := ascii "1"
  varConfValue := ascii "1"
  sessionGlobalType := .globalAndSession
  sessionDefValueFromGlobal := false
  isReadWrite := false
  result := []
  selectResult := []
  showResult := []
  behind := fun _ => []

def initGlobalSystemVars (env : Env) : Proc Unit :=
  modify fun s =>
    match s.globalSystemVars (key initFlag.varName) with
    | some _ => s
    | none => { s with globalSystemVars := s.baseSystemVars.foldl (enter env) (enter env s.globalSystemVars initFlag) }

def isspace (c : UInt8) : Bool := c == 32 || (9 ≤ c && c ≤ 13)

def isdigit (c : UInt8) : Bool := 48 ≤ c && c ≤ 57

/-- `strtol` in base 10: the value, what follows it, and whether it is out of
range. -/
def strtol (s : Bytes) : Int × Bytes × Bool :=
  let t := s.dropWhile isspace
  let (negative, u) := match t with
    | 45 :: u => (true, u)
    | 43 :: u => (false, u)
    | _ => (false, t)
  let digits := u.takeWhile isdigit
  if digits = [] then (0, s, false)
  else
    let n : Nat := digits.foldl (fun n c => 10 * n + (c.toNat - 48)) 0
    let rest := u.dropWhile isdigit
    if negative then if n ≤ 2 ^ 63 then (-n, rest, false) else (-2 ^ 63, rest, true)
    else if n < 2 ^ 63 then (n, rest, false) else (2 ^ 63 - 1, rest, true)

/-- A `long` assigned to an `int`. -/
def toInt (n : Int) : Int := signed 32 (n % 2 ^ 32).toNat

def MYS_MODE_NO_ZERO_IN_DATE : UInt64 := 0x800000
def MYS_MODE_NO_ZERO_DATE : UInt64 := 0x1000000
def MYS_MODE_INVALID_DATES : UInt64 := 0x2000000

/-- One name of `sql_mode`; `ALLOW_INVALID_DATES` is compared in 12 bytes. -/
def addSqlMode (tempSqlMode : UInt64) (curValue : Bytes) : UInt64 :=
  if startsWith curValue (ascii "STRICT_TRANS_TABLES") then tempSqlMode
  else if startsWith curValue (ascii "NO_ZERO_IN_DATE") then tempSqlMode ||| MYS_MODE_NO_ZERO_IN_DATE
  else if startsWith curValue (ascii "NO_ZERO_DATE") then tempSqlMode ||| MYS_MODE_NO_ZERO_DATE
  else if startsWith curValue (ascii "ALLOW_INVALI") then tempSqlMode ||| MYS_MODE_INVALID_DATES
  else tempSqlMode

def applyAutocommit (st : Settings) (varValue : Bytes) : Settings :=
  if startsWith varValue (ascii "1") || startsWith varValue (ascii "on") then
    { st with needCommitTrx := st.autoCommit == 0, needStartNewTrx := false, autoCommit := 2 }
  else
    { st with needCommitTrx := false, needStartNewTrx := st.autoCommit != 0, autoCommit := 0 }

/-- The text for `timezone`, which ends before a colon. -/
def timeZoneText (env : Env) (varValue : Bytes) : Bytes :=
  if startsWith varValue (ascii "system") then env.osTimeZone else varValue.takeWhile (· != 58)

def applyTimeZone (env : Env) (st : Settings) (varValue : Bytes) : Settings × Except Failure Unit :=
  match env.setTimezone (timeZoneText env varValue) with
  | .ok timezone => ({ st with timezone := timezone }, .ok ())
  | .error message => (st, .error (.raised message))

def applySqlMode (env : Env) (st : Settings) (varValue : Bytes) : Settings × Except Failure Unit :=
  match mysSplitIdentifierString env.enc 44 varValue with
  | some valueList => ({ st with isStrictTransTablesOn := false, mys_sqlMode := valueList.foldl addSqlMode 0 }, .ok ())
  | none => ({ st with isStrictTransTablesOn := false }, .error (.raised (ascii "List syntax is invalid.")))

def weekFormatOf (varValue : Bytes) : Option Int :=
  let (n, endPtr, erange) := strtol varValue
  let value := toInt n
  if erange ∨ endPtr ≠ [] ∨ 7 < value ∨ value < 0 then none else some value

def applyWeekFormat (st : Settings) (varValue : Bytes) : Settings × Except Failure Unit :=
  match weekFormatOf varValue with
  | some value => ({ st with default_week_format := value }, .ok ())
  | none => (st, .error (.raised (ascii "incorrect default_week_format value: " ++ varValue)))

/-- The settings that depend on a variable, by the first letters of its name. -/
inductive Derived
  | autocommit | timeZone | sqlMode | weekFormat
deriving DecidableEq

def derivedOf (varName : Bytes) : Option Derived :=
  if startsWith varName (ascii "autocommit") then some .autocommit
  else if startsWith varName (ascii "time_zone") then some .timeZone
  else if startsWith varName (ascii "sql_mode") then some .sqlMode
  else if startsWith varName (ascii "default_week_format") then some .weekFormat
  else none

/-- `applySystemVarValue` on the settings; the value NULL is dereferenced. -/
def applied (env : Env) (varName : Bytes) (varValue : Option Bytes) (st : Settings) : Settings × Except Failure Unit :=
  match derivedOf varName, varValue with
  | none, _ => (st, .ok ())
  | some _, none => (st, .error .crashed)
  | some .autocommit, some value => (applyAutocommit st value, .ok ())
  | some .timeZone, some value => applyTimeZone env st value
  | some .sqlMode, some value => applySqlMode env st value
  | some .weekFormat, some value => applyWeekFormat st value

def ended : Except Failure Unit → Proc Unit
  | .ok () => pure ()
  | .error failure => throw failure

def applySystemVarValue (env : Env) (varName : Bytes) (varValue : Option Bytes) : Proc Unit := do
  let outcome := applied env varName varValue (← get).settings
  modify fun s => { s with settings := outcome.1 }
  ended outcome.2

def State.session (s : State) : Table := s.sessionSystemVars.getD fun _ => none

def applyEntry (env : Env) : Option SystemVar → Proc Unit
  | some entry => applySystemVarValue env entry.varName (some entry.varConfValue)
  | none => pure ()

/-- The session keeps its old entry if it has one, and its value is applied again. -/
def add2SessionSystemVars (env : Env) (systemVar : SystemVar) : Proc Unit := do
  modify fun s => { s with sessionSystemVars := some (enter env s.session systemVar) }
  applyEntry env ((← get).session (key systemVar.varName))

def addSessionSystemVars (env : Env) : List SystemVar → Proc Unit
  | [] => pure ()
  | systemVar :: more => do
    add2SessionSystemVars env systemVar
    addSessionSystemVars env more

def initSessionSystemVars (env : Env) : Proc Unit := do
  modify fun s => { s with sessionSystemVars := some fun _ => none }
  addSessionSystemVars env (← get).baseSystemVars

def initSystemVariables (env : Env) : Proc Unit := do
  initBaseSystemVars env
  lockGlobalSystemVars
  initGlobalSystemVars env
  initSessionSystemVars env
  unlockGlobalSystemVars

def findRow (varName : Bytes) (rows : List Row) : Option Row :=
  rows.find? fun row => sameText varName row.variable_name

/-- The variable is added to all three tables; the one of the base array is returned. -/
def addSystemVar (env : Env) : Option SystemVar → Proc (Option SystemVar)
  | none => pure none
  | some systemVar => do
    if ← add2BaseSystemVars systemVar then do
      add2GlobalSystemVars env systemVar
      add2SessionSystemVars env systemVar
      pure (some systemVar)
    else pure none

def dynAddSystemVar (env : Env) (varName : Bytes) : Proc (Option SystemVar) := do
  let rows ← readBaseVariablesTable env
  addSystemVar env ((findRow varName rows).bind initBaseSystemVar)

def unknownVariable (varName : Bytes) : Bytes := ascii "Unknown system variable '" ++ varName ++ ascii "'"

/-- The value itself if it is a valid result, or the result that is shown as the value. -/
def matchResult (value : Bytes) (shown : Nat → Bytes) : Nat → List Bytes → Option Bytes
  | _, [] => none
  | i, result :: more =>
    if sameText value result then some value
    else if sameText value (shown i) then some result
    else matchResult value shown (i + 1) more

def SystemVar.shown (v : SystemVar) (i : Nat) : Bytes := v.showResult.getD i (v.behind i)

def isDefault (value : Bytes) : Bool := (ascii "halo_mysql_system_var_default").isPrefixOf value

def sessionDefValueFromGlobal (varName : Bytes) (isSessionSystemVar : Bool) : Proc Bool :=
  if isSessionSystemVar then do
    match (← get).session (key varName) with
    | some systemVar => pure systemVar.sessionDefValueFromGlobal
    | none => elog (ascii "Can not find system variable \"" ++ varName ++ ascii "\" from global.")
  else pure false

def globalDefault (varName : Bytes) : Proc Bytes := do
  lockGlobalSystemVars
  match (← get).globalSystemVars (key varName) with
  | some systemVar => do
    unlockGlobalSystemVars
    pure systemVar.varConfValue
  | none => do
    unlockGlobalSystemVars
    elog (ascii "Can not find system variable \"" ++ varName ++ ascii "\" from global.")

def baseDefault (varName : Bytes) : Proc Bytes := do
  match (← get).baseSystemVars.find? fun v => sameText varName v.varName with
  | some systemVar => pure systemVar.varDefValue
  | none => elog (ascii "Can not find system variable \"" ++ varName ++ ascii "\" from base.")

def getDefaultValue (varName : Bytes) (isSessionSystemVar : Bool) : Proc Bytes :=
  if startsWith varName (ascii "last_insert_id") then
    elog (ascii "Variable '" ++ varName ++ ascii "' doesn't have a default value")
  else do
    if ← sessionDefValueFromGlobal varName isSessionSystemVar then globalDefault varName else baseDefault varName

def queryCacheSize (varValue : Bytes) : Except Bytes Bytes :=
  let val := toInt (strtol varValue).1
  if val < 0 then .error (ascii "Invalid value '" ++ signedDecimal val ++ ascii "' for query_cache_size")
  else .ok (signedDecimal (val / 1048576 * 1048576))

def rectified (session : Table) (varName varValue : Bytes) : Except Bytes Bytes :=
  if startsWith varName (ascii "query_cache_size") then queryCacheSize varValue
  else
    match session (key varName) with
    | none => .error (unknownVariable varName)
    | some systemVar =>
      if systemVar.result = [] then .ok varValue
      else
        match matchResult varValue systemVar.shown 0 systemVar.result with
        | some value => .ok value
        | none =>
            .error (ascii "Variable '" ++ varName ++ ascii "' can't be set to the value of '" ++ varValue ++ ascii "'")

def rectifySystemVarValue (varName : Bytes) (varValue : Option Bytes) (isSessionSystemVar : Bool) :
    Proc (Option Bytes) :=
  match varValue with
  | none => pure none
  | some value =>
    if isDefault value then do return some (← getDefaultValue varName isSessionSystemVar)
    else do
      match rectified (← get).session varName value with
      | .ok value => pure (some value)
      | .error message => elog message

def invalidSwitch (value : Bytes) : Failure :=
  .raised (ascii "Invalid value '" ++ value ++ ascii "' for 'optimizer_switch'")

/-- Each item of `optimizer_switch` is put into the variable before the next is looked at. `fuel` counts
characters. -/
def optimizerItems (value : Bytes) : Nat → Bytes → Bytes → Bytes × Except Failure Unit
  | 0, _, varValue => (varValue, .ok ())
  | fuel + 1, rest, varValue =>
    let setItemName := rest.takeWhile (· != 61)
    match rest.dropWhile (· != 61) with
    | [] => (varValue, .ok ())
    | _ :: tail =>
      if setItemName = [] then (varValue, .error (invalidSwitch value))
      else
        let setItem := setItemName ++ 61 :: tail.takeWhile (· != 44)
        match (List.range varValue.length).find? fun k => eqNoCase setItemName.length (varValue.drop k) setItemName with
        | none => (varValue, .error (invalidSwitch value))
        | some k =>
          let next := k + ((varValue.drop k).takeWhile (· != 44)).length
          if k = 0 ∧ next = 0 then (varValue, .error (invalidSwitch value))
          -- the buffer `newVarValue` is on the stack
          else if SYSTEM_VAR_VALUE_MAX_LEN < k + setItem.length + (varValue.length - next + 1) then
            (varValue, .error .crashed)
          else optimizerItems value fuel ((tail.dropWhile (· != 44)).drop 1)
            (varValue.take k ++ setItem ++ varValue.drop next)

def setSystemVarValueForOptimizerSwitch (value varValue : Bytes) : Bytes × Except Failure Unit :=
  optimizerItems value (value.length + 1) value varValue

def setSystemVarValueByVarName (varName : Bytes) (value : Option Bytes) (varValue : Bytes) :
    Bytes × Except Failure Unit :=
  if startsWith varName (ascii "optimizer_switch") then
    match value with
    | some value => setSystemVarValueForOptimizerSwitch value varValue
    | none => (varValue, .error .crashed)
  else (setSystemVarValue value, .ok ())

inductive Place
  | session (key : Bytes)
  | global (key : Bytes)
  | base (index : Nat)

def Place.put (systemVar : SystemVar) (s : State) : Place → State
  | .session key => { s with sessionSystemVars := some (Function.update s.session key (some systemVar)) }
  | .global key => { s with globalSystemVars := Function.update s.globalSystemVars key (some systemVar) }
  | .base index => { s with baseSystemVars := s.baseSystemVars.set index systemVar }

@[simp]
theorem Place.put_settings (place : Place) (systemVar : SystemVar) (s : State) :
    (place.put systemVar s).settings = s.settings := by
  cases place <;> rfl

def storeValue (place : Place) (systemVar : SystemVar) (varName : Bytes) (varValue : Option Bytes) : Proc Unit := do
  let outcome := setSystemVarValueByVarName varName varValue systemVar.varConfValue
  modify fun s => place.put { systemVar with varConfValue := outcome.1 } s
  ended outcome.2

/-- `hash_search`, and `dynAddSystemVar` if nothing is found. -/
def findOrAdd (env : Env) (find : State → Option SystemVar) (place : Place) (varName : Bytes) :
    Proc (Option (Place × SystemVar)) := do
  match find (← get) with
  | some systemVar => pure (some (place, systemVar))
  | none =>
    match ← dynAddSystemVar env varName with
    | some systemVar => return some (.base ((← get).baseSystemVars.length - 1), systemVar)
    | none => pure none

def readOnly (varName : Bytes) : Bytes := ascii "Variable '" ++ varName ++ ascii "' is a read only variable"

def SystemVar.sessionSettable (v : SystemVar) : Bool := v.sessionGlobalType != .globalOnly

def SystemVar.globalSettable (v : SystemVar) : Bool :=
  v.sessionGlobalType == .globalAndSession || v.sessionGlobalType == .globalOnly

def assignSession (env : Env) (varName : Bytes) (varValue : Option Bytes) : Option (Place × SystemVar) → Proc Unit
  | none => elog (unknownVariable varName)
  | some (place, systemVar) =>
    if systemVar.sessionSettable then
      if systemVar.isReadWrite then do
        storeValue place systemVar varName varValue
        applySystemVarValue env varName varValue
      else elog (readOnly varName)
    else
      elog (ascii "Variable '" ++ varName ++ ascii "' is a GLOBAL variable and should be set with SET GLOBAL")

def setSessionVariable (env : Env) (varName : Bytes) (varValue : Option Bytes) : Proc Unit := do
  let found ← findOrAdd env (fun s => s.session (key varName)) (.session (key varName)) varName
  assignSession env varName varValue found

def storeCopy (varName : Bytes) (varValue : Option Bytes) : Option SystemVar → Proc Unit
  | some systemVar => storeValue (.session (key varName)) systemVar varName varValue
  | none => elog (ascii "System session variable '" ++ varName ++ ascii "' does not exists(set)")

def setSessionCopy (varName : Bytes) (varValue : Option Bytes) : Proc Unit := do
  storeCopy varName varValue ((← get).session (key varName))

def SystemVar.copied (v : SystemVar) : Bool := v.sessionGlobalType == .globalOnly && v.sessionDefValueFromGlobal

def assignGlobal (varName : Bytes) (varValue : Option Bytes) : Option (Place × SystemVar) → Proc Unit
  | none => do
    unlockGlobalSystemVars
    elog (unknownVariable varName)
  | some (place, systemVar) =>
    if systemVar.globalSettable then
      if systemVar.isReadWrite then do
        storeValue place systemVar varName varValue
        unlockGlobalSystemVars
        if systemVar.copied then setSessionCopy varName varValue else pure ()
      else do
        unlockGlobalSystemVars
        elog (readOnly varName)
    else do
      unlockGlobalSystemVars
      elog (ascii "Variable '" ++ varName ++ ascii "' is a SESSION variable and can't be used with SET GLOBAL")

def setGlobalVariable (env : Env) (varName : Bytes) (varValue : Option Bytes) : Proc Unit := do
  lockGlobalSystemVars
  let found ← findOrAdd env (fun s => s.globalSystemVars (key varName)) (.global (key varName)) varName
  assignGlobal varName varValue found

def needSystemVariables (env : Env) : Proc Unit := do
  match (← get).sessionSystemVars with
  | none => initSystemVariables env
  | some _ => pure ()

def setSystemVariableValue (env : Env) (varName varValue : Option Bytes) (isSessionSystemVar : Bool) : Proc Unit := do
  needSystemVariables env
  match varName with
  | none => elog (ascii "Invalid system variable name(NULL)")
  | some varName => do
    let varName := lowerSystemVarName varName
    let varValue ← rectifySystemVarValue varName varValue isSessionSystemVar
    if isSessionSystemVar then setSessionVariable env varName varValue else setGlobalVariable env varName varValue

def displayed (rules : List Bytes) (v : SystemVar) : Option Bytes :=
  if rules = [] then some v.varConfValue
  else ((v.result.zip rules).find? fun pair => sameText v.varConfValue pair.1).map (·.2)

/-- `selectShowType`. -/
inductive Reading
  | select | show
deriving DecidableEq

def getConfValue (v : SystemVar) : Reading → Option Bytes
  | .select => displayed v.selectResult v
  | .show => displayed v.showResult v

def answerSession (varName : Bytes) (reading : Reading) : Option (Place × SystemVar) → Proc (Option Bytes)
  | some (_, systemVar) => pure (getConfValue systemVar reading)
  | none => elog (unknownVariable varName)

def answerGlobal (varName : Bytes) (reading : Reading) : Option (Place × SystemVar) → Proc (Option Bytes)
  | some (_, systemVar) => do
    unlockGlobalSystemVars
    if systemVar.sessionGlobalType = .sessionOnly then
      elog (ascii "Variable '" ++ varName ++ ascii "' is a SESSION variable")
    else pure (getConfValue systemVar reading)
  | none => do
    unlockGlobalSystemVars
    elog (unknownVariable varName)

/-- `getSystemVariableValueForSelect` and `getSystemVariableValueForShow`. -/
def getSystemVariableValue (env : Env) (varName : Option Bytes) (isSessionSystemVar : Bool) (reading : Reading) :
    Proc (Option Bytes) := do
  needSystemVariables env
  match varName with
  | none => elog (unknownVariable (ascii "(null)"))
  | some varName => do
    let varName := lowerSystemVarName varName
    if isSessionSystemVar then do
      let found ← findOrAdd env (fun s => s.session (key varName)) (.session (key varName)) varName
      answerSession varName reading found
    else do
      lockGlobalSystemVars
      let found ← findOrAdd env (fun s => s.globalSystemVars (key varName)) (.global (key varName)) varName
      answerGlobal varName reading found

theorem storeValue_eq (place : Place) (v : SystemVar) (varName : Bytes) (varValue : Option Bytes) (s : State) :
    storeValue place v varName varValue s =
      match (setSystemVarValueByVarName varName varValue v.varConfValue).2 with
      | .ok () =>
          .ok () (place.put { v with varConfValue := (setSystemVarValueByVarName varName varValue v.varConfValue).1 } s)
      | .error failure =>
        .error failure (place.put { v with varConfValue := (setSystemVarValueByVarName varName varValue
          v.varConfValue).1 } s) := by
  rw [storeValue]
  cases (setSystemVarValueByVarName varName varValue v.varConfValue).2 <;> rfl

theorem applySystemVarValue_eq (env : Env) (varName : Bytes) (varValue : Option Bytes) (s : State) :
    applySystemVarValue env varName varValue s =
      match (applied env varName varValue s.settings).2 with
      | .ok () => .ok () { s with settings := (applied env varName varValue s.settings).1 }
      | .error failure => .error failure { s with settings := (applied env varName varValue s.settings).1 } := by
  rw [applySystemVarValue, Process.get_bind]
  cases (applied env varName varValue s.settings).2 <;> rfl

variable {env : Env} {v : SystemVar} {rows : List Row}

theorem findOrAdd_found {find : State → Option SystemVar} {place : Place}
    (found : find s = some v) : findOrAdd env find place varName s = .ok (some (place, v)) s := by
  rw [findOrAdd, Process.get_bind, found]
  rfl

def Refused (varName : Bytes) (rows : List Row) (s : State) : Prop :=
  (findRow varName rows).bind initBaseSystemVar = none ∨ SYSTEM_VAR_MAX_NUM ≤ s.baseSystemVars.length

theorem dynAddSystemVar_unread (unread : env.rows = .error message) (varName : Bytes) (s : State) :
    dynAddSystemVar env varName s = .error (.raised message) s := by
  rw [dynAddSystemVar, readBaseVariablesTable, unread]
  exact Process.bind_error rfl

theorem dynAddSystemVar_read (read : env.rows = .ok rows) (varName : Bytes) (s : State) :
    dynAddSystemVar env varName s = addSystemVar env ((findRow varName rows).bind initBaseSystemVar) s := by
  rw [dynAddSystemVar, readBaseVariablesTable, read]
  rfl

theorem dynAddSystemVar_refused (read : env.rows = .ok rows) (refused : Refused varName rows s) :
    dynAddSystemVar env varName s = .ok none s := by
  rw [dynAddSystemVar_read read]
  cases valid : (findRow varName rows).bind initBaseSystemVar with
  | none => rfl
  | some v =>
    have full : ¬ s.baseSystemVars.length < SYSTEM_VAR_MAX_NUM := by
      rcases refused with invalid | full
      · rw [valid] at invalid
        cases invalid
      · omega
    have added : add2BaseSystemVars v s = .ok false s := by
      rw [add2BaseSystemVars, Process.get_bind, if_neg full]
      rfl
    exact Process.bind_ok added

def State.added (env : Env) (v : SystemVar) (s : State) : State where
  baseSystemVars := s.baseSystemVars ++ [v]
  sessionSystemVars := some (enter env s.session v)
  globalSystemVars := enter env s.globalSystemVars v
  locked := s.locked
  settings := s.settings

theorem enter_isSome (env : Env) (table : Table) (v : SystemVar) :
    ∃ entry, enter env table v (key v.varName) = some entry := by
  rw [enter]
  cases found : table (key v.varName) with
  | some entry => exact ⟨entry, found⟩
  | none => exact ⟨_, Function.update_self _ _ _⟩

theorem dynAddSystemVar_added (read : env.rows = .ok rows)
    (valid : (findRow varName rows).bind initBaseSystemVar = some v)
    (room : s.baseSystemVars.length < SYSTEM_VAR_MAX_NUM) :
    ∃ settings, dynAddSystemVar env varName s = .ok (some v) { s.added env v with settings := settings } ∨
      ∃ failure, dynAddSystemVar env varName s = .error failure { s.added env v with settings := settings } := by
  have inBase : add2BaseSystemVars v s = .ok true { s with baseSystemVars := s.baseSystemVars ++ [v] } := by
    rw [add2BaseSystemVars, Process.get_bind, if_pos room]
    rfl
  obtain ⟨entry, entered⟩ := enter_isSome env s.session v
  have applying : add2SessionSystemVars env v
      { s with baseSystemVars := s.baseSystemVars ++ [v], globalSystemVars := enter env s.globalSystemVars v } =
        applySystemVarValue env entry.varName (some entry.varConfValue) (s.added env v) := by
    have found : (s.added env v).session (key v.varName) = some entry := entered
    change applyEntry env ((s.added env v).session (key v.varName)) (s.added env v) = _
    rw [found]
    rfl
  have settled := applySystemVarValue_eq env entry.varName (some entry.varConfValue) (s.added env v)
  refine ⟨(applied env entry.varName (some entry.varConfValue) s.settings).1, ?_⟩
  rw [dynAddSystemVar_read read, valid, addSystemVar, Process.bind_ok inBase, if_pos rfl, add2GlobalSystemVars,
    Process.modify_bind]
  cases outcome : (applied env entry.varName (some entry.varConfValue) (s.added env v).settings).2 with
  | ok _ =>
    rw [outcome] at settled
    exact .inl (Process.bind_ok (applying.trans settled))
  | error failure =>
    rw [outcome] at settled
    exact .inr ⟨failure, Process.bind_error (applying.trans settled)⟩

theorem lower_lower (c : UInt8) : lower (lower c) = lower c := by
  revert c
  apply forall_byte
  decide +kernel

theorem lowerSystemVarName_lower (varName : Bytes) :
    lowerSystemVarName (lowerSystemVarName varName) = lowerSystemVarName varName := by
  rw [lowerSystemVarName, lowerSystemVarName, map_map]
  exact map_congr_left fun c _ => lower_lower c

theorem lower_ne_zero {c : UInt8} (text : c ≠ 0) : lower c ≠ 0 := by
  have all : ∀ c : UInt8, c ≠ 0 → lower c ≠ 0 := by
    apply forall_byte
    decide +kernel
  exact all c text

theorem sameText_lower {a b : Bytes} (text : 0 ∉ a) (same : sameText a b = true) :
    lowerSystemVarName b = lowerSystemVarName a := by
  induction a generalizing b with
  | nil =>
    cases b with
    | nil => rfl
    | cons d b => simp [sameText] at same
  | cons c a ih =>
    cases b with
    | nil => simp [sameText] at same
    | cons d b =>
      obtain ⟨head, tail⟩ := not_or.mp (fun zero => text (mem_cons.mpr zero))
      simp only [sameText, length_cons, eqNoCase, headD_cons, tail_cons, Bool.and_eq_true, beq_iff_eq,
        Bool.or_eq_true, lower_ne_zero (Ne.symm head), false_or, Nat.add_right_cancel_iff] at same
      obtain ⟨lengths, letters, rest⟩ := same
      have tails := ih (b := b) tail (by rw [sameText, rest, lengths, beq_self_eq_true, Bool.and_true])
      simp only [lowerSystemVarName, map_cons] at tails ⊢
      rw [letters, tails]

theorem findRow_name (text : 0 ∉ varName) {row : Row} (found : findRow varName rows = some row) :
    lowerSystemVarName row.variable_name = lowerSystemVarName varName :=
  sameText_lower text (List.find?_some (p := fun row : Row => sameText varName row.variable_name) found)

theorem initBaseSystemVar_key (text : 0 ∉ varName) (lowered : lowerSystemVarName varName = varName)
    (valid : (findRow varName rows).bind initBaseSystemVar = some v) : key v.varName = key varName := by
  obtain ⟨row, found, parsed⟩ := Option.bind_eq_some_iff.mp valid
  obtain ⟨type, _, parsed⟩ := Option.bind_eq_some_iff.mp parsed
  obtain ⟨result, _, parsed⟩ := Option.bind_eq_some_iff.mp parsed
  obtain ⟨selectResult, _, parsed⟩ := Option.bind_eq_some_iff.mp parsed
  obtain ⟨showResult, _, parsed⟩ := Option.bind_eq_some_iff.mp parsed
  have name : v.varName = (lowerSystemVarName row.variable_name).take (SYSTEM_VAR_NAME_MAX_LEN - 1) := by
    split at parsed
    · cases parsed
    split at parsed
    · cases parsed
    · cases parsed
      rfl
  rw [name, findRow_name text found, lowered, key, key, take_take, Nat.min_self]

end OpenHalo.SysVars
