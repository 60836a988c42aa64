import OpenHalo.Lib.Blanks

namespace OpenHalo.TimeArgs
open Octets Memory Function

/-- `isspace` in the C locale. -/
def isspace (b : UInt8) : Bool := b == 32 || (9 ≤ b && b ≤ 13)

inductive TimeError
  | incorrectTimeValue
  | badFormat
  | outOfRange
  | truncated
deriving Repr, DecidableEq

/-- The broken-down time of an argument, as `tm2time` and as `tm2timestamp` convert it. -/
structure TimeValue where
  tm_year : Int
  time : Int
  timestamp : Int
  sign : Int
deriving Repr, DecidableEq

structure TimeLibrary where
  decode : Bytes → Except TimeError TimeValue

/-- Nothing but blanks and a sign: `mysPreTimeInInternal` gives no string. -/
def noTime (str : Bytes) : Bool :=
  match str.dropWhile isspace with
  | 45 :: rest | rest => rest.isEmpty

def mysPreTimeInForSubtime (lib : TimeLibrary) (str : Bytes) : Except TimeError TimeValue :=
  if noTime str then .error .incorrectTimeValue else lib.decode str

def terminated (c : ArgPair) : Mem := update (update c.mem (c.str1 + c.len1) 0) (c.str2 + c.len2) 0

/-- The bytes `oriCha0` and `oriCha1`, which were read before, are put back. -/
def putBack (c : ArgPair) (m : Mem) : Mem :=
  update (update m (c.str1 + c.len1) (c.mem (c.str1 + c.len1))) (c.str2 + c.len2) (c.mem (c.str2 + c.len2))

/-- The beginning of the functions: an error leaves them before the bytes are put back. -/
def readTimes (lib : TimeLibrary) (c : ArgPair) : Except TimeError (TimeValue × TimeValue) × Mem :=
  match mysPreTimeInForSubtime lib (cstr (read (terminated c) c.str1 (c.len1 + 1))) with
  | .error e => (.error e, terminated c)
  | .ok tm0 =>
    match mysPreTimeInForSubtime lib (cstr (read (terminated c) c.str2 (c.len2 + 1))) with
    | .error e => (.error e, terminated c)
    | .ok tm1 => (.ok (tm0, tm1), putBack c (terminated c))

inductive TimeResult
  | null
  | timestamp (value : Int)
  | time (value : Int)
deriving Repr, DecidableEq

def MYS_MAX_TIME_HOUR : Int := 838

def USECS_PER_HOUR : Int := 3600000000

def timeResult (value : Int) : Except TimeError TimeResult :=
  if MYS_MAX_TIME_HOUR < value.tdiv USECS_PER_HOUR ∨
    value.tdiv USECS_PER_HOUR < -MYS_MAX_TIME_HOUR then .error .truncated
  else .ok (.time value)

def shiftTime (op : Int → Int → Int) (tm0 tm1 : TimeValue) : Except TimeError TimeResult :=
  if 0 < tm1.tm_year then .ok .null
  else if 0 < tm0.tm_year then .ok (.timestamp (op (tm0.sign * tm0.timestamp) (tm1.sign * tm1.time)))
  else timeResult (op (tm0.sign * tm0.time) (tm1.sign * tm1.time))

def subtractTimes (tm0 tm1 : TimeValue) : Except TimeError TimeResult :=
  if 0 < tm0.tm_year ∧ tm1.tm_year = 0 ∨ tm0.tm_year = 0 ∧ 0 < tm1.tm_year then .ok .null
  else if 0 < tm0.tm_year then timeResult (tm0.sign * tm0.timestamp - tm1.sign * tm1.timestamp)
  else timeResult (tm0.sign * tm0.time - tm1.sign * tm1.time)

/-- The arguments are read, and then the result is computed from what they say. -/
def onTimes (result : TimeValue → TimeValue → Except TimeError TimeResult) (lib : TimeLibrary) (c : ArgPair) :
    Except TimeError TimeResult × Mem :=
  match readTimes lib c with
  | (.error e, m) => (.error e, m)
  | (.ok (tm0, tm1), m) => (result tm0 tm1, m)

def subtime (lib : TimeLibrary) (c : ArgPair) : Except TimeError TimeResult × Mem := onTimes (shiftTime (· - ·)) lib c

def addtime (lib : TimeLibrary) (c : ArgPair) : Except TimeError TimeResult × Mem := onTimes (shiftTime (· + ·)) lib c

def timediff (lib : TimeLibrary) (c : ArgPair) : Except TimeError TimeResult × Mem := onTimes subtractTimes lib c

def Reads (lib : TimeLibrary) (text : Bytes) : Prop := ∃ tm, mysPreTimeInForSubtime lib (cstr text) = .ok tm

/-- All three functions leave the arguments and the bytes behind them as they were. -/
def TimesKept (lib : TimeLibrary) (c : ArgPair) : Prop :=
  c.Unchanged (subtime lib c).2 ∧ c.Unchanged (addtime lib c).2 ∧ c.Unchanged (timediff lib c).2

section Terminators

variable (c : ArgPair)

theorem cstr_terminator (s : Bytes) : cstr (s ++ [0]) = cstr s := by
  induction s with
  | nil => rfl
  | cons b s ih =>
    rw [List.cons_append, cstr, List.takeWhile_cons, cstr, List.takeWhile_cons]
    exact congrArg (fun rest => if (b != 0) = true then b :: rest else []) ih

theorem cstr_terminated :
    cstr (read (terminated c) c.str1 (c.len1 + 1)) = cstr c.first ∧
    cstr (read (terminated c) c.str2 (c.len2 + 1)) = cstr c.second := by
  have apart := c.apart
  have kept (i : Nat) (first : i ≠ c.str1 + c.len1) (second : i ≠ c.str2 + c.len2) : terminated c i = c.mem i := by
    rw [terminated, update_of_ne second, update_of_ne first]
  have nul1 : terminated c (c.str1 + c.len1) = 0 := by
    rw [terminated, update_apply, update_self]
    exact ite_self 0
  have nul2 : terminated c (c.str2 + c.len2) = 0 := update_self _ _ _
  rw [read_concat, read_concat, nul1, nul2, cstr_terminator, cstr_terminator]
  constructor <;>
  · congr 1
    apply read_congr
    intro i lower upper
    exact kept i (by omega) (by omega)

theorem unchanged_terminated_iff :
    c.Unchanged (terminated c) ↔ c.mem (c.str1 + c.len1) = 0 ∧ c.mem (c.str2 + c.len2) = 0 := by
  constructor
  · rintro ⟨first, second⟩
    have end1 := first c.len1 (Nat.le_refl _)
    have end2 := second c.len2 (Nat.le_refl _)
    rw [terminated, update_apply, update_self, ite_self] at end1
    rw [terminated, update_self] at end2
    exact ⟨end1.symm, end2.symm⟩
  · rintro ⟨end1, end2⟩
    have same : terminated c = c.mem := by
      have first : update c.mem (c.str1 + c.len1) 0 = c.mem := update_eq_self_iff.mpr end1.symm
      rw [terminated, first]
      exact update_eq_self_iff.mpr end2.symm
    rw [same]
    exact c.unchanged_rfl

theorem putBack_terminated : putBack c (terminated c) = c.mem := by
  funext i
  rw [putBack, terminated, update_apply, update_apply, update_apply, update_apply]
  split
  next second => rw [second]
  next =>
    split
    next first => rw [first]
    next => rfl

end Terminators

variable {lib : TimeLibrary} {c : ArgPair}

theorem readTimes_cases (lib : TimeLibrary) (c : ArgPair) :
    (Reads lib c.first ∧ Reads lib c.second ∧ ∃ tms, readTimes lib c = (.ok tms, c.mem)) ∨
      (¬ (Reads lib c.first ∧ Reads lib c.second) ∧ ∃ e, readTimes lib c = (.error e, terminated c)) := by
  obtain ⟨text1, text2⟩ := cstr_terminated c
  rw [readTimes, text1, text2, Reads, Reads]
  cases mysPreTimeInForSubtime lib (cstr c.first) with
  | error e => exact .inr ⟨by simp, e, rfl⟩
  | ok tm0 =>
    cases mysPreTimeInForSubtime lib (cstr c.second) with
    | error e => exact .inr ⟨by simp, e, rfl⟩
    | ok tm1 => exact .inl ⟨⟨tm0, rfl⟩, ⟨tm1, rfl⟩, (tm0, tm1), by rw [putBack_terminated]⟩

theorem onTimes_unchanged_iff (result : TimeValue → TimeValue → Except TimeError TimeResult) :
    c.Unchanged (onTimes result lib c).2 ↔
      Reads lib c.first ∧ Reads lib c.second ∨ c.mem (c.str1 + c.len1) = 0 ∧ c.mem (c.str2 + c.len2) = 0 := by
  rw [onTimes]
  rcases readTimes_cases lib c with ⟨first, second, tms, done⟩ | ⟨unread, e, raised⟩
  · rw [done]
    exact ⟨fun _ => .inl ⟨first, second⟩, fun _ => c.unchanged_rfl⟩
  rw [raised]
  rw [unchanged_terminated_iff]
  exact ⟨.inr, fun either => either.resolve_left unread⟩

/-- The arguments are kept exactly if both are read without an error, or have NULs behind them. -/
theorem time_arguments_kept_iff (lib : TimeLibrary) (c : ArgPair) :
    TimesKept lib c ↔
      Reads lib c.first ∧ Reads lib c.second ∨ c.mem (c.str1 + c.len1) = 0 ∧ c.mem (c.str2 + c.len2) = 0 := by
  rw [TimesKept, subtime, addtime, timediff, onTimes_unchanged_iff, onTimes_unchanged_iff, onTimes_unchanged_iff,
    and_self, and_self]

/-- The texts `-` and `1`, with other bytes behind them. -/
def signOnly : ArgPair := ⟨load (ascii "-#1#") 0 fun _ => 0, 0, 1, 2, 1, by decide⟩

/-- A sign is no time, and the bytes behind both arguments are NUL afterwards. -/
theorem time_arguments_overwritten :
    (signOnly.mem 1 = 35 ∧ signOnly.mem 3 = 35) ∧
      ∀ lib, (subtime lib signOnly).1 = .error .incorrectTimeValue ∧ (subtime lib signOnly).2 1 = 0 ∧
        (subtime lib signOnly).2 3 = 0 ∧ ¬ TimesKept lib signOnly := by
  refine ⟨⟨rfl, rfl⟩, fun lib => ⟨rfl, rfl, rfl, fun kept => ?_⟩⟩
  have byte := kept.1.1 1 (by decide)
  cases byte

end OpenHalo.TimeArgs
