import OpenHalo.Sequence
import OpenHalo.Lib.Machine

namespace OpenHalo
open Octets Machine

variable {newStartValue next r v : Int} {isCalled stale : Bool} {backend : Nat}

/-- A table with an AUTO_INCREMENT column, its sequence, and what each backend remembers of that. -/
structure AutoIncTable where
  rows : List Int
  seq : SeqTuple
  elms : Nat → SeqElm

def AutoIncTable.created : AutoIncTable := ⟨[], ⟨1, 0, false⟩, fun _ => ⟨0, 0, 0, false⟩⟩

/-- A value for the column, or an ALTER TABLE .. AUTO_INCREMENT=n, from some backend. -/
inductive AutoIncStmt
  | insert (backend : Nat) (stale : Bool) (new : Option Int)
  | alter (backend : Nat) (newStartValue : Int)
deriving Repr, DecidableEq

def AutoIncTable.sequence (t : AutoIncTable) (backend : Nat) (elm : SeqElm) (seq : SeqTuple) : AutoIncTable :=
  { t with seq := seq, elms := fun b => if b = backend then elm else t.elms b }

/-- What becomes of a row: the value stored and whether the sequence gave it. -/
structure Stored where
  value : Int
  generated : Bool
deriving Repr, DecidableEq

/-- The BEFORE INSERT trigger of `createAutoIncrementTriggerFunc`. -/
def autoIncrementTrigger (form : SeqForm) (relname : Bytes) (t : AutoIncTable) (backend : Nat) (stale : Bool)
    (new : Option Int) : Except ErrorData (Stored × AutoIncTable) :=
  let generate :=
    match nextval_internal form relname stale (t.elms backend) t.seq with
    | .ok (r, elm, seq) => .ok (⟨r, true⟩, t.sequence backend elm seq)
    | .error edata => .error edata
  match new with
  | some v =>
    if 0 < v then
      match mys_setval3_oid form relname (t.elms backend) t.seq v true with
      | .ok (elm, seq) => .ok (⟨v, false⟩, t.sequence backend elm seq)
      | .error edata => .error edata
    else if v = 0 then generate
    else .ok (⟨v, false⟩, t)
  | none => generate

def ATExecTableOptionAutoIncrement (form : SeqForm) (relname : Bytes) (t : AutoIncTable) (backend : Nat)
    (newStartValue : Int) (isTableEmpty : Bool) : Except ErrorData AutoIncTable :=
  let set :=
    if isTableEmpty then do_setval form relname (t.elms backend) newStartValue false
    else mys_setval3_oid form relname (t.elms backend) t.seq newStartValue false
  match set with
  | .ok (elm, seq) => .ok (t.sequence backend elm seq)
  | .error edata => .error edata

def autoIncStep (form : SeqForm) (relname : Bytes) (t : AutoIncTable) :
    AutoIncStmt → AutoIncTable × Except ErrorData (Option Stored)
  | .insert backend stale new =>
    match autoIncrementTrigger form relname t backend stale new with
    | .ok (stored, t) => ({ t with rows := stored.value :: t.rows }, .ok (some stored))
    | .error edata => (t, .error edata)
  | .alter backend newStartValue =>
    match ATExecTableOptionAutoIncrement form relname t backend newStartValue t.rows.isEmpty with
    | .ok t => (t, .ok none)
    | .error edata => (t, .error edata)

/-- What is stored is behind the next value of the sequence, and no backend hoards values. -/
structure Ahead (t : AutoIncTable) : Prop where
  rows : ∀ w ∈ t.rows, w < t.seq.upcoming
  started : 1 ≤ t.seq.last_value
  synced : ∀ backend, (t.elms backend).last = (t.elms backend).cached

variable {elm : SeqElm} {seq : SeqTuple} {t : AutoIncTable} {form : SeqForm} {relname : Bytes}

theorem Ahead.sequence (ahead : Ahead t) (backend : Nat) (rows : ∀ w ∈ t.rows, w < seq.upcoming)
    (started : 1 ≤ seq.last_value) (synced : elm.last = elm.cached) : Ahead (t.sequence backend elm seq) := by
  refine ⟨rows, started, fun b => ?_⟩
  simp only [AutoIncTable.sequence]
  by_cases own : b = backend
  · rw [if_pos own]
    exact synced
  · rw [if_neg own]
    exact ahead.synced b

theorem setval_done {function : String} {elm elm' : SeqElm}
    (done : setval function form relname elm next isCalled = .ok (elm', seq)) :
    elm'.last = elm'.cached ∧ seq = ⟨next, 0, isCalled⟩ ∧ form.seqmin ≤ next := by
  unfold setval at done
  by_cases out : next < form.seqmin ∨ form.seqmax < next
  · rw [if_pos out] at done
    cases done
  · rw [if_neg out] at done
    cases done
    exact ⟨rfl, rfl, by omega⟩

theorem SeqTuple.upcoming_bounds (seq : SeqTuple) :
    seq.last_value ≤ seq.upcoming ∧ seq.upcoming ≤ seq.last_value + 1 := by
  unfold SeqTuple.upcoming
  split <;> omega

/-- `mys_setval3_oid` never moves the sequence back. -/
theorem mys_setval3_oid_done {elm elm' : SeqElm} {seq seq' : SeqTuple}
    (synced : elm.last = elm.cached) (done : mys_setval3_oid form relname elm seq next isCalled = .ok (elm', seq')) :
    elm'.last = elm'.cached ∧
      (seq.last_value < next ∧ seq' = ⟨next, 0, isCalled⟩ ∨ next ≤ seq.last_value ∧ seq' = seq) := by
  unfold mys_setval3_oid at done
  by_cases beyond : seq.last_value < next
  · rw [if_pos beyond] at done
    obtain ⟨kept, moved, _⟩ := setval_done done
    exact ⟨kept, .inl ⟨beyond, moved⟩⟩
  · rw [if_neg beyond] at done
    cases done
    exact ⟨synced, .inr ⟨by omega, rfl⟩⟩

/-- The value is not the one the sequence is about to hand out for the first time. -/
def OffStart (t : AutoIncTable) : AutoIncStmt → Prop
  | .insert _ _ (some v) => 0 < v → v = t.seq.last_value → t.seq.is_called = true
  | .insert _ _ none => True
  | .alter _ _ => True

def FreshStep (form : SeqForm) (relname : Bytes) (t : AutoIncTable) (stmt : AutoIncStmt) : Prop :=
  ∀ r, (autoIncStep form relname t stmt).2 = .ok (some ⟨r, true⟩) → ∀ w ∈ t.rows, w < r

/-- What the trigger leaves: nothing stored has moved, and the new value is behind the sequence and, if
generated, ahead of the table. -/
structure Triggered (t : AutoIncTable) (stored : Stored) (next : AutoIncTable) : Prop where
  ahead : Ahead next
  rows : next.rows = t.rows
  behind : stored.value < next.seq.upcoming
  fresh : stored.generated = true → ∀ w ∈ t.rows, w < stored.value

theorem Ahead.generate (serial : form.Serial) (ahead : Ahead t) (backend : Nat)
    (done : nextval_internal form relname stale (t.elms backend) t.seq = .ok (r, elm, seq)) :
    Triggered t ⟨r, true⟩ (t.sequence backend elm seq) := by
  obtain ⟨value, synced, last, called⟩ := nextval_internal_serial serial (ahead.synced backend) done
  have passed : seq.upcoming = r + 1 := by
    rw [SeqTuple.upcoming, called, if_pos rfl, last]
  have lower := t.seq.upcoming_bounds.1
  have started := ahead.started
  have fresh : ∀ w ∈ t.rows, w < r := by
    intro w member
    rw [value]
    exact ahead.rows w member
  refine ⟨ahead.sequence backend (fun w member => ?_) (by omega) synced, rfl, ?_, fun _ => fresh⟩
  · have below := fresh w member
    omega
  · show r < seq.upcoming
    omega

theorem Ahead.explicit (ahead : Ahead t) (backend : Nat) (off : v = t.seq.last_value → t.seq.is_called = true)
    (done : mys_setval3_oid form relname (t.elms backend) t.seq v true = .ok (elm, seq)) :
    Triggered t ⟨v, false⟩ (t.sequence backend elm seq) := by
  have started := ahead.started
  obtain ⟨lower, upper⟩ := t.seq.upcoming_bounds
  obtain ⟨synced, ⟨beyond, moved⟩ | ⟨within, kept⟩⟩ := mys_setval3_oid_done (ahead.synced backend) done
  · subst moved
    have passed : SeqTuple.upcoming ⟨v, 0, true⟩ = v + 1 := rfl
    refine ⟨ahead.sequence backend (fun w member => ?_) (by show 1 ≤ v; omega) synced, rfl, ?_, nofun⟩
    · have below := ahead.rows w member
      omega
    · show v < SeqTuple.upcoming ⟨v, 0, true⟩
      omega
  · subst kept
    refine ⟨ahead.sequence backend ahead.rows started synced, rfl, ?_, nofun⟩
    show v < t.seq.upcoming
    by_cases level : v = t.seq.last_value
    · rw [SeqTuple.upcoming, off level, if_pos rfl]
      omega
    · omega

theorem autoIncrementTrigger_triggered (serial : form.Serial) {t next : AutoIncTable} (ahead : Ahead t)
    {new : Option Int} {stored : Stored} (off : OffStart t (.insert backend stale new))
    (done : autoIncrementTrigger form relname t backend stale new = .ok (stored, next)) : Triggered t stored next := by
  have generated : ∀ {r elm seq}, nextval_internal form relname stale (t.elms backend) t.seq = .ok (r, elm, seq) →
      Triggered t ⟨r, true⟩ (t.sequence backend elm seq) := fun done => ahead.generate serial backend done
  unfold autoIncrementTrigger at done
  cases new with
  | none =>
    dsimp only at done
    split at done
    · rename_i numbered
      cases done
      exact generated numbered
    · cases done
  | some v =>
    dsimp only at done
    by_cases positive : 0 < v
    · rw [if_pos positive] at done
      split at done
      · rename_i set
        cases done
        exact ahead.explicit backend (off positive) set
      · cases done
    · rw [if_neg positive] at done
      split at done
      · split at done
        · rename_i numbered
          cases done
          exact generated numbered
        · cases done
      · cases done
        have started := ahead.started
        have lower := t.seq.upcoming_bounds.1
        exact ⟨ahead, rfl, by show v < t.seq.upcoming; omega, nofun⟩

theorem ATExecTableOptionAutoIncrement_ahead (serial : form.Serial) {t next : AutoIncTable} (ahead : Ahead t)
    (done : ATExecTableOptionAutoIncrement form relname t backend newStartValue t.rows.isEmpty = .ok next) :
    Ahead next := by
  have started := ahead.started
  obtain ⟨lower, upper⟩ := t.seq.upcoming_bounds
  unfold ATExecTableOptionAutoIncrement at done
  dsimp only at done
  split at done
  · rename_i elm seq set
    cases done
    by_cases empty : t.rows.isEmpty = true
    · rw [if_pos empty] at set
      obtain ⟨synced, moved, least⟩ := setval_done set
      subst moved
      rw [serial.minimum] at least
      refine ahead.sequence backend (fun w member => ?_) least synced
      rw [List.isEmpty_iff.mp empty] at member
      cases member
    · rw [if_neg empty] at set
      obtain ⟨synced, ⟨beyond, moved⟩ | ⟨_, kept⟩⟩ := mys_setval3_oid_done (ahead.synced backend) set
      · subst moved
        have passed : SeqTuple.upcoming ⟨newStartValue, 0, false⟩ = newStartValue := rfl
        refine ahead.sequence backend (fun w member => ?_) (by show 1 ≤ newStartValue; omega) synced
        have below := ahead.rows w member
        omega
      · subst kept
        exact ahead.sequence backend ahead.rows started synced
  · cases done

theorem autoIncStep_ahead (serial : form.Serial) (ahead : Ahead t) {stmt : AutoIncStmt} (off : OffStart t stmt) :
    FreshStep form relname t stmt ∧ Ahead (autoIncStep form relname t stmt).1 := by
  cases stmt with
  | insert backend stale new =>
    dsimp only [FreshStep, autoIncStep]
    cases done : autoIncrementTrigger form relname t backend stale new with
    | error edata => exact ⟨nofun, ahead⟩
    | ok outcome =>
      obtain ⟨stored, next⟩ := outcome
      have triggered := autoIncrementTrigger_triggered serial ahead off done
      refine ⟨fun r generated => ?_, fun w member => ?_, triggered.ahead.started, triggered.ahead.synced⟩
      · cases generated
        exact triggered.fresh rfl
      · rcases List.mem_cons.mp member with same | old
        · rw [same]
          exact triggered.behind
        · exact triggered.ahead.rows w old
  | alter backend newStartValue =>
    dsimp only [FreshStep, autoIncStep]
    cases done : ATExecTableOptionAutoIncrement form relname t backend newStartValue t.rows.isEmpty with
    | error edata => exact ⟨nofun, ahead⟩
    | ok next => exact ⟨nofun, ATExecTableOptionAutoIncrement_ahead serial ahead done⟩

/-- Generated values are fresh as long as no explicit value is the first one the sequence would hand out. -/
theorem autoIncrement_fresh (form : SeqForm) (serial : form.Serial) (relname : Bytes) (stmts : List AutoIncStmt)
    (off : Along (autoIncStep form relname) OffStart .created stmts) :
    Along (autoIncStep form relname) (FreshStep form relname) .created stmts := by
  have start : Ahead .created := ⟨nofun, Int.le_refl 1, fun _ => rfl⟩
  exact off.of_invariant (fun _ _ ahead off => autoIncStep_ahead serial ahead off) start

def SeqForm.bigint : SeqForm := ⟨1, 9223372036854775807, 1, 1, false⟩

theorem autoIncrement_fresh_mixed :
    Along (autoIncStep .bigint (ascii "t_id_seq")) (FreshStep .bigint (ascii "t_id_seq")) .created
      [.insert 0 false none, .insert 1 false (some 7), .alter 0 20, .insert 0 true (some 0)] := by
  apply autoIncrement_fresh .bigint ⟨rfl, rfl, rfl, rfl⟩
  exact ⟨trivial, nofun, trivial, nofun, trivial⟩

/-- The first value of the sequence, inserted by hand, is generated once more. -/
theorem autoIncrement_repeats_first :
    ¬ Along (autoIncStep .bigint (ascii "t_id_seq")) (FreshStep .bigint (ascii "t_id_seq")) .created
      [.insert 0 false (some 1), .insert 0 false none] := by
  intro fresh
  have smaller := fresh.2.1 1 rfl 1 (List.mem_singleton_self 1)
  omega

end OpenHalo
