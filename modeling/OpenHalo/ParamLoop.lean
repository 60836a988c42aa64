import OpenHalo.PreStmtInPlace

namespace OpenHalo
open Octets Memory Memory.Prog

variable {i k left size : Nat} {c : Cursor}

section loop
variable (src : Mem) (allSet : Bool) (types : Nat → Nat) (oldStmt newStmt : Nat)

/-- The loop can be stopped at any parameter and resumed there. -/
theorem assembleParams_add (a b i : Nat) (c : Cursor) :
    assembleParams allSet types oldStmt newStmt (a + b) i c = (do
      let d ← assembleParams allSet types oldStmt newStmt a i c
      assembleParams allSet types oldStmt newStmt b (i + a) d) := by
  induction a generalizing i c with
  | zero => rw [Nat.zero_add]; rfl
  | succ a ih =>
    have count : a + 1 + b = (a + b) + 1 := by omega
    have place : i + 1 + a = i + (a + 1) := by omega
    rw [count, assembleParams, assembleParams]
    simp only [bind_bind, ih, place]

/-- The first parameter is rendered, and the others behind it. -/
theorem valueFrom_assembleParams_succ (left i : Nat) (c : Cursor) :
    let rendered := paramRender src (nullBit src allSet oldStmt i) (types i) (oldStmt + c.inp)
    valueFrom src (assembleParams allSet types oldStmt newStmt (left + 1) i c) =
      valueFrom src (assembleParams allSet types oldStmt newStmt left (i + 1)
        ⟨c.out + rendered.2.length + 1, c.inp + rendered.1⟩) := by
  obtain ⟨_, _, value⟩ := assembleParam_writes src (nullBit src allSet oldStmt i) (types i) oldStmt newStmt c
  rw [assembleParams, valueFrom_bind, isNullParam_value, valueFrom_bind, value.value, valueFrom_bind]

/-- The last parameter is rendered behind the others. -/
theorem valueFrom_assembleParams_last (k i : Nat) (c : Cursor) :
    let before := valueFrom src (assembleParams allSet types oldStmt newStmt k i c)
    let rendered := paramRender src (nullBit src allSet oldStmt (i + k)) (types (i + k)) (oldStmt + before.inp)
    valueFrom src (assembleParams allSet types oldStmt newStmt (k + 1) i c) =
      ⟨before.out + rendered.2.length + 1, before.inp + rendered.1⟩ := by
  rw [assembleParams_add, valueFrom_bind, valueFrom_assembleParams_succ]
  rfl

variable {src allSet types oldStmt newStmt}

/-- What keeping behind says of one turn. -/
theorem KeepsBehind.turn (keeps : KeepsBehind src allSet types oldStmt newStmt left i c)
    (early : k < left) :
    let d := valueFrom src (assembleParams allSet types oldStmt newStmt k i c)
    (allSet = false → newStmt + d.out ≤ oldStmt + 9 + (i + k) / 8) ∧
      (paramTakes (nullBit src allSet oldStmt (i + k)) (types (i + k)) = true → newStmt + d.out ≤ oldStmt + d.inp) := by
  induction left generalizing i c k with
  | zero => omega
  | succ left ih =>
    obtain ⟨bitmap, value, later⟩ := keeps
    cases k with
    | zero => exact ⟨bitmap, value⟩
    | succ k =>
      have place : i + 1 + k = i + (k + 1) := by omega
      have rest := ih later (show k < left by omega)
      rw [place, ← valueFrom_assembleParams_succ] at rest
      exact rest

theorem KeepsBehind.fewer (keeps : KeepsBehind src allSet types oldStmt newStmt left i c)
    (less : k ≤ left) : KeepsBehind src allSet types oldStmt newStmt k i c := by
  induction left generalizing i c k with
  | zero =>
    obtain rfl : k = 0 := by omega
    trivial
  | succ left ih =>
    cases k with
    | zero => trivial
    | succ k =>
      obtain ⟨bitmap, value, later⟩ := keeps
      exact ⟨bitmap, value, ih later (by omega)⟩

section inPlace
variable {left i : Nat} {c : Cursor} {written : Nat → Bool} {low : Nat} {m : Mem}
  (keeps : KeepsBehind src allSet types oldStmt newStmt left i c) (filled : Filled written low (newStmt + c.out))
  (above : low ≤ oldStmt) (agree : Agree written src m)
include keeps filled above agree

/-- In place the cursors move as on a copy of the packet. -/
theorem KeepsBehind.cursor (less : k ≤ left) :
    ((assembleParams allSet types oldStmt newStmt k i c).run m).1 =
      valueFrom src (assembleParams allSet types oldStmt newStmt k i c) := by
  have clean := (assembleParams_clean src allSet types oldStmt newStmt k i c filled above).mpr (keeps.fewer less)
  rw [run_eq_runFrom _ agree clean, runFrom_fst]

/-- A NULL bit is still there when its turn comes. -/
theorem KeepsBehind.null (early : k < left) :
    ((isNullParam allSet oldStmt (i + k)).run
        ((assembleParams allSet types oldStmt newStmt k i c).run m).2).1 = nullBit src allSet oldStmt (i + k) := by
  have clean := (assembleParams_clean src allSet types oldStmt newStmt k i c filled above).mpr (keeps.fewer early.le)
  obtain ⟨inp, writes⟩ := assembleParams_writes src allSet types oldStmt newStmt k i c
  have reached := writes.filled filled
  have turn := keeps.turn early
  rw [writes.value] at turn
  have seen : cleanFrom src (isNullParam allSet oldStmt (i + k))
      (writtenFrom src (assembleParams allSet types oldStmt newStmt k i c) written) = true := by
    refine (isNullParam_clean src allSet oldStmt (i + k) reached above).mpr fun looked => ?_
    have room := turn.1 looked
    dsimp only at room
    omega
  have both :
      cleanFrom src (do let _ ← assembleParams allSet types oldStmt newStmt k i c; isNullParam allSet oldStmt (i + k))
      written = true := by
    rw [cleanFrom_bind, clean, seen]
    rfl
  have run := congrArg Prod.fst (run_eq_runFrom _ agree both)
  rw [run_bind, runFrom_fst, valueFrom_bind, isNullParam_value] at run
  exact run

end inPlace

/-- The bytes of a value whose type alone decides on them. -/
def ParamKind.fixedSize : ParamKind → Option Nat
  | integer size _ | float size _ _ => some size
  | temporal _ | number | string | absent => none

theorem ParamKind.assemble_fixed {kind : ParamKind} (fixed : kind.fixedSize = some size) (sql newStmt : Nat)
    (c : Cursor) : Always (fun d => d.inp = c.inp + size) (kind.assemble sql newStmt c) := by
  cases kind with
  | integer | float =>
    cases fixed
    exact fun bs => rfl
  | temporal process | number | string | absent => cases fixed

/-- Past values of fixed sizes the reader stands at their sum, whatever the packet holds. -/
theorem assembleParams_fixed (size : Nat → Nat) {left i : Nat}
    (fixed : ∀ k, k < left → (paramKind (types (i + k))).fixedSize = some (size (i + k))) (c : Cursor) :
    Always (fun d => d.inp = c.inp + ((List.range left).map fun k => size (i + k)).sum)
      (assembleParams true types oldStmt newStmt left i c) := by
  induction left generalizing i c with
  | zero => exact rfl
  | succ left ih =>
    have first := fixed 0 (by omega)
    have value := ParamKind.assemble_fixed first oldStmt newStmt c
    rw [← assembleExtendExeStmtParmVal_kind] at value
    have later : ∀ k, k < left → (paramKind (types (i + 1 + k))).fixedSize = some (size (i + 1 + k)) := by
      intro k less
      have place : i + 1 + k = i + (k + 1) := by omega
      rw [place]
      exact fixed (k + 1) (by omega)
    refine value.bind fun d advanced => ?_
    refine (ih later { d with out := d.out + 1 }).mono fun e total => ?_
    rw [total, advanced, List.range_succ_eq_map, List.map_cons, List.sum_cons, List.map_map]
    have same : ((fun k => size (i + k)) ∘ Nat.succ) = fun k => size (i + 1 + k) := by
      funext k
      exact congrArg size (by omega)
    rw [same, Nat.add_assoc]

end loop
end OpenHalo
