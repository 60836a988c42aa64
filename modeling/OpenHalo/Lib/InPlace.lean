import OpenHalo.Lib.Access

namespace Memory.Prog
open Octets List

variable {α β : Type}

/-- From address `low` on, the written part ends at `edge`. -/
def Filled (written : Nat → Bool) (low edge : Nat) : Prop := ∀ i, low ≤ i → written i = decide (i < edge)

variable {written : Nat → Bool}

theorem Filled.fresh {low edge addr : Nat} (filled : Filled written low edge) (above : low ≤ addr) (n : Nat) :
    fresh written addr n = decide (n = 0 ∨ edge ≤ addr) := by
  rw [Bool.eq_iff_iff]
  simp only [Prog.fresh, all_eq_true, mem_range, decide_eq_true_eq, Bool.not_eq_true']
  constructor
  · intro clear
    by_cases empty : n = 0
    · exact .inl empty
    have first := clear 0 (by omega)
    rw [filled _ (by omega)] at first
    exact .inr (by simpa using first)
  · intro room i within
    rw [filled _ (by omega)]
    simp only [decide_eq_false_iff_not]
    omega

theorem Filled.mark {low edge addr n : Nat} (filled : Filled written low edge) (joined : addr ≤ edge)
    (further : edge ≤ addr + n) : Filled (mark written addr n) low (addr + n) := by
  intro i above
  simp only [Prog.mark, filled i above, ← Bool.decide_and, ← Bool.decide_or]
  congr 1
  apply propext
  omega

/-- Stores below `low` do not show. -/
theorem Filled.mark_below {low edge addr n : Nat} (filled : Filled written low edge) (below : addr + n ≤ low) :
    Filled (Prog.mark written addr n) low edge := by
  intro i above
  simp only [Prog.mark, filled i above, Bool.or_eq_left_iff_imp, Bool.and_eq_true, decide_eq_true_eq]
  omega

/-- A program that only loads, and nothing before address `a`. -/
def ReadsFrom (a : Nat) : Prog α → Prop
  | ret _ => True
  | load addr _ k => a ≤ addr ∧ ∀ bs, ReadsFrom a (k bs)
  | store _ _ _ | require _ _ => False

namespace ReadsFrom

theorem fetch {a addr n : Nat} (above : a ≤ addr) : ReadsFrom a (Prog.fetch addr n) := ⟨above, fun _ => trivial⟩

variable {a : Nat} {p : Prog α}

theorem bind {f : α → Prog β} (reads : ReadsFrom a p) (next : ∀ v, ReadsFrom a (f v)) : ReadsFrom a (p >>= f) := by
  induction p with
  | ret v => exact next v
  | load addr n k ih => exact ⟨reads.1, fun bs => ih bs (reads.2 bs)⟩
  | store _ _ _ _ | require _ _ _ => exact reads.elim

theorem cleanFrom {low edge : Nat} (reads : ReadsFrom a p) (src : Mem) (filled : Filled written low edge)
    (above : low ≤ a) (unread : edge ≤ a) : cleanFrom src p written = true := by
  induction p with
  | ret v => rfl
  | load addr n k ih =>
    have untouched := filled.fresh (Nat.le_trans above reads.1) n
    rw [decide_eq_true (.inr (Nat.le_trans unread reads.1))] at untouched
    exact Bool.and_eq_true_iff.mpr ⟨untouched, ih _ (reads.2 _)⟩
  | store _ _ _ _ | require _ _ _ => exact reads.elim

theorem writtenFrom (reads : ReadsFrom a p) (src : Mem) (written : Nat → Bool) :
    writtenFrom src p written = written := by
  induction p with
  | ret v => rfl
  | load addr n k ih => exact ih _ (reads.2 _)
  | store _ _ _ _ | require _ _ _ => exact reads.elim

theorem withinFrom (reads : ReadsFrom a p) (src : Mem) (limit : Nat) : withinFrom src limit p = true := by
  induction p with
  | ret v => rfl
  | load addr n k ih => exact ih _ (reads.2 _)
  | store _ _ _ _ | require _ _ _ => exact reads.elim

theorem definedFrom (reads : ReadsFrom a p) (src : Mem) : definedFrom src p = true := by
  induction p with
  | ret v => rfl
  | load addr n k ih => exact ih _ (reads.2 _)
  | store _ _ _ _ | require _ _ _ => exact reads.elim

theorem runFrom (reads : ReadsFrom a p) (src m : Mem) : runFrom src p m = (valueFrom src p, m) := by
  induction p with
  | ret v => rfl
  | load addr n k ih => exact ih _ (reads.2 _)
  | store _ _ _ _ | require _ _ _ => exact reads.elim

end ReadsFrom

/-- A program that only loads, from address `a` on and first of all at `a`. -/
structure Reader (a : Nat) (p : Prog α) : Prop where
  loads : ReadsFrom a p
  first : ∃ n k, p = load a (n + 1) k

theorem Reader.bind {a : Nat} {p : Prog α} {f : α → Prog β} (reader : Reader a p)
    (next : ∀ v, ReadsFrom a (f v)) : Reader a (p >>= f) := by
  refine ⟨reader.loads.bind next, ?_⟩
  obtain ⟨n, k, rfl⟩ := reader.first
  exact ⟨n, _, rfl⟩

theorem Reader.fetch (a n : Nat) : Reader a (Prog.fetch a (n + 1)) := ⟨.fetch (Nat.le_refl a), n, _, rfl⟩

/-- A reader is clean where the writer has not passed its first byte. -/
theorem Reader.cleanFrom {a : Nat} {p : Prog α} {low edge : Nat} (reader : Reader a p) (src : Mem)
    (filled : Filled written low edge) (above : low ≤ a) : cleanFrom src p written = decide (edge ≤ a) := by
  by_cases unread : edge ≤ a
  · rw [decide_eq_true unread]
    exact reader.loads.cleanFrom src filled above unread
  · obtain ⟨n, k, rfl⟩ := reader.first
    simp only [Prog.cleanFrom, filled.fresh above]
    simp [unread]

/-- On the copy the program amounts to a single store. -/
structure Writes (src : Mem) (p : Prog α) (addr : Nat) (text : Bytes) (result : α) : Prop where
  value : valueFrom src p = result
  stored : ∀ m, (runFrom src p m).2 = write m addr text
  marked : ∀ written, writtenFrom src p written = mark written addr text.length
  inside : ∀ limit, addr + text.length ≤ limit → withinFrom src limit p = true

namespace Writes

variable {p : Prog α} {src : Mem} {v : α} {f : α → Prog β} {u : β}

theorem of_reads {a : Nat} (reads : ReadsFrom a p) (src : Mem) (addr : Nat) :
    Writes src p addr [] (valueFrom src p) where
  value := rfl
  stored m := by rw [reads.runFrom, write_nil]
  marked written := by
    rw [reads.writtenFrom]
    funext i
    simp only [mark, length_nil]
    rw [← Bool.decide_and, decide_eq_false (by omega), Bool.or_false]
  inside limit _ := reads.withinFrom src limit

theorem filled {addr low : Nat} {text : Bytes} (writes : Writes src p addr text v)
    (before : Filled written low addr) : Filled (writtenFrom src p written) low (addr + text.length) := by
  rw [writes.marked]
  exact before.mark (Nat.le_refl _) (Nat.le_add_right _ _)

/-- In place the program does the same if it reads nothing that it has written. -/
theorem run {addr : Nat} {text : Bytes} (writes : Writes src p addr text v)
    (clean : cleanFrom src p (fun _ => false) = true) :
    Prog.run p src = (v, write src addr text) := by
  rw [run_eq_runFrom p (fun _ _ => rfl) clean]
  exact Prod.ext ((runFrom_fst src p src).trans writes.value) (writes.stored src)

theorem ret (src : Mem) (addr : Nat) (result : α) : Writes src (Prog.ret result) addr [] result :=
  .of_reads (p := Prog.ret result) (show ReadsFrom 0 _ from trivial) src addr

theorem put (src : Mem) (addr : Nat) (text : Bytes) : Writes src (Prog.put addr text) addr text () where
  value := rfl
  stored _ := rfl
  marked _ := rfl
  inside _ room := by simpa [Prog.put, Prog.withinFrom] using room

theorem memcpy (src : Mem) (addr a n : Nat) : Writes src (Prog.memcpy addr a n) addr (read src a n) () where
  value := rfl
  stored _ := rfl
  marked _ := rfl
  inside _ room := by simpa [Prog.memcpy, Prog.put, Prog.withinFrom] using room

/-- A store where the text so far ends, over what was written behind it. -/
theorem overwriting {addr : Nat} {xs ys : Bytes} (tail : Bytes) (before : Writes src p addr (xs ++ tail) v)
    (covered : tail.length ≤ ys.length) (after : Writes src (f v) (addr + xs.length) ys u) :
    Writes src (p >>= f) addr (xs ++ ys) u where
  value := by rw [valueFrom_bind, before.value, after.value]
  stored m := by
    rw [runFrom_bind, before.value, after.stored, before.stored, write_append, write_append, write_write covered]
  marked written := by
    rw [writtenFrom_bind, before.value, after.marked, before.marked]
    funext i
    simp only [mark, length_append]
    rw [Bool.or_assoc]
    congr 1
    simp only [← Bool.decide_and, ← Bool.decide_or]
    congr 1
    apply propext
    omega
  inside limit room := by
    rw [length_append] at room
    rw [withinFrom_bind, before.inside limit (by rw [length_append]; omega), before.value,
      after.inside limit (by omega)]
    rfl

theorem bind {addr : Nat} {xs ys : Bytes} (before : Writes src p addr xs v)
    (after : Writes src (f v) (addr + xs.length) ys u) :
    Writes src (p >>= f) addr (xs ++ ys) u :=
  overwriting [] (by rwa [append_nil]) (Nat.zero_le _) after

theorem after_reads {a : Nat} {addr : Nat} {ys : Bytes} (reads : ReadsFrom a p)
    (after : Writes src (f (valueFrom src p)) addr ys u) : Writes src (p >>= f) addr ys u :=
  (of_reads reads src addr).bind (by simpa using after)

theorem put_bind (addr : Nat) (xs : Bytes) {ys : Bytes} {f : Unit → Prog β}
    (after : Writes src (f ()) (addr + xs.length) ys u) :
    Writes src (Prog.put addr xs >>= f) addr (xs ++ ys) u :=
  (put src addr xs).bind after

theorem put_ret (src : Mem) (addr : Nat) (xs : Bytes) (u : β) :
    Writes src (Prog.put addr xs >>= fun _ => pure u) addr xs u := by
  have stored := put_bind addr xs (f := fun _ => pure u) (ret src (addr + xs.length) u)
  rwa [append_nil] at stored

end Writes
end Memory.Prog
