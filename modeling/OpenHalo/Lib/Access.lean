import OpenHalo.Lib.Memory

namespace Memory
open Octets

/-- Code that loads bytes of one buffer, decides on them, and stores bytes, in this order, with what the
language requires for its behaviour to be defined. -/
inductive Prog (α : Type)
  | ret (a : α)
  | load (addr n : Nat) (k : Bytes → Prog α)
  | store (addr : Nat) (bs : Bytes) (next : Prog α)
  | require (ok : Bool) (next : Prog α)

namespace Prog
variable {α β : Type}

def bind : Prog α → (α → Prog β) → Prog β
  | ret a, f => f a
  | load addr n k, f => load addr n fun bs => bind (k bs) f
  | store addr bs next, f => store addr bs (bind next f)
  | require ok next, f => require ok (bind next f)

instance : Monad Prog where
  pure := ret
  bind := bind

/-- Read `n` bytes at `addr`. -/
def fetch (addr n : Nat) : Prog Bytes := load addr n ret

/-- Write bytes at `addr`. -/
def put (addr : Nat) (bs : Bytes) : Prog Unit := store addr bs (ret ())

/-- `memcpy` inside the buffer: undefined where source and destination overlap. -/
def memcpy (dst src n : Nat) : Prog Unit :=
  require (decide (n = 0 ∨ dst + n ≤ src ∨ src + n ≤ dst)) (load src n fun bs => put dst bs)

/-- Run in place: what is stored is seen by every later load. -/
def run : Prog α → Mem → α × Mem
  | ret a, m => (a, m)
  | load addr n k, m => run (k (read m addr n)) m
  | store addr bs next, m => run next (write m addr bs)
  | require _ next, m => run next m

/-- Run with the input held in an immutable copy `src`. -/
def runFrom (src : Mem) : Prog α → Mem → α × Mem
  | ret a, m => (a, m)
  | load addr n k, m => runFrom src (k (read src addr n)) m
  | store addr bs next, m => runFrom src next (write m addr bs)
  | require _ next, m => runFrom src next m

variable {P : α → Prop} {written : Nat → Bool} (src : Mem) (p : Prog α) (f : α → Prog β)

theorem run_bind (m : Mem) : (p >>= f).run m = (f (p.run m).1).run (p.run m).2 := by
  induction p generalizing m with
  | ret a => rfl
  | load addr n k ih => exact ih _ m
  | store _ _ next ih | require _ next ih => exact ih _

theorem bind_bind {γ : Type} (g : β → Prog γ) : p >>= f >>= g = p >>= fun a => f a >>= g := by
  induction p with
  | ret a => rfl
  | load addr n k ih => exact congrArg (load addr n) (funext ih)
  | store addr bs next ih => exact congrArg (store addr bs) ih
  | require ok next ih => exact congrArg (require ok) ih

/-- The addresses written so far, after storing `n` bytes at `addr`. -/
def mark (written : Nat → Bool) (addr n : Nat) : Nat → Bool :=
  fun i => written i || (decide (addr ≤ i) && decide (i < addr + n))

/-- No load touches a written address. -/
def fresh (written : Nat → Bool) (addr n : Nat) : Bool :=
  (List.range n).all fun i => !written (addr + i)

/-- The run in place never loads a byte that it has overwritten. -/
def clean : Prog α → (Nat → Bool) → Mem → Bool
  | ret _, _, _ => true
  | load addr n k, written, m => fresh written addr n && clean (k (read m addr n)) written m
  | store addr bs next, written, m => clean next (mark written addr bs.length) (write m addr bs)
  | require _ next, written, m => clean next written m

/-- The same for the run on the copy, whose loads do not depend on the stores. -/
def cleanFrom (src : Mem) : Prog α → (Nat → Bool) → Bool
  | ret _, _ => true
  | load addr n k, written => fresh written addr n && cleanFrom src (k (read src addr n)) written
  | store addr bs next, written => cleanFrom src next (mark written addr bs.length)
  | require _ next, written => cleanFrom src next written

/-- No store of the run in place goes past `limit`. -/
def within (limit : Nat) : Prog α → Mem → Bool
  | ret _, _ => true
  | load addr n k, m => within limit (k (read m addr n)) m
  | store addr bs next, m => decide (addr + bs.length ≤ limit) && within limit next (write m addr bs)
  | require _ next, m => within limit next m

/-- Whatever the run in place meets as a requirement holds. -/
def defined : Prog α → Mem → Bool
  | ret _, _ => true
  | load addr n k, m => defined (k (read m addr n)) m
  | store addr bs next, m => defined next (write m addr bs)
  | require ok next, m => ok && defined next m

/-- Every load of the run stays between the addresses `low` and `high`. -/
def loadsWithin (low high : Nat) : Prog α → Mem → Bool
  | ret _, _ => true
  | load addr n k, m => decide (low ≤ addr ∧ addr + n ≤ high) && loadsWithin low high (k (read m addr n)) m
  | store addr bs next, m => loadsWithin low high next (write m addr bs)
  | require _ next, m => loadsWithin low high next m

theorem loadsWithin_bind (low high : Nat) (p : Prog α) (f : α → Prog β) (m : Mem) :
    loadsWithin low high (p >>= f) m =
      (loadsWithin low high p m && loadsWithin low high (f (p.run m).1) (p.run m).2) := by
  induction p generalizing m with
  | ret a => rfl
  | load addr n k ih =>
    show (_ && loadsWithin low high (k (read m addr n) >>= f) m) = _
    rw [ih, loadsWithin, Bool.and_assoc]
    rfl
  | store _ _ next ih | require _ next ih => exact ih _

def withinFrom (src : Mem) (limit : Nat) : Prog α → Bool
  | ret _ => true
  | load addr n k => withinFrom src limit (k (read src addr n))
  | store addr bs next => decide (addr + bs.length ≤ limit) && withinFrom src limit next
  | require _ next => withinFrom src limit next

def definedFrom (src : Mem) : Prog α → Bool
  | ret _ => true
  | load addr n k => definedFrom src (k (read src addr n))
  | store _ _ next => definedFrom src next
  | require ok next => ok && definedFrom src next

def writtenFrom (src : Mem) : Prog α → (Nat → Bool) → Nat → Bool
  | ret _, written => written
  | load addr n k, written => writtenFrom src (k (read src addr n)) written
  | store addr bs next, written => writtenFrom src next (mark written addr bs.length)
  | require _ next, written => writtenFrom src next written

/-- Every result the program can return, whatever it loads, satisfies `P`. -/
def Always (P : α → Prop) : Prog α → Prop
  | ret a => P a
  | load _ _ k => ∀ bs, Always P (k bs)
  | store _ _ next | require _ next => Always P next

theorem Always.run {p : Prog α} (always : Always P p) (m : Mem) : P (p.run m).1 := by
  induction p generalizing m with
  | ret a => exact always
  | load addr n k ih => exact ih _ (always _) m
  | store _ _ next ih | require _ next ih => exact ih always _

theorem Always.mono {P Q : α → Prop} {p : Prog α} (weaker : ∀ a, P a → Q a) (always : Always P p) :
    Always Q p := by
  induction p with
  | ret a => exact weaker a always
  | load addr n k ih => exact fun bs => ih bs (always bs)
  | store _ _ next ih | require _ next ih => exact ih always

theorem Always.bind {Q : β → Prop} {p : Prog α} {f : α → Prog β} (always : Always P p)
    (next : ∀ a, P a → Always Q (f a)) :
    Always Q (p >>= f) := by
  induction p with
  | ret a => exact next a always
  | load addr n k ih => exact fun bs => ih bs (always bs)
  | store _ _ following ih | require _ following ih => exact ih always

theorem always_true : Always (fun _ => True) p := by
  induction p with
  | ret a => trivial
  | load _ _ _ ih | store _ _ _ ih | require _ _ ih => exact ih

/-- The memory still agrees with the copy wherever nothing was written. -/
def Agree (written : Nat → Bool) (src m : Mem) : Prop := ∀ i, written i = false → m i = src i

theorem Agree.read {src m : Mem} {addr n : Nat} (agree : Agree written src m)
    (unwritten : fresh written addr n = true) :
    Memory.read m addr n = Memory.read src addr n := by
  apply read_congr
  intro i lower upper
  apply agree
  have clear := List.all_eq_true.mp unwritten (i - addr) (List.mem_range.mpr (by omega))
  rw [show addr + (i - addr) = i by omega] at clear
  simpa using clear

theorem Agree.write {src m : Mem} {addr : Nat} {bs : Bytes} (agree : Agree written src m) :
    Agree (mark written addr bs.length) src (Memory.write m addr bs) := by
  intro i unmarked
  simp only [mark, Bool.or_eq_false_iff, Bool.and_eq_false_iff, decide_eq_false_iff_not] at unmarked
  obtain ⟨unwritten, outside⟩ := unmarked
  rcases outside with before | after
  · rw [write_before (by omega), agree i unwritten]
  · rw [write_after (by omega), agree i unwritten]

theorem clean_eq_cleanFrom {src : Mem} {m : Mem} (agree : Agree written src m) :
    clean p written m = cleanFrom src p written := by
  induction p generalizing written m with
  | ret a => rfl
  | load addr n k ih =>
    simp only [clean, cleanFrom]
    cases unwritten : fresh written addr n with
    | false => rfl
    | true => rw [agree.read unwritten, ih _ agree]
  | store addr bs next ih => exact ih agree.write
  | require _ next ih => exact ih agree

/-- Where no unread input is overwritten, working in place is working on a copy. -/
theorem run_eq_runFrom {src : Mem} {m : Mem} (agree : Agree written src m) (unread : cleanFrom src p written = true) :
    run p m = runFrom src p m := by
  induction p generalizing written m with
  | ret a => rfl
  | load addr n k ih =>
    obtain ⟨unwritten, rest⟩ := Bool.and_eq_true_iff.mp unread
    simp only [run]
    rw [agree.read unwritten]
    exact ih _ agree rest
  | store addr bs next ih => exact ih agree.write unread
  | require _ next ih => exact ih agree unread

theorem within_eq_withinFrom {src : Mem} (limit : Nat) (p : Prog α) {m : Mem} (agree : Agree written src m)
    (unread : cleanFrom src p written = true) : within limit p m = withinFrom src limit p := by
  induction p generalizing written m with
  | ret a => rfl
  | load addr n k ih =>
    obtain ⟨unwritten, rest⟩ := Bool.and_eq_true_iff.mp unread
    simp only [within]
    rw [agree.read unwritten]
    exact ih _ agree rest
  | store addr bs next ih => simp only [within, withinFrom, ih agree.write unread]
  | require _ next ih => exact ih agree unread

theorem defined_eq_definedFrom {src : Mem} (p : Prog α) {m : Mem} (agree : Agree written src m)
    (unread : cleanFrom src p written = true) : defined p m = definedFrom src p := by
  induction p generalizing written m with
  | ret a => rfl
  | load addr n k ih =>
    obtain ⟨unwritten, rest⟩ := Bool.and_eq_true_iff.mp unread
    simp only [defined]
    rw [agree.read unwritten]
    exact ih _ agree rest
  | store addr bs next ih => exact ih agree.write unread
  | require ok next ih => exact congrArg (ok && ·) (ih agree unread)

/-- What the run on the copy returns. -/
def valueFrom (src : Mem) : Prog α → α
  | ret a => a
  | load addr n k => valueFrom src (k (read src addr n))
  | store _ _ next | require _ next => valueFrom src next

theorem runFrom_fst (m : Mem) : (runFrom src p m).1 = valueFrom src p := by
  induction p generalizing m with
  | ret a => rfl
  | load addr n k ih => exact ih _ m
  | store _ _ next ih | require _ next ih => exact ih _

theorem Always.valueFrom {p : Prog α} (always : Always P p) (src : Mem) : P (valueFrom src p) := by
  induction p with
  | ret a => exact always
  | load addr n k ih => exact ih _ (always _)
  | store _ _ next ih | require _ next ih => exact ih always

theorem valueFrom_bind : valueFrom src (p >>= f) = valueFrom src (f (valueFrom src p)) := by
  induction p with
  | ret a => rfl
  | load addr n k ih => exact ih _
  | store _ _ next ih | require _ next ih => exact ih

theorem runFrom_bind (m : Mem) : runFrom src (p >>= f) m = runFrom src (f (valueFrom src p)) (runFrom src p m).2 := by
  induction p generalizing m with
  | ret v => rfl
  | load addr n k ih => exact ih _ m
  | store _ _ next ih | require _ next ih => exact ih _

theorem cleanFrom_bind (written : Nat → Bool) :
    cleanFrom src (p >>= f) written =
      (cleanFrom src p written && cleanFrom src (f (valueFrom src p)) (writtenFrom src p written)) := by
  induction p generalizing written with
  | ret a => rfl
  | load addr n k ih =>
    have rest := ih (Memory.read src addr n) written
    simp only [cleanFrom, valueFrom, writtenFrom, Bool.and_assoc, ← rest]
    rfl
  | store _ _ next ih | require _ next ih => exact ih _

theorem writtenFrom_bind (written : Nat → Bool) :
    writtenFrom src (p >>= f) written = writtenFrom src (f (valueFrom src p)) (writtenFrom src p written) := by
  induction p generalizing written with
  | ret a => rfl
  | load addr n k ih => exact ih _ written
  | store _ _ next ih | require _ next ih => exact ih _

theorem withinFrom_bind (limit : Nat) (p : Prog α) (f : α → Prog β) :
    withinFrom src limit (p >>= f) = (withinFrom src limit p && withinFrom src limit (f (valueFrom src p))) := by
  induction p with
  | ret a => rfl
  | load addr n k ih => exact ih _
  | store addr bs next ih =>
    simp only [withinFrom, valueFrom, Bool.and_assoc, ← ih]
    rfl
  | require _ next ih => exact ih

theorem definedFrom_bind :
    definedFrom src (p >>= f) = (definedFrom src p && definedFrom src (f (valueFrom src p))) := by
  induction p with
  | ret a => rfl
  | load addr n k ih => exact ih _
  | store _ _ next ih => exact ih
  | require ok next ih =>
    simp only [definedFrom, valueFrom, Bool.and_assoc, ← ih]
    rfl

theorem withinFrom_put (limit addr : Nat) (bs : Bytes) (f : Unit → Prog β) :
    withinFrom src limit (put addr bs >>= f) = (decide (addr + bs.length ≤ limit) && withinFrom src limit (f ())) :=
  rfl

theorem cleanFrom_put (addr : Nat) (bs : Bytes) (f : Unit → Prog β) (written : Nat → Bool) :
    cleanFrom src (put addr bs >>= f) written = cleanFrom src (f ()) (mark written addr bs.length) :=
  rfl

/-- In place it gives the text it gives on a copy, overwrites no unread input, stays inside the buffer,
and is defined. -/
def SafeInPlace (p : Prog α) (text : α × Mem → Bytes) (m : Mem) (limit : Nat) : Prop :=
  text (p.run m) = text (p.runFrom m m) ∧ p.clean (fun _ => false) m = true ∧ p.within limit m = true ∧
    p.defined m = true

theorem safeInPlace_iff (text : α × Mem → Bytes) (m : Mem) (limit : Nat) :
    SafeInPlace p text m limit ↔
      p.cleanFrom m (fun _ => false) = true ∧ p.withinFrom m limit = true ∧ p.definedFrom m = true := by
  have agree : Agree (fun _ => false) m m := fun _ _ => rfl
  unfold SafeInPlace
  rw [clean_eq_cleanFrom p agree]
  constructor
  · rintro ⟨_, unread, inside, meets⟩
    exact ⟨unread, within_eq_withinFrom limit p agree unread ▸ inside, defined_eq_definedFrom p agree unread ▸ meets⟩
  · rintro ⟨unread, inside, meets⟩
    exact ⟨by rw [run_eq_runFrom p agree unread], unread, (within_eq_withinFrom limit p agree unread).trans inside,
      (defined_eq_definedFrom p agree unread).trans meets⟩

end Prog
end Memory
