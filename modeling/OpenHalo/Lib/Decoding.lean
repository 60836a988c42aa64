import OpenHalo.Lib.Octets

namespace Decoding
open Octets List

/-- A reader takes what it needs from the front and leaves the rest. -/
abbrev Decoder (α : Type) := StateT Bytes Option α

variable {α β : Type}

def bytes (n : Nat) : Decoder Bytes := fun s => if n ≤ s.length then some (s.take n, s.drop n) else none

/-- An integer of `k` bytes. -/
def fixed (k : Nat) : Decoder Nat := littleEndian <$> bytes k

/-- A length-encoded integer. -/
def lenenc : Decoder Nat := do
  let first ← fixed 1
  if first < 251 then pure first
  else if first = 0xFC then fixed 2
  else if first = 0xFD then fixed 3
  else if first = 0xFE then fixed 8
  else failure

/-- A length-encoded string. -/
def lenencString : Decoder Bytes := lenenc >>= bytes

/-- The value of bytes that the reader uses up. -/
def whole (d : Decoder α) (s : Bytes) : Option α :=
  match d.run s with
  | some (a, []) => some a
  | _ => none

/-- The values of bytes that are read one after the other, `fuel` at most. -/
def entries (d : Decoder α) : Nat → Bytes → Option (List α)
  | _, [] => some []
  | 0, _ :: _ => none
  | fuel + 1, b :: s =>
    match d.run (b :: s) with
    | some (a, rest) => (entries d fuel rest).map (a :: ·)
    | none => none

/-- In front of any rest, the reader takes these bytes for this value. -/
def Decodes (d : Decoder α) (s : Bytes) (a : α) : Prop := ∀ rest, d.run (s ++ rest) = some (a, rest)

theorem Decodes.pure (a : α) : Decodes (Pure.pure a) [] a := by
  intro rest
  rfl

variable {a : α} {d : Decoder α} {s : Bytes}

theorem Decodes.run_bind (first : Decodes d s a) (f : α → Decoder β) (rest : Bytes) :
    (d >>= f).run (s ++ rest) = (f a).run rest := by
  rw [StateT.run_bind, first]
  rfl

theorem Decodes.bind {f : α → Decoder β} {s t : Bytes} {b : β} (first : Decodes d s a) (second : Decodes (f a) t b) :
    Decodes (d >>= f) (s ++ t) b := by
  intro rest
  rw [append_assoc, first.run_bind, second]

theorem Decodes.both {e : Decoder β} {s t : Bytes} {b : β} (first : Decodes d s a) (second : Decodes e t b) {γ : Type}
    (g : α → β → γ) : Decodes (do let a ← d; let b ← e; Pure.pure (g a b)) (s ++ t) (g a b) := by
  have last := second.bind (f := fun b => Pure.pure (g a b)) (Decodes.pure (g a b))
  rw [append_nil] at last
  exact first.bind last

theorem Decodes.map {f : α → β} (read : Decodes d s a) : Decodes (f <$> d) s (f a) := by
  intro rest
  rw [StateT.run_map, read]
  rfl

theorem Decodes.whole_append (read : Decodes d s a) (rest : Bytes) :
    whole d (s ++ rest) = if rest = [] then some a else none := by
  rw [whole, read rest]
  cases rest <;> rfl

theorem Decodes.whole (read : Decodes d s a) : whole d s = some a := by
  have used := read.whole_append []
  rwa [append_nil, if_pos rfl] at used

theorem decodes_bytes (s : Bytes) : Decodes (bytes s.length) s s := by
  intro rest
  have room : s.length ≤ (s ++ rest).length := by simp
  show (if s.length ≤ (s ++ rest).length then some ((s ++ rest).take s.length, (s ++ rest).drop s.length) else none) = _
  rw [if_pos room, take_left, drop_left]

theorem decodes_fixed {k n : Nat} (small : n < 256 ^ k) : Decodes (fixed k) (toLittleEndian k n) n := by
  have read := (decodes_bytes (toLittleEndian k n)).map (f := littleEndian)
  rwa [toLittleEndian_length, littleEndian_toLittleEndian, Nat.mod_eq_of_lt small] at read

theorem decodes_lenenc {first k n : Nat} (marker : (first, k) ∈ [(0xFC, 2), (0xFD, 3), (0xFE, 8)])
    (small : n < 256 ^ k) :
    Decodes lenenc (UInt8.ofNat first :: toLittleEndian k n) n := by
  have value := decodes_fixed small
  simp only [mem_cons, not_mem_nil, or_false] at marker
  rcases marker with ⟨rfl, rfl⟩ | ⟨rfl, rfl⟩ | ⟨rfl, rfl⟩ <;> exact value

theorem decodes_lenenc_short {n : Nat} (short : n < 251) : Decodes lenenc (toLittleEndian 1 n) n := by
  have byte : n < 256 ^ 1 := by omega
  have read := (decodes_fixed byte).bind (f := fun first => if first < 251 then pure first
    else if first = 0xFC then fixed 2
    else if first = 0xFD then fixed 3
    else if first = 0xFE then fixed 8
    else failure) (t := []) (b := n) (by rw [if_pos short]; exact Decodes.pure n)
  rwa [append_nil] at read

theorem decodes_lenencString {size s : Bytes} (counted : Decodes lenenc size s.length) :
    Decodes lenencString (size ++ s) s := counted.bind (decodes_bytes s)

theorem entries_nil (d : Decoder α) (fuel : Nat) : entries d fuel [] = some [] := by
  cases fuel <;> rfl

/-- Values read in turn. -/
def inTurn : List (Decoder α) → Decoder (List α)
  | [] => pure []
  | d :: ds => do
    let a ← d
    let as ← inTurn ds
    pure (a :: as)

theorem decodes_inTurn {ι : Type} {d : ι → Decoder α} {s : ι → Bytes} {a : ι → α} {l : List ι}
    (each : ∀ i ∈ l, Decodes (d i) (s i) (a i)) : Decodes (inTurn (l.map d)) (l.flatMap s) (l.map a) := by
  induction l with
  | nil => exact Decodes.pure []
  | cons i l ih =>
    exact (each i mem_cons_self).both (ih fun j member => each j (mem_cons_of_mem i member)) cons

end Decoding
