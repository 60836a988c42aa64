import Mathlib.Data.List.GetD
import OpenHalo.Lib.Octets

namespace Memory
open Octets List

/-- Byte-addressed memory: offsets into one allocation, and the neighbouring memory behind it. -/
abbrev Mem := Nat → UInt8

/-- The `n` bytes from address `a` on. -/
def read (m : Mem) (a n : Nat) : Bytes := (List.range n).map fun i => m (a + i)

/-- Store a byte string, held outside of the memory, at address `a`. -/
def write (m : Mem) (a : Nat) (bs : Bytes) : Mem :=
  fun i => if a ≤ i then bs.getD (i - a) (m i) else m i

/-- Fresh memory holding a byte string, with `junk` everywhere else. -/
def load (bs : Bytes) (a : Nat) (junk : Mem) : Mem := write junk a bs

@[simp] theorem read_length (m : Mem) (a n : Nat) : (read m a n).length = n := by
  simp [read]

variable (m : Mem) (a : Nat)

theorem getElem_read (a n : Nat) {i : Nat} (within : i < (read m a n).length) : (read m a n)[i] = m (a + i) := by
  simp [read]

theorem read_succ (a n : Nat) : read m a (n + 1) = m a :: read m (a + 1) n := by
  simp only [read, range_succ_eq_map, map_cons, map_map]
  congr 1
  apply map_congr_left
  intro i _
  simp only [Function.comp_apply]
  congr 1
  omega

theorem read_append (a n k : Nat) : read m a (n + k) = read m a n ++ read m (a + n) k := by
  simp only [read, range_add]
  simp [Nat.add_assoc]

theorem read_congr {m m' : Mem} {a n : Nat} (same : ∀ i, a ≤ i → i < a + n → m i = m' i) :
    read m a n = read m' a n := by
  apply map_congr_left
  intro i member
  exact same (a + i) (by omega) (by have := mem_range.mp member; omega)

theorem write_nil : write m a [] = m := by
  funext i
  simp [write]

theorem write_before {m : Mem} {a i : Nat} {bs : Bytes} (before : i < a) : write m a bs i = m i := by
  simp [write, if_neg (Nat.not_le.mpr before)]

theorem write_after {m : Mem} {a i : Nat} {bs : Bytes} (after : a + bs.length ≤ i) :
    write m a bs i = m i := by
  simp only [write, if_pos (show a ≤ i by omega)]
  rw [getD_eq_getElem?_getD, List.getElem?_eq_none (by omega)]
  rfl

theorem read_write_self (bs : Bytes) : read (write m a bs) a bs.length = bs := by
  apply ext_getElem (by simp)
  intro i bound _
  have within : i < bs.length := by simpa using bound
  simp [read, write, within]

theorem write_append (xs ys : Bytes) : write m a (xs ++ ys) = write (write m a xs) (a + xs.length) ys := by
  funext i
  by_cases before : i < a
  · rw [write_before before, write_before (by omega), write_before before]
  by_cases left : i < a + xs.length
  · rw [write_before left]
    simp only [write]
    rw [getD_append _ _ _ _ (by omega)]
  · simp only [write, if_pos (Nat.not_lt.mp before), if_pos (Nat.not_lt.mp left)]
    rw [getD_append_right _ _ _ _ (by omega)]
    have shift : i - a - xs.length = i - (a + xs.length) := by omega
    have past : xs.getD (i - a) (m i) = m i := by
      rw [getD_eq_getElem?_getD, List.getElem?_eq_none (by omega)]
      rfl
    rw [shift, past]

theorem write_write {m : Mem} {a : Nat} {xs ys : Bytes} (covered : xs.length ≤ ys.length) :
    write (write m a xs) a ys = write m a ys := by
  funext i
  by_cases before : i < a
  · rw [write_before before, write_before before, write_before before]
  by_cases after : a + ys.length ≤ i
  · rw [write_after after, write_after after, write_after (by omega)]
  · simp only [write, if_pos (Nat.not_lt.mp before)]
    rw [getD_eq_getElem _ _ (by omega), getD_eq_getElem _ _ (by omega)]

/-- A piece of a message under construction: bytes written, or room left as it is. -/
inductive Segment
  | put (bs : Bytes)
  | skip (n : Nat)
deriving Repr, DecidableEq

def Segment.size : Segment → Nat
  | .put bs => bs.length
  | .skip n => n

/-- Write segments one after another from address `a` on. -/
def fill (m : Mem) (a : Nat) : List Segment → Mem
  | [] => m
  | .put bs :: rest => fill (write m a bs) (a + bs.length) rest
  | .skip n :: rest => fill m (a + n) rest

def extent (segments : List Segment) : Nat := (segments.map Segment.size).sum

theorem fill_before {m : Mem} {a i : Nat} (segments : List Segment) (before : i < a) : fill m a segments i = m i := by
  induction segments generalizing m a with
  | nil => rfl
  | cons segment rest ih =>
    cases segment with
    | put bs =>
      rw [fill, ih (by omega), write_before before]
    | skip n => exact ih (Nat.lt_add_right n before)

theorem read_fill (front back : List Segment) (bs : Bytes) :
    read (fill m a (front ++ .put bs :: back)) (a + extent front) bs.length = bs := by
  induction front generalizing m a with
  | nil =>
    have same : read (fill m a (.put bs :: back)) a bs.length = read (write m a bs) a bs.length := by
      apply read_congr
      intro i _ within
      exact fill_before back within
    exact same.trans (read_write_self m a bs)
  | cons segment rest ih =>
    have place : a + extent (segment :: rest) = a + segment.size + extent rest := by
      simp only [extent, map_cons, sum_cons]
      omega
    rw [place]
    cases segment with
    | put xs => exact ih (write m a xs) (a + xs.length)
    | skip n => exact ih m (a + n)

theorem fill_skip (front back : List Segment) {n i : Nat} (lower : a + extent front ≤ i)
    (upper : i < a + extent front + n) :
    fill m a (front ++ .skip n :: back) i = m i := by
  induction front generalizing m a with
  | nil => exact fill_before back upper
  | cons segment rest ih =>
    have place : a + extent (segment :: rest) = a + segment.size + extent rest := by
      simp only [extent, map_cons, sum_cons]
      omega
    rw [place] at lower upper
    cases segment with
    | put xs =>
        exact (ih (write m a xs) (a + xs.length) lower upper).trans
          (write_after (by simp only [Segment.size] at lower; omega))
    | skip k => exact ih m (a + k) lower upper

theorem fill_puts (pieces : List Bytes) : fill m a (pieces.map .put) = write m a pieces.flatten := by
  induction pieces generalizing m a with
  | nil => rw [map_nil, fill, flatten_nil, write_nil]
  | cons bs pieces ih => rw [map_cons, fill, ih, flatten_cons, write_append]

theorem extent_puts (pieces : List Bytes) : extent (pieces.map .put) = pieces.flatten.length := by
  rw [extent, map_map, length_flatten]
  rfl

end Memory
