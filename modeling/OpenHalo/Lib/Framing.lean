import OpenHalo.Lib.Octets

namespace Framing
open Octets List

/-- A packet starts with three bytes for its length and one for its number. -/
def header (n seq : Nat) : Bytes := toLittleEndian 3 n ++ [UInt8.ofNat seq]

theorem header_length (n seq : Nat) : (header n seq).length = 4 := by
  rfl

theorem header_mod (n seq : Nat) : header n (seq % 256) = header n seq := by
  have same : UInt8.ofNat (seq % 256) = UInt8.ofNat seq := by
    apply UInt8.toNat_inj.mp
    simp only [UInt8.toNat_ofNat']
    omega
  rw [header, header, same]

/-- The first `k` packets of a payload are full, the last one takes the rest. -/
def cutAt (limit : Nat) : Nat → Bytes → List Bytes
  | 0, payload => [payload]
  | k + 1, payload => payload.take limit :: cutAt limit k (payload.drop limit)

/-- A payload in packets: full ones while there is enough, then a shorter one, possibly empty. -/
def cut (limit : Nat) (payload : Bytes) : List Bytes := cutAt limit (payload.length / limit) payload

/-- Packets with their headers. -/
def join : Nat → List Bytes → Bytes
  | _, [] => []
  | seq, packet :: packets => header packet.length seq ++ packet ++ join (seq + 1) packets

/-- The bytes that carry a payload. -/
def frames (limit seq : Nat) (payload : Bytes) : Bytes := join seq (cut limit payload)

/-- Take a payload off a stream: a full packet is continued by the next one. -/
def reassemble (limit : Nat) : Nat → Nat → Bytes → Option (Bytes × Bytes)
  | fuel + 1, seq, a :: b :: c :: d :: body =>
    let n := littleEndian [a, b, c]
    if d ≠ UInt8.ofNat seq ∨ limit < n ∨ body.length < n then none
    else if n = limit then
      (reassemble limit fuel (seq + 1) (body.drop n)).map fun r => (body.take n ++ r.1, r.2)
    else some (body.take n, body.drop n)
  | _, _, _ => none

section
variable {limit : Nat}

variable {payload : Bytes}

theorem cut_short (short : payload.length < limit) : cut limit payload = [payload] := by
  rw [cut, Nat.div_eq_of_lt short, cutAt]

theorem cut_long (positive : 0 < limit) (long : limit ≤ payload.length) :
    cut limit payload = payload.take limit :: cut limit (payload.drop limit) := by
  have packets : payload.length / limit = (payload.drop limit).length / limit + 1 := by
    rw [length_drop]
    exact Nat.div_eq_sub_div positive long
  rw [cut, packets, cutAt, cut]

theorem frames_short (short : payload.length < limit) (seq : Nat) :
    frames limit seq payload = header payload.length seq ++ payload := by
  rw [frames, cut_short short]
  simp [join]

theorem frames_long (positive : 0 < limit) (long : limit ≤ payload.length) (seq : Nat) :
    frames limit seq payload =
      header limit seq ++ (payload.take limit ++ frames limit (seq + 1) (payload.drop limit)) := by
  have full : (payload.take limit).length = limit := length_take_of_le long
  rw [frames, cut_long positive long, join, full, frames, append_assoc]

/-- From short payloads and the removal of a full packet. -/
theorem payload_induction (positive : 0 < limit) {p : Bytes → Prop}
    (short : ∀ payload, payload.length < limit → p payload)
    (long : ∀ payload, limit ≤ payload.length → p (payload.drop limit) → p payload) (payload : Bytes) : p payload := by
  induction size : payload.length using Nat.strong_induction_on generalizing payload with
  | _ n ih =>
    by_cases full : limit ≤ payload.length
    · refine long payload full (ih (n - limit) (by omega) _ ?_)
      rw [length_drop, size]
    · exact short payload (by omega)

theorem length_le_frames (positive : 0 < limit) (payload : Bytes) (seq : Nat) :
    payload.length ≤ (frames limit seq payload).length := by
  induction payload using payload_induction positive generalizing seq with
  | short payload short =>
    rw [frames_short short, length_append]
    omega
  | long payload long ih =>
    have later := ih (seq + 1)
    rw [length_drop] at later
    rw [frames_long positive long, length_append, length_append, length_take_of_le long]
    omega

theorem littleEndian_header {n : Nat} (small : n < 256 ^ 3) (seq : Nat) :
    ∃ a b c, header n seq = [a, b, c, UInt8.ofNat seq] ∧ littleEndian [a, b, c] = n := by
  have value := littleEndian_toLittleEndian 3 n
  rw [Nat.mod_eq_of_lt small] at value
  exact ⟨_, _, _, rfl, value⟩

theorem header_littleEndian (a b c : UInt8) (seq : Nat) :
    header (littleEndian [a, b, c]) seq = [a, b, c, UInt8.ofNat seq] := by
  have bytes := toLittleEndian_littleEndian [a, b, c]
  exact congrArg (· ++ [UInt8.ofNat seq]) bytes

theorem reassemble_header {n : Nat} (small : n ≤ limit) (bounded : limit < 256 ^ 3) (fuel seq : Nat) (body : Bytes) :
    reassemble limit (fuel + 1) seq (header n seq ++ body) =
      if body.length < n then none
      else if n = limit then
        (reassemble limit fuel (seq + 1) (body.drop n)).map fun r => (body.take n ++ r.1, r.2)
      else some (body.take n, body.drop n) := by
  obtain ⟨a, b, c, bytes, value⟩ := littleEndian_header (Nat.lt_of_le_of_lt small bounded) seq
  have fits : ¬limit < n := by omega
  simp only [bytes, cons_append, reassemble, value]
  simp [fits]

theorem reassemble_frames (positive : 0 < limit) (bounded : limit < 256 ^ 3) (payload : Bytes) :
    ∀ {fuel : Nat}, payload.length / limit < fuel → ∀ (seq : Nat) (rest : Bytes),
      reassemble limit fuel seq (frames limit seq payload ++ rest) = some (payload, rest) := by
  induction payload using payload_induction positive with
  | short payload short =>
    intro fuel enough seq rest
    obtain ⟨fuel, rfl⟩ := Nat.exists_eq_add_one.mpr (Nat.zero_lt_of_lt enough)
    rw [frames_short short, append_assoc, reassemble_header (by omega) bounded,
      if_neg (by rw [length_append]; omega), if_neg (by omega), take_left, drop_left]
  | long payload long ih =>
    intro fuel enough seq rest
    obtain ⟨fuel, rfl⟩ := Nat.exists_eq_add_one.mpr (Nat.zero_lt_of_lt enough)
    have packets : payload.length / limit = (payload.drop limit).length / limit + 1 := by
      rw [length_drop]
      exact Nat.div_eq_sub_div positive long
    have fewer : (payload.drop limit).length / limit < fuel := by
      rw [packets] at enough
      exact Nat.lt_of_succ_lt_succ enough
    have full : (payload.take limit).length = limit := length_take_of_le long
    have body : (payload.take limit ++ (frames limit (seq + 1) (payload.drop limit) ++ rest)).take limit =
        payload.take limit := take_left' full
    have behind : (payload.take limit ++ (frames limit (seq + 1) (payload.drop limit) ++ rest)).drop limit =
        frames limit (seq + 1) (payload.drop limit) ++ rest := drop_left' full
    rw [frames_long positive long, append_assoc, append_assoc, reassemble_header (Nat.le_refl _) bounded,
      if_neg (by rw [length_append, full]; omega), if_pos rfl, body, behind, ih fewer]
    simp

theorem frames_of_reassemble (positive : 0 < limit) {fuel seq : Nat} {stream payload rest : Bytes}
    (taken : reassemble limit fuel seq stream = some (payload, rest)) : stream = frames limit seq payload ++ rest := by
  induction fuel generalizing seq stream payload with
  | zero => cases taken
  | succ fuel ih =>
    match stream with
    | a :: b :: c :: d :: body =>
      have bytes := header_littleEndian a b c seq
      rw [reassemble] at taken
      generalize littleEndian [a, b, c] = n at bytes taken
      split at taken
      · cases taken
      rename_i accepted
      have numbered : d = UInt8.ofNat seq := by
        by_contra other
        exact accepted (.inl other)
      have whole : n ≤ body.length := by
        by_contra other
        exact accepted (.inr (.inr (by omega)))
      have width : (body.take n).length = n := length_take_of_le whole
      have front : a :: b :: c :: d :: body = header n seq ++ (body.take n ++ body.drop n) := by
        rw [bytes, take_append_drop, numbered]
        rfl
      rw [front]
      split at taken
      · rename_i full
        subst full
        obtain ⟨r, later, same⟩ := Option.map_eq_some_iff.mp taken
        cases same
        have long : n ≤ (body.take n ++ r.1).length := by
          rw [length_append]
          omega
        rw [frames_long positive long, take_left' width, drop_left' width, ih later]
        simp
      · cases taken
        have short : (body.take n).length < limit := by
          by_contra other
          exact accepted (.inr (.inl (by omega)))
        rw [frames_short short, width, append_assoc]
    | [] | [_] | [_, _] | [_, _, _] => cases taken

theorem reassemble_eq_iff (positive : 0 < limit) (bounded : limit < 256 ^ 3) {seq : Nat} {stream payload : Bytes} :
    reassemble limit (stream.length + 1) seq stream = some (payload, []) ↔ stream = frames limit seq payload := by
  constructor
  · intro taken
    rw [frames_of_reassemble positive taken, append_nil]
  · rintro rfl
    have packets : payload.length / limit ≤ (frames limit seq payload).length :=
      Nat.le_trans (Nat.div_le_self _ _) (length_le_frames positive payload seq)
    have taken := reassemble_frames positive bounded payload (Nat.lt_succ_of_le packets) seq []
    rwa [append_nil] at taken

end

/-- A payload written piece by piece: the room in the open packet, the bytes not in earlier packets, and
the next number. -/
structure Writer where
  free : Nat
  left : Nat
  seq : Nat

/-- The next packet is opened. -/
def Writer.turn (limit : Nat) (w : Writer) : Writer := ⟨limit, w.left - limit, w.seq + 1⟩

/-- Its header: the packet is full or takes all that is left. -/
def Writer.head (limit : Nat) (w : Writer) : Bytes := header (min (w.left - limit) limit) w.seq

def Writer.write (limit : Nat) : Writer → Bytes → Bytes × Writer
  | w, [] => ([], w)
  | w, b :: bs =>
    if w.free = 0 then
      let later := write limit { w.turn limit with free := limit - 1 } bs
      (w.head limit ++ b :: later.1, later.2)
    else
      let later := write limit { w with free := w.free - 1 } bs
      (b :: later.1, later.2)

/-- What is missing behind a payload that fills its last packet. -/
def terminator (limit seq : Nat) (payload : Bytes) : Bytes :=
  if 0 < payload.length ∧ limit ∣ payload.length then header 0 (seq + payload.length / limit) else []

section
variable {limit : Nat}

theorem Writer.write_append (w : Writer) (xs ys : Bytes) :
    w.write limit (xs ++ ys) =
      ((w.write limit xs).1 ++ ((w.write limit xs).2.write limit ys).1, ((w.write limit xs).2.write limit ys).2) := by
  induction xs generalizing w with
  | nil => rfl
  | cons x xs ih =>
    simp only [cons_append, Writer.write]
    split
    · rw [ih]
      simp
    · rw [ih]
      rfl

theorem Writer.write_fits {w : Writer} {bs : Bytes} (fits : bs.length ≤ w.free) :
    w.write limit bs = (bs, { w with free := w.free - bs.length }) := by
  induction bs generalizing w with
  | nil => rfl
  | cons b bs ih =>
    rw [length_cons] at fits
    have smaller : bs.length ≤ w.free - 1 := by omega
    have room : w.free - 1 - bs.length = w.free - (bs.length + 1) := by omega
    rw [Writer.write, if_neg (by omega), ih (w := { w with free := w.free - 1 }) smaller]
    simp [room]

theorem Writer.write_over (positive : 0 < limit) {w : Writer} {bs : Bytes} (exceeds : w.free < bs.length) :
    w.write limit bs =
      (bs.take w.free ++ (w.head limit ++ ((w.turn limit).write limit (bs.drop w.free)).1),
        ((w.turn limit).write limit (bs.drop w.free)).2) := by
  have parts : bs.take w.free ++ bs.drop w.free = bs := take_append_drop _ _
  have width : (bs.take w.free).length = w.free := length_take_of_le (by omega)
  have first := @Writer.write_fits limit w _ (Nat.le_of_eq width)
  have later : { w with free := w.free - (bs.take w.free).length } = { w with free := 0 } := by
    rw [width, Nat.sub_self]
  rw [later] at first
  conv_lhs => rw [← parts]
  rw [Writer.write_append, first]
  cases behind : bs.drop w.free with
  | nil =>
    have empty := congrArg List.length behind
    rw [length_drop, length_nil] at empty
    omega
  | cons c cs =>
    -- both sides open the next packet and put `c` into it
    have opened : (w.turn limit).free ≠ 0 := by
      show limit ≠ 0
      omega
    rw [Writer.write, Writer.write, if_neg opened]
    rfl

/-- Written piece by piece, a payload is framed up to the packet that ends it. -/
theorem frames_eq_write (positive : 0 < limit) (payload : Bytes) :
    ∀ seq, frames limit seq payload = header (min payload.length limit) seq ++
      (((Writer.mk limit payload.length (seq + 1)).write limit payload).1 ++ terminator limit seq payload) := by
  induction payload using payload_induction positive with
  | short payload short =>
    intro seq
    have fits : payload.length ≤ (Writer.mk limit payload.length (seq + 1)).free := Nat.le_of_lt short
    have ends : ¬(0 < payload.length ∧ limit ∣ payload.length) := by
      rintro ⟨nonempty, divides⟩
      have := Nat.le_of_dvd nonempty divides
      omega
    rw [frames_short short, Writer.write_fits fits, Nat.min_eq_left (Nat.le_of_lt short), terminator, if_neg ends,
      append_nil]
  | long payload long ih =>
    intro seq
    rw [frames_long positive long, Nat.min_eq_right long]
    by_cases same : payload.length = limit
    · have fits : payload.length ≤ (Writer.mk limit payload.length (seq + 1)).free := Nat.le_of_eq same
      have ends : 0 < payload.length ∧ limit ∣ payload.length := ⟨by omega, Dvd.intro 1 (by omega)⟩
      have one : payload.length / limit = 1 := by rw [same, Nat.div_self positive]
      rw [Writer.write_fits fits, terminator, if_pos ends, one, ← same, take_length, drop_length,
        frames_short (by rw [length_nil]; omega)]
      rfl
    · have exceeds : (Writer.mk limit payload.length (seq + 1)).free < payload.length := by
        show limit < payload.length
        omega
      have left : (payload.drop limit).length = payload.length - limit := length_drop
      have packets : payload.length / limit = (payload.length - limit) / limit + 1 := Nat.div_eq_sub_div positive long
      have ends : (0 < payload.length ∧ limit ∣ payload.length) ↔
          (0 < payload.length - limit ∧ limit ∣ payload.length - limit) := by
        rw [Nat.dvd_sub_iff_left long (Nat.dvd_refl limit)]
        omega
      have later : terminator limit (seq + 1) (payload.drop limit) = terminator limit seq payload := by
        unfold terminator
        rw [left]
        simp only [ends]
        congr 2
        omega
      rw [Writer.write_over positive exceeds, ih (seq + 1), later]
      simp [Writer.head, Writer.turn]

end

end Framing
