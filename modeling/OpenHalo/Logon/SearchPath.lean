import OpenHalo.Logon.Soundness
import OpenHalo.Lib.Scanning

namespace OpenHalo
open Octets Memory List

variable {name rest s : Bytes}

/-- How the locale lower-cases a byte with the high bit, and where an overlong name is cut. -/
structure Encoding where
  high : UInt8 → UInt8
  clip : Bytes → Bytes
  clip_length : ∀ name, (clip name).length ≤ 63

def NAMEDATALEN : Nat := 64

namespace Encoding

variable (enc : Encoding)

def downcase (ch : UInt8) : UInt8 := if 65 ≤ ch ∧ ch ≤ 90 then ch + 32 else if 128 ≤ ch then enc.high ch else ch

/-- `truncate_identifier`. -/
def truncate (ident : Bytes) : Bytes := if NAMEDATALEN ≤ ident.length then enc.clip ident else ident

/-- `downcase_truncate_identifier`. -/
def downcaseTruncate (ident : Bytes) : Bytes := enc.truncate (ident.map enc.downcase)

end Encoding

/-- `scanner_isspace`. -/
def isSpace (ch : UInt8) : Bool := ch == 32 || ch == 9 || ch == 10 || ch == 13 || ch == 12

def skipSpace (s : Bytes) : Bytes := s.dropWhile isSpace

/-- A name behind its opening backquote, pairs of backquotes collapsed, and what follows the closing one. -/
def quotedName : Bytes → Option (Bytes × Bytes)
  | [] => none
  | 96 :: 96 :: s => (quotedName s).map fun (name, rest) => (96 :: name, rest)
  | 96 :: s => some ([], s)
  | c :: s => (quotedName s).map fun (name, rest) => (c :: name, rest)

/-- The quoted name at `start`, in place: `memmove` takes out one of each pair of backquotes, and a
single one is the end. -/
def quotedEnd (buf : Bytes) (start : Nat) : Option (Bytes × Nat) :=
  let endp := start + (buf.drop start).findIdx (· == 96)
  if _inside : endp < buf.length then
    if buf[endp + 1]? = some 96 then quotedEnd (buf.eraseIdx endp) (endp + 1) else some (buf, endp)
  else none
termination_by buf.length
decreasing_by
  rw [length_eraseIdx_of_lt _inside]
  omega

def inName (separator ch : UInt8) : Bool := ch != separator && !isSpace ch

def nextName (enc : Encoding) (separator : UInt8) : Bytes → Option (Bytes × Bytes)
  | 96 :: s => (quotedEnd s 0).map fun (buf, endp) => (buf.take endp, buf.drop (endp + 1))
  | s =>
    let name := s.takeWhile (inName separator)
    if name = [] then none else some (enc.downcaseTruncate name, s.dropWhile (inName separator))

theorem quotedEnd_append (front s : Bytes) :
    quotedEnd (front ++ s) front.length =
      (quotedName s).map fun (name, rest) => (front ++ name ++ 96 :: rest, front.length + name.length) := by
  fun_induction quotedName s generalizing front with
  | case1 =>
    rw [quotedEnd, dif_neg (by simp)]
    rfl
  | case2 s ih =>
    have second : (front ++ 96 :: 96 :: s)[front.length + 1]? = some 96 := by simp
    have erased : (front ++ 96 :: 96 :: s).eraseIdx front.length = (front ++ [96]) ++ s := by
      simp [eraseIdx_append_of_length_le]
    have again := ih (front ++ [96])
    rw [length_append, length_singleton] at again
    rw [quotedEnd, drop_left, findIdx_cons, beq_self_eq_true, cond_true, Nat.add_zero, dif_pos (by simp), if_pos second,
      erased, again, Option.map_map]
    simp [Function.comp_def, Nat.add_assoc, Nat.add_comm 1]
  | case3 s single =>
    have second : (front ++ 96 :: s)[front.length + 1]? ≠ some 96 := by
      rw [getElem?_append_right (by omega), Nat.add_sub_cancel_left]
      intro first
      cases s with
      | nil => cases first
      | cons c s => exact single s (by rw [Option.some.inj first])
    rw [quotedEnd, drop_left, findIdx_cons, beq_self_eq_true, cond_true, if_neg second]
    simp
  | case4 c s _ other ih =>
    have place : (c :: s).findIdx (· == 96) = s.findIdx (· == 96) + 1 := by
      rw [findIdx_cons, beq_false_of_ne other, cond_false]
    have next : quotedEnd (front ++ c :: s) front.length = quotedEnd ((front ++ [c]) ++ s) (front ++ [c]).length := by
      rw [quotedEnd, drop_left, place]
      conv_rhs => rw [quotedEnd, drop_left, append_assoc, singleton_append, length_append, length_singleton,
        Nat.add_right_comm]
      rfl
    rw [next, ih]
    simp [Function.comp_def, Nat.add_assoc, Nat.add_comm 1]

theorem nextName_quoted (enc : Encoding) (separator : UInt8) (s : Bytes) :
    nextName enc separator (96 :: s) = quotedName s := by
  have scanned := quotedEnd_append [] s
  simp only [nil_append, length_nil] at scanned
  rw [nextName, scanned]
  cases quotedName s <;> simp

theorem quotedName_length (found : quotedName s = some (name, rest)) :
    name.length + rest.length + 1 ≤ s.length := by
  fun_induction quotedName s generalizing name with
  | case1 => cases found
  | case2 s ih =>
    obtain ⟨⟨name', rest'⟩, inner, same⟩ := Option.map_eq_some_iff.mp found
    cases same
    have shorter := ih inner
    simp only [length_cons]
    omega
  | case3 s =>
    cases found
    simp
  | case4 c s _ _ ih =>
    obtain ⟨⟨name', rest'⟩, inner, same⟩ := Option.map_eq_some_iff.mp found
    cases same
    have shorter := ih inner
    simp only [length_cons]
    omega

theorem Encoding.truncate_length (enc : Encoding) (ident : Bytes) : (enc.truncate ident).length ≤ ident.length := by
  unfold truncate
  split
  · have short := enc.clip_length ident
    have limit : NAMEDATALEN = 64 := rfl
    omega
  · exact Nat.le_refl _

theorem nextName_length {enc : Encoding} {separator : UInt8}
    (found : nextName enc separator s = some (name, rest)) : name.length + rest.length ≤ s.length := by
  unfold nextName at found
  split at found
  · rename_i s
    have inner := quotedName_length ((nextName_quoted enc separator s).symm.trans found)
    rw [length_cons]
    omega
  · dsimp only at found
    split at found
    · cases found
    cases found
    have parts := congrArg List.length (takeWhile_append_dropWhile (p := inName separator) (l := s))
    have cut := enc.truncate_length ((s.takeWhile (inName separator)).map enc.downcase)
    rw [length_append] at parts
    rw [length_map] at cut
    rw [Encoding.downcaseTruncate]
    omega

theorem skipSpace_length (s : Bytes) : (skipSpace s).length ≤ s.length := (dropWhile_suffix isSpace).length_le

/-- The loop of `mys_SplitIdentifierString`, at the start of a name. -/
def splitNames (enc : Encoding) (separator : UInt8) (s : Bytes) : Option (List Bytes) :=
  match _found : nextName enc separator s with
  | none => none
  | some (name, rest) =>
    match _behind : skipSpace rest with
    | [] => some [enc.truncate name]
    | c :: more =>
      if c = separator then (splitNames enc separator (skipSpace more)).map (enc.truncate name :: ·) else none
termination_by s.length
decreasing_by
  have used := nextName_length _found
  have skipped := skipSpace_length rest
  have skipped' := skipSpace_length more
  rw [_behind, length_cons] at skipped
  omega

/-- `mys_SplitIdentifierString`; `none` is a syntax error. -/
def mysSplitIdentifierString (enc : Encoding) (separator : UInt8) (rawstring : Bytes) : Option (List Bytes) :=
  let s := skipSpace rawstring
  if s = [] then some [] else splitNames enc separator s

section Append

variable {enc : Encoding} {separator : UInt8}

theorem splitNames_none (none' : nextName enc separator s = none) : splitNames enc separator s = none := by
  rw [splitNames]
  split
  · rfl
  rename_i found
  rw [none'] at found
  cases found

theorem splitNames_some (found : nextName enc separator s = some (name, rest)) :
    splitNames enc separator s =
      match skipSpace rest with
      | [] => some [enc.truncate name]
      | c :: more =>
        if c = separator then (splitNames enc separator (skipSpace more)).map (enc.truncate name :: ·) else none := by
  rw [splitNames]
  split
  · rename_i found'
    rw [found] at found'
    cases found'
  · rename_i found'
    cases found.symm.trans found'
    split <;>
    · rename_i behind
      rw [behind]

theorem quotedName_none (plain : 96 ∉ s) : quotedName s = none := by
  induction s with
  | nil => rfl
  | cons c s ih =>
    have other : c ≠ 96 := fun same => plain (same ▸ mem_cons_self)
    rw [quotedName, ih fun later => plain (mem_cons_of_mem c later)]
    · rfl
    · exact fun _ same => absurd same other
    · exact other

variable {tail : Bytes} (closed : 96 ∉ separator :: tail)

include closed

theorem quotedName_append (s : Bytes) :
    quotedName (s ++ separator :: tail) = (quotedName s).map fun (name, rest) => (name, rest ++ separator :: tail) := by
  fun_induction quotedName s with
  | case1 => exact quotedName_none closed
  | case2 s ih =>
    rw [cons_append, cons_append, quotedName, ih, Option.map_map, Option.map_map]
    rfl
  | case3 s single =>
    cases s with
    | nil =>
      have other : separator ≠ 96 := fun same => closed (same ▸ mem_cons_self)
      rw [cons_append, quotedName]
      · rfl
      · intro _ same
        exact other (List.cons.inj same).1
    | cons c s =>
      have other : c ≠ 96 := fun same => single s (same ▸ rfl)
      rw [cons_append, quotedName]
      · rfl
      · intro _ same
        exact other (List.cons.inj same).1
  | case4 c s first second ih =>
    rw [cons_append, quotedName, ih, Option.map_map, Option.map_map]
    · rfl
    · exact fun t same => absurd same second
    · exact second

theorem nextName_append (s : Bytes) :
    nextName enc separator (s ++ separator :: tail) =
      (nextName enc separator s).map fun (name, rest) => (name, rest ++ separator :: tail) := by
  have stop : inName separator separator = false := by simp [inName]
  by_cases quoted : ∃ s', s = 96 :: s'
  · obtain ⟨s', rfl⟩ := quoted
    rw [cons_append, nextName_quoted, nextName_quoted]
    exact quotedName_append closed s'
  have other : ∀ s', s ++ separator :: tail ≠ 96 :: s' := by
    intro s' same
    cases s with
    | nil => exact closed ((List.cons.inj same).1 ▸ mem_cons_self)
    | cons c s => exact quoted ⟨s, by rw [(List.cons.inj same).1]⟩
  rw [nextName, nextName]
  · obtain ⟨row, rest, rfl, all, ends⟩ := exists_row (inName separator) s
    rw [append_assoc, takeWhile_row all (ends_append ends stop tail), dropWhile_row all (ends_append ends stop tail),
      takeWhile_row all ends, dropWhile_row all ends]
    split <;> rfl
  · exact fun s' same => quoted ⟨s', same⟩
  · exact other

omit closed in
theorem skipSpace_append (visible : isSpace separator = false) (s : Bytes) :
    skipSpace (s ++ separator :: tail) = skipSpace s ++ separator :: tail := by
  obtain ⟨row, rest, rfl, all, ends⟩ := exists_row isSpace s
  rw [skipSpace, skipSpace, append_assoc, dropWhile_row all (ends_append ends visible tail), dropWhile_row all ends]

theorem splitNames_append (visible : isSpace separator = false) {names : List Bytes}
    (rest : splitNames enc separator (skipSpace tail) = some names) (s : Bytes) :
    splitNames enc separator (s ++ separator :: tail) = (splitNames enc separator s).map (· ++ names) := by
  have next := @nextName_append enc separator tail closed s
  cases found : nextName enc separator s with
  | none =>
    rw [found] at next
    rw [splitNames_none next, splitNames_none found, Option.map_none]
  | some parts =>
    obtain ⟨name, more⟩ := parts
    rw [found] at next
    rw [splitNames_some next, splitNames_some found, skipSpace_append visible]
    cases behind : skipSpace more with
    | nil =>
      dsimp only [nil_append]
      rw [if_pos rfl, rest]
      rfl
    | cons c later =>
      dsimp only [cons_append]
      by_cases more' : c = separator
      · have shorter : (skipSpace later).length < s.length := by
          have used := nextName_length found
          have skipped := skipSpace_length more
          have skipped' := skipSpace_length later
          rw [behind, length_cons] at skipped
          omega
        rw [if_pos more', if_pos more', skipSpace_append visible, splitNames_append visible rest (skipSpace later),
          Option.map_map, Option.map_map]
        rfl
      · rw [if_neg more', if_neg more', Option.map_none]
termination_by s.length

end Append

def PlainName (name : Bytes) : Prop := name.head? ≠ some 96 ∧ ∀ c ∈ name, inName 44 c = true

instance (name : Bytes) : Decidable (PlainName name) :=
  decidable_of_iff (name.head? ≠ some 96 ∧ name.all (inName 44) = true) (and_congr_right fun _ => all_eq_true)

section Plain

variable {enc : Encoding} {name : Bytes}

theorem Encoding.truncate_short (short : name.length ≤ 63) : enc.truncate name = name := by
  have limit : NAMEDATALEN = 64 := rfl
  rw [Encoding.truncate, if_neg (by omega)]

theorem PlainName.skipSpace (plain : PlainName name) (named : name ≠ []) (rest : Bytes) :
    skipSpace (name ++ rest) = name ++ rest := by
  obtain ⟨c, s, rfl⟩ := exists_cons_of_ne_nil named
  have inside := plain.2 c mem_cons_self
  simp only [inName, Bool.and_eq_true, Bool.not_eq_true'] at inside
  exact dropWhile_cons_of_neg (by rw [inside.2]; exact Bool.false_ne_true)

theorem PlainName.split (plain : PlainName name) (named : name ≠ []) (short : name.length ≤ 63) :
    splitNames enc 44 name = some [name.map enc.downcase] := by
  have whole : name.takeWhile (inName 44) = name := takeWhile_eq_self_iff.mpr plain.2
  have rest : name.dropWhile (inName 44) = [] := dropWhile_eq_nil_iff.mpr plain.2
  have lowered : (name.map enc.downcase).length ≤ 63 := by rwa [length_map]
  have found : nextName enc 44 name = some (name.map enc.downcase, []) := by
    rw [nextName]
    · rw [whole, rest, if_neg named, Encoding.downcaseTruncate, Encoding.truncate_short lowered]
    · intro s same
      rw [same] at plain
      exact plain.1 rfl
  rw [splitNames_some found]
  show some [enc.truncate _] = _
  rw [Encoding.truncate_short lowered]

theorem splitNames_first {names : List Bytes} (split : splitNames enc 44 s = some names) :
    ∃ first rest later, nextName enc 44 s = some (first, rest) ∧ names = enc.truncate first :: later := by
  cases found : nextName enc 44 s with
  | none =>
    rw [splitNames_none found] at split
    cases split
  | some parts =>
    obtain ⟨first, rest⟩ := parts
    rw [splitNames_some found] at split
    split at split
    · exact ⟨first, rest, [], rfl, (Option.some.inj split).symm⟩
    split at split
    · obtain ⟨later, _, same⟩ := Option.map_eq_some_iff.mp split
      exact ⟨first, rest, later, rfl, same.symm⟩
    · cases split

theorem plainName_of_split (alone : splitNames enc 44 (skipSpace name) = some [name.map enc.downcase]) :
    PlainName name := by
  obtain ⟨first, rest, _, found, same⟩ := splitNames_first alone
  have used := nextName_length found
  have skipped := skipSpace_length name
  have cut := enc.truncate_length first
  have length := congrArg List.length (List.cons.inj same).1
  rw [length_map] at length
  -- nothing is skipped, quoted or cut
  have all : (skipSpace name).length = name.length := by omega
  have start : skipSpace name = name := (dropWhile_suffix isSpace).eq_of_length all
  rw [start] at found
  unfold nextName at found
  split at found
  · rename_i s
    have inner := quotedName_length ((nextName_quoted enc 44 s).symm.trans found)
    rw [length_cons] at length
    omega
  · rename_i other
    dsimp only at found
    split at found
    · cases found
    have taken := congrArg (fun parts => parts.elim 0 fun p => p.1.length) found
    have kept := enc.truncate_length ((name.takeWhile (inName 44)).map enc.downcase)
    have part := (List.takeWhile_prefix (inName 44) (l := name)).length_le
    simp only [Option.elim_some, Encoding.downcaseTruncate] at taken
    rw [length_map] at kept
    have whole := (List.takeWhile_prefix (inName 44) (l := name)).eq_of_length (by omega)
    refine ⟨fun quoted => ?_, takeWhile_eq_self_iff.mp whole⟩
    cases name with
    | nil => cases quoted
    | cons c s => exact other s (by rw [Option.some.inj quoted])

end Plain

theorem PlainName.split_cons {enc : Encoding} {name tail : Bytes} {names : List Bytes} (plain : PlainName name)
    (named : name ≠ []) (short : name.length ≤ 63) (closed : 96 ∉ 44 :: tail)
    (rest : splitNames enc 44 (OpenHalo.skipSpace tail) = some names) :
    splitNames enc 44 (name ++ 44 :: tail) = some (name.map enc.downcase :: names) := by
  rw [splitNames_append closed (by decide) rest, plain.split named short]
  rfl

def searchPathNames (enc : Encoding) (search_path : Bytes) : Option (List Bytes) :=
  mysSplitIdentifierString enc 44 search_path

def fixedSchemas : List Bytes := [ascii "mysql", ascii "pg_catalog", ascii "\"$user\"", ascii "public"]

theorem splitNames_fixed (enc : Encoding) :
    splitNames enc 44 (skipSpace (ascii " mysql, pg_catalog, \"$user\", public")) = some fixedSchemas := by
  have last : splitNames enc 44 (skipSpace (ascii " public")) = some [ascii "public"] :=
    @PlainName.split enc (ascii "public") (by decide) (by decide) (by decide)
  have user : splitNames enc 44 (skipSpace (ascii " \"$user\", public")) = some [ascii "\"$user\"", ascii "public"] :=
    @PlainName.split_cons enc (ascii "\"$user\"") _ _ (by decide) (by decide) (by decide) (by decide) last
  have catalog : splitNames enc 44 (skipSpace (ascii " pg_catalog, \"$user\", public")) =
      some [ascii "pg_catalog", ascii "\"$user\"", ascii "public"] :=
    @PlainName.split_cons enc (ascii "pg_catalog") _ _ (by decide) (by decide) (by decide) (by decide) user
  exact @PlainName.split_cons enc (ascii "mysql") _ _ (by decide) (by decide) (by decide) (by decide) catalog

/-- The path is read as the names in the client's string and the fixed ones. -/
theorem searchPathNames_eq (enc : Encoding) (named : name ≠ []) :
    searchPathNames enc (searchPath name) = (splitNames enc 44 (skipSpace name)).map (· ++ fixedSchemas) := by
  have shape : searchPath name = name ++ 44 :: ascii " mysql, pg_catalog, \"$user\", public" := by
    rw [searchPath, if_neg named]
    rfl
  rw [searchPathNames, mysSplitIdentifierString, shape, skipSpace_append (by decide), if_neg (by simp)]
  exact splitNames_append (by decide) (by decide) (splitNames_fixed enc) (skipSpace name)

theorem authenticate_searchPath {server : Server} {packets : List LogonPacket} {user path : Bytes} {caps : Nat}
    (session : authenticate server packets = .session user name caps path) : path = searchPath name := by
  have started : ∀ resp, startSession resp = .session user name caps path → path = searchPath name := by
    intro resp same
    cases same
    rfl
  cases packets with
  | nil => cases session
  | cons first rest =>
    unfold authenticate at session
    dsimp only at session
    split at session
    · cases session
    · cases session
    rename_i resp _
    unfold Server.admit at session
    split at session
    · cases session
    split at session
    · exact started resp session
    · cases session
    · split at session
      · exact started resp session
      · cases session
    · exact started resp session

/-- In a session with a database name of at most 63 bytes the search path never has the names that are
meant; with the double quotes left in `$user` it does, exactly if the client's name has no comma and no
blank and does not start with a backquote. -/
theorem search_path_names_iff {server : Server} {packets : List LogonPacket} {user name path : Bytes} {caps : Nat}
    (session : authenticate server packets = .session user name caps path) (named : name ≠ [])
    (short : name.length ≤ 63) (enc : Encoding) :
    searchPathNames enc path ≠
        some [name.map enc.downcase, ascii "mysql", ascii "pg_catalog", ascii "$user", ascii "public"] ∧
      (searchPathNames enc path =
          some [name.map enc.downcase, ascii "mysql", ascii "pg_catalog", ascii "\"$user\"", ascii "public"] ↔
        PlainName name) := by
  rw [authenticate_searchPath session, searchPathNames_eq enc named]
  constructor
  · intro split
    obtain ⟨front, _, same⟩ := Option.map_eq_some_iff.mp split
    have last := congrArg (fun names => names.reverse[1]?) same
    simp [fixedSchemas] at last
    revert last
    decide
  · constructor
    · intro split
      obtain ⟨front, alone, same⟩ := Option.map_eq_some_iff.mp split
      have one : front = [name.map enc.downcase] :=
        append_cancel_right (show _ ++ fixedSchemas = [_] ++ fixedSchemas from same)
      rw [one] at alone
      exact plainName_of_split alone
    · intro plain
      have start := plain.skipSpace named []
      rw [append_nil] at start
      rw [start, plain.split named short]
      rfl

def LogonPacket.withDb (name db : String) : LogonPacket where
  payload := [8, 2, 0, 0] ++ List.replicate 28 0 ++ ascii name ++ [0, 0] ++ ascii db ++ [0]
  junk := fun _ => 0

def Encoding.plain : Encoding := ⟨id, List.take 63, fun name => length_take_le 63 name⟩

theorem search_path_names_shop :
    ∃ user path caps, authenticate (.sample .uaTrust "root" ⟨none, false⟩) [.withDb "root" "Shop"] =
        .session user (ascii "shop") caps path ∧
      searchPathNames .plain path ≠
        some [ascii "shop", ascii "mysql", ascii "pg_catalog", ascii "$user", ascii "public"] ∧
      searchPathNames .plain path =
        some [ascii "shop", ascii "mysql", ascii "pg_catalog", ascii "\"$user\"", ascii "public"] := by
  have session : authenticate (.sample .uaTrust "root" ⟨none, false⟩) [.withDb "root" "Shop"] =
      .session (ascii "root") (ascii "shop") 520 (searchPath (ascii "shop")) := by decide +kernel
  obtain ⟨never, quoted⟩ := search_path_names_iff session (by decide) (by decide) .plain
  exact ⟨_, _, _, session, never, quoted.mpr (by decide)⟩

/-- The user's schema is missing, and a comma in the name adds a schema. -/
theorem search_path_extended :
    authenticate (.sample .uaTrust "root" ⟨none, false⟩) [.withDb "root" "shop"] =
        .session (ascii "root") (ascii "shop") 520 (searchPath (ascii "shop")) ∧
      searchPathNames .plain (searchPath (ascii "shop")) =
        some [ascii "shop", ascii "mysql", ascii "pg_catalog", ascii "\"$user\"", ascii "public"] ∧
      authenticate (.sample .uaTrust "root" ⟨none, false⟩) [.withDb "root" "a,b"] =
        .session (ascii "root") (ascii "a,b") 520 (searchPath (ascii "a,b")) ∧
      searchPathNames .plain (searchPath (ascii "a,b")) =
        some [ascii "a", ascii "b", ascii "mysql", ascii "pg_catalog", ascii "\"$user\"", ascii "public"] := by
  refine ⟨by decide +kernel, ?_, by decide +kernel, ?_⟩
  · rw [searchPathNames_eq _ (by decide)]
    have one : splitNames .plain 44 (skipSpace (ascii "shop")) = some [ascii "shop"] :=
      @PlainName.split .plain (ascii "shop") (by decide) (by decide) (by decide)
    rw [one]
    rfl
  · rw [searchPathNames_eq _ (by decide)]
    have second : splitNames .plain 44 (skipSpace (ascii "b")) = some [ascii "b"] :=
      @PlainName.split .plain (ascii "b") (by decide) (by decide) (by decide)
    have both : splitNames .plain 44 (skipSpace (ascii "a,b")) = some [ascii "a", ascii "b"] :=
      @PlainName.split_cons .plain (ascii "a") _ _ (by decide) (by decide) (by decide) (by decide) second
    rw [both]
    rfl

end OpenHalo
