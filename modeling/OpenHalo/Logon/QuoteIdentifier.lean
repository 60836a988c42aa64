import OpenHalo.Logon.SearchPath

namespace OpenHalo
open Octets Memory List

/-- The buffer then holds the name, and the scan goes on behind it. -/
theorem quotedEnd_eq (enc : Encoding) (separator : UInt8) (front s : Bytes) :
    quotedEnd (front ++ s) front.length =
        (quotedName s).map (fun (name, rest) => (front ++ name ++ 96 :: rest, front.length + name.length)) ∧
      nextName enc separator (96 :: s) = quotedName s :=
  ⟨quotedEnd_append front s, nextName_quoted enc separator s⟩

inductive KeywordCategory where
  | unreservedKeyword
  | colNameKeyword
  | typeFuncNameKeyword
  | reservedKeyword
deriving DecidableEq

/-- The setting and the keyword table that quoting depends on. -/
structure Quoting where
  quoteAllIdentifiers : Bool
  scanKeywordLookup : Bytes → Option KeywordCategory

variable (quoting : Quoting)

def safeStart (ch : UInt8) : Bool := (97 ≤ ch && ch ≤ 122) || ch == 95

def safeByte (ch : UInt8) : Bool := (97 ≤ ch && ch ≤ 122) || (48 ≤ ch && ch ≤ 57) || ch == 95

def Quoting.safe (ident : Bytes) : Bool :=
  ident.head?.any safeStart && ident.all safeByte && !quoting.quoteAllIdentifiers &&
    (quoting.scanKeywordLookup ident).all (· = .unreservedKeyword)

def paired (ident : Bytes) : Bytes := ident.flatMap fun ch => if ch = 96 then [96, 96] else [ch]

def mysQuoteIdentifier (ident : Bytes) : Bytes := if quoting.safe ident then ident else 96 :: (paired ident ++ [96])

structure Identifier where
  name : Bytes
  named : name ≠ []
  short : name.length ≤ 63
  text : 0 ∉ name

theorem safeByte_plain {ch : UInt8} (safe : safeByte ch = true) :
    inName 44 ch = true ∧ ch ≠ 96 ∧ ¬(65 ≤ ch ∧ ch ≤ 90) ∧ ¬128 ≤ ch :=
  forall_byte (p := fun ch => safeByte ch = true → inName 44 ch = true ∧ ch ≠ 96 ∧ ¬(65 ≤ ch ∧ ch ≤ 90) ∧ ¬128 ≤ ch)
    (by decide +kernel) ch safe

theorem quotedName_paired {rest : Bytes} (ends : Ends (· == 96) rest) (ident : Bytes) :
    quotedName (paired ident ++ 96 :: rest) = some (ident, rest) := by
  induction ident with
  | nil =>
    show quotedName (96 :: rest) = _
    rw [quotedName]
    rintro s rfl
    exact absurd (ends_cons.mp ends) (by decide)
  | cons ch ident ih =>
    by_cases quote : ch = 96
    · subst quote
      show quotedName (96 :: 96 :: (paired ident ++ 96 :: rest)) = _
      rw [quotedName, ih]
      rfl
    · have single : paired (ch :: ident) = ch :: paired ident := by
        rw [paired, flatMap_cons, if_neg quote]
        rfl
      rw [single, cons_append, quotedName, ih]
      · rfl
      · exact fun _ same => absurd same quote
      · exact quote

theorem Quoting.safe_plain {quoting : Quoting} {ident : Bytes} (safe : quoting.safe ident = true) :
    PlainName ident ∧ ∀ enc : Encoding, ident.map enc.downcase = ident := by
  simp only [Quoting.safe, Bool.and_eq_true, all_eq_true] at safe
  have plain := fun c inside => safeByte_plain (safe.1.1.2 c inside)
  refine ⟨⟨fun quote => ?_, fun c inside => (plain c inside).1⟩, fun enc => ?_⟩
  · exact (plain 96 (mem_of_mem_head? quote)).2.1 rfl
  · refine (map_congr_left fun c inside => ?_).trans (map_id _)
    rw [Encoding.downcase, if_neg (plain c inside).2.2.1, if_neg (plain c inside).2.2.2, id]

variable {enc : Encoding} {rest : Bytes} (ident : Identifier)

theorem nextName_quote (ends : Ends (· != 44) rest) :
    nextName enc 44 (mysQuoteIdentifier quoting ident.name ++ rest) = some (ident.name, rest) := by
  have comma : ∀ c ∈ rest.head?, c = 44 := fun c first => by simpa using ends c first
  rw [mysQuoteIdentifier]
  split
  · rename_i safe
    obtain ⟨⟨start, plain⟩, lowered⟩ := Quoting.safe_plain safe
    have stop : Ends (inName 44) rest := fun c first => by rw [comma c first]; decide
    rw [nextName, takeWhile_row plain stop, dropWhile_row plain stop]
    · rw [if_neg ident.named, Encoding.downcaseTruncate, lowered, Encoding.truncate_short ident.short]
    · intro s same
      rw [← head?_append_of_ne_nil _ ident.named, same] at start
      exact start rfl
  · rw [cons_append, append_assoc, nextName_quoted]
    exact quotedName_paired (fun c first => by rw [comma c first]; rfl) ident.name

theorem skipSpace_quote (rest : Bytes) :
    skipSpace (mysQuoteIdentifier quoting ident.name ++ rest) = mysQuoteIdentifier quoting ident.name ++ rest := by
  rw [mysQuoteIdentifier]
  split
  · rename_i safe
    exact (Quoting.safe_plain safe).1.skipSpace ident.named rest
  · rfl

def quotedList (idents : List Identifier) : Bytes :=
  [44].intercalate (idents.map fun ident => mysQuoteIdentifier quoting ident.name)

/-- The loop of the splitter, at the start of each name. -/
theorem splitNames_quotedList (idents : List Identifier) :
    skipSpace (quotedList quoting (ident :: idents)) = quotedList quoting (ident :: idents) ∧
      splitNames enc 44 (quotedList quoting (ident :: idents)) = some ((ident :: idents).map (·.name)) := by
  induction idents generalizing ident with
  | nil =>
    have alone := splitNames_some (@nextName_quote quoting enc [] ident ends_nil)
    rw [Encoding.truncate_short ident.short] at alone
    exact ⟨skipSpace_quote quoting ident [], alone⟩
  | cons next idents ih =>
    have shape : quotedList quoting (ident :: next :: idents) =
        mysQuoteIdentifier quoting ident.name ++ 44 :: quotedList quoting (next :: idents) := by
      simp [quotedList]
    rw [shape, splitNames_some (nextName_quote quoting ident (ends_cons.mpr rfl))]
    refine ⟨skipSpace_quote quoting ident _, ?_⟩
    show (if (44 : UInt8) = 44 then _ else _) = _
    rw [(ih next).1, (ih next).2, Encoding.truncate_short ident.short]
    rfl

/-- Identifiers, quoted and joined with commas, are split into themselves. -/
theorem quoted_list_split (enc : Encoding) (idents : List Identifier) :
    mysSplitIdentifierString enc 44 (quotedList quoting idents) = some (idents.map (·.name)) := by
  cases idents with
  | nil => rfl
  | cons ident idents =>
    obtain ⟨start, split⟩ := @splitNames_quotedList quoting enc ident idents
    have some' : quotedList quoting (ident :: idents) ≠ [] := by
      intro empty
      rw [empty] at split
      exact absurd split (by rw [splitNames_none rfl]; nofun)
    rw [mysSplitIdentifierString, start, if_neg some', split]

end OpenHalo
