import OpenHalo.Lib.Blanks
import OpenHalo.Logon.SearchPath
import OpenHalo.MysWords
import OpenHalo.Session.CommandLength

namespace OpenHalo
open Octets Memory MysScan
open List hiding choose

variable {ident lit name t w : Bytes}

def frontTokens (added : List RawStmt) : List Token := added.flatMap fun stmt => [.word stmt.controlWord, .char 59]

/-- The server is given `USE` and one identifier, the name, behind the statements that go with any command. -/
def SelectsDatabase (cfg : Setting) (enc : Encoding) (added : List RawStmt) (name : Bytes) (d : Dispatch) : Prop :=
  ∃ a t inBuf ident, d = .query a t inBuf ∧
    (Lexer.init inBuf.stmt).Scans cfg (frontTokens added ++ [.word (ascii "use"), .quotedIdent ident]) ∧
    enc.downcaseTruncate ident = name

namespace MysScan
open Flex Flex.Pattern

variable {cfg : Setting} {lx : Lexer} {ts : List Token}

def words : List Bytes := [ascii "use", ascii "begin", ascii "commit", ascii "rollback"]

theorem choose_word {d : UInt8} (word : w ∈ words) (ends : nameByte d = false) :
    choose (w ++ d :: t) (rules .initial) = some (.identifier, w.length) := by
  have stops : ∀ e, (d :: t).head? = some e → nameByte e = false := fun e same => Option.some.inj same ▸ ends
  simp only [words, mem_cons, not_mem_nil, or_false] at word
  rcases word with rfl | rfl | rfl | rfl
  · exact PlainStart.choose (c := 117) ⟨rfl, rfl, by decide⟩ (u := ascii "se") rfl stops
  · have left : alive 98 (rules .initial) = [(xbstart, .xbstart), (identifier, .identifier), (other, .other)] := rfl
    have found := @longest_identifier (ascii "egin") (d :: t) 98 rfl rfl stops
    have noBit : xbstart.longest (98 :: (ascii "egin" ++ d :: t)) = none := by
      rfl
    change choose (98 :: (ascii "egin" ++ d :: t)) (rules .initial) = some (.identifier, (ascii "egin").length + 1)
    rw [choose_alive, left]
    simp [choose, noBit, found, other, longest_cls]
  · exact PlainStart.choose (c := 99) ⟨rfl, rfl, by decide⟩ (u := ascii "ommit") rfl stops
  · exact PlainStart.choose (c := 114) ⟨rfl, rfl, by decide⟩ (u := ascii "ollback") rfl stops

theorem Lexer.step_word (cfg : Setting) {d : UInt8} (word : w ∈ words) (ends : nameByte d = false) :
    (Lexer.init (w ++ d :: t)).step cfg = .emit (.word w) (Lexer.init (d :: t)) := by
  have nonempty : (Lexer.init (w ++ d :: t)).rest ≠ [] := by simp [Lexer.init]
  have yytext : (w ++ d :: t).take w.length = w := take_left' rfl
  have rest : (w ++ d :: t).drop w.length = d :: t := drop_left' rfl
  have ordinary : ∀ w ∈ words, startsWith w (ascii "_binary") = false ∧ startsWith w (ascii "_utf8mb4") = false := by
    decide
  rw [step_eq nonempty (choose_word word ends)]
  change (Lexer.init (w ++ d :: t)).identifier ((w ++ d :: t).take w.length) = _
  rw [yytext, identifier, (ordinary w word).1, (ordinary w word).2]
  change Outcome.emit _ (Lexer.init ((w ++ d :: t).drop w.length)) = _
  rw [rest]

theorem Lexer.step_semicolon (cfg : Setting) (t : Bytes) :
    (Lexer.init (59 :: t)).step cfg = .emit (.char 59) (Lexer.init t) := by
  have left : alive 59 (rules .initial) = [(self, .self), (other, .other)] := rfl
  have chosen : choose (59 :: t) (rules .initial) = some (.self, 1) := by
    rw [choose_alive, left]
    simp [choose, self, oneOf, other, longest_cls, selfChars, ascii]
  exact @step_eq cfg (Lexer.init (59 :: t)) .self 1 (cons_ne_nil 59 t) chosen

theorem scans_front (cfg : Setting) (added : List RawStmt) (s : Bytes) (ts : List Token) :
    (Lexer.init (frontText added ++ s)).Scans cfg (frontTokens added ++ ts) ↔ (Lexer.init s).Scans cfg ts := by
  induction added with
  | nil => exact Iff.rfl
  | cons stmt added ih =>
    have word : stmt.controlWord ∈ words := by
      cases stmt <;> simp [RawStmt.controlWord, words]
    have text : frontText (stmt :: added) ++ s = stmt.controlWord ++ 59 :: (frontText added ++ s) := by
      simp [frontText]
    have tokens :
        frontTokens (stmt :: added) ++ ts = .word stmt.controlWord :: .char 59 :: (frontTokens added ++ ts) := by
      simp [frontTokens]
    rw [text, tokens, Lexer.scans_emit (Lexer.step_word cfg word rfl), ← ih]
    simp [Lexer.scans_emit (Lexer.step_semicolon cfg _)]

def Lexer.named (lit rest : Bytes) : Lexer := { Lexer.init rest with start := .xbt, literalbuf := lit }

theorem Lexer.step_blank (cfg : Setting) (t : Bytes) :
    (Lexer.init (32 :: 96 :: t)).step cfg = .goto (Lexer.init (96 :: t)) := by
  have left : alive 32 (rules .initial) = [(whitespace, .whitespace), (other, .other)] := rfl
  have blank : whitespace.longest (32 :: 96 :: t) = some 1 := by
    rw [longest_cons, longest_cons]
    have ends : (whitespace.deriv 32).deriv 96 = empty := rfl
    rw [ends, longest_empty]
    rfl
  have chosen : choose (32 :: 96 :: t) (rules .initial) = some (.whitespace, 1) := by
    rw [choose_alive, left]
    simp [choose, blank, other, longest_cls]
  exact @step_eq cfg (Lexer.init (32 :: 96 :: t)) .whitespace 1 (cons_ne_nil 32 _) chosen

theorem Lexer.step_backtick (cfg : Setting) (t : Bytes) :
    (Lexer.init (96 :: t)).step cfg = .goto (Lexer.named [] t) := by
  have left : alive 96 (rules .initial) = [(backtick, .xbtstart), (other, .other)] := rfl
  have chosen : choose (96 :: t) (rules .initial) = some (.xbtstart, 1) := by
    rw [choose_alive, left]
    simp [choose, backtick, other, longest_cls]
  exact @step_eq cfg (Lexer.init (96 :: t)) .xbtstart 1 (cons_ne_nil 96 t) chosen

theorem Lexer.step_named (cfg : Setting) (lit : Bytes) (c : UInt8) (t : Bytes) :
    (Lexer.named lit (c :: t)).step cfg =
      if c = 96 then
        (if t.head? = some 96 then .goto (Lexer.named (lit ++ [96]) (t.drop 1))
        else if lit = [] then .fail else .emit (.quotedIdent lit) { Lexer.init t with literalbuf := lit })
      else .goto (Lexer.named (lit ++ c :: t.takeWhile (· != 96)) (t.dropWhile (· != 96))) :=
  Lexer.step_name cfg rfl rfl

theorem scans_named (cfg : Setting) (plain : 96 ∉ w) (nonempty : lit ++ w ≠ []) :
    (Lexer.named lit (w ++ [96])).Scans cfg [.quotedIdent (lit ++ w)] := by
  have closed {lit : Bytes} (nonempty : lit ≠ []) : (Lexer.named lit [96]).Scans cfg [.quotedIdent lit] := by
    have turn := Lexer.step_named cfg lit 96 []
    rw [if_neg nonempty] at turn
    rw [Lexer.scans_emit turn]
    exact ⟨[], rfl, (Lexer.scans_done rfl).mpr rfl⟩
  cases w with
  | nil =>
    rw [append_nil] at nonempty ⊢
    exact closed nonempty
  | cons c w =>
    have turn := Lexer.step_named cfg lit c (w ++ [96])
    have others : ∀ b ∈ w, (b != 96) = true := fun b member =>
      bne_iff_ne.mpr fun mark => plain (mark ▸ mem_cons_of_mem c member)
    have taken : (w ++ [96]).takeWhile (· != 96) = w := by
      rw [takeWhile_append_of_pos others]
      exact append_nil w
    have left : (w ++ [96]).dropWhile (· != 96) = [96] := by
      rw [dropWhile_append_of_pos others]
      rfl
    rw [if_neg fun mark : c = 96 => plain (mark ▸ mem_cons_self), taken, left] at turn
    rw [cons_append, Lexer.scans_goto turn]
    exact closed nonempty

/-- A name is no longer than the text before its closing backtick, and as long only if it is that. -/
theorem named_tight {rest : Bytes} (scans : (Lexer.named lit rest).Scans cfg (.quotedIdent ident :: ts)) :
    ident ≠ [] ∧ ident.length + 1 ≤ lit.length + rest.length ∧
      (ident.length + 1 = lit.length + rest.length → ∃ w, 96 ∉ w ∧ ident = lit ++ w ∧ rest = w ++ [96]) := by
  induction len : rest.length using Nat.strong_induction_on generalizing lit rest with
  | _ n ih =>
    subst len
    cases rest with
    | nil => exact absurd scans (Lexer.not_scans_fail rfl)
    | cons c t =>
      have turn := Lexer.step_named cfg lit c t
      by_cases mark : c = 96
      · rw [if_pos mark] at turn
        by_cases again : t.head? = some 96
        · obtain ⟨r, rfl⟩ := List.head?_eq_some_iff.mp again
          obtain ⟨named, short, _⟩ := ih _ (by rw [drop_one, tail_cons, length_cons, length_cons]; omega)
            ((Lexer.scans_goto turn).mp scans) rfl
          simp only [length_append, length_cons, length_nil, drop_succ_cons, drop_zero] at short ⊢
          exact ⟨named, by omega, fun same => by omega⟩
        · rw [if_neg again] at turn
          by_cases empty : lit = []
          · rw [if_pos empty] at turn
            exact absurd scans (Lexer.not_scans_fail turn)
          rw [if_neg empty] at turn
          obtain ⟨later, same, _⟩ := (Lexer.scans_emit turn).mp scans
          cases same
          refine ⟨empty, by simp only [length_cons]; omega, fun whole => ?_⟩
          have nothing : t = [] := length_eq_zero_iff.mp (by simp only [length_cons] at whole; omega)
          exact ⟨[], not_mem_nil, (append_nil _).symm, by rw [mark, nothing]; rfl⟩
      · rw [if_neg mark] at turn
        have pieces := congrArg List.length (@takeWhile_append_dropWhile _ (· != 96) t)
        rw [length_append] at pieces
        obtain ⟨named, short, whole⟩ := ih _ (by simp only [length_cons]; omega) ((Lexer.scans_goto turn).mp scans) rfl
        simp only [length_append, length_cons] at short whole ⊢
        refine ⟨named, by omega, fun same => ?_⟩
        obtain ⟨w, plain, value, text⟩ := whole (by omega)
        refine ⟨c :: t.takeWhile (· != 96) ++ w, ?_, by rw [value, append_assoc], ?_⟩
        · intro member
          rcases mem_append.mp member with front | back
          · rcases mem_cons.mp front with first | taken
            · exact mark first.symm
            · exact absurd (all_eq_true.mp all_takeWhile 96 taken) (by decide)
          · exact plain back
        · rw [append_assoc, ← text, cons_append, takeWhile_append_dropWhile]

def useText (name : Bytes) : Bytes := ascii "use" ++ 32 :: 96 :: (name ++ [96])

theorem scans_useText (cfg : Setting) (name : Bytes) (token : Token) :
    (Lexer.init (useText name)).Scans cfg [.word (ascii "use"), token] ↔
      (Lexer.named [] (name ++ [96])).Scans cfg [token] := by
  rw [useText, Lexer.scans_emit (Lexer.step_word cfg (by decide) rfl)]
  simp [Lexer.scans_goto (Lexer.step_blank cfg _), Lexer.scans_goto (Lexer.step_backtick cfg _)]

end MysScan

/-- A name that a client may send: a C string that fits into an identifier. -/
structure DatabaseName where
  bytes : Bytes
  text : 0 ∉ bytes
  short : bytes.length ≤ 63

theorem downcaseTruncate_short (enc : Encoding) (short : ident.length ≤ 63) :
    enc.downcaseTruncate ident = ident.map enc.downcase := by
  rw [Encoding.downcaseTruncate, Encoding.truncate_short]
  rwa [length_map]

theorem useText_selects_iff (cfg : Setting) (enc : Encoding) (name : DatabaseName) :
    (∃ ident, (Lexer.init (useText name.bytes)).Scans cfg [.word (ascii "use"), .quotedIdent ident] ∧
        enc.downcaseTruncate ident = name.bytes) ↔
      name.bytes ≠ [] ∧ 96 ∉ name.bytes ∧ ∀ c ∈ name.bytes, enc.downcase c = c := by
  have fixed (w : Bytes) : w.map enc.downcase = w ↔ ∀ c ∈ w, enc.downcase c = c := by
    have each := @map_inj_left _ _ w enc.downcase id
    rwa [map_id] at each
  constructor
  · rintro ⟨ident, scans, value⟩
    obtain ⟨named, atMost, whole⟩ := named_tight ((scans_useText cfg name.bytes _).mp scans)
    have short := name.short
    simp only [length_append, length_nil, length_singleton] at atMost whole
    rw [downcaseTruncate_short enc (by omega)] at value
    have length := congrArg List.length value
    rw [length_map] at length
    obtain ⟨w, plain, same, text⟩ := whole (by omega)
    have bytes : name.bytes = w := append_cancel_right text
    rw [bytes, same] at value
    rw [same] at named
    rw [bytes]
    exact ⟨named, plain, (fixed w).mp value⟩
  · rintro ⟨nonempty, plain, kept⟩
    refine ⟨name.bytes, (scans_useText cfg name.bytes _).mpr (scans_named cfg plain nonempty), ?_⟩
    rw [downcaseTruncate_short enc name.short]
    exact (fixed name.bytes).mpr kept

theorem useDatabaseText_stmt {inBuf : StringInfo} (arrived : Arrived inBuf name) :
    (useDatabaseText inBuf).stmt = useText name := by
  have space : 64 ≤ inBuf.offset := arrived.reserved
  have len := arrived.len
  have named : inBuf.stmt = name := by
    rw [StringInfo.stmt, len, Nat.add_sub_cancel, arrived.bytes]
  have front : (inBuf.prepend (ascii "use \x60")).stmt = ascii "use \x60" ++ name := by
    rw [StringInfo.stmt_prepend (by simp [ascii]; omega) (by omega), named]
  have longer : (inBuf.prepend (ascii "use \x60")).len = name.length + 6 := by
    rw [StringInfo.prepend_len, len]
    rfl
  rw [useDatabaseText]
  generalize inBuf.prepend (ascii "use \x60") = out at front longer
  have behind : out.offset + out.len - 1 = out.offset + (out.len - 1) := by omega
  have text : read (write out.data (out.offset + (out.len - 1)) [96, 0]) out.offset (out.len - 1) = out.stmt := by
    apply read_congr
    intro i lower upper
    exact write_before upper
  have mark : write out.data (out.offset + (out.len - 1)) [96, 0] (out.offset + (out.len - 1)) = 96 := by
    rw [Memory.write, if_pos (Nat.le_refl _), Nat.sub_self]
    rfl
  have last : out.len + 1 - 1 = out.len - 1 + 1 := by omega
  rw [StringInfo.stmt]
  dsimp only
  rw [behind, last, read_concat, text, mark, front]
  rfl

theorem processCommand_initDb (config : Config) (a : Adapter) (t : PreStmts) (junk : Mem) (name : DatabaseName) :
    ∃ a' inBuf, processCommand config a t 2 (readCommand (2 :: name.bytes) junk).2 = .query a' t inBuf ∧
      inBuf.stmt = frontText a.trx.additional ++ useText name.bytes := by
  have arrived := readCommand_arrived 2 name.bytes junk
  have offset : (readCommand (2 :: name.bytes) junk).2.offset = 129 := rfl
  generalize (readCommand (2 :: name.bytes) junk).2 = inBuf at arrived offset
  have short := name.short
  have len := arrived.len
  have room : RESERVED_FOR_ADDITIONAL_SQL ≤ (useDatabaseText inBuf).offset := by
    change 64 ≤ inBuf.offset - 5
    omega
  have added := addPrefix_stmt { startCommand a with setUserSystemVar := 2 } room (Nat.succ_pos _)
  rw [useDatabaseText_stmt arrived] at added
  have handed : processUseDatabase (startCommand a) t inBuf =
      .query (addPrefix { startCommand a with setUserSystemVar := 2 } (useDatabaseText inBuf)).1 t
        (addPrefix { startCommand a with setUserSystemVar := 2 } (useDatabaseText inBuf)).2 := by
    rw [processUseDatabase, if_pos (by omega), forward, addAdditionalSQL, if_pos room]
  exact ⟨_, _, handed, added⟩

/-- The server uses the database that was named exactly if the name is not empty, has no backtick and is
lower case. -/
theorem init_db_selects_iff (cfg : Setting) (enc : Encoding) (config : Config) (a : Adapter) (t : PreStmts) (junk : Mem)
    (name : DatabaseName) :
    SelectsDatabase cfg enc a.trx.additional name.bytes
    (processCommand config a t 2 (readCommand (2 :: name.bytes) junk).2) ↔
      name.bytes ≠ [] ∧ 96 ∉ name.bytes ∧ ∀ c ∈ name.bytes, enc.downcase c = c := by
  obtain ⟨a', inBuf, handed, stmt⟩ := processCommand_initDb config a t junk name
  rw [← useText_selects_iff cfg enc name, handed]
  constructor
  · rintro ⟨_, _, _, ident, same, scans, value⟩
    cases same
    rw [stmt, scans_front] at scans
    exact ⟨ident, scans, value⟩
  · rintro ⟨ident, scans, value⟩
    exact ⟨_, _, _, ident, rfl, by rwa [stmt, scans_front], value⟩

def injectingName : DatabaseName := ⟨ascii "a\x60;drop table \x60t", by decide, by decide⟩

def upperName : DatabaseName := ⟨ascii "Db", by decide, by decide⟩

/-- The scanner finds `drop table` in a name, and another name for a capital letter. -/
theorem init_db_selects_other :
    (Lexer.init (useText injectingName.bytes)).Scans ⟨true, fun _ => true⟩
        [.word (ascii "use"), .quotedIdent (ascii "a"), .char 59, .word (ascii "drop"), .word (ascii "table"),
          .quotedIdent (ascii "t")] ∧
      (Lexer.init (useText upperName.bytes)).Scans ⟨true, fun _ => true⟩ [.word (ascii "use"),
        .quotedIdent (ascii "Db")] ∧
      (∀ enc : Encoding, enc.downcaseTruncate (ascii "Db") = ascii "db") ∧
      ∀ name ∈ [injectingName, upperName], ∀ cfg enc config a t junk,
        ¬ SelectsDatabase cfg enc a.trx.additional name.bytes
        (processCommand config a t 2 (readCommand (2 :: name.bytes) junk).2) := by
  refine ⟨⟨20, by decide +kernel⟩, ⟨20, by decide +kernel⟩, fun enc => rfl, ?_⟩
  rintro name member cfg enc config a t junk ⟨_, _, _, ident, same, scans, value⟩
  obtain ⟨a', inBuf, handed, stmt⟩ := processCommand_initDb config a t junk name
  rw [handed] at same
  cases same
  rw [stmt, scans_front] at scans
  obtain ⟨_, plain, kept⟩ := (useText_selects_iff cfg enc name).mp ⟨ident, scans, value⟩
  simp only [mem_cons, not_mem_nil, or_false] at member
  rcases member with rfl | rfl
  · exact plain (by decide)
  · have lowered : enc.downcase 68 = 100 := rfl
    exact absurd (lowered.symm.trans (kept 68 (by decide))) (by decide)

end OpenHalo
