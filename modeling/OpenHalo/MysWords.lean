import OpenHalo.MysLiteral

namespace OpenHalo.MysScan
open Octets Flex Flex.Pattern List

variable {cfg : Setting} {lx : Lexer} {t u tail : Bytes} {c : UInt8}

theorem Lexer.Ready.emits {rule : Rule} {n : Nat} {token : Token} (ready : lx.Ready t) (nonempty : t ≠ [])
    (chosen : choose t (rules .initial) = some (rule, n)) (acts : lx.act cfg n rule = .emit token (lx.yyless n)) :
    ∃ ended : Lexer, ended.Ready (t.drop n) ∧ lx.Emits cfg token ended := by
  have turn : lx.step cfg = lx.act cfg n rule := by
    apply step_eq
    · rwa [ready.rest]
    · rwa [ready.rest, ready.start]
  refine ⟨lx.yyless n, ⟨ready.start, ready.character, ?_⟩, .emit (turn.trans acts)⟩
  rw [yyless, ready.rest]

def nameByte (c : UInt8) : Bool := isNameStart c || isDigit c || c == 36

theorem longest_identifier (start : isNameStart c = true) (inside : u.all nameByte = true)
    (ends : ∀ d, tail.head? = some d → nameByte d = false) : identifier.longest (c :: (u ++ tail)) =
      some (u.length + 1) := by
  have taken : (u ++ tail).takeWhile nameByte = u := by
    rw [takeWhile_append_of_pos (all_eq_true.mp inside)]
    cases tail with
    | nil => exact append_nil u
    | cons d t => rw [takeWhile_cons, if_neg (by rw [ends d rfl]; decide), append_nil]
  have run := longest_star_cls nameByte (u ++ tail)
  rw [taken] at run
  rw [identifier, longest_seq_cls, if_pos (by rw [start, Bool.true_or])]
  change ((star (cls nameByte)).longest (u ++ tail)).map (· + 1) = _
  rw [run]
  rfl

/-- A letter that starts nothing but identifiers, and neither of the two words that are none. -/
structure PlainStart (c : UInt8) : Prop where
  left : alive c (rules .initial) = [(identifier, .identifier), (other, .other)]
  start : isNameStart c = true
  letter : lower c ≠ 95

theorem PlainStart.choose (plain : PlainStart c) (inside : u.all nameByte = true)
    (ends : ∀ d, tail.head? = some d → nameByte d = false) :
    choose (c :: (u ++ tail)) (rules .initial) = some (.identifier, u.length + 1) := by
  rw [choose_alive, plain.left]
  refine @choose_eq _ _ _ [] [(other, .other)] _ Rule.identifier _ (longest_identifier plain.start inside ends)
    (by simp) ?_
  intro rule member n found
  rw [mem_singleton.mp member, other, longest_cls] at found
  split at found
  · cases found
    exact Nat.succ_le_succ (Nat.zero_le _)
  · cases found

theorem PlainStart.word (plain : PlainStart c) (lx : Lexer) :
    lx.identifier (c :: u) = .emit (.word (c :: u)) (lx.yyless (u.length + 1)) := by
  have binary : startsWith (c :: u) (ascii "_binary") = false :=
    Bool.and_eq_false_iff.mpr (.inl (beq_eq_false_iff_ne.mpr plain.letter))
  have utf8 : startsWith (c :: u) (ascii "_utf8mb4") = false :=
    Bool.and_eq_false_iff.mpr (.inl (beq_eq_false_iff_ne.mpr plain.letter))
  rw [Lexer.identifier, binary, utf8]
  rfl

theorem Lexer.emits_word (cfg : Setting) (ready : lx.Ready (c :: (u ++ tail))) (plain : PlainStart c)
    (inside : u.all nameByte = true) (ends : ∀ d, tail.head? = some d → nameByte d = false) :
    ∃ ended : Lexer, ended.Ready tail ∧ lx.Emits cfg (.word (c :: u)) ended := by
  have yytext : (c :: (u ++ tail)).take (u.length + 1) = c :: u := by rw [take_succ_cons, take_left' rfl]
  have rest : (c :: (u ++ tail)).drop (u.length + 1) = tail := by rw [drop_succ_cons, drop_left' rfl]
  have acts : lx.act cfg (u.length + 1) .identifier = .emit (.word (c :: u)) (lx.yyless (u.length + 1)) := by
    rw [act, ready.rest, yytext]
    exact plain.word lx
  have emitted := ready.emits (cons_ne_nil c _) (plain.choose inside ends) acts
  rwa [rest] at emitted

theorem Lexer.Ready.blank (cfg : Setting) (ready : lx.Ready (32 :: t))
    (text : ∀ d, t.head? = some d → (ascii " \t\n\r\x0c").contains d = false) :
    ∃ next : Lexer, next.Ready t ∧ lx.step cfg = .goto next := by
  have left : alive 32 (rules .initial) = [(whitespace, .whitespace), (other, .other)] := rfl
  have blank : whitespace.longest (32 :: t) = some 1 := by
    rw [longest_cons]
    cases t with
    | nil => rfl
    | cons d t =>
      have outside := text d rfl
      have ends : (whitespace.deriv 32).deriv d = .empty := by
        have derived : whitespace.deriv 32 = star space := rfl
        rw [derived, Pattern.deriv, space, oneOf, Pattern.deriv, if_neg (by rw [outside]; decide)]
        rfl
      rw [longest_cons, ends, longest_empty]
      rfl
  have chosen : Flex.choose (32 :: t) (rules .initial) = some (.whitespace, 1) := by
    rw [choose_alive, left]
    simp [Flex.choose, blank, other, longest_cls]
  refine ⟨lx.yyless 1, ⟨ready.start, ready.character, by rw [yyless, ready.rest]; rfl⟩, ?_⟩
  exact step_eq (by rw [ready.rest]; exact cons_ne_nil _ _) (by rw [ready.rest, ready.start]; exact chosen)

theorem Lexer.Ready.comma (cfg : Setting) (ready : lx.Ready (44 :: t)) :
    lx.step cfg = .emit (.char 44) (lx.yyless 1) := by
  have left : alive 44 (rules .initial) = [(self, .self), (other, .other)] := rfl
  have chosen : Flex.choose (44 :: t) (rules .initial) = some (.self, 1) := by
    rw [choose_alive, left]
    simp [Flex.choose, self, oneOf, other, longest_cls, selfChars, ascii]
  have acts : lx.act cfg 1 .self = .emit (.char 44) (lx.yyless 1) := by
    rw [act, ready.rest]
    rfl
  rw [← acts]
  exact step_eq (by rw [ready.rest]; exact cons_ne_nil _ _) (by rw [ready.rest, ready.start]; exact chosen)

theorem Lexer.emits_comma (cfg : Setting) (ready : lx.Ready (44 :: t)) :
    ∃ ended : Lexer, ended.Ready t ∧ lx.Emits cfg (.char 44) ended :=
  ⟨lx.yyless 1, ⟨ready.start, ready.character, by rw [yyless, ready.rest]; rfl⟩, .emit (ready.comma cfg)⟩

end OpenHalo.MysScan
