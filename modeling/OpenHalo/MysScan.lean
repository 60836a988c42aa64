import OpenHalo.Lib.Flex
import OpenHalo.Lib.Octets

namespace OpenHalo.MysScan
open Octets Flex Flex.Pattern

/-- `[...]` and `[^...]`. -/
def oneOf (s : String) : Pattern UInt8 := cls fun c => (ascii s).contains c
def noneOf (s : String) : Pattern UInt8 := cls fun c => !(ascii s).contains c
def text (s : String) : Pattern UInt8 := word (ascii s)

def isLetter (c : UInt8) : Bool := (65 ≤ c && c ≤ 90) || (97 ≤ c && c ≤ 122)
def isDigit (c : UInt8) : Bool := 48 ≤ c && c ≤ 57
def isHex (c : UInt8) : Bool := isDigit c || (65 ≤ c && c ≤ 70) || (97 ≤ c && c ≤ 102)

/-- `[A-Za-z\200-\377_]`. -/
def isNameStart (c : UInt8) : Bool := isLetter c || 128 ≤ c || c == 95

/-- `.`: anything but `\n`. -/
def other : Pattern UInt8 := cls (· != 10)

def space : Pattern UInt8 := oneOf " \t\n\r\x0c"
def horizSpace : Pattern UInt8 := oneOf " \t\x0c"
def newline : Pattern UInt8 := oneOf "\n\r"
def nonNewline : Pattern UInt8 := noneOf "\n\r"
def comment : Pattern UInt8 := seq (text "--") (star nonNewline)
def whitespace : Pattern UInt8 := alt (plus space) comment
def newline2 : Pattern UInt8 := alt newline (star space)
def specialWhitespace : Pattern UInt8 := alt (plus space) (seq comment newline)
def horizWhitespace : Pattern UInt8 := alt horizSpace comment
def whitespaceWithNewline : Pattern UInt8 := seq (star horizWhitespace) (seq newline2 (star specialWhitespace))

/-- `{quote}` is 39 and `{dquote}` 34. -/
def quote (q : UInt8) : Pattern UInt8 := cls (· == q)
def quotecontinue (q : UInt8) : Pattern UInt8 := seq whitespaceWithNewline (quote q)
def quotecontinuefail : Pattern UInt8 := seq (star whitespace) (opt (text "-"))

def xbstart : Pattern UInt8 := seq (oneOf "bB") (quote 39)
def xhstart : Pattern UInt8 := seq (oneOf "xX") (quote 39)
def xnstart : Pattern UInt8 := seq (oneOf "nN") (quote 39)
/-- `{xbinside}` and `{xhinside}`. -/
def xbinside : Pattern UInt8 := star (cls (· != 39))
def mys0bbit : Pattern UInt8 := seq (text "0b") (plus (plus (oneOf "01")))
def mys0hbit : Pattern UInt8 := seq (text "0x") (plus (plus (cls isHex)))

/-- `{xeinside}` and `{xdeinside}`. -/
def xeinside (q : UInt8) : Pattern UInt8 := plus (cls fun c => c != 92 && c != q)
def xeescape : Pattern UInt8 := seq (cls (· == 92)) other
def xqdouble (q : UInt8) : Pattern UInt8 := seq (quote q) (quote q)

def dolqStart : Pattern UInt8 := cls isNameStart
def dolqCont : Pattern UInt8 := cls fun c => isNameStart c || isDigit c
def dolqdelim : Pattern UInt8 := seq (text "$") (seq (opt (seq dolqStart (star dolqCont))) (text "$"))
def dolqfailed : Pattern UInt8 := seq (text "$") (seq dolqStart (star dolqCont))
def dolqinside : Pattern UInt8 := plus (cls (· != 36))

def backtick : Pattern UInt8 := cls (· == 96)
def xbtdouble : Pattern UInt8 := seq backtick backtick
def xbtinside : Pattern UInt8 := plus (cls (· != 96))

def selfChars : String := ",()[].;:+-*/%^<>="
def self : Pattern UInt8 := oneOf selfChars
def opChars : Pattern UInt8 := oneOf "~!#^&|+-*/%<>="
def operator : Pattern UInt8 := plus opChars

def xcstart : Pattern UInt8 := seq (text "/*") (star opChars)
def xcstop : Pattern UInt8 := seq (plus (text "*")) (text "/")
def xcinside : Pattern UInt8 := plus (noneOf "*/")

def digit : Pattern UInt8 := cls isDigit
def identifier : Pattern UInt8 :=
  seq (cls fun c => isNameStart c || isDigit c) (star (cls fun c => isNameStart c || isDigit c || c == 36))
def variableCont : Pattern UInt8 := cls fun c => isNameStart c || isDigit c || c == 36 || c == 46
def mysqlUserVariable : Pattern UInt8 := seq (text "@") (plus variableCont)
def mysSysVar : Pattern UInt8 := seq (text "@@") (plus variableCont)

def integer : Pattern UInt8 := plus digit
def decimal : Pattern UInt8 :=
  alt (seq (star digit) (seq (text ".") (plus digit))) (seq (plus digit) (seq (text ".") (star digit)))
def decimalfail : Pattern UInt8 := seq (plus digit) (text "..")
def real : Pattern UInt8 :=
  seq (alt integer decimal) (seq (oneOf "Ee") (seq (opt (oneOf "-+")) (plus digit)))
def realfail1 : Pattern UInt8 := seq (alt integer decimal) (oneOf "Ee")
def realfail2 : Pattern UInt8 := seq (alt integer decimal) (seq (oneOf "Ee") (oneOf "-+"))
def param : Pattern UInt8 := seq (text "$") integer
def mysParam : Pattern UInt8 := text "?"

/-- Start conditions. `xq` and `xdq` are declared in the source and never entered. -/
inductive Start
  | initial | xb | xc | xbt | xh | xqs | xdqs | xe | xde | xdolq
deriving Repr, DecidableEq

/-- The rules by what they do; rules with the same action share a name. -/
inductive Rule
  | whitespace | xcstart | xcnest | xcstop | ignore | xbstart | mys0bbit | mys0hbit | addlit | xhstart | xnstart
  | xqstart | xdqstart | quote | quotecontinue | quotestop | double | escape
  | dolqdelim | dolqfailed | dolqstop | xbtstart | xbtstop | fixed | self | operator | param | mysParam
  | mysqlUserVariable | mysSysVar | mysSysVarFail | integer | decimal | decimalfail | real | realfail1 | realfail2
  | identifier | other
deriving Repr, DecidableEq

def rules : Start → List (Pattern UInt8 × Rule)
  | .initial =>
    [(whitespace, .whitespace), (xcstart, .xcstart), (xbstart, .xbstart), (mys0bbit, .mys0bbit),
     (mys0hbit, .mys0hbit), (xhstart, .xhstart), (xnstart, .xnstart), (quote 39, .xqstart), (quote 34, .xdqstart),
     (dolqdelim, .dolqdelim), (dolqfailed, .dolqfailed), (backtick, .xbtstart), (text "::", .fixed),
     (text "..", .fixed), (text ":=", .fixed), (text "=>", .fixed), (text "<=", .fixed), (text ">=", .fixed),
     (text "<>", .fixed), (text "!=", .fixed), (self, .self), (operator, .operator), (param, .param),
     (mysParam, .mysParam), (mysqlUserVariable, .mysqlUserVariable), (mysSysVar, .mysSysVar),
     (text "@@", .mysSysVarFail), (integer, .integer), (decimal, .decimal), (decimalfail, .decimalfail),
     (real, .real), (realfail1, .realfail1), (realfail2, .realfail2), (identifier, .identifier), (other, .other)]
  | .xc =>
    [(xcstart, .xcnest), (xcstop, .xcstop), (xcinside, .ignore), (opChars, .ignore), (plus (text "*"), .ignore)]
  | .xb | .xh => [(xbinside, .addlit), (quote 39, .quote)]
  | .xe =>
    [(quote 39, .quote), (xqdouble 39, .double), (xeinside 39, .addlit), (xeescape, .escape), (other, .addlit)]
  | .xde =>
    [(quote 34, .quote), (xqdouble 34, .double), (xeinside 34, .addlit), (xeescape, .escape), (other, .addlit)]
  | .xqs => [(quotecontinue 39, .quotecontinue), (quotecontinuefail, .quotestop), (other, .quotestop)]
  | .xdqs => [(quotecontinue 34, .quotecontinue), (quotecontinuefail, .quotestop), (other, .quotestop)]
  | .xdolq => [(dolqdelim, .dolqstop), (dolqinside, .addlit), (dolqfailed, .addlit), (other, .addlit)]
  | .xbt => [(backtick, .xbtstop), (xbtdouble, .double), (xbtinside, .addlit)]

/-- Tokens with their text or value; a word is a keyword or an identifier, as the keyword list decides. -/
inductive Token
  | word (yytext : Bytes)
  | quotedIdent (name : Bytes)
  | sconst (value : Bytes)
  | bconst (value : Bytes)
  | xconst (value : Bytes)
  | iconst (value : Nat)
  | fconst (yytext : Bytes)
  | param (value : Nat)
  | mysParam
  | userVariable (name : Bytes)
  | sysVar (name : Bytes)
  | underscoreBinary
  | op (yytext : Bytes)
  | char (c : UInt8)
deriving Repr, DecidableEq

/-- `backslash_quote`, whether the client encoding allows a mark behind a backslash, and `pg_verifymbstr`. -/
structure Setting where
  backslash_quote : Bool
  verifymbstr : Bytes → Bool

/-- The scanner: `yyextra`, the start condition and the text not yet scanned. -/
structure Lexer where
  start : Start
  literalbuf : Bytes
  state_before_str_stop : Start
  xcdepth : Nat
  dolqstart : Bytes
  saw_underscore_binary : Bool
  saw_non_ascii : Bool
  rest : Bytes
deriving DecidableEq

def Lexer.init (s : Bytes) : Lexer := ⟨.initial, [], .initial, 0, [], false, false, s⟩

inductive Outcome
  | goto (lx : Lexer)
  | emit (token : Token) (lx : Lexer)
  | fail
  | done
deriving DecidableEq

/-- `yyless(n)`. -/
def Lexer.yyless (lx : Lexer) (n : Nat) : Lexer := { lx with rest := lx.rest.drop n }

def Lexer.begin (lx : Lexer) (start : Start) : Lexer := { lx with start := start }

def Lexer.startlit (lx : Lexer) (lit : Bytes) : Lexer := { lx with literalbuf := lit }

def Lexer.addlit (lx : Lexer) (lit : Bytes) : Lexer := { lx with literalbuf := lx.literalbuf ++ lit }

/-- `atol` of a text that starts with digits. -/
def atol (s : Bytes) : Nat := (s.takeWhile isDigit).foldl (fun n c => 10 * n + (c.toNat - 48)) 0

/-- A number too large for `int`, or with a point, keeps its text. -/
def processIntegerLiteral (token : Bytes) : Token :=
  if token.all isDigit ∧ atol token ≤ 2147483647 then .iconst (atol token) else .fconst token

def unescapeSingleChar (c : UInt8) : UInt8 :=
  if c = 98 then 8 else if c = 110 then 10 else if c = 114 then 13 else if c = 116 then 9 else c

def Lexer.mark (lx : Lexer) : UInt8 :=
  match lx.start with
  | .xde => 34
  | .xbt => 96
  | _ => 39

def Lexer.unescape (cfg : Setting) (lx : Lexer) (c : UInt8) : Outcome :=
  if c = lx.mark ∧ cfg.backslash_quote = false then .fail
  else
    let c := if c = 48 then 0 else c
    .goto { (lx.addlit [unescapeSingleChar c]).yyless 2 with
      saw_non_ascii := lx.saw_non_ascii || (c == 0 || 128 ≤ c) }

def binaryHeader (n : Nat) : Bytes :=
  let digits := (Octets.decimal n).take 15
  digits ++ List.replicate (16 - digits.length) 0

def Lexer.quotestop (cfg : Setting) (lx : Lexer) : Outcome :=
  let ended := lx.begin .initial
  let plain := { ended with saw_underscore_binary := false }
  match lx.state_before_str_stop with
  | .xb => .emit (.bconst lx.literalbuf) plain
  | .xh => .emit (.xconst lx.literalbuf) plain
  | .xe | .xde =>
    if lx.saw_underscore_binary then .emit (.xconst (binaryHeader lx.literalbuf.length ++ lx.literalbuf)) plain
    else if lx.saw_non_ascii ∧ cfg.verifymbstr lx.literalbuf = false then .fail
    else .emit (.sconst lx.literalbuf) ended
  | _ => .fail

/-- `strstr`: where a text first occurs, or the length. -/
def findText (needle : Bytes) : Bytes → Nat
  | [] => 0
  | c :: s => if needle.isPrefixOf (c :: s) then 0 else findText needle s + 1

def isSign (c : UInt8) : Bool := c == 43 || c == 45

def operatorLength (yytext : Bytes) : Nat :=
  let nchars := min (findText (ascii "/*") yytext) (findText (ascii "--") yytext)
  let chars := yytext.take nchars
  if chars.any (ascii "~@#^&|\x60?%").contains then nchars
  else max 1 (chars.reverse.dropWhile isSign).length

def Lexer.operator (lx : Lexer) (yytext : Bytes) : Outcome :=
  let nchars := operatorLength yytext
  let chars := yytext.take nchars
  if nchars < yytext.length ∧ nchars = 1 ∧ (ascii selfChars).contains (chars.headD 0) then
    .emit (.char (chars.headD 0)) (lx.yyless 1)
  else if 64 ≤ nchars then .fail
  else .emit (.op chars) (lx.yyless nchars)

def Lexer.identifier (lx : Lexer) (yytext : Bytes) : Outcome :=
  let lx := lx.yyless yytext.length
  if startsWith yytext (ascii "_binary") then .emit .underscoreBinary { lx with saw_underscore_binary := true }
  else if startsWith yytext (ascii "_utf8mb4") then .goto lx
  else .emit (.word yytext) lx

/-- The actions of the rules, for the `n` bytes `yytext` that matched. -/
def Lexer.act (cfg : Setting) (lx : Lexer) (n : Nat) (rule : Rule) : Outcome :=
  let yytext := lx.rest.take n
  let next := lx.yyless n
  match rule with
  | .whitespace | .ignore => .goto next
  | .xcstart => .goto { (lx.yyless 2).begin .xc with xcdepth := 0 }
  | .xcnest => .goto { lx.yyless 2 with xcdepth := lx.xcdepth + 1 }
  | .xcstop =>
    if lx.xcdepth = 0 then .goto (next.begin .initial) else .goto { next with xcdepth := lx.xcdepth - 1 }
  | .xbstart => .goto ((next.begin .xb).startlit [98])
  | .xhstart => .goto ((next.begin .xh).startlit [120])
  | .mys0bbit => .emit (.bconst (yytext.drop 1)) next
  | .mys0hbit => .emit (.xconst (yytext.drop 1)) next
  | .xnstart => .emit (.word (ascii "nchar")) (lx.yyless 1)
  | .xqstart => .goto { (next.begin .xe).startlit [] with saw_non_ascii := false }
  | .xdqstart => .goto { (next.begin .xde).startlit [] with saw_non_ascii := false }
  | .addlit => .goto (next.addlit yytext)
  | .quote =>
    .goto { next.begin (if lx.start = .xde then .xdqs else .xqs) with state_before_str_stop := lx.start }
  | .quotecontinue => .goto (next.begin lx.state_before_str_stop)
  | .quotestop => lx.quotestop cfg
  | .double => .goto (next.addlit [lx.mark])
  | .escape => lx.unescape cfg (yytext.getD 1 0)
  | .dolqdelim => .goto { (next.begin .xdolq).startlit [] with dolqstart := yytext }
  | .dolqfailed => .emit (.char 36) (lx.yyless 1)
  | .dolqstop =>
    if yytext = lx.dolqstart then .emit (.sconst lx.literalbuf) (next.begin .initial)
    else .goto ((lx.yyless (n - 1)).addlit (yytext.take (n - 1)))
  | .xbtstart => .goto ((next.begin .xbt).startlit [])
  | .xbtstop => if lx.literalbuf = [] then .fail else .emit (.quotedIdent lx.literalbuf) (next.begin .initial)
  | .fixed => .emit (.op yytext) next
  | .self | .other => .emit (.char (yytext.headD 0)) next
  | .operator => lx.operator yytext
  | .param => .emit (.param (atol (yytext.drop 1))) next
  | .mysParam => .emit .mysParam next
  | .mysqlUserVariable => .emit (.userVariable (yytext.drop 1)) next
  | .mysSysVar => .emit (.sysVar (yytext.drop 2)) next
  | .mysSysVarFail => .fail
  | .integer => .emit (processIntegerLiteral yytext) next
  | .decimal | .real => .emit (.fconst yytext) next
  | .decimalfail | .realfail2 => .emit (processIntegerLiteral (yytext.take (n - 2))) (lx.yyless (n - 2))
  | .realfail1 => .emit (processIntegerLiteral (yytext.take (n - 1))) (lx.yyless (n - 1))
  | .identifier => lx.identifier yytext

def Lexer.atEnd (cfg : Setting) (lx : Lexer) : Outcome :=
  match lx.start with
  | .initial => .done
  | .xqs | .xdqs => lx.quotestop cfg
  | .xb | .xc | .xbt | .xh | .xe | .xde | .xdolq => .fail

/-- One turn of `yylex`. -/
def Lexer.step (cfg : Setting) (lx : Lexer) : Outcome :=
  if lx.rest = [] then lx.atEnd cfg
  else
    match choose lx.rest (rules lx.start) with
    | some (rule, n) => lx.act cfg n rule
    | none => .fail

/-- The tokens up to the end of the text, within `fuel` turns. -/
def Lexer.tokens (cfg : Setting) : Nat → Lexer → Option (List Token)
  | 0, _ => none
  | fuel + 1, lx =>
    match lx.step cfg with
    | .goto next => next.tokens cfg fuel
    | .emit token next => (next.tokens cfg fuel).map (token :: ·)
    | .fail => none
    | .done => some []

def Lexer.Scans (cfg : Setting) (lx : Lexer) (tokens : List Token) : Prop :=
  ∃ fuel, lx.tokens cfg fuel = some tokens

example : (Lexer.init (ascii "execute p1 using 'it\\'s',\"a\"\"b\",1.50e3")).tokens ⟨true, fun _ => true⟩ 40 =
    some [.word (ascii "execute"), .word (ascii "p1"), .word (ascii "using"), .sconst (ascii "it's"), .char 44,
      .sconst (ascii "a\"b"), .char 44, .fconst (ascii "1.50e3")] := by
  decide +kernel

end OpenHalo.MysScan
