import PatternTree.Document.Basic

/-!
# Lexemes of a document's text

The text of a document is cut into **lexemes** by a machine that takes one character at a time:
`Scan` is its state, `Scan.step` what a character does to it and `Scan.finish` what the end of the
text does.

The machine stops at the first lexeme that is wrong in itself. Such a lexeme is not dropped but
handed on as `Lexeme.broken`, since it depends on the place where it stands whether its own problem
is the first problem of the text.
-/

namespace PatternTree

/-- What is wrong with a text. -/
inductive Problem where
  /-- the text ends before the document does -/
  | truncated
  /-- the text is not the beginning of a document -/
  | malformed
  deriving DecidableEq

/-- A lexeme of a document's text. -/
inductive Lexeme where
  /-- an opening brace -/
  | openBrace
  /-- a closing brace -/
  | closeBrace
  /-- an opening bracket -/
  | openBracket
  /-- a closing bracket -/
  | closeBracket
  /-- a colon -/
  | colon
  /-- a comma -/
  | comma
  /-- the word for the null value -/
  | null
  /-- the word for a truth value -/
  | bool (value : Bool)
  /-- a number -/
  | number (value : Numeral)
  /-- a quoted text -/
  | string (value : String)
  /-- the beginning of a lexeme that goes wrong, and whether it begins with a quote -/
  | broken (quoted : Bool) (problem : Problem)
  deriving DecidableEq

/-! ## Numbers -/

/-- Where in a number the machine is. -/
inductive NumberPhase where
  /-- behind the minus sign -/
  | minus
  /-- behind a zero that is the whole part -/
  | zero
  /-- in the whole part -/
  | whole
  /-- behind the point -/
  | point
  /-- in the fraction -/
  | fraction
  /-- behind the mark of the exponent -/
  | mark
  /-- behind the sign of the exponent -/
  | sign
  /-- in the exponent -/
  | exponent
  deriving DecidableEq

/-- What has been read of a number. -/
structure NumberScan where
  /-- where in the number the machine is -/
  phase : NumberPhase
  /-- there was a minus sign -/
  negative : Bool := false
  /-- the digits of the whole part and the fraction -/
  digits : Nat := 0
  /-- how many of them belong to the fraction -/
  places : Nat := 0
  /-- there was a minus sign in the exponent -/
  lowered : Bool := false
  /-- the digits of the exponent -/
  power : Nat := 0

/-- The value of a decimal digit. -/
def digitValue (c : Char) : Nat :=
  c.toNat - '0'.toNat

/-- What a character does to a number. -/
inductive NumberStep where
  /-- it belongs to the number -/
  | more (scan : NumberScan)
  /-- it does not, and the number is complete -/
  | done
  /-- it does not, and the number is incomplete -/
  | wrong

namespace NumberScan

/-- Takes a digit of the whole part. -/
def pushWhole (n : NumberScan) (c : Char) : NumberScan :=
  { n with phase := .whole, digits := n.digits * 10 + digitValue c }

/-- Takes a digit of the fraction. -/
def pushFraction (n : NumberScan) (c : Char) : NumberScan :=
  { n with phase := .fraction, digits := n.digits * 10 + digitValue c, places := n.places + 1 }

/-- Takes a digit of the exponent. -/
def pushPower (n : NumberScan) (c : Char) : NumberScan :=
  { n with phase := .exponent, power := n.power * 10 + digitValue c }

/-- A point or an exponent may follow here; anything else ends the number. -/
def stepTail (n : NumberScan) (point : Bool) (c : Char) : NumberStep :=
  if c = '.' ∧ point then .more { n with phase := .point }
  else if c = 'e' ∨ c = 'E' then .more { n with phase := .mark }
  else .done

/-- One character of a number. -/
def step (n : NumberScan) (c : Char) : NumberStep :=
  match n.phase with
  | .minus =>
    if c = '0' then .more { n with phase := .zero }
    else if c.isDigit then .more (n.pushWhole c)
    else .wrong
  | .zero => if c.isDigit then .wrong else n.stepTail true c
  | .whole => if c.isDigit then .more (n.pushWhole c) else n.stepTail true c
  | .point => if c.isDigit then .more (n.pushFraction c) else .wrong
  | .fraction => if c.isDigit then .more (n.pushFraction c) else n.stepTail false c
  | .mark =>
    if c = '+' then .more { n with phase := .sign }
    else if c = '-' then .more { n with phase := .sign, lowered := true }
    else if c.isDigit then .more (n.pushPower c)
    else .wrong
  | .sign => if c.isDigit then .more (n.pushPower c) else .wrong
  | .exponent => if c.isDigit then .more (n.pushPower c) else .done

/-- The number may end here. -/
def isComplete (n : NumberScan) : Bool :=
  match n.phase with
  | .zero | .whole | .fraction | .exponent => true
  | .minus | .point | .mark | .sign => false

/-- The double that the digits denote, unless it is too large. -/
def real? (n : NumberScan) : Option Numeral :=
  let power : Int := if n.lowered then -n.power else n.power
  (Magnitude.ofDecimal? n.digits (power - n.places)).map (.real n.negative ·)

/-- The numeral that has been read. Without point and exponent it is an integer if that fits into 64
bits: unsigned, or signed if there is a minus sign. Minus zero is a real. -/
def numeral? (n : NumberScan) : Option Numeral :=
  match n.phase, n.negative with
  | .zero, false | .whole, false =>
    if n.digits < 0x10000000000000000 then some (.integer n.digits) else n.real?
  | .zero, true | .whole, true =>
    if 0 < n.digits ∧ n.digits ≤ 0x8000000000000000 then some (.integer (-n.digits))
    else n.real?
  | _, _ => n.real?

/-- The lexeme of a complete number. -/
def lexeme (n : NumberScan) : Lexeme :=
  match n.numeral? with
  | some v => .number v
  | none => .broken false .malformed

end NumberScan

/-! ## Quoted texts -/

/-- Where in a quoted text the machine is. -/
inductive StringPhase where
  /-- between two characters -/
  | plain
  /-- behind a backslash -/
  | escape
  /-- in the hexadecimal digits of an escape, behind the leading half of a pair if there was one -/
  | code (lead : Option Nat) (taken : List Char)
  /-- behind the leading half of a pair of code units -/
  | lead (unit : Nat)
  /-- behind the backslash that follows the leading half of a pair -/
  | leadEscape (unit : Nat)

/-- What a character does to a quoted text. -/
inductive StringStep where
  /-- it belongs to the text, of which `read` has been read, last character first -/
  | more (phase : StringPhase) (read : List Char)
  /-- it is the closing quote -/
  | done (value : String)
  /-- it must not stand there -/
  | wrong

/-- The value of a hexadecimal digit. -/
def hexDigit? (c : Char) : Option Nat :=
  if c.isDigit then some (digitValue c)
  else if 'a' ≤ c ∧ c ≤ 'f' then some (c.toNat - 'a'.toNat + 10)
  else if 'A' ≤ c ∧ c ≤ 'F' then some (c.toNat - 'A'.toNat + 10)
  else none

/-- The value of a list of hexadecimal digits. -/
def hexValue? (cs : List Char) : Option Nat :=
  cs.foldlM (fun n c => (hexDigit? c).map (n * 16 + ·)) 0

/-- A code unit that needs a second one behind it. -/
def isLead (unit : Nat) : Bool :=
  0xD800 ≤ unit && unit ≤ 0xDBFF

/-- A code unit that needs a first one before it. -/
def isTrail (unit : Nat) : Bool :=
  0xDC00 ≤ unit && unit ≤ 0xDFFF

/-- The character that a backslash and a letter stand for. -/
def escaped? : Char → Option Char
  | '"' => some '"'
  | '\\' => some '\\'
  | '/' => some '/'
  | 'b' => some '\x08'
  | 'f' => some '\x0c'
  | 'n' => some '\n'
  | 'r' => some '\r'
  | 't' => some '\t'
  | _ => none

/-- What a complete code of four digits does. A trailing half must stand behind a leading one, and
only there. -/
def stepUnit (lead : Option Nat) (unit : Nat) (read : List Char) : StringStep :=
  match lead with
  | some first =>
    if isTrail unit then
      .more .plain (Char.ofNat (0x10000 + (first - 0xD800) * 0x400 + (unit - 0xDC00)) :: read)
    else .wrong
  | none =>
    if isTrail unit then .wrong
    else if isLead unit then .more (.lead unit) read
    else .more .plain (Char.ofNat unit :: read)

/-- How many bytes a list of characters takes. -/
def byteCount (cs : List Char) : Nat :=
  cs.foldl (fun n c => n + c.utf8Size) 0

/-- One character of a quoted text. The four digits of a code are taken first and looked at when
four bytes are there. -/
def StringPhase.step (phase : StringPhase) (read : List Char) (c : Char) : StringStep :=
  match phase with
  | .plain =>
    if c = '"' then .done (.ofList read.reverse)
    else if c = '\\' then .more .escape read
    else if c.toNat < 32 then .wrong
    else .more .plain (c :: read)
  | .escape =>
    if c = 'u' then .more (.code none []) read
    else match escaped? c with
      | some e => .more .plain (e :: read)
      | none => .wrong
  | .code first taken =>
    let digits := taken ++ [c]
    if byteCount digits < 4 then .more (.code first digits) read
    else match hexValue? digits with
      | some unit => stepUnit first unit read
      | none => .wrong
  | .lead unit => if c = '\\' then .more (.leadEscape unit) read else .wrong
  | .leadEscape unit => if c = 'u' then .more (.code (some unit) []) read else .wrong

/-! ## The machine -/

/-- The state of the machine. -/
inductive Scan where
  /-- between two lexemes -/
  | between
  /-- in a word of which `rest` is to come -/
  | word (rest : List Char) (lexeme : Lexeme)
  /-- in a number -/
  | number (scan : NumberScan)
  /-- in a quoted text -/
  | string (phase : StringPhase) (read : List Char)

/-- What a character does to the machine. -/
inductive ScanStep where
  /-- it yields lexemes, and the machine goes on -/
  | next (out : List Lexeme) (state : Scan)
  /-- it yields lexemes, and the machine stops -/
  | halt (out : List Lexeme)

namespace Scan

/-- A blank between lexemes. -/
def isBlank (c : Char) : Bool :=
  c = ' ' || c = '\n' || c = '\t' || c = '\r'

/-- The first character of a lexeme. -/
def begin (c : Char) : ScanStep :=
  if isBlank c then .next [] .between
  else match c with
    | '\x7b' => .next [.openBrace] .between
    | '\x7d' => .next [.closeBrace] .between
    | '[' => .next [.openBracket] .between
    | ']' => .next [.closeBracket] .between
    | ':' => .next [.colon] .between
    | ',' => .next [.comma] .between
    | '"' => .next [] (.string .plain [])
    | 'n' => .next [] (.word ['u', 'l', 'l'] .null)
    | 't' => .next [] (.word ['r', 'u', 'e'] (.bool true))
    | 'f' => .next [] (.word ['a', 'l', 's', 'e'] (.bool false))
    | '-' => .next [] (.number { phase := .minus, negative := true })
    | '0' => .next [] (.number { phase := .zero })
    | c =>
      if c.isDigit then .next [] (.number { phase := .whole, digits := digitValue c })
      else .halt [.broken false .malformed]

/-- A complete number followed by a character that does not belong to it. -/
def endNumber (n : NumberScan) (c : Char) : ScanStep :=
  match n.numeral? with
  | none => .halt [n.lexeme]
  | some _ =>
    match begin c with
    | .next out state => .next (n.lexeme :: out) state
    | .halt out => .halt (n.lexeme :: out)

/-- One character. -/
def step : Scan → Char → ScanStep
  | .between, c => begin c
  | .word [] lexeme, _ => .halt [lexeme]
  | .word [d] lexeme, c =>
    if c = d then .next [lexeme] .between else .halt [.broken false .malformed]
  | .word (d :: rest) lexeme, c =>
    if c = d then .next [] (.word rest lexeme) else .halt [.broken false .malformed]
  | .number n, c =>
    match n.step c with
    | .more n => .next [] (.number n)
    | .done => endNumber n c
    | .wrong => .halt [.broken false .malformed]
  | .string phase read, c =>
    match phase.step read c with
    | .more phase read => .next [] (.string phase read)
    | .done value => .next [.string value] .between
    | .wrong => .halt [.broken true .malformed]

/-- The end of the text. -/
def finish : Scan → List Lexeme
  | .between => []
  | .word _ _ => [.broken false .truncated]
  | .number n => if n.isComplete then [n.lexeme] else [.broken false .truncated]
  | .string _ _ => [.broken true .truncated]

/-- The lexemes of a text, from a state of the machine on. -/
def run : Scan → List Char → List Lexeme
  | state, [] => state.finish
  | state, c :: cs =>
    match state.step c with
    | .next out state => out ++ run state cs
    | .halt out => out

end Scan

/-- The lexemes of a text. -/
def Lexeme.ofText (s : String) : List Lexeme :=
  Scan.between.run s.toList

end PatternTree
