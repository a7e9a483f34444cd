import WaterGateway.Common.Run
import WaterGateway.Common.Transducer
import Mathlib.Order.Basic

/-!
# JSON

The reader of a JSON text, given by its code points: a lexer, as a machine
that writes tokens, and a parser with a stack over them. `lax` readers
take `NaN` and the infinities beside the numbers of the grammar. Of equal
names in an object the last one counts.
-/

namespace WaterGateway

namespace Json

/-- A value that is one token; a number is kept as it is written. -/
inductive Scalar
  | null
  | bool (b : Bool)
  | num (text : List ℕ)
  | str (s : List ℕ)
  deriving DecidableEq

/-- A value; the members of an object are in the order of the text. -/
inductive Value
  | scalar (s : Scalar)
  | arr (vs : List Value)
  | obj (members : List (List ℕ × Value))

inductive Token
  | lbrace
  | rbrace
  | lbracket
  | rbracket
  | comma
  | colon
  | scalar (s : Scalar)
  deriving DecidableEq

/-- The code points of a string literal. -/
def text (s : String) : List ℕ := s.toList.map Char.toNat

/-! ## Numbers -/

/-- How far a number has been read. -/
inductive Numeral
  | start
  | minus
  | zero
  | int
  | point
  | frac
  | exp
  | expSign
  | expInt
  deriving DecidableEq

def isDigit (c : ℕ) : Bool := decide (48 ≤ c) && decide (c ≤ 57)

/-- The grammar of numbers: no leading zero, and a digit behind the point
and in the exponent. -/
def numStep : Numeral → ℕ → Option Numeral
  | .start, c =>
    if c = 45 then some .minus else if c = 48 then some .zero
    else if isDigit c then some .int else none
  | .minus, c => if c = 48 then some .zero else if isDigit c then some .int else none
  | .zero, c =>
    if c = 46 then some .point else if c = 69 ∨ c = 101 then some .exp else none
  | .int, c =>
    if isDigit c then some .int else if c = 46 then some .point
    else if c = 69 ∨ c = 101 then some .exp else none
  | .point, c => if isDigit c then some .frac else none
  | .frac, c =>
    if isDigit c then some .frac else if c = 69 ∨ c = 101 then some .exp else none
  | .exp, c =>
    if c = 43 ∨ c = 45 then some .expSign else if isDigit c then some .expInt else none
  | .expSign, c => if isDigit c then some .expInt else none
  | .expInt, c => if isDigit c then some .expInt else none

/-- A number may end here. -/
def Numeral.complete : Numeral → Bool
  | .zero | .int | .frac | .expInt => true
  | _ => false

def isNumber (w : List ℕ) : Bool := (Run.exec numStep .start w).any Numeral.complete

/-! ## Tokens -/

/-- Where the lexer stands: between tokens, in a word (a number or a name
such as `true`), or in a string, there behind a backslash or in the digits
of a `\u`. -/
inductive Mode
  | ground
  | word (w : List ℕ)
  | inStr (acc : List ℕ)
  | esc (acc : List ℕ)
  | uni (acc : List ℕ) (n value : ℕ)
  deriving DecidableEq

def isSpace (c : ℕ) : Bool := c = 32 ∨ c = 9 ∨ c = 10 ∨ c = 13

def punct : ℕ → Option Token
  | 123 => some .lbrace
  | 125 => some .rbrace
  | 91 => some .lbracket
  | 93 => some .rbracket
  | 44 => some .comma
  | 58 => some .colon
  | _ => none

/-- What ends a word. -/
def isDelim (c : ℕ) : Bool := isSpace c || (punct c).isSome || c = 34

/-- What the lexer does with a character between tokens. -/
def start (c : ℕ) : Mode × List Token :=
  if isSpace c then (.ground, [])
  else
    match punct c with
    | some t => (.ground, [t])
    | none => if c = 34 then (.inStr [], []) else (.word [c], [])

/-- What a word stands for. -/
def scalarOf (lax : Bool) (w : List ℕ) : Option Scalar :=
  if w = text "null" then some .null
  else if w = text "true" then some (.bool true)
  else if w = text "false" then some (.bool false)
  else if isNumber w then some (.num w)
  else if lax ∧ (w = text "NaN" ∨ w = text "Infinity" ∨ w = text "-Infinity") then some (.num w)
  else none

/-- The character behind a backslash. -/
def escape : ℕ → Option ℕ
  | 34 => some 34
  | 92 => some 92
  | 47 => some 47
  | 98 => some 8
  | 102 => some 12
  | 110 => some 10
  | 114 => some 13
  | 116 => some 9
  | _ => none

def hexValue (c : ℕ) : Option ℕ :=
  if 48 ≤ c ∧ c ≤ 57 then some (c - 48)
  else if 65 ≤ c ∧ c ≤ 70 then some (c - 55)
  else if 97 ≤ c ∧ c ≤ 102 then some (c - 87)
  else none

def isHigh (u : ℕ) : Bool := decide (0xD800 ≤ u) && decide (u ≤ 0xDBFF)

def isLow (u : ℕ) : Bool := decide (0xDC00 ≤ u) && decide (u ≤ 0xDFFF)

/-- A `\u` is read: the second half of a pair joins the first. -/
def addUnit (acc : List ℕ) (u : ℕ) : List ℕ :=
  match acc.getLast? with
  | some h =>
    if isHigh h && isLow u then acc.dropLast ++ [0x10000 + (h - 0xD800) * 0x400 + (u - 0xDC00)]
    else acc ++ [u]
  | none => acc ++ [u]

/-- One code point. -/
def lexStep (lax : Bool) : Mode → ℕ → Option (Mode × List Token)
  | .ground, c => some (start c)
  | .word w, c =>
    if isDelim c then (scalarOf lax w).map fun s => ((start c).1, .scalar s :: (start c).2)
    else some (.word (w ++ [c]), [])
  | .inStr acc, c =>
    if c = 34 then some (.ground, [.scalar (.str acc)])
    else if c = 92 then some (.esc acc, [])
    else if c < 32 then none
    else some (.inStr (acc ++ [c]), [])
  | .esc acc, c =>
    if c = 117 then some (.uni acc 0 0, []) else (escape c).map fun x => (.inStr (acc ++ [x]), [])
  | .uni acc n value, c =>
    (hexValue c).map fun h =>
      if n = 3 then (.inStr (addUnit acc (value * 16 + h)), [])
      else (.uni acc (n + 1) (value * 16 + h), [])

/-- The tokens of a text; a blank ends its last word. -/
def lex (lax : Bool) (cps : List ℕ) : Option (List Token) :=
  match Transducer.run (lexStep lax) .ground (cps ++ [32]) with
  | some (.ground, ts) => some ts
  | _ => none

/-! ## Values -/

/-- A container that is being read. -/
inductive Frame
  | arr (vs : List Value)
  | obj (members : List (List ℕ × Value)) (name : List ℕ)

/-- What the parser has just read. -/
inductive Point
  | value
  | first
  | firstName
  | name (members : List (List ℕ × Value))
  | colon (members : List (List ℕ × Value)) (name : List ℕ)
  | done (v : Value)

structure Parser where
  point : Point
  stack : List Frame

/-- A token where a value must come. -/
def valueStep (stack : List Frame) : Token → Option Parser
  | .scalar s => some ⟨.done (.scalar s), stack⟩
  | .lbracket => some ⟨.first, stack⟩
  | .lbrace => some ⟨.firstName, stack⟩
  | _ => none

/-- One token. -/
def parseStep (p : Parser) (t : Token) : Option Parser :=
  match p.point, t with
  | .value, t => valueStep p.stack t
  | .first, .rbracket => some ⟨.done (.arr []), p.stack⟩
  | .first, t => valueStep (.arr [] :: p.stack) t
  | .firstName, .rbrace => some ⟨.done (.obj []), p.stack⟩
  | .firstName, .scalar (.str k) => some ⟨.colon [] k, p.stack⟩
  | .name ms, .scalar (.str k) => some ⟨.colon ms k, p.stack⟩
  | .colon ms k, .colon => some ⟨.value, .obj ms k :: p.stack⟩
  | .done v, t =>
    match p.stack, t with
    | .arr vs :: stack, .comma => some ⟨.value, .arr (vs ++ [v]) :: stack⟩
    | .arr vs :: stack, .rbracket => some ⟨.done (.arr (vs ++ [v])), stack⟩
    | .obj ms k :: stack, .comma => some ⟨.name (ms ++ [(k, v)]), stack⟩
    | .obj ms k :: stack, .rbrace => some ⟨.done (.obj (ms ++ [(k, v)])), stack⟩
    | _, _ => none
  | _, _ => none

/-- The value of a list of tokens. -/
def parse (ts : List Token) : Option Value :=
  match Run.exec parseStep ⟨.value, []⟩ ts with
  | some ⟨.done v, []⟩ => some v
  | _ => none

/-- **The value of a text.** -/
def loads (lax : Bool) (cps : List ℕ) : Option Value := (lex lax cps).bind parse

/-- A member of an object, the last of its name. -/
def lookup (name : List ℕ) (members : List (List ℕ × Value)) : Option Value :=
  (members.reverse.find? fun m => m.1 = name).map Prod.snd

/-- A pair of escapes makes one character, and a leading zero no number. -/
example : lex false (text "[\"\\ud83d\\ude00\"]") =
      some [.lbracket, .scalar (.str [0x1F600]), .rbracket] ∧
    lex false (text "[01]") = none := by
  decide +kernel

end Json

end WaterGateway
