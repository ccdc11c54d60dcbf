import Partitura.Text.Lower

/-!
# Tokens

The words of a source text. A token carries a position of any type: reading never looks at it,
so what a list of tokens means cannot depend on where they stand.
-/

namespace Partitura

inductive Punct
  | openBrace | closeBrace | bar | comma | openBracket | closeBracket
  | equals | openParen | closeParen | colon
  deriving DecidableEq, Repr

namespace Punct

def char : Punct → Char
  | openBrace => '\x7b'
  | closeBrace => '\x7d'
  | bar => '|'
  | comma => ','
  | openBracket => '['
  | closeBracket => ']'
  | equals => '='
  | openParen => '('
  | closeParen => ')'
  | colon => ':'

def all : List Punct :=
  [openBrace, closeBrace, bar, comma, openBracket, closeBracket, equals, openParen, closeParen,
    colon]

def ofChar? (c : Char) : Option Punct := all.find? (·.char == c)

end Punct

/-- What a token says: a mark, a quoted text, a call of a macro, or a symbol. -/
inductive Lexeme
  | punct (p : Punct)
  | quoted (body : String)
  | call (name : String)
  | symbol (text : String)
  deriving DecidableEq, Repr

namespace Lexeme

def text : Lexeme → String
  | punct p => .ofList [p.char]
  | quoted s => "\"" ++ s ++ "\""
  | call s => "$" ++ s
  | symbol s => s

/-- The text without quotes around it. -/
def value : Lexeme → String
  | quoted s => s
  | l => l.text

def kind : Lexeme → String
  | punct _ => "punct"
  | quoted _ => "string"
  | call _ => "macro_ref"
  | symbol _ => "symbol"

end Lexeme

structure Token (P : Type) where
  lexeme : Lexeme
  pos : P
  deriving DecidableEq, Repr

namespace Token

variable {P Q : Type}

abbrev text (t : Token P) : String := t.lexeme.text

abbrev value (t : Token P) : String := t.lexeme.value

def lower (t : Token P) : String := Text.lower t.text

def map (f : P → Q) (t : Token P) : Token Q := ⟨t.lexeme, f t.pos⟩

def isPunct (p : Punct) (t : Token P) : Bool := t.lexeme == .punct p

/-- Whether a token is a symbol that spells `word` in any case. -/
def isWord (word : String) (t : Token P) : Bool :=
  match t.lexeme with
  | .symbol s => Text.lower s == word
  | _ => false

def keywords : List String := ["def", "group", "measure", "meta", "macro"]

/-- Whether a token begins a declaration or bounds a block. -/
def isReserved (t : Token P) : Bool :=
  match t.lexeme with
  | .punct p => p == .openBrace || p == .closeBrace
  | .symbol s => keywords.contains (Text.lower s)
  | _ => false

end Token

def textOf {P : Type} : Option (Token P) → String
  | some t => t.text
  | none => ""

end Partitura
