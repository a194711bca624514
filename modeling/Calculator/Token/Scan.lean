import Calculator.Text.Alphabetic
import Calculator.Token.Basic
import Calculator.Token.Literal

/-!
# Scanning

A line as a list of tokens. Scanning loses nothing: the lexemes put together are
the line, and what starts no token is a token of its own.
-/

namespace Calculator

def isWordChar (c : Char) : Bool :=
  isAlphabetic c || c == '_'

def punctuation? : Char → Option TokenKind
  | '+' => some .plus
  | '-' => some .minus
  | '*' => some .star
  | '/' => some .slash
  | '%' => some .percent
  | '^' => some .caret
  | '!' => some .bang
  | '=' => some .equals
  | '(' => some .leftParen
  | ')' => some .rightParen
  | ',' => some .comma
  | ':' => some .colon
  | ' ' => some .space
  | '\t' => some .space
  | '\r' => some .space
  | '\n' => some .space
  | _ => none

def wordKind (word : String) : TokenKind :=
  if word = "del" then .del else .identifier

/-- The first token of `c :: rest`, as its kind and its characters after `c`. -/
def firstToken (c : Char) (rest : List Char) : TokenKind × List Char :=
  match punctuation? c with
  | some kind => (kind, [])
  | none =>
      if startsLiteral c rest then
        let literal := Literal.ofChars (c :: rest)
        (.number literal.value, literal.text.tail)
      else if isWordChar c then
        let tail := rest.takeWhile isWordChar
        (wordKind (String.ofList (c :: tail)), tail)
      else (.unknown, [])

def byteLength (cs : List Char) : Nat :=
  cs.foldr (fun c size => c.utf8Size + size) 0

/-- The tokens of a text that starts at an offset. -/
def scan (offset : Nat) : List Char → List Token
  | [] => [.finish offset]
  | c :: rest =>
      let first := firstToken c rest
      let lexeme := c :: first.2
      ⟨first.1, .ofLength offset (byteLength lexeme), String.ofList lexeme⟩ ::
        scan (offset + byteLength lexeme) (rest.drop first.2.length)
termination_by cs => cs.length
decreasing_by simp only [List.length_drop, List.length_cons]; omega

def tokenize (source : String) : List Token :=
  scan 0 source.toList

/-- The faults that a token has by itself. -/
def Token.faults (t : Token) : List (Span × Fault) :=
  match t.kind with
  | .number _ => literalFaults t.span.start t.lexeme.toList
  | .unknown => (t.lexeme.toList.take 1).map fun c => (t.span, .unknownChar c)
  | _ => []

def lexicalFaults (tokens : List Token) : Diagnostics :=
  .ofFaults (tokens.flatMap Token.faults)

end Calculator
