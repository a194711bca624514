import Calculator.Operator
import Calculator.Span

/-!
# Tokens
-/

namespace Calculator

inductive TokenKind where
  | number (value : Binary64)
  | identifier
  | plus
  | minus
  | star
  | slash
  | percent
  | caret
  | bang
  | equals
  | leftParen
  | rightParen
  | comma
  | colon
  /-- The word `del`. -/
  | del
  /-- One blank character. -/
  | space
  /-- The end of the line, which is no character. -/
  | finish
  /-- A character that no token starts with. -/
  | unknown
deriving DecidableEq

/-- What a line editor tells apart by colour. -/
inductive Category where
  | number
  | identifier
  | comma
  | paren
  | unknown
  | del
  | other
deriving DecidableEq

namespace TokenKind

def category : TokenKind → Category
  | number _ => .number
  | identifier => .identifier
  | comma => .comma
  | leftParen => .paren
  | rightParen => .paren
  | unknown => .unknown
  | del => .del
  | _ => .other

def operator? : TokenKind → Option BinaryOp
  | plus => some .add
  | minus => some .sub
  | star => some .mul
  | slash => some .div
  | percent => some .rem
  | caret => some .power
  | _ => none

def precedence (kind : TokenKind) : Nat :=
  (kind.operator?.map BinaryOp.precedence).getD 0

end TokenKind

structure Token where
  kind : TokenKind
  span : Span
  lexeme : String
deriving DecidableEq

namespace Token

/-- The end of a line whose bytes end at an offset. -/
def finish (offset : Nat) : Token :=
  ⟨.finish, .empty offset, ""⟩

def literal? (t : Token) : Option Binary64 :=
  match t.kind with
  | .number value => some value
  | _ => none

end Token

end Calculator
