import MiniLisp.Text.Quoted
import MiniLisp.Token.Basic

/-!
# Tokens for the inspector

How a token is shown: its kind, its value in quotes, its line and its column.
-/

namespace MiniLisp.Token

/-- The name of a kind of tokens. -/
def Kind.name : Kind → String
  | .leftParen => "LEFT_PAREN"
  | .rightParen => "RIGHT_PAREN"
  | .number => "NUMBER"
  | .string => "STRING"
  | .symbol => "SYMBOL"
  | .date => "DATE_LITERAL"
  | .quote => "QUOTE_MARK"
  | .endOfInput => "END_OF_INPUT"

/-- A token for the inspector. -/
def inspect (t : Token) : String :=
  "Token(" ++ t.kind.name ++ ", " ++ Text.quoted t.value ++ ", " ++ toString t.place.line ++ ":" ++
    toString t.place.column ++ ")"

end MiniLisp.Token
