/-!
# Keywords and token kinds

The sixteen reserved words of Lox and the kinds of its tokens.  Kinds have an
order, the one of their declaration, with the keywords between the literals and
the end of the text.

Main results:

- Theorem {lit}`Keyword.ofWord?_spelling`: a keyword is found by its spelling.
- Theorem {lit}`Token.Kind.mem_all`: the list of kinds is complete.
- Theorem {lit}`Token.Kind.name_injective`: a kind is known by its name.
-/

namespace Lox

/-! ## Keywords -/

/-- A reserved word. -/
inductive Keyword where
  | andWord
  | classWord
  | elseWord
  | falseWord
  | funWord
  | forWord
  | ifWord
  | nilWord
  | orWord
  | printWord
  | returnWord
  | superWord
  | thisWord
  | trueWord
  | varWord
  | whileWord
deriving DecidableEq

namespace Keyword

/-- All keywords, in order. -/
def all : List Keyword :=
  [.andWord, .classWord, .elseWord, .falseWord, .funWord, .forWord, .ifWord, .nilWord,
    .orWord, .printWord, .returnWord, .superWord, .thisWord, .trueWord, .varWord,
    .whileWord]

/-- The word itself. -/
def spelling : Keyword → String
  | .andWord => "and"
  | .classWord => "class"
  | .elseWord => "else"
  | .falseWord => "false"
  | .funWord => "fun"
  | .forWord => "for"
  | .ifWord => "if"
  | .nilWord => "nil"
  | .orWord => "or"
  | .printWord => "print"
  | .returnWord => "return"
  | .superWord => "super"
  | .thisWord => "this"
  | .trueWord => "true"
  | .varWord => "var"
  | .whileWord => "while"

/-- The name of the kind of its tokens. -/
def name : Keyword → String
  | .andWord => "AND"
  | .classWord => "CLASS"
  | .elseWord => "ELSE"
  | .falseWord => "FALSE"
  | .funWord => "FUN"
  | .forWord => "FOR"
  | .ifWord => "IF"
  | .nilWord => "NIL"
  | .orWord => "OR"
  | .printWord => "PRINT"
  | .returnWord => "RETURN"
  | .superWord => "SUPER"
  | .thisWord => "THIS"
  | .trueWord => "TRUE"
  | .varWord => "VAR"
  | .whileWord => "WHILE"

/-- The keyword with the given spelling, if there is one. -/
def ofWord? (word : List Char) : Option Keyword :=
  all.find? fun keyword => keyword.spelling.toList == word

/-- The list of keywords is complete. -/
theorem mem_all (keyword : Keyword) : keyword ∈ all := by
  cases keyword <;> decide

/-- A keyword is found by its spelling. -/
theorem ofWord?_spelling (keyword : Keyword) :
    ofWord? keyword.spelling.toList = some keyword := by
  cases keyword <;> decide

/-- A word that is found is the spelling of the keyword. -/
theorem spelling_of_ofWord? {word : List Char} {keyword : Keyword}
    (hfound : ofWord? word = some keyword) : keyword.spelling.toList = word := by
  simpa using List.find?_some hfound

end Keyword

/-! ## Kinds -/

/-- What a token is: a mark or an operator, a name, a literal, a keyword, or the
end of the text. -/
inductive Token.Kind where
  | leftParen
  | rightParen
  | leftBrace
  | rightBrace
  | comma
  | dot
  | minus
  | plus
  | semicolon
  | slash
  | star
  | bang
  | bangEqual
  | equal
  | equalEqual
  | greater
  | greaterEqual
  | less
  | lessEqual
  | identifier
  | string
  | number
  | keyword (word : Keyword)
  | endOfText
deriving DecidableEq

namespace Token.Kind

/-- All kinds, in order. -/
def all : List Kind :=
  [.leftParen, .rightParen, .leftBrace, .rightBrace, .comma, .dot, .minus, .plus,
    .semicolon, .slash, .star, .bang, .bangEqual, .equal, .equalEqual, .greater,
    .greaterEqual, .less, .lessEqual, .identifier, .string, .number] ++
    Keyword.all.map .keyword ++ [.endOfText]

/-- The name of a kind. -/
def name : Kind → String
  | .leftParen => "LEFT_PAREN"
  | .rightParen => "RIGHT_PAREN"
  | .leftBrace => "LEFT_BRACE"
  | .rightBrace => "RIGHT_BRACE"
  | .comma => "COMMA"
  | .dot => "DOT"
  | .minus => "MINUS"
  | .plus => "PLUS"
  | .semicolon => "SEMICOLON"
  | .slash => "SLASH"
  | .star => "STAR"
  | .bang => "BANG"
  | .bangEqual => "BANG_EQUAL"
  | .equal => "EQUAL"
  | .equalEqual => "EQUAL_EQUAL"
  | .greater => "GREATER"
  | .greaterEqual => "GREATER_EQUAL"
  | .less => "LESS"
  | .lessEqual => "LESS_EQUAL"
  | .identifier => "IDENTIFIER"
  | .string => "STRING"
  | .number => "NUMBER"
  | .keyword word => word.name
  | .endOfText => "EOF"

/-- The place of a kind in the order, counted from one. -/
def ordinal (kind : Kind) : Nat :=
  all.idxOf kind + 1

/-- The list of kinds is complete. -/
theorem mem_all (kind : Kind) : kind ∈ all := by
  cases kind with
  | keyword word => simp [all, Keyword.mem_all]
  | _ => decide

/-- A kind is known by its name. -/
theorem name_injective {a b : Kind} (hname : a.name = b.name) : a = b := by
  have hall : ∀ a ∈ all, ∀ b ∈ all, a.name = b.name → a = b := by decide
  exact hall a (mem_all a) b (mem_all b) hname

/-- The kind with the given name, if there is one. -/
def ofName? (name : String) : Option Kind :=
  all.find? fun kind => kind.name == name

end Token.Kind
end Lox
