import Lox.Token.Kind

/-!
# Lexemes

A source text is cut into lexemes one after the other.  Each is the longest one
that begins there, and its first character tells its class: a blank, a comment, an
operator, a string, a number or a word.  A string that is not closed takes the
rest of the text, and a character that begins no lexeme is one of its own.

Main results:

- Theorem {lit}`tail_isPrefix`: the tail of a lexeme is the beginning of the text
  behind its first character.
- Theorem {lit}`wordKind_spelling`: a reserved word is a keyword.
-/

namespace Lox
namespace Lexeme

/-! ## Character classes -/

/-- A digit of a number; the digits of other scripts do not count. -/
def isDigit (c : Char) : Bool :=
  c.isDigit

/-- A letter of a word: a letter of ASCII or an underscore. -/
def isLetter (c : Char) : Bool :=
  c.isAlpha || c == '_'

/-- A character of a word behind the first one. -/
def isWordCharacter (c : Char) : Bool :=
  isLetter c || isDigit c

/-! ## Shapes -/

/-- The class of a lexeme. -/
inductive Shape where
  | blank
  | lineBreak
  | comment
  | operator (kind : Token.Kind)
  | string
  | unterminated
  | number
  | word
  | unexpected
deriving DecidableEq

/-- The operators that consist of one character and begin no other lexeme. -/
def marks : List (Char × Token.Kind) :=
  [('(', .leftParen), (')', .rightParen), ('\x7b', .leftBrace), ('\x7d', .rightBrace),
    (',', .comma), ('.', .dot), ('-', .minus), ('+', .plus), (';', .semicolon),
    ('*', .star)]

/-- The operator that a character is by itself. -/
def mark? (c : Char) : Option Token.Kind :=
  marks.lookup c

/-- The operators that an equals sign may follow: alone and with it. -/
def comparison? : Char → Option (Token.Kind × Token.Kind)
  | '!' => some (.bang, .bangEqual)
  | '=' => some (.equal, .equalEqual)
  | '<' => some (.less, .lessEqual)
  | '>' => some (.greater, .greaterEqual)
  | _ => none

/-! ## Tails

The tail of a lexeme is what follows its first character. -/

/-- The tail of an operator that an equals sign may follow. -/
def comparisonTail (alone withEqual : Token.Kind) : List Char → Shape × List Char
  | '=' :: _ => (.operator withEqual, ['='])
  | _ => (.operator alone, [])

/-- The tail of a slash: a second one begins a comment, which ends before the
line does. -/
def slashTail : List Char → Shape × List Char
  | '/' :: rest => (.comment, '/' :: rest.takeWhile (· != '\n'))
  | _ => (.operator .slash, [])

/-- The tail of an opening quote: the text up to the next quote with that quote,
or all of it if there is none. -/
def stringTail (rest : List Char) : Shape × List Char :=
  let body := rest.takeWhile (· != '\x22')
  match rest.dropWhile (· != '\x22') with
  | [] => (.unterminated, body)
  | quote :: _ => (.string, body ++ [quote])

/-- A point with the digits behind it.  A point without digits is no fraction. -/
def fraction : List Char → List Char
  | '.' :: c :: rest => if isDigit c then '.' :: c :: rest.takeWhile isDigit else []
  | _ => []

/-- The tail of a number: digits, and a fraction if there is one. -/
def numberTail (rest : List Char) : List Char :=
  rest.takeWhile isDigit ++ fraction (rest.dropWhile isDigit)

/-- The tail of a word. -/
def wordTail (rest : List Char) : List Char :=
  rest.takeWhile isWordCharacter

/-! ## The first lexeme of a text -/

/-- The class and the tail of the lexeme that begins with the given character. -/
def tail (c : Char) (rest : List Char) : Shape × List Char :=
  match mark? c, comparison? c with
  | some kind, _ => (.operator kind, [])
  | none, some (alone, withEqual) => comparisonTail alone withEqual rest
  | none, none =>
    if c = '/' then
      slashTail rest
    else if c = '\n' then
      (.lineBreak, [])
    else if c = ' ' ∨ c = '\r' ∨ c = '\t' then
      (.blank, [])
    else if c = '\x22' then
      stringTail rest
    else if isDigit c then
      (.number, numberTail rest)
    else if isLetter c then
      (.word, wordTail rest)
    else
      (.unexpected, [])

/-! ## What a lexeme means -/

/-- The kind of a word: a keyword if it is reserved, and a name otherwise. -/
def wordKind (word : List Char) : Token.Kind :=
  match Keyword.ofWord? word with
  | some keyword => .keyword keyword
  | none => .identifier

/-- A reserved word is a keyword. -/
theorem wordKind_spelling (keyword : Keyword) :
    wordKind keyword.spelling.toList = .keyword keyword := by
  rw [wordKind, Keyword.ofWord?_spelling]

/-! ## Lexemes and their text -/

theorem fraction_isPrefix (rest : List Char) : fraction rest <+: rest := by
  unfold fraction
  split
  · split
    · simpa using List.takeWhile_prefix isDigit
    · exact List.nil_prefix
  · exact List.nil_prefix

/-- The rest of a number is the beginning of what is left. -/
theorem numberTail_isPrefix (rest : List Char) : numberTail rest <+: rest := by
  have hsplit := List.takeWhile_append_dropWhile (p := isDigit) (l := rest)
  unfold numberTail
  conv => rhs; rw [← hsplit]
  exact (List.prefix_append_right_inj _).2 (fraction_isPrefix _)

theorem stringTail_isPrefix (rest : List Char) : (stringTail rest).2 <+: rest := by
  unfold stringTail
  split
  · exact List.takeWhile_prefix _
  · rename_i quote more hrest
    have hsplit := List.takeWhile_append_dropWhile (p := (· != '\x22')) (l := rest)
    rw [hrest] at hsplit
    exact ⟨more, by simpa using hsplit⟩

theorem comparisonTail_isPrefix (alone withEqual : Token.Kind) (rest : List Char) :
    (comparisonTail alone withEqual rest).2 <+: rest := by
  unfold comparisonTail
  split
  · exact ⟨_, rfl⟩
  · exact List.nil_prefix

theorem slashTail_isPrefix (rest : List Char) : (slashTail rest).2 <+: rest := by
  unfold slashTail
  split
  · simpa using List.takeWhile_prefix _
  · exact List.nil_prefix

/-- The tail of a lexeme is the beginning of the text behind its first
character. -/
theorem tail_isPrefix (c : Char) (rest : List Char) : (tail c rest).2 <+: rest := by
  unfold tail
  split
  · exact List.nil_prefix
  · exact comparisonTail_isPrefix _ _ rest
  · by_cases hslash : c = '/'
    · rw [if_pos hslash]
      exact slashTail_isPrefix rest
    rw [if_neg hslash]
    by_cases hbreak : c = '\n'
    · rw [if_pos hbreak]
      exact List.nil_prefix
    rw [if_neg hbreak]
    by_cases hblank : c = ' ' ∨ c = '\r' ∨ c = '\t'
    · rw [if_pos hblank]
      exact List.nil_prefix
    rw [if_neg hblank]
    by_cases hquote : c = '\x22'
    · rw [if_pos hquote]
      exact stringTail_isPrefix rest
    rw [if_neg hquote]
    by_cases hdigit : isDigit c = true
    · rw [if_pos hdigit]
      exact numberTail_isPrefix rest
    rw [if_neg hdigit]
    by_cases hletter : isLetter c = true
    · rw [if_pos hletter]
      exact List.takeWhile_prefix _
    · rw [if_neg hletter]
      exact List.nil_prefix

end Lexeme
end Lox
