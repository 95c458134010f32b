import Lox.Proofs.Expr.PrintedForm
import Lox.Proofs.Lexeme.Trivia
import Lox.Proofs.Scanner.Reports

/-!
# Printed trees are read back

A scan of a printed tree finds its operators and literals again, in the order in which they
are printed: every lexeme of a printed form ends where it was written, since a blank or a
parenthesis follows it.  A negative number is read as a sign and its magnitude.

Main results:

- Theorem {lit}`Piece.Reads.append`: what is read of two texts, one behind the other.
- Theorem {lit}`reads_form`: in front of what may follow a tree, its form is read as the
  tokens of the tree.
- Theorem {lit}`scanTokens_print`: a scan of a printed tree yields its tokens, and reports
  nothing.
-/

namespace Lox

open Lexeme (Means Significant)

/-! ## Reading a text in front of another -/

namespace Piece

/-- In front of the rest, the text has just the given tokens and no fault, all on the first
line. -/
structure Reads (text rest : List Char) (read : List Token) : Prop where
  tokens_eq : tokens 1 (split (text ++ rest)) = read ++ tokens 1 (split rest)
  faults_eq : faults 1 (split (text ++ rest)) = faults 1 (split rest)
  one_line : '\n' ∉ text

/-- Two texts, one behind the other, are read one after the other. -/
theorem Reads.append {text more rest : List Char} {read read' : List Token}
    (htext : Reads text (more ++ rest) read) (hmore : Reads more rest read') :
    Reads (text ++ more) rest (read ++ read') where
  tokens_eq := by
    rw [List.append_assoc, htext.tokens_eq, hmore.tokens_eq, List.append_assoc]
  faults_eq := by
    rw [List.append_assoc, htext.faults_eq, hmore.faults_eq]
  one_line := by
    simp [htext.one_line, hmore.one_line]

/-- A piece of its own without a fault is read as its token. -/
theorem reads_of_split {piece : Piece} {rest : List Char}
    (hsplit : split (piece.text ++ rest) = piece :: split rest)
    (hfault : piece.fault? 1 = none) (hline : '\n' ∉ piece.text) :
    Reads piece.text rest (piece.token? 1).toList where
  tokens_eq := by
    rw [hsplit, tokens, List.count_eq_zero.2 hline]
  faults_eq := by
    rw [hsplit, faults, hfault, List.count_eq_zero.2 hline]
    rfl
  one_line := hline

/-- A space is not read. -/
theorem reads_space (rest : List Char) : Reads [' '] rest [] := by
  rcases exists_split_blank (Or.inl rfl : Lexeme.Blank ' ') with ⟨shape, htrivia, hsplit⟩
  have hreads := @reads_of_split ⟨shape, [' ']⟩ rest (hsplit rest)
    (fault?_of_trivia htrivia 1) (show '\n' ∉ [' '] by decide)
  rwa [token?_of_trivia htrivia] at hreads

/-- A significant lexeme is read as what it means, if the rest does not go on with it. -/
theorem reads_of_means {x : Significant} {kind : Token.Kind} {literal : Value}
    (hmeans : Means x.text kind literal) {rest : List Char}
    (hends : ¬x.shape.GoesOn x.text rest) (hline : '\n' ∉ x.text) :
    Reads x.text rest [⟨kind, String.ofList x.text, literal, 1⟩] := by
  have hreads := @reads_of_split x.piece rest (x.split_append hends) (x.fault?_piece 1) hline
  have htoken : x.piece.token? 1 = some ⟨kind, String.ofList x.text, literal, 1⟩ := by
    rw [token?, Significant.piece, meaning?_of_means x.accepts hmeans]
    rfl
  rwa [htoken] at hreads

/-- A mark is read as its token, whatever the rest is. -/
theorem reads_mark {c : Char} {kind : Token.Kind} (hmark : Lexeme.mark? c = some kind)
    (hoperator : ([c], kind) ∈ Lexeme.operators) (hline : c ≠ '\n') (rest : List Char) :
    Reads [c] rest [⟨kind, String.ofList [c], .nil, 1⟩] :=
  @reads_of_means ⟨[c], .operator kind, trivial, hoperator⟩ kind .nil (.operator hoperator) rest
    (Lexeme.not_goesOn_of_mark hmark rest) (by simpa using hline.symm)

end Piece

namespace Expr

open Piece (Reads)

/-! ## The tokens of a tree -/

/-- The kind of an operator by its lexeme. -/
def operatorKind (lexeme : String) : Token.Kind :=
  (Lexeme.operators.lookup lexeme.toList).getD .identifier

/-- The tokens of a literal.  A number with its sign bit set is a minus sign and its
magnitude. -/
def literalTokens : Value → List Token
  | .nil => [⟨.keyword .nilWord, "nil", .nil, 1⟩]
  | .boolean true => [⟨.keyword .trueWord, "true", .nil, 1⟩]
  | .boolean false => [⟨.keyword .falseWord, "false", .nil, 1⟩]
  | .number x =>
    (if x.isNegative then [⟨.minus, "-", .nil, 1⟩] else []) ++
      [⟨.number, x.magnitude.text .lox, .number x.magnitude, 1⟩]
  | .string _ => []

/-- The tokens of a name and of its operands in parentheses. -/
def enclosedTokens (name : Token) (operands : List Token) : List Token :=
  [⟨.leftParen, "(", .nil, 1⟩, name] ++ operands ++ [⟨.rightParen, ")", .nil, 1⟩]

/-- The tokens of a tree, with every operator in front of its operands. -/
def flatten : Expr → List Token
  | .literal value => literalTokens value
  | .grouping inner => enclosedTokens ⟨.identifier, "group", .nil, 1⟩ inner.flatten
  | .unary operator operand =>
    enclosedTokens ⟨operatorKind operator.lexeme, operator.lexeme, .nil, 1⟩ operand.flatten
  | .binary left operator right =>
    enclosedTokens ⟨operatorKind operator.lexeme, operator.lexeme, .nil, 1⟩
      (left.flatten ++ right.flatten)
  | .bare _ => []

/-- Nil, a boolean or a moderate number. -/
def ScannableLiteral : Value → Prop
  | .number x => x.Moderate
  | .string _ => False
  | _ => True

/-- No value stands bare in the tree, its literals are nil, booleans and moderate numbers, and
its operators have the lexemes of operators. -/
def Scannable (e : Expr) : Prop :=
  e.MadeOf ScannableLiteral fun lexeme => lexeme.toList ∈ Lexeme.operators.map Prod.fst

/-! ## Names -/

/-- The table of operators gives every operator its kind. -/
theorem mem_operators_of_mem_map {lexeme : String}
    (hlexeme : lexeme.toList ∈ Lexeme.operators.map Prod.fst) :
    (lexeme.toList, operatorKind lexeme) ∈ Lexeme.operators := by
  have hall : ∀ operator ∈ Lexeme.operators,
      (operator.1, (Lexeme.operators.lookup operator.1).getD .identifier) ∈
        Lexeme.operators := by decide
  rcases List.mem_map.1 hlexeme with ⟨operator, hoperator, hsame⟩
  rw [operatorKind, ← hsame]
  exact hall operator hoperator

/-- The operator of a node is read as its token: a space follows it. -/
theorem reads_operator {lexeme : String}
    (hlexeme : lexeme.toList ∈ Lexeme.operators.map Prod.fst) (rest : List Char) :
    Reads lexeme.toList (' ' :: rest) [⟨operatorKind lexeme, lexeme, .nil, 1⟩] := by
  have hoperator := mem_operators_of_mem_map hlexeme
  have hline : ∀ operator ∈ Lexeme.operators, '\n' ∉ operator.1 := by decide
  let x : Significant := ⟨lexeme.toList, .operator (operatorKind lexeme), trivial, hoperator⟩
  have hreads := @Piece.reads_of_means x _ _ (.operator hoperator) (' ' :: rest)
    (x.not_goesOn_of_blank ⟨' ', rest, rfl, Or.inl rfl⟩) (hline _ hoperator)
  rwa [show String.ofList x.text = lexeme from String.ofList_toList] at hreads

/-- A word or a number ends with the tree. -/
theorem not_goesOn_of_ends {shape : Lexeme.Shape} (hshape : shape = .word ∨ shape = .number)
    (text : List Char) {rest : List Char} (hends : Ends rest) : ¬shape.GoesOn text rest := by
  rcases hends with rfl | ⟨c, more, rfl, rfl | rfl⟩
  · exact Lexeme.not_goesOn_nil shape text
  all_goals
    rcases hshape with rfl | rfl
    · simp [Lexeme.Shape.GoesOn]
      decide
    · simp [Lexeme.Shape.GoesOn, Lexeme.BeginsFraction]
      decide

/-- A word in front of what may follow a tree is read as what it means. -/
theorem reads_word {text : List Char} {kind : Token.Kind} (hword : Lexeme.Shape.word.Accepts text)
    (hmeans : Means text kind .nil) (hline : '\n' ∉ text) {rest : List Char}
    (hends : Ends rest) : Reads text rest [⟨kind, String.ofList text, .nil, 1⟩] :=
  @Piece.reads_of_means ⟨text, .word, trivial, hword⟩ kind .nil hmeans rest
    (not_goesOn_of_ends (Or.inl rfl) text hends) hline

/-- A word that is not reserved is read as a name. -/
theorem reads_name {text rest : List Char} (hword : Lexeme.Shape.word.Accepts text)
    (hkind : Lexeme.wordKind text = .identifier) (hline : '\n' ∉ text)
    (hends : ¬Lexeme.Shape.word.GoesOn text rest) :
    Reads text rest [⟨.identifier, String.ofList text, .nil, 1⟩] := by
  have hmeans := Piece.means_wordKind hword
  rw [hkind] at hmeans
  exact @Piece.reads_of_means ⟨text, .word, trivial, hword⟩ .identifier .nil hmeans rest hends hline

/-- The name of a grouping is read as a name. -/
theorem reads_group (rest : List Char) :
    Reads ['g', 'r', 'o', 'u', 'p'] (' ' :: rest) [⟨.identifier, "group", .nil, 1⟩] :=
  reads_name (Lexeme.accepts_word rfl rfl) rfl (by decide)
    (not_goesOn_of_ends (Or.inl rfl) _ (ends_blank rest))

/-! ## Literals -/

/-- The tokens of the sign in front of a number. -/
def signTokens (negative : Bool) : List Token :=
  if negative then [⟨.minus, "-", .nil, 1⟩] else []

/-- The sign in front of a number is read as an operator. -/
theorem reads_sign (negative : Bool) {text rest : List Char} {read : List Token}
    (hreads : Reads text rest read) :
    Reads (Binary64.signChars negative ++ text) rest (signTokens negative ++ read) := by
  cases negative with
  | false => exact hreads
  | true =>
      have hminus := @Piece.reads_mark '-' .minus (by decide) (by decide) (by decide) (text ++ rest)
      exact hminus.append hreads

/-- The spelling of a keyword is scanned as the keyword. -/
theorem reads_keyword (keyword : Keyword) (hline : '\n' ∉ keyword.spelling.toList)
    {rest : List Char} (hends : Ends rest) :
    Reads keyword.spelling.toList rest [⟨.keyword keyword, keyword.spelling, .nil, 1⟩] := by
  have hreads := reads_word (Lexeme.accepts_keyword keyword) (.keyword keyword) hline hends
  rwa [String.ofList_toList] at hreads

/-- A number of the language is read as what it denotes. -/
theorem reads_number {text rest : List Char} {x : Binary64}
    (hnumber : Lexeme.Shape.number.Accepts text) (hread : Numeral.read? text = some x)
    (hends : ¬Lexeme.Shape.number.GoesOn text rest) :
    Reads text rest [⟨.number, String.ofList text, .number x, 1⟩] := by
  rcases Numeral.exists_pointed_of_number hnumber with ⟨whole, part, htext, hwhole, hpart⟩
  have hline : '\n' ∉ text := by
    rw [htext]
    intro hmem
    exact absurd (Numeral.plain_pointed hwhole.2 hpart _ hmem) (by decide)
  exact @Piece.reads_of_means ⟨text, .number, trivial, hnumber⟩ .number _
    (.number hnumber hread) rest hends hline

/-- The magnitude of a moderate number is read back, bit by bit. -/
theorem reads_magnitude {x : Binary64} (hmoderate : x.Moderate) {rest : List Char}
    (hends : Ends rest) :
    Reads (x.magnitude.chars .lox) rest
      [⟨.number, x.magnitude.text .lox, .number x.magnitude, 1⟩] :=
  reads_number hmoderate.accepts_chars (Binary64.read?_chars x.magnitude)
    (not_goesOn_of_ends (Or.inr rfl) _ hends)

/-- A literal is read as its tokens. -/
theorem reads_literal {value : Value} (hvalue : ScannableLiteral value) {rest : List Char}
    (hends : Ends rest) : Reads value.chars rest (literalTokens value) := by
  cases value with
  | nil => exact reads_keyword .nilWord (by decide) hends
  | boolean b =>
      cases b with
      | false => exact reads_keyword .falseWord (by decide) hends
      | true => exact reads_keyword .trueWord (by decide) hends
  | number x =>
      rw [Value.chars_number, x.chars_eq_signChars_append]
      exact reads_sign x.isNegative (reads_magnitude hvalue hends)
  | string s => exact hvalue.elim

/-! ## Trees -/

/-- A name and operands in parentheses are read one after the other. -/
theorem reads_enclosed {name operands rest : List Char} {token : Token} {read : List Token}
    (hname : Reads name (' ' :: (operands ++ ')' :: rest)) [token])
    (hoperands : Reads operands (')' :: rest) read) :
    Reads (enclosed name operands) rest (enclosedTokens token read) := by
  have hclosing := @Piece.reads_mark ')' .rightParen (by decide) (by decide) (by decide) rest
  have hinside := (Piece.reads_space _).append (hoperands.append hclosing)
  have hafter : ' ' :: (operands ++ ')' :: rest) = [' '] ++ (operands ++ [')']) ++ rest := by
    simp
  rw [hafter] at hname
  have hopening := @Piece.reads_mark '(' .leftParen (by decide) (by decide) (by decide)
    (name ++ ([' '] ++ (operands ++ [')'])) ++ rest)
  exact hopening.append (hname.append hinside)

/-- In front of what may follow a tree, its form is read as the tokens of the tree. -/
theorem reads_form {e : Expr} (he : e.Scannable) {rest : List Char} (hends : Ends rest) :
    Reads e.form rest e.flatten := by
  induction e generalizing rest with
  | literal value => exact reads_literal he hends
  | grouping inner ih => exact reads_enclosed (reads_group _) (ih he (ends_parenthesis rest))
  | unary operator operand ih =>
      exact reads_enclosed (reads_operator he.1 _) (ih he.2 (ends_parenthesis rest))
  | binary left operator right ihleft ihright =>
      have hright := ihright he.2.2 (ends_parenthesis rest)
      have hleft := ihleft he.2.1 (ends_blank (right.form ++ ')' :: rest))
      exact reads_enclosed (reads_operator he.1 _)
        (hleft.append ((Piece.reads_space _).append hright))
  | bare value => exact he.elim

/-- A scan of a printed tree yields the tokens of the tree, all on the first line, and the end
of the text, and it reports nothing. -/
theorem scanTokens_print {e : Expr} (he : e.Scannable) :
    ∃ text last, e.print = .ok text ∧
      Scanner.scanTokens (.ofSource text) =
        .ok (e.flatten ++ [Token.mk .endOfText "" .nil 1]).toArray last ∧
      last.faults = #[] ∧ ∀ r : Reporter, (r.scan text).2 = r := by
  have hreads := reads_form he (Or.inl rfl : Ends [])
  have htokens := hreads.tokens_eq
  have hfaults := hreads.faults_eq
  rw [List.append_nil, Piece.split_nil] at htokens hfaults
  have hyields : Scanner.Yields e.form e.flatten :=
    Scanner.yields_iff.2 ⟨by simpa [Piece.tokens] using htokens, hfaults⟩
  rcases hyields with ⟨last, hscan, hnone⟩
  rw [Scanner.endToken, List.count_eq_zero.2 hreads.one_line] at hscan
  refine ⟨_, last, print_of_wellFormed (MadeOf.wellFormed he), hscan, hnone, fun r => ?_⟩
  rw [r.scan_eq_reportFaults, Lox.scan, hscan]
  simp [hnone, Reporter.reportFaults]

/-- A negative zero is read as a sign and a zero, behind the sign of its operator. -/
theorem scanTokens_print_negativeZero :
    ∃ e : Expr, e.Scannable ∧
      e.flatten.map Token.lexeme =
        ["(", "*", "(", "-", "-", "0", ")", "(", "group", "0.0001", ")", ")"] ∧
      ∃ text last, e.print = .ok text ∧
        Scanner.scanTokens (.ofSource text) =
          .ok (e.flatten ++ [Token.mk .endOfText "" .nil 1]).toArray last ∧
        last.faults = #[] ∧ ∀ r : Reporter, (r.scan text).2 = r := by
  let least : Binary64 := .finite false ⟨0x3f1a36e2eb1c432d, by decide⟩
  let e : Expr :=
    .binary (.unary ⟨.minus, "-", .nil, 3⟩ (.literal (.number (.zero true))))
      ⟨.star, "*", .nil, 3⟩ (.grouping (.literal (.number least)))
  have hleast : least.Moderate := Or.inr ⟨by decide +kernel, by decide +kernel⟩
  have he : e.Scannable := ⟨by decide, ⟨by decide, Or.inl rfl⟩, hleast⟩
  exact ⟨e, he, by decide +kernel, scanTokens_print he⟩

/-- A number in scientific notation is not read back: it is no number of the language. -/
example : (Lox.scan "1e+16").1.toList.map Token.lexeme = ["1", "e", "+", "16", ""] := by
  decide +kernel

end Expr
end Lox
