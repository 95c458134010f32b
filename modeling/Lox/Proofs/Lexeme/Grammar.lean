import Lox.Proofs.Lexeme.Tail

/-!
# The grammar of lexemes

Every class of lexemes is a set of texts, described here without regard to how a
lexeme is found: a blank, a line break, a comment up to the end of its line, one of
nineteen operators, a quoted string, a number or a word.  The two classes of errors
have no texts of their own.

Main results:

- Theorem {lit}`tail_of_accepts`: a lexeme that stands alone is found whole, in its
  class.
- Theorem {lit}`accepts_unique`: a text belongs to one class at most.
- Theorem {lit}`accepts_tail`: what is found belongs to the class under which it is
  found, or is an error.
-/

namespace Lox
namespace Lexeme

/-! ## Classes -/

/-- One of the ten digits of ASCII. -/
def Digit (c : Char) : Prop :=
  '0' ≤ c ∧ c ≤ '9'

/-- A letter of ASCII or an underscore. -/
def Letter (c : Char) : Prop :=
  ('a' ≤ c ∧ c ≤ 'z') ∨ ('A' ≤ c ∧ c ≤ 'Z') ∨ c = '_'

instance (c : Char) : Decidable (Digit c) :=
  inferInstanceAs (Decidable ('0' ≤ c ∧ c ≤ '9'))

instance (c : Char) : Decidable (Letter c) :=
  inferInstanceAs (Decidable (('a' ≤ c ∧ c ≤ 'z') ∨ ('A' ≤ c ∧ c ≤ 'Z') ∨ c = '_'))

/-- One or more digits. -/
def Digits (text : List Char) : Prop :=
  text ≠ [] ∧ ∀ c ∈ text, Digit c

/-- Digits, or a point with digits behind it and any digits in front. -/
def NumberRest (text : List Char) : Prop :=
  (∀ c ∈ text, Digit c) ∨
    ∃ whole part, text = whole ++ '.' :: part ∧ (∀ c ∈ whole, Digit c) ∧ Digits part

/-- The operators with their kinds. -/
def operators : List (List Char × Token.Kind) :=
  [(['('], .leftParen), ([')'], .rightParen), (['\x7b'], .leftBrace),
    (['\x7d'], .rightBrace), ([','], .comma), (['.'], .dot), (['-'], .minus),
    (['+'], .plus), ([';'], .semicolon), (['*'], .star), (['/'], .slash),
    (['!'], .bang), (['!', '='], .bangEqual), (['='], .equal),
    (['=', '='], .equalEqual), (['>'], .greater), (['>', '='], .greaterEqual),
    (['<'], .less), (['<', '='], .lessEqual)]

/-- The texts of a class of lexemes. -/
def Shape.Accepts : Shape → List Char → Prop
  | .blank, text => text = [' '] ∨ text = ['\r'] ∨ text = ['\t']
  | .lineBreak, text => text = ['\n']
  | .comment, text => ∃ body, text = '/' :: '/' :: body ∧ '\n' ∉ body
  | .operator kind, text => (text, kind) ∈ operators
  | .string, text => ∃ body, text = '\x22' :: (body ++ ['\x22']) ∧ '\x22' ∉ body
  | .number, text =>
    Digits text ∨ ∃ whole part, text = whole ++ '.' :: part ∧ Digits whole ∧ Digits part
  | .word, text => ∃ c rest, text = c :: rest ∧ Letter c ∧ ∀ d ∈ rest, Letter d ∨ Digit d
  | .unterminated, _ => False
  | .unexpected, _ => False

/-- The text belongs to a class of lexemes. -/
def IsLexeme (text : List Char) : Prop :=
  ∃ shape : Shape, shape.Accepts text

theorem Digit.isDigit {c : Char} (hdigit : Digit c) : isDigit c = true :=
  (isDigit_iff c).2 hdigit

theorem Letter.isLetter {c : Char} (hletter : Letter c) : isLetter c = true :=
  (isLetter_iff c).2 hletter

/-- The characters of a word behind its first one. -/
theorem isWordCharacter_iff (c : Char) :
    isWordCharacter c = true ↔ Letter c ∨ Digit c := by
  rw [isWordCharacter, Bool.or_eq_true, isLetter_iff, isDigit_iff]
  exact Iff.rfl

/-- No class has the empty text. -/
theorem Shape.Accepts.ne_nil {shape : Shape} {text : List Char}
    (haccepts : shape.Accepts text) : text ≠ [] := by
  rintro rfl
  cases shape with
  | operator kind => simp [Shape.Accepts, operators] at haccepts
  | number => simp [Shape.Accepts, Digits] at haccepts
  | _ => simp [Shape.Accepts] at haccepts

/-- No line feed is in the rest of a number. -/
theorem NumberRest.count_lineFeed {text : List Char} (haccepts : NumberRest text) :
    text.count '\n' = 0 := by
  have hbreak : ¬Digit '\n' := by decide
  rw [List.count_eq_zero]
  rcases haccepts with hdigits | ⟨whole, part, rfl, hwhole, -, hpart⟩
  · exact fun hmem => hbreak (hdigits _ hmem)
  · rw [List.mem_append, List.mem_cons]
    rintro (hmem | hpoint | hmem)
    · exact hbreak (hwhole _ hmem)
    · exact absurd hpoint (by decide)
    · exact hbreak (hpart _ hmem)

/-! ## Lexemes that stand alone -/

/-- A text without a character goes on through all of its own. -/
theorem bne_of_not_mem {stop : Char} {body : List Char} (hbody : stop ∉ body) :
    ∀ c ∈ body, (c != stop) = true := by
  intro c hc
  rw [bne_iff_ne]
  intro heq
  exact hbody (heq ▸ hc)

/-- What ends at the first of a character ends there in two equal texts alike. -/
theorem append_inj_of_stop {stop : Char} {field field' rest rest' : List Char}
    (hfield : stop ∉ field) (hfield' : stop ∉ field')
    (heq : field ++ stop :: rest = field' ++ stop :: rest') : field = field' ∧ rest = rest' := by
  have hstop (more : List Char) : (stop :: more).takeWhile (· != stop) = [] := by simp
  rcases append_inj_of_takeWhile (bne_of_not_mem hfield) (bne_of_not_mem hfield') (hstop rest)
    (hstop rest') heq with ⟨hsame, hafter⟩
  exact ⟨hsame, (List.cons.inj hafter).2⟩

/-- A comment goes on to the end of its line. -/
theorem slashTail_comment {body : List Char} (hbody : '\n' ∉ body) :
    slashTail ('/' :: body) = (.comment, '/' :: body) := by
  have hall : body.takeWhile (· != '\n') = body :=
    List.takeWhile_eq_self_iff.2 (bne_of_not_mem hbody)
  rw [slashTail, hall]

/-- A string goes on to its next quote. -/
theorem stringTail_quoted {body : List Char} (hbody : '\x22' ∉ body) (rest : List Char) :
    stringTail (body ++ '\x22' :: rest) = (.string, body ++ ['\x22']) := by
  have hall := bne_of_not_mem hbody
  simp [stringTail, List.takeWhile_append_of_pos hall, List.dropWhile_append_of_pos hall]

/-- Digits that nothing follows are a whole number. -/
theorem numberTail_digits {text : List Char} (hdigits : ∀ c ∈ text, Digit c) :
    numberTail text = text := by
  have hall : ∀ c ∈ text, isDigit c = true := fun c hc => (hdigits c hc).isDigit
  have htake : text.takeWhile isDigit = text := List.takeWhile_eq_self_iff.2 hall
  have hdrop : text.dropWhile isDigit = [] := List.dropWhile_eq_nil_iff.2 hall
  simp [numberTail, htake, hdrop, fraction]

/-- Digits, a point and digits that nothing follows are a whole number. -/
theorem numberTail_decimal {whole part : List Char} (hwhole : ∀ c ∈ whole, Digit c)
    (hpart : Digits part) : numberTail (whole ++ '.' :: part) = whole ++ '.' :: part := by
  rcases hpart with ⟨hne, hpart⟩
  cases part with
  | nil => exact absurd rfl hne
  | cons d more =>
      have hall : ∀ c ∈ whole, isDigit c = true := fun c hc => (hwhole c hc).isDigit
      have hfirst : isDigit d = true := (hpart d List.mem_cons_self).isDigit
      have hmore : more.takeWhile isDigit = more := by
        rw [List.takeWhile_eq_self_iff]
        exact fun c hc => (hpart c (List.mem_cons_of_mem d hc)).isDigit
      have hpoint : isDigit '.' = false := rfl
      rw [numberTail, List.takeWhile_append_of_pos hall, List.dropWhile_append_of_pos hall]
      simp [hpoint, fraction, hfirst, hmore]

/-- The rest of a number that stands alone is taken whole. -/
theorem NumberRest.numberTail_eq {text : List Char} (haccepts : NumberRest text) :
    numberTail text = text := by
  rcases haccepts with hdigits | ⟨whole, part, rfl, hwhole, hpart⟩
  · exact numberTail_digits hdigits
  · exact numberTail_decimal hwhole hpart

/-- A lexeme that stands alone is found whole, in its class. -/
theorem tail_of_accepts {shape : Shape} {c : Char} {rest : List Char}
    (haccepts : shape.Accepts (c :: rest)) : tail c rest = (shape, rest) := by
  cases shape with
  | blank =>
      rcases haccepts with h | h | h
      all_goals
        cases h
        rfl
  | lineBreak =>
      cases haccepts
      rfl
  | comment =>
      rcases haccepts with ⟨body, htext, hbody⟩
      cases htext
      exact slashTail_comment hbody
  | operator kind =>
      have hall : ∀ operator ∈ operators,
          operator.1.head?.map (fun c => tail c operator.1.tail) =
            some (.operator operator.2, operator.1.tail) := by
        decide
      simpa using hall _ haccepts
  | string =>
      rcases haccepts with ⟨body, htext, hbody⟩
      cases htext
      exact stringTail_quoted hbody []
  | number =>
      rcases haccepts with ⟨_, hdigits⟩ | ⟨whole, part, htext, ⟨hne, hwhole⟩, hpart⟩
      · rw [tail_of_digit (hdigits c List.mem_cons_self).isDigit,
          numberTail_digits fun d hd => hdigits d (List.mem_cons_of_mem c hd)]
      · cases whole with
        | nil => exact absurd rfl hne
        | cons first whole =>
            rw [List.cons_append, List.cons.injEq] at htext
            rcases htext with ⟨rfl, rfl⟩
            rw [tail_of_digit (hwhole c List.mem_cons_self).isDigit,
              numberTail_decimal (fun d hd => hwhole d (List.mem_cons_of_mem c hd)) hpart]
  | word =>
      rcases haccepts with ⟨first, more, htext, hletter, hmore⟩
      cases htext
      have hall : rest.takeWhile isWordCharacter = rest := by
        rw [List.takeWhile_eq_self_iff]
        exact fun d hd => (isWordCharacter_iff d).2 (hmore d hd)
      rw [tail_of_letter hletter.isLetter, wordTail, hall]
  | unterminated => exact haccepts.elim
  | unexpected => exact haccepts.elim

/-- A text belongs to one class at most. -/
theorem accepts_unique {first second : Shape} {text : List Char}
    (hfirst : first.Accepts text) (hsecond : second.Accepts text) : first = second := by
  cases text with
  | nil => exact absurd rfl hfirst.ne_nil
  | cons c rest =>
      have heq := (tail_of_accepts hfirst).symm.trans (tail_of_accepts hsecond)
      exact congrArg Prod.fst heq

/-! ## Lexemes in a text -/

theorem operator_slash : (['/'], Token.Kind.slash) ∈ operators := by
  decide

/-- The operators of one character are in the table of operators. -/
theorem operator_of_mark? {c : Char} {kind : Token.Kind} (hmark : mark? c = some kind) :
    ([c], kind) ∈ operators := by
  have hall : ∀ mark ∈ marks, ([mark.1], mark.2) ∈ operators := by decide
  rcases List.lookup_eq_some_iff.1 hmark with ⟨before, after, hsplit, -⟩
  apply hall (c, kind)
  rw [hsplit]
  exact List.mem_append_right before List.mem_cons_self

theorem operators_of_comparison? {c : Char} {alone withEqual : Token.Kind}
    (hcomparison : comparison? c = some (alone, withEqual)) :
    ([c], alone) ∈ operators ∧ ([c, '='], withEqual) ∈ operators := by
  unfold comparison? at hcomparison
  split at hcomparison
  all_goals
    cases hcomparison
    try decide

/-- What begins with a slash is a comment or an operator, as its shape tells. -/
theorem accepts_slashTail (rest : List Char) :
    (slashTail rest).1.Accepts ('/' :: (slashTail rest).2) := by
  fun_cases slashTail rest with
  | case1 rest =>
      refine ⟨rest.takeWhile (· != '\n'), rfl, ?_⟩
      intro hmem
      simpa using List.mem_takeWhile_imp hmem
  | case2 => exact operator_slash

/-- A string that is closed is one in quotes. -/
theorem accepts_stringTail {rest : List Char} (hclosed : (stringTail rest).1 = .string) :
    Shape.string.Accepts ('\x22' :: (stringTail rest).2) := by
  unfold stringTail at hclosed ⊢
  cases hstop : rest.dropWhile (· != '\x22') with
  | nil =>
      rw [hstop] at hclosed
      cases hclosed
  | cons quote more =>
      have hquote : quote = '\x22' := by
        simpa using not_of_dropWhile_cons hstop
      refine ⟨rest.takeWhile (· != '\x22'), ?_, ?_⟩
      · rw [hquote]
      · intro hmem
        simpa using List.mem_takeWhile_imp hmem

/-- A fraction is a point with digits behind it. -/
theorem fraction_eq (rest : List Char) :
    fraction rest = [] ∨ ∃ part, fraction rest = '.' :: part ∧ Digits part := by
  fun_cases fraction rest with
  | case1 d more hd =>
      refine Or.inr ⟨d :: more.takeWhile isDigit, rfl, List.cons_ne_nil _ _, ?_⟩
      intro e he
      rcases List.mem_cons.1 he with rfl | he
      · exact (isDigit_iff e).1 hd
      · exact (isDigit_iff e).1 (List.mem_takeWhile_imp he)
  | case2 => exact Or.inl rfl
  | case3 => exact Or.inl rfl

/-- The rest of a number is digits, with a fraction behind them or none. -/
theorem numberRest_numberTail (text : List Char) : NumberRest (numberTail text) := by
  have hwhole : ∀ c ∈ text.takeWhile isDigit, Digit c := by
    intro c hc
    exact (isDigit_iff c).1 (List.mem_takeWhile_imp hc)
  rcases fraction_eq (text.dropWhile isDigit) with hnone | ⟨part, hpart, hdigits⟩
  · rw [numberTail, hnone, List.append_nil]
    exact Or.inl hwhole
  · rw [numberTail, hpart]
    exact Or.inr ⟨_, part, rfl, hwhole, hdigits⟩

/-- A digit with the rest of a number behind it is a number. -/
theorem accepts_numberTail {c : Char} (hdigit : isDigit c = true) (rest : List Char) :
    Shape.number.Accepts (c :: numberTail rest) := by
  have hc : Digit c := (isDigit_iff c).1 hdigit
  rcases numberRest_numberTail rest with hrest | ⟨whole, part, hrest, hwhole, hpart⟩
  · exact Or.inl ⟨List.cons_ne_nil _ _, List.forall_mem_cons.2 ⟨hc, hrest⟩⟩
  · rw [hrest]
    have hdigits : Digits (c :: whole) :=
      ⟨List.cons_ne_nil _ _, List.forall_mem_cons.2 ⟨hc, hwhole⟩⟩
    exact Or.inr ⟨_, part, rfl, hdigits, hpart⟩

/-- What is found belongs to its class.  The exceptions are a string that is not
closed and a character that opens nothing. -/
theorem accepts_tail (c : Char) (rest : List Char) :
    (tail c rest).1.Accepts (c :: (tail c rest).2) ∨
      (c = '\x22' ∧ tail c rest = (.unterminated, rest)) ∨
      (c ≠ '\x22' ∧ ∀ more, tail c more = (.unexpected, [])) := by
  cases opening c with
  | mark hmark =>
      rw [tail_of_mark hmark]
      exact Or.inl (operator_of_mark? hmark)
  | comparison hcomparison =>
      rw [tail_of_comparison hcomparison]
      left
      fun_cases comparisonTail _ _ rest with
      | case1 rest => exact (operators_of_comparison? hcomparison).2
      | case2 => exact (operators_of_comparison? hcomparison).1
  | slash => exact Or.inl (accepts_slashTail rest)
  | lineBreak => exact Or.inl rfl
  | blank hblank =>
      rw [tail_of_blank hblank]
      left
      rcases hblank with rfl | rfl | rfl
      · exact Or.inl rfl
      · exact Or.inr (Or.inl rfl)
      · exact Or.inr (Or.inr rfl)
  | quote =>
      rw [tail_quote]
      cases hstop : rest.dropWhile (· != '\x22') with
      | nil =>
          have hall := takeWhile_of_dropWhile_nil hstop
          refine Or.inr (Or.inl ⟨rfl, ?_⟩)
          simp only [stringTail, hstop, hall]
      | cons quote more =>
          have hclosed : (stringTail rest).1 = .string := by simp only [stringTail, hstop]
          left
          rw [hclosed]
          exact accepts_stringTail hclosed
  | digit hdigit =>
      rw [tail_of_digit hdigit]
      exact Or.inl (accepts_numberTail hdigit rest)
  | letter hletter =>
      rw [tail_of_letter hletter]
      refine Or.inl ⟨c, wordTail rest, rfl, (isLetter_iff c).1 hletter, ?_⟩
      intro d hd
      exact (isWordCharacter_iff d).1 (List.mem_takeWhile_imp hd)
  | unexpected hunexpected =>
      refine Or.inr (Or.inr ⟨?_, hunexpected⟩)
      rintro rfl
      cases hunexpected []

end Lexeme
end Lox
