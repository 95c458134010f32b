import Lox.Proofs.Lexeme.Split

/-!
# Where a lexeme ends

A lexeme that stands alone is found whole.  Where a text follows it, it ends before that
text unless the text goes on with it: a word goes on with letters and digits, a number with
digits or a fraction, a comparison with an equals sign, a slash with a slash, and a comment
with all but a line feed.  A string ends at its quote whatever follows.

A number looks at two characters of the text that follows, every other lexeme at one.

Main results:

- Theorem {lit}`tail_append_iff`: a lexeme ends before a text exactly if the text does not
  go on with it.
- Theorem {lit}`Piece.split_of_ends`: such a lexeme is a piece of its own.
-/

namespace Lox
namespace Lexeme

/-! ## Beginnings -/

/-- The text begins with a character of the given sort. -/
def Begins (p : Char → Prop) (text : List Char) : Prop :=
  ∃ c rest, text = c :: rest ∧ p c

@[simp]
theorem not_begins_nil (p : Char → Prop) : ¬Begins p [] := by
  rintro ⟨c, rest, htext, -⟩
  cases htext

@[simp]
theorem begins_cons (p : Char → Prop) (c : Char) (rest : List Char) :
    Begins p (c :: rest) ↔ p c := by
  constructor
  · rintro ⟨d, more, htext, hd⟩
    cases htext
    exact hd
  · intro hc
    exact ⟨c, rest, rfl, hc⟩

/-- Nothing is taken from a text that does not begin with what is taken. -/
theorem takeWhile_eq_nil_iff {p : Char → Bool} {q : Char → Prop}
    (hp : ∀ c, p c = true ↔ q c) (text : List Char) :
    text.takeWhile p = [] ↔ ¬Begins q text := by
  cases text with
  | nil => simp
  | cons c rest => cases hc : p c <;> simp [hc, ← hp]

/-- What is taken ends where the text that follows begins with nothing to take. -/
theorem takeWhile_append_eq_iff {p : Char → Bool} {q : Char → Prop}
    (hp : ∀ c, p c = true ↔ q c) {body : List Char} (hbody : ∀ c ∈ body, p c = true)
    (rest : List Char) : (body ++ rest).takeWhile p = body ↔ ¬Begins q rest := by
  rw [List.takeWhile_append_of_pos hbody, List.append_right_eq_self,
    takeWhile_eq_nil_iff hp]

/-! ## Going on -/

/-- A point with a digit behind it. -/
def BeginsFraction (text : List Char) : Prop :=
  ∃ rest, text = '.' :: rest ∧ Begins Digit rest

/-- The operators that may take an equals sign. -/
def comparisons : List (List Char) :=
  [['!'], ['='], ['<'], ['>']]

/-- The text that follows goes on with a lexeme of the class. -/
def Shape.GoesOn : Shape → List Char → List Char → Prop
  | .comment, _, rest => Begins (· ≠ '\n') rest
  | .operator _, lexeme, rest =>
    (lexeme ∈ comparisons ∧ Begins (· = '=') rest) ∨ (lexeme = ['/'] ∧ Begins (· = '/') rest)
  | .unterminated, _, rest => rest ≠ []
  | .number, lexeme, rest => Begins Digit rest ∨ ('.' ∉ lexeme ∧ BeginsFraction rest)
  | .word, _, rest => Begins (fun c => Letter c ∨ Digit c) rest
  | _, _, _ => False

/-! ## Operators and comments -/

/-- The comparisons are the lexemes of one character that an equals sign prolongs. -/
theorem mem_comparisons_iff (c : Char) :
    [c] ∈ comparisons ↔ ∃ kinds, comparison? c = some kinds := by
  constructor
  · intro hmem
    simp only [comparisons, List.mem_cons, List.cons.injEq, and_true, List.not_mem_nil,
      or_false] at hmem
    rcases hmem with rfl | rfl | rfl | rfl
    all_goals exact ⟨_, rfl⟩
  · rintro ⟨kinds, hcomparison⟩
    unfold comparison? at hcomparison
    split at hcomparison
    all_goals
      cases hcomparison
      try decide

/-- A mark goes on with nothing. -/
theorem not_goesOn_of_mark {c : Char} {kind : Token.Kind} (hmark : mark? c = some kind)
    (rest : List Char) : ¬(Shape.operator kind).GoesOn [c] rest := by
  rintro (⟨hmem, -⟩ | ⟨hslash, -⟩)
  · rcases (mem_comparisons_iff c).1 hmem with ⟨kinds, hcomparison⟩
    rw [mark?_of_comparison? hcomparison] at hmark
    cases hmark
  · cases hslash
    have hnone : mark? '/' = none := by decide
    rw [hnone] at hmark
    cases hmark

/-- A comparison takes nothing but an equals sign. -/
theorem comparisonTail_of_not_begins {text : List Char} (hbegins : ¬Begins (· = '=') text)
    (alone withEqual : Token.Kind) :
    comparisonTail alone withEqual text = (.operator alone, []) := by
  unfold comparisonTail
  split
  · exact (hbegins ⟨'=', _, rfl, rfl⟩).elim
  · rfl

/-- A slash that no other one follows is an operator. -/
theorem slashTail_of_not_begins {text : List Char} (hbegins : ¬Begins (· = '/') text) :
    slashTail text = (.operator .slash, []) := by
  unfold slashTail
  split
  · exact (hbegins ⟨'/', _, rfl, rfl⟩).elim
  · rfl

/-- A comparison ends in a longer text where it did exactly if what follows does not go on with
it. -/
theorem comparisonTail_append_iff {c : Char} {alone withEqual : Token.Kind} {shape : Shape}
    {body : List Char} (hcomparison : comparison? c = some (alone, withEqual))
    (htail : comparisonTail alone withEqual body = (shape, body)) (rest : List Char) :
    comparisonTail alone withEqual (body ++ rest) = (shape, body) ↔
      ¬shape.GoesOn (c :: body) rest := by
  have hmem : [c] ∈ comparisons := (mem_comparisons_iff c).2 ⟨_, hcomparison⟩
  have hslash : c ≠ '/' := by
    rintro rfl
    cases hcomparison
  by_cases hequal : Begins (· = '=') body
  · -- With its equals sign the operator is complete.
    rcases hequal with ⟨_, more, rfl, rfl⟩
    cases htail
    refine iff_of_true rfl ?_
    simp [Shape.GoesOn, comparisons]
  · rw [comparisonTail_of_not_begins hequal] at htail
    cases htail
    have hgoes : (Shape.operator alone).GoesOn [c] rest ↔ Begins (· = '=') rest := by
      simp [Shape.GoesOn, hmem, hslash]
    rw [hgoes, List.nil_append]
    by_cases hrest : Begins (· = '=') rest
    · rcases hrest with ⟨_, more, rfl, rfl⟩
      simp [comparisonTail]
    · exact iff_of_true (comparisonTail_of_not_begins hrest _ _) hrest

/-- A lexeme that begins with a slash ends where it did exactly if what follows does not go on
with it. -/
theorem slashTail_append_iff {shape : Shape} {body : List Char}
    (htail : slashTail body = (shape, body)) (rest : List Char) :
    slashTail (body ++ rest) = (shape, body) ↔ ¬shape.GoesOn ('/' :: body) rest := by
  by_cases hcomment : Begins (· = '/') body
  · rcases hcomment with ⟨_, more, rfl, rfl⟩
    rw [slashTail, Prod.mk.injEq, List.cons.injEq] at htail
    rcases htail with ⟨rfl, -, htail⟩
    have hall : ∀ c ∈ more, (c != '\n') = true := List.takeWhile_eq_self_iff.1 htail
    have hne (c : Char) : (c != '\n') = true ↔ c ≠ '\n' := bne_iff_ne
    rw [List.cons_append, slashTail, Prod.mk.injEq, List.cons.injEq,
      takeWhile_append_eq_iff hne hall, and_iff_right rfl, and_iff_right rfl]
    exact Iff.rfl
  · rw [slashTail_of_not_begins hcomment] at htail
    cases htail
    have hgoes : (Shape.operator .slash).GoesOn ['/'] rest ↔ Begins (· = '/') rest := by
      simp [Shape.GoesOn, comparisons]
    rw [hgoes, List.nil_append]
    by_cases hrest : Begins (· = '/') rest
    · rcases hrest with ⟨_, more, rfl, rfl⟩
      simp [slashTail]
    · exact iff_of_true (slashTail_of_not_begins hrest) hrest

/-! ## Strings -/

/-- A string that is not closed takes the whole text. -/
theorem stringTail_of_unterminated {text : List Char}
    (hopen : (stringTail text).1 = .unterminated) : stringTail text = (.unterminated, text) := by
  unfold stringTail at hopen ⊢
  cases hstop : text.dropWhile (· != '\x22') with
  | nil => simp only [takeWhile_of_dropWhile_nil hstop]
  | cons quote rest =>
      rw [hstop] at hopen
      cases hopen

/-- A string ends where it did exactly if what follows does not go on with it. -/
theorem stringTail_append_iff {shape : Shape} {body : List Char}
    (htail : stringTail body = (shape, body)) (rest : List Char) :
    stringTail (body ++ rest) = (shape, body) ↔ ¬shape.GoesOn ('\x22' :: body) rest := by
  have hshape : (stringTail body).1 = shape := congrArg Prod.fst htail
  rcases stringTail_shape body with hclosed | hopen
  · rw [stringTail_append_of_string hclosed, htail]
    rw [hshape] at hclosed
    rw [hclosed]
    exact iff_of_true rfl id
  · rw [hshape] at hopen
    subst hopen
    constructor
    · intro happend hrest
      have hall := stringTail_of_unterminated (congrArg Prod.fst happend)
      rw [happend, Prod.mk.injEq] at hall
      exact hrest (List.append_right_eq_self.1 hall.2.symm)
    · intro hrest
      rw [not_ne_iff.1 hrest, List.append_nil, htail]

/-! ## Numbers and words -/

/-- Digits in front of a text are taken with its number. -/
theorem numberTail_append {whole : List Char} (hwhole : ∀ c ∈ whole, isDigit c = true)
    (rest : List Char) : numberTail (whole ++ rest) = whole ++ numberTail rest := by
  rw [numberTail, List.takeWhile_append_of_pos hwhole, List.dropWhile_append_of_pos hwhole,
    List.append_assoc, numberTail]

theorem fraction_eq_nil_iff (text : List Char) : fraction text = [] ↔ ¬BeginsFraction text := by
  constructor
  · rintro hnone ⟨rest, rfl, d, more, rfl, hd⟩
    rw [fraction, if_pos hd.isDigit] at hnone
    cases hnone
  · intro hbegins
    fun_cases fraction text with
    | case1 d more hd => exact (hbegins ⟨_, rfl, d, more, rfl, (isDigit_iff d).1 hd⟩).elim
    | case2 d more hd => rfl
    | case3 => rfl

/-- No number is taken from a text that begins with no digit and with no fraction. -/
theorem numberTail_eq_nil_iff (text : List Char) :
    numberTail text = [] ↔ ¬(Begins Digit text ∨ BeginsFraction text) := by
  rw [numberTail, List.append_eq_nil_iff, takeWhile_eq_nil_iff isDigit_iff, not_or]
  refine and_congr_right fun hdigit => ?_
  have hdrop : text.dropWhile isDigit = text := by
    have hsplit := List.takeWhile_append_dropWhile (p := isDigit) (l := text)
    rwa [(takeWhile_eq_nil_iff isDigit_iff text).2 hdigit] at hsplit
  rw [hdrop, fraction_eq_nil_iff]

/-- Behind a point that has digits all digits are taken. -/
theorem numberTail_point {part : List Char} (hpart : Digits part) (rest : List Char) :
    numberTail ('.' :: (part ++ rest)) = '.' :: (part ++ rest).takeWhile isDigit := by
  rcases hpart with ⟨hne, hpart⟩
  cases part with
  | nil => exact absurd rfl hne
  | cons d more =>
      have hpoint : isDigit '.' = false := rfl
      have hd : isDigit d = true := (hpart d List.mem_cons_self).isDigit
      simp [numberTail, fraction, hpoint, hd]

theorem not_digit_point : ¬Digit '.' := by
  decide

/-- A number ends where it did exactly if what follows does not go on with it. -/
theorem numberTail_append_iff {c : Char} {body : List Char} (hdigit : isDigit c = true)
    (htail : numberTail body = body) (rest : List Char) :
    numberTail (body ++ rest) = body ↔ ¬Shape.number.GoesOn (c :: body) rest := by
  have haccepts := accepts_numberTail hdigit body
  rw [htail] at haccepts
  rcases haccepts with ⟨-, hdigits⟩ | ⟨whole, part, htext, ⟨hne, hwhole⟩, hpart⟩
  · have hpoint : '.' ∉ c :: body := fun hmem => not_digit_point (hdigits _ hmem)
    have hbody : ∀ d ∈ body, isDigit d = true :=
      fun d hd => (hdigits d (List.mem_cons_of_mem c hd)).isDigit
    rw [numberTail_append hbody, List.append_right_eq_self, numberTail_eq_nil_iff,
      Shape.GoesOn, and_iff_right hpoint]
  · cases whole with
    | nil => exact absurd rfl hne
    | cons first whole =>
        rw [List.cons_append, List.cons.injEq] at htext
        rcases htext with ⟨rfl, rfl⟩
        have hall : ∀ d ∈ whole, isDigit d = true :=
          fun d hd => (hwhole d (List.mem_cons_of_mem c hd)).isDigit
        have hdigits : ∀ d ∈ part, isDigit d = true := fun d hd => (hpart.2 d hd).isDigit
        rw [List.append_assoc, List.cons_append, numberTail_append hall, numberTail_point hpart,
          List.append_cancel_left_eq, List.cons.injEq, and_iff_right rfl,
          takeWhile_append_eq_iff isDigit_iff hdigits]
        simp [Shape.GoesOn]
        rfl

/-- A word ends where it did exactly if what follows does not go on with it. -/
theorem wordTail_append_iff {c : Char} {body : List Char} (htail : wordTail body = body)
    (rest : List Char) :
    wordTail (body ++ rest) = body ↔ ¬Shape.word.GoesOn (c :: body) rest := by
  have hall : ∀ d ∈ body, isWordCharacter d = true := List.takeWhile_eq_self_iff.1 htail
  exact takeWhile_append_eq_iff isWordCharacter_iff hall rest

/-! ## All lexemes -/

/-- A lexeme ends before a text exactly if the text does not go on with it. -/
theorem tail_append_iff {shape : Shape} {c : Char} {body : List Char}
    (htail : tail c body = (shape, body)) (rest : List Char) :
    tail c (body ++ rest) = (shape, body) ↔ ¬shape.GoesOn (c :: body) rest := by
  cases opening c with
  | mark hmark =>
      rw [tail_of_mark hmark] at htail ⊢
      cases htail
      exact iff_of_true rfl (not_goesOn_of_mark hmark rest)
  | comparison hcomparison =>
      rw [tail_of_comparison hcomparison] at htail ⊢
      exact comparisonTail_append_iff hcomparison htail rest
  | slash => exact slashTail_append_iff htail rest
  | lineBreak =>
      cases htail
      exact iff_of_true rfl id
  | blank hblank =>
      rw [tail_of_blank hblank] at htail ⊢
      cases htail
      exact iff_of_true rfl id
  | quote => exact stringTail_append_iff htail rest
  | digit hdigit =>
      rw [tail_of_digit hdigit, Prod.mk.injEq] at htail ⊢
      rcases htail with ⟨rfl, htail⟩
      rw [and_iff_right rfl]
      exact numberTail_append_iff hdigit htail rest
  | letter hletter =>
      rw [tail_of_letter hletter, Prod.mk.injEq] at htail ⊢
      rcases htail with ⟨rfl, htail⟩
      rw [and_iff_right rfl]
      exact wordTail_append_iff htail rest
  | unexpected hunexpected =>
      rw [hunexpected] at htail ⊢
      cases htail
      exact iff_of_true rfl id

end Lexeme

namespace Piece

/-- A lexeme with which the text behind it does not go on is a piece of its own. -/
theorem split_of_ends {shape : Lexeme.Shape} {text rest : List Char}
    (haccepts : shape.Accepts text) (hends : ¬shape.GoesOn text rest) :
    split (text ++ rest) = ⟨shape, text⟩ :: split rest := by
  cases text with
  | nil => exact absurd rfl haccepts.ne_nil
  | cons c body =>
      apply split_append
      exact (Lexeme.tail_append_iff (Lexeme.tail_of_accepts haccepts) rest).2 hends

end Piece
end Lox
