import Lox.Lexeme
import Mathlib.Data.List.TakeWhile

/-!
# The tail of a lexeme

The first character of a lexeme opens it: the way on from there depends on that
character alone.  This module names the openings, gives the tail for each of them,
and shows that a tail only grows where the text goes on.

Main results:

- Theorem {lit}`opening`: every character is an opening.
- Theorem {lit}`tail_mono`: the tail in a text is the beginning of the tail in every
  continuation of that text.
- Theorem {lit}`stringTail_append_of_string`: a string that is closed stays as it is where the
  text goes on.
-/

namespace Lox
namespace Lexeme

/-! ## Character classes -/

/-- The digits are the ten of ASCII. -/
theorem isDigit_iff (c : Char) : isDigit c = true ↔ '0' ≤ c ∧ c ≤ '9' := by
  simp only [isDigit, Char.isDigit, Bool.and_eq_true, decide_eq_true_eq]
  exact Iff.rfl

/-- The letters are those of ASCII and the underscore. -/
theorem isLetter_iff (c : Char) :
    isLetter c = true ↔ ('a' ≤ c ∧ c ≤ 'z') ∨ ('A' ≤ c ∧ c ≤ 'Z') ∨ c = '_' := by
  have hupper : c.isUpper = true ↔ 'A' ≤ c ∧ c ≤ 'Z' :=
    decide_eq_true_iff
  have hlower : c.isLower = true ↔ 'a' ≤ c ∧ c ≤ 'z' :=
    Bool.and_eq_true_iff.trans (and_congr decide_eq_true_iff decide_eq_true_iff)
  have halpha : c.isAlpha = (c.isUpper || c.isLower) := rfl
  rw [isLetter, halpha, Bool.or_eq_true, Bool.or_eq_true, hupper, hlower,
    beq_iff_eq, or_assoc, or_left_comm]

/-- A letter is no digit. -/
theorem isDigit_of_isLetter {c : Char} (hletter : isLetter c = true) :
    isDigit c = false := by
  rw [Bool.eq_false_iff]
  intro hdigit
  have hle := ((isDigit_iff c).1 hdigit).2
  rcases (isLetter_iff c).1 hletter with hlower | hupper | rfl
  · exact absurd (Char.le_trans hlower.1 hle) (by decide)
  · exact absurd (Char.le_trans hupper.1 hle) (by decide)
  · exact absurd hle (by decide)

/-! ## Openings -/

/-- The ways in which a character opens a lexeme. -/
inductive Opening : Char → Prop where
  | mark {c : Char} {kind : Token.Kind} (hmark : mark? c = some kind) : Opening c
  | comparison {c : Char} {alone withEqual : Token.Kind}
      (hcomparison : comparison? c = some (alone, withEqual)) : Opening c
  | slash : Opening '/'
  | lineBreak : Opening '\n'
  | blank {c : Char} (hblank : c = ' ' ∨ c = '\r' ∨ c = '\t') : Opening c
  | quote : Opening '\x22'
  | digit {c : Char} (hdigit : isDigit c = true) : Opening c
  | letter {c : Char} (hletter : isLetter c = true) : Opening c
  | unexpected {c : Char} (hunexpected : ∀ rest, tail c rest = (.unexpected, [])) :
      Opening c

/-- Every character is an opening. -/
theorem opening (c : Char) : Opening c := by
  cases hmark : mark? c with
  | some kind => exact .mark hmark
  | none =>
      cases hcomparison : comparison? c with
      | some kinds => exact .comparison hcomparison
      | none =>
          by_cases hslash : c = '/'
          · exact hslash ▸ .slash
          by_cases hbreak : c = '\n'
          · exact hbreak ▸ .lineBreak
          by_cases hblank : c = ' ' ∨ c = '\r' ∨ c = '\t'
          · exact .blank hblank
          by_cases hquote : c = '\x22'
          · exact hquote ▸ .quote
          by_cases hdigit : isDigit c = true
          · exact .digit hdigit
          by_cases hletter : isLetter c = true
          · exact .letter hletter
          refine .unexpected fun rest => ?_
          simp only [tail, hmark, hcomparison]
          rw [if_neg hslash, if_neg hbreak, if_neg hblank, if_neg hquote, if_neg hdigit,
            if_neg hletter]

/-! ## The tail of each opening -/

/-- A mark is an operator of its own. -/
theorem tail_of_mark {c : Char} {kind : Token.Kind} (hmark : mark? c = some kind)
    (rest : List Char) : tail c rest = (.operator kind, []) := by
  simp only [tail, hmark]

/-- No comparison is a mark. -/
theorem mark?_of_comparison? {c : Char} {kinds : Token.Kind × Token.Kind}
    (hcomparison : comparison? c = some kinds) : mark? c = none := by
  unfold comparison? at hcomparison
  split at hcomparison
  all_goals first | rfl | cases hcomparison

/-- A comparison may take an equals sign. -/
theorem tail_of_comparison {c : Char} {alone withEqual : Token.Kind}
    (hcomparison : comparison? c = some (alone, withEqual)) (rest : List Char) :
    tail c rest = comparisonTail alone withEqual rest := by
  simp only [tail, mark?_of_comparison? hcomparison, hcomparison]

@[simp]
theorem tail_quote (rest : List Char) : tail '\x22' rest = stringTail rest :=
  rfl

theorem tail_of_blank {c : Char} (hblank : c = ' ' ∨ c = '\r' ∨ c = '\t')
    (rest : List Char) : tail c rest = (.blank, []) := by
  rcases hblank with rfl | rfl | rfl <;> rfl

/-- A character of a word opens no mark. -/
theorem mark?_of_wordCharacter {c : Char} (hword : isWordCharacter c = true) :
    mark? c = none := by
  have hmarks : ∀ mark ∈ marks, isWordCharacter mark.1 = false := by decide
  rw [mark?, List.lookup_eq_none_iff]
  intro mark hmem
  have hother := hmarks mark hmem
  rw [bne_iff_ne]
  intro heq
  rw [heq, hother] at hword
  cases hword

/-- No character of a word is a comparison. -/
theorem comparison?_of_wordCharacter {c : Char} (hword : isWordCharacter c = true) :
    comparison? c = none := by
  unfold comparison?
  split
  all_goals first | rfl | cases hword

/-- A character of a word opens a number if it is a digit, and a word otherwise. -/
theorem tail_of_wordCharacter {c : Char} (hword : isWordCharacter c = true)
    (rest : List Char) :
    tail c rest =
      if isDigit c then (.number, numberTail rest) else (.word, wordTail rest) := by
  have hne (other : Char) (hother : isWordCharacter other = false) : c ≠ other := by
    intro heq
    rw [heq, hother] at hword
    cases hword
  have hblank : ¬(c = ' ' ∨ c = '\r' ∨ c = '\t') := by
    rintro (heq | heq | heq)
    · exact hne ' ' rfl heq
    · exact hne '\r' rfl heq
    · exact hne '\t' rfl heq
  simp only [tail, mark?_of_wordCharacter hword, comparison?_of_wordCharacter hword]
  rw [if_neg (hne '/' rfl), if_neg (hne '\n' rfl), if_neg hblank,
    if_neg (hne '\x22' rfl)]
  split
  · rfl
  · rename_i hdigit
    have hletter : isLetter c = true := by
      simpa [isWordCharacter, hdigit] using hword
    rw [if_pos hletter]

theorem tail_of_digit {c : Char} (hdigit : isDigit c = true) (rest : List Char) :
    tail c rest = (.number, numberTail rest) := by
  rw [tail_of_wordCharacter (by simp [isWordCharacter, hdigit]), if_pos hdigit]

theorem tail_of_letter {c : Char} (hletter : isLetter c = true) (rest : List Char) :
    tail c rest = (.word, wordTail rest) := by
  rw [tail_of_wordCharacter (by simp [isWordCharacter, hletter]),
    isDigit_of_isLetter hletter, if_neg Bool.false_ne_true]

/-! ## Continuations -/

/-- Where every character is taken, the text is taken as it is. -/
theorem takeWhile_of_dropWhile_nil {p : Char → Bool} {text : List Char}
    (hall : text.dropWhile p = []) : text.takeWhile p = text := by
  have hsplit := List.takeWhile_append_dropWhile (p := p) (l := text)
  rwa [hall, List.append_nil] at hsplit

/-- Where a text has stopped the taking, a continuation changes nothing. -/
theorem takeWhile_append_of_stop {p : Char → Bool} {text : List Char} {c : Char}
    {rest : List Char} (hstop : text.dropWhile p = c :: rest) (more : List Char) :
    (text ++ more).takeWhile p = text.takeWhile p := by
  have hsplit := congrArg List.length
    (List.takeWhile_append_dropWhile (p := p) (l := text))
  rw [hstop, List.length_append, List.length_cons] at hsplit
  rw [List.takeWhile_append, if_neg (by omega)]

/-- What follows a stop is not looked at. -/
theorem dropWhile_append_of_stop {p : Char → Bool} {text : List Char} {c : Char}
    {rest : List Char} (hstop : text.dropWhile p = c :: rest) (more : List Char) :
    (text ++ more).dropWhile p = c :: (rest ++ more) := by
  rw [List.dropWhile_append, hstop]
  rfl

/-- What is taken from the beginning of two equal texts is equal, and so is what follows
it. -/
theorem append_inj_of_takeWhile {p : Char → Bool} {word word' rest rest' : List Char}
    (hword : ∀ c ∈ word, p c = true) (hword' : ∀ c ∈ word', p c = true)
    (hrest : rest.takeWhile p = []) (hrest' : rest'.takeWhile p = [])
    (heq : word ++ rest = word' ++ rest') : word = word' ∧ rest = rest' := by
  have htake := congrArg (List.takeWhile p) heq
  rw [List.takeWhile_append_of_pos hword, List.takeWhile_append_of_pos hword', hrest, hrest',
    List.append_nil, List.append_nil] at htake
  rw [htake] at heq
  exact ⟨htake, List.append_cancel_left heq⟩

/-- The character that stops the taking is not taken. -/
theorem not_of_dropWhile_cons {p : Char → Bool} {text : List Char} {c : Char}
    {rest : List Char} (hstop : text.dropWhile p = c :: rest) : p c = false := by
  have hhead := List.head?_dropWhile_not p text
  rw [hstop] at hhead
  simpa using hhead

/-- What is taken from a text begins what is taken from a continuation of it. -/
theorem takeWhile_mono {p : Char → Bool} {shorter longer : List Char}
    (hbegins : shorter <+: longer) : shorter.takeWhile p <+: longer.takeWhile p := by
  rcases hbegins with ⟨more, rfl⟩
  rw [List.takeWhile_append]
  split
  · exact (List.takeWhile_prefix p).trans (List.prefix_append _ _)
  · exact List.prefix_rfl

/-- A comparison takes no less of a longer text. -/
theorem comparisonTail_mono (alone withEqual : Token.Kind) {shorter longer : List Char}
    (hbegins : shorter <+: longer) :
    (comparisonTail alone withEqual shorter).2 <+:
      (comparisonTail alone withEqual longer).2 := by
  rcases hbegins with ⟨more, rfl⟩
  fun_cases comparisonTail alone withEqual shorter with
  | case1 rest => exact List.prefix_rfl
  | case2 => exact List.nil_prefix

theorem slashTail_mono {shorter longer : List Char} (hbegins : shorter <+: longer) :
    (slashTail shorter).2 <+: (slashTail longer).2 := by
  rcases hbegins with ⟨more, rfl⟩
  fun_cases slashTail shorter with
  | case1 rest =>
      have htake := takeWhile_mono (p := (· != '\n')) (List.prefix_append rest more)
      simpa [slashTail] using htake
  | case2 => exact List.nil_prefix

theorem fraction_mono {shorter longer : List Char} (hbegins : shorter <+: longer) :
    fraction shorter <+: fraction longer := by
  rcases hbegins with ⟨more, rfl⟩
  fun_cases fraction shorter with
  | case1 c rest hdigit =>
      have htake := takeWhile_mono (p := isDigit) (List.prefix_append rest more)
      simpa [fraction, hdigit] using htake
  | case2 => exact List.nil_prefix
  | case3 => exact List.nil_prefix

theorem numberTail_mono {shorter longer : List Char} (hbegins : shorter <+: longer) :
    numberTail shorter <+: numberTail longer := by
  rcases hbegins with ⟨more, rfl⟩
  unfold numberTail
  cases hstop : shorter.dropWhile isDigit with
  | nil =>
      have htake := takeWhile_mono (p := isDigit) (List.prefix_append shorter more)
      simpa [fraction] using htake.trans (List.prefix_append _ _)
  | cons c rest =>
      rw [takeWhile_append_of_stop hstop, dropWhile_append_of_stop hstop]
      exact (List.prefix_append_right_inj _).2
        (fraction_mono (List.prefix_append (c :: rest) more))

/-- A string that is closed stays as it is where the text goes on. -/
theorem stringTail_append_of_string {text : List Char}
    (hclosed : (stringTail text).1 = .string) (more : List Char) :
    stringTail (text ++ more) = stringTail text := by
  unfold stringTail at hclosed ⊢
  cases hstop : text.dropWhile (· != '\x22') with
  | nil =>
      rw [hstop] at hclosed
      cases hclosed
  | cons quote rest =>
      rw [takeWhile_append_of_stop hstop, dropWhile_append_of_stop hstop]

/-- The text of a string begins the one in a longer text, where it may be closed. -/
theorem stringTail_mono {shorter longer : List Char} (hbegins : shorter <+: longer) :
    (stringTail shorter).2 <+: (stringTail longer).2 := by
  rcases hbegins with ⟨more, rfl⟩
  cases hstop : shorter.dropWhile (· != '\x22') with
  | nil =>
      have htake := takeWhile_mono (p := (· != '\x22')) (List.prefix_append shorter more)
      have hopen : (stringTail shorter).2 = shorter.takeWhile (· != '\x22') := by
        simp only [stringTail, hstop]
      rw [hopen]
      refine htake.trans ?_
      unfold stringTail
      split
      · exact List.prefix_rfl
      · exact List.prefix_append _ _
  | cons quote rest =>
      have hclosed : (stringTail shorter).1 = .string := by
        simp only [stringTail, hstop]
      have hsame : stringTail (shorter ++ more) = stringTail shorter :=
        stringTail_append_of_string hclosed more
      exact hsame ▸ List.prefix_rfl

/-- The tail in a text begins the tail in every continuation of that text. -/
theorem tail_mono (c : Char) {shorter longer : List Char}
    (hbegins : shorter <+: longer) : (tail c shorter).2 <+: (tail c longer).2 := by
  cases opening c with
  | mark hmark =>
      rw [tail_of_mark hmark]
      exact List.nil_prefix
  | comparison hcomparison =>
      rw [tail_of_comparison hcomparison, tail_of_comparison hcomparison]
      exact comparisonTail_mono _ _ hbegins
  | slash => exact slashTail_mono hbegins
  | lineBreak => exact List.nil_prefix
  | blank hblank =>
      rw [tail_of_blank hblank]
      exact List.nil_prefix
  | quote => exact stringTail_mono hbegins
  | digit hdigit =>
      rw [tail_of_digit hdigit, tail_of_digit hdigit]
      exact numberTail_mono hbegins
  | letter hletter =>
      rw [tail_of_letter hletter, tail_of_letter hletter]
      exact takeWhile_mono hbegins
  | unexpected hunexpected =>
      rw [hunexpected]
      exact List.nil_prefix

end Lexeme
end Lox
