import Lox.Proofs.Lexeme.Trivia

/-!
# Edits of blanks and comments

Blanks that are put between two pieces of a text leave the pieces before them alone, but for
a comment or an open string in front of them, which takes them in and has no token for them.
So they only move what follows to a later line.  A comment ends with its line, and so the
pieces of a text without its comments are the other pieces of the text.

Main results:

- Theorem {lit}`Piece.found_insert`: the tokens and the faults of a text with blanks put
  between two of its pieces.
- Theorem {lit}`Piece.split_withoutComments`: the pieces of a text without its comments.
-/

namespace Lox
namespace Lexeme

variable {blanks : List Char}

/-! ## Lexemes in front of blanks that are put in -/

/-- Blanks are a separator. -/
theorem separator_of_blanks (hblanks : ∀ c ∈ blanks, Blank c) : Separator blanks := by
  induction blanks with
  | nil => exact .nil
  | cons c more ih =>
      rw [List.forall_mem_cons] at hblanks
      exact .blank hblanks.1 (ih hblanks.2)

/-- A text that begins with a digit where blanks are put in does so without them. -/
theorem begins_digit_of_insert (hblanks : ∀ c ∈ blanks, Blank c) {upper lower : List Char}
    (hbegins : Begins Digit (upper ++ (blanks ++ lower))) : Begins Digit (upper ++ lower) := by
  cases upper with
  | cons c upper => simpa using hbegins
  | nil =>
      cases blanks with
      | nil => exact hbegins
      | cons c more =>
          have hdigit : ¬Shape.number.Takes [] c :=
            not_takes_of_blank (by decide) (by decide) [] (hblanks c List.mem_cons_self)
          rw [List.nil_append, List.cons_append, begins_cons] at hbegins
          exact absurd hbegins hdigit

/-- Blanks that are put in behind a lexeme, or further behind, do not make it go on.  A
comment and an open string take blanks directly behind them. -/
theorem goesOn_of_insert {shape : Shape} {lexeme upper lower : List Char}
    (hblanks : ∀ c ∈ blanks, Blank c)
    (hplace : upper ≠ [] ∨ (shape ≠ .comment ∧ shape ≠ .unterminated))
    (hgoes : shape.GoesOn lexeme (upper ++ (blanks ++ lower))) :
    shape.GoesOn lexeme (upper ++ lower) := by
  cases upper with
  | cons c upper =>
      rw [goesOn_iff, List.cons_append, begins_cons, beginsFraction_cons_iff] at hgoes ⊢
      refine hgoes.imp_right ?_
      rintro ⟨hnumber, hwhole, hpoint, hdigit⟩
      exact ⟨hnumber, hwhole, hpoint, begins_digit_of_insert hblanks hdigit⟩
  | nil =>
      rcases hplace with hnone | ⟨hcomment, hopen⟩
      · exact absurd rfl hnone
      cases blanks with
      | nil => exact hgoes
      | cons c more =>
          have hblank : Begins Blank ((c :: more) ++ lower) :=
            ⟨c, more ++ lower, rfl, hblanks c List.mem_cons_self⟩
          exact absurd hgoes (not_goesOn_of_blank hcomment hopen lexeme hblank)

/-- A string without a quote is open. -/
theorem stringTail_of_not_mem {text : List Char} (hquote : '\x22' ∉ text) :
    stringTail text = (.unterminated, text) := by
  have hall := bne_of_not_mem hquote
  simp [stringTail, List.takeWhile_eq_self_iff.2 hall, List.dropWhile_eq_nil_iff.2 hall]

/-- An open string has no quote. -/
theorem not_mem_of_stringTail {text : List Char}
    (hopen : (stringTail text).1 = .unterminated) : '\x22' ∉ text := by
  unfold stringTail at hopen
  cases hstop : text.dropWhile (· != '\x22') with
  | nil =>
      intro hmem
      simpa using List.dropWhile_eq_nil_iff.1 hstop _ hmem
  | cons quote more =>
      rw [hstop] at hopen
      cases hopen

end Lexeme

namespace Piece

open Lexeme (Blank Begins)

/-! ## Putting blanks in -/

variable {blanks : List Char}

/-- A comment is written behind two slashes, on one line. -/
theorem exists_body_of_comment {c : Char} {rest : List Char}
    (hcomment : (first c rest).shape = .comment) :
    ∃ body, (first c rest).text = '/' :: '/' :: body ∧ '\n' ∉ body ∧
      (first c rest).text.count '\n' = 0 := by
  rcases accepts_of_shape hcomment (by decide) (by decide) with ⟨body, htext, hbody⟩
  refine ⟨body, htext, hbody, ?_⟩
  rw [htext, List.count_eq_zero]
  simpa using hbody

/-- A comment has no token and no fault. -/
theorem found_comment {c : Char} {rest : List Char}
    (hcomment : (first c rest).shape = .comment) (line : Nat) (more : List Piece) :
    tokens line (first c rest :: more) = tokens line more ∧
      faults line (first c rest :: more) = faults line more := by
  have htrivia : (first c rest).shape.IsTrivia := by
    rw [hcomment]
    exact trivial
  rcases exists_body_of_comment hcomment with ⟨-, -, -, hline⟩
  rw [tokens, faults, token?_of_trivia htrivia, fault?_of_trivia htrivia, hline]
  exact ⟨rfl, rfl⟩

/-- The rest of the line on which a text begins, and what follows it. -/
theorem exists_line_append (text : List Char) :
    ∃ near far, text = near ++ far ∧ '\n' ∉ near ∧ ¬Begins (· ≠ '\n') far := by
  refine ⟨text.takeWhile (· != '\n'), text.dropWhile (· != '\n'),
    List.takeWhile_append_dropWhile.symm, ?_, ?_⟩
  · intro hmem
    simpa using List.mem_takeWhile_imp hmem
  · cases hstop : text.dropWhile (· != '\n') with
    | nil => simp
    | cons c more => simpa using Lexeme.not_of_dropWhile_cons hstop

/-- Blanks behind a comment move what follows it to a later line; the comment takes those on
its own line. -/
theorem found_comment_insert {c : Char} {rest : List Char}
    (hcomment : (first c rest).shape = .comment) (hblanks : ∀ d ∈ blanks, Blank d)
    (line : Nat) {lower : List Char} (hlower : ¬Begins (· ≠ '\n') lower) :
    tokens line (split ((first c rest).text ++ (blanks ++ lower))) =
        tokens line [first c rest] ++
          tokens (line + (first c rest).text.count '\n' + blanks.count '\n') (split lower) ∧
      faults line (split ((first c rest).text ++ (blanks ++ lower))) =
        faults line [first c rest] ++
          faults (line + (first c rest).text.count '\n' + blanks.count '\n') (split lower) := by
  rcases exists_body_of_comment hcomment with ⟨body, htext, hbody, hline⟩
  rcases exists_line_append blanks with ⟨near, far, rfl, hnear, hfar⟩
  have hends : ¬Begins (· ≠ '\n') (far ++ lower) := by
    cases far with
    | nil => exact hlower
    | cons d more => simpa using hfar
  have hlonger : '\n' ∉ body ++ near := by
    rw [List.mem_append, not_or]
    exact ⟨hbody, hnear⟩
  have hline' : ('/' :: '/' :: (body ++ near)).count '\n' = 0 := by
    rw [List.count_eq_zero]
    simpa using hlonger
  have hcount : (near ++ far).count '\n' = far.count '\n' := by
    rw [List.count_append, List.count_eq_zero.2 hnear, Nat.zero_add]
  have hseparator := Lexeme.separator_of_blanks fun d hd =>
    hblanks d (List.mem_append_right near hd)
  have hwhole : (first c rest).text ++ (near ++ far ++ lower) =
      '/' :: '/' :: (body ++ near ++ (far ++ lower)) := by
    rw [htext]
    simp
  rcases found_comment hcomment line [] with ⟨htokens, hfaults⟩
  rw [hwhole, split_comment hlonger hends, tokens, faults, htokens, hfaults, hline', hline,
    hcount, Nat.add_zero, hseparator.tokens_append, hseparator.faults_append]
  exact ⟨rfl, rfl⟩

/-- Blanks behind an open string belong to it. -/
theorem found_open_insert {c : Char} {rest : List Char}
    (hopen : (first c rest).shape = .unterminated) (hblanks : ∀ d ∈ blanks, Blank d)
    (line : Nat) :
    tokens line (split ((first c rest).text ++ blanks)) = tokens line [first c rest] ∧
      faults line (split ((first c rest).text ++ blanks)) = faults line [first c rest] := by
  have hquote : c = '\x22' := by
    rcases Lexeme.accepts_tail c rest with haccepts | ⟨hc, -⟩ | ⟨-, htail⟩
    · have hnone : Lexeme.Shape.unterminated.Accepts (c :: (Lexeme.tail c rest).2) :=
        hopen ▸ haccepts
      exact hnone.elim
    · exact hc
    · cases hopen.symm.trans (congrArg Prod.fst (htail rest))
  subst hquote
  have hrest : '\x22' ∉ rest ++ blanks := by
    rw [List.mem_append, not_or]
    refine ⟨Lexeme.not_mem_of_stringTail hopen, fun hmem => ?_⟩
    exact absurd (hblanks _ hmem) (by decide)
  have hlonger : (first '\x22' (rest ++ blanks)).shape = .unterminated :=
    congrArg Prod.fst (Lexeme.stringTail_of_not_mem hrest)
  rw [text_of_unterminated hopen, List.cons_append, split_of_unterminated hlonger]
  simp [tokens, faults, token?, meaning?, fault?, hopen, hlonger]

/-- Blanks directly behind a comment or an open string belong to it as far as it goes. -/
theorem found_insert_behind {c : Char} {rest : List Char} {later : List Piece}
    (hsplit : split ((c :: rest).drop (first c rest).text.length) = later)
    (htakes : (first c rest).shape = .comment ∨ (first c rest).shape = .unterminated)
    (hblanks : ∀ d ∈ blanks, Blank d) (line : Nat) :
    tokens line (split ((first c rest).text ++ (blanks ++ join later))) =
        tokens line [first c rest] ++
          tokens (line + (first c rest).text.count '\n' + blanks.count '\n') later ∧
      faults line (split ((first c rest).text ++ (blanks ++ join later))) =
        faults line [first c rest] ++
          faults (line + (first c rest).text.count '\n' + blanks.count '\n') later := by
  have hends := not_goesOn_first c rest
  have hjoin : join later = (c :: rest).drop (first c rest).text.length := by
    rw [← hsplit, join_split]
  rw [← hjoin] at hends
  have hlater : split (join later) = later := by rw [hjoin, hsplit]
  rcases htakes with hcomment | hopen
  · rw [hcomment] at hends
    have hfound := found_comment_insert hcomment hblanks line hends
    rwa [hlater] at hfound
  · rw [hopen] at hends
    have hnone : join later = [] := not_ne_iff.1 hends
    rw [hnone, split_nil] at hlater
    rw [hnone, ← hlater, List.append_nil]
    simpa [tokens, faults] using found_open_insert hopen hblanks line

/-- Pieces in front of other pieces have text. -/
theorem join_ne_nil {text : List Char} {earlier later : List Piece}
    (hsplit : split text = earlier ++ later) (hne : earlier ≠ []) : join earlier ≠ [] := by
  cases earlier with
  | nil => exact absurd rfl hne
  | cons piece more =>
      have hpos := @length_text_pos text [] (more ++ later) piece hsplit
      rw [join_cons]
      exact List.append_ne_nil_of_left_ne_nil (List.length_pos_iff.1 hpos) _

/-- Blanks that are put between two pieces of a text move what follows them to a later line,
and change nothing else about the tokens and the faults of the text. -/
theorem found_insert {text : List Char} {earlier later : List Piece}
    (hsplit : split text = earlier ++ later) (hblanks : ∀ d ∈ blanks, Blank d) (line : Nat) :
    tokens line (split (join earlier ++ (blanks ++ join later))) =
        tokens line earlier ++
          tokens (line + (join earlier).count '\n' + blanks.count '\n') later ∧
      faults line (split (join earlier ++ (blanks ++ join later))) =
        faults line earlier ++
          faults (line + (join earlier).count '\n' + blanks.count '\n') later := by
  induction earlier generalizing text line with
  | nil =>
      have hseparator := Lexeme.separator_of_blanks hblanks
      rw [List.nil_append] at hsplit
      rw [← hsplit, join_split, join_nil, List.nil_append, hseparator.tokens_append,
        hseparator.faults_append]
      exact ⟨rfl, rfl⟩
  | cons piece earlier ih =>
      cases text with
      | nil => simp at hsplit
      | cons c rest =>
          rw [List.cons_append, split_cons, List.cons.injEq] at hsplit
          rcases hsplit with ⟨rfl, hsplit⟩
          have hrest : (c :: rest).drop (first c rest).text.length =
              join earlier ++ join later := by
            rw [← join_append, ← hsplit, join_split]
          have hfirst := not_goesOn_first c rest
          rw [hrest] at hfirst
          by_cases hplace : earlier ≠ [] ∨
              ((first c rest).shape ≠ .comment ∧ (first c rest).shape ≠ .unterminated)
          · -- The piece stays as it is, and the blanks are put in further behind.
            have hends := mt (Lexeme.goesOn_of_insert hblanks
              (hplace.imp_left (join_ne_nil hsplit))) hfirst
            rcases ih hsplit (line + (first c rest).text.count '\n') with ⟨htokens, hfaults⟩
            rw [join_cons, List.append_assoc, split_first_append hends, tokens, faults,
              htokens, hfaults]
            simp only [tokens, faults, List.append_assoc, List.count_append, Nat.add_assoc,
              and_self]
          · -- The piece is the last one in front of the blanks.
            rw [not_or, not_ne_iff, not_and_or, not_ne_iff, not_ne_iff] at hplace
            rcases hplace with ⟨rfl, htakes⟩
            rw [join_cons, join_nil, List.append_nil]
            exact found_insert_behind hsplit htakes hblanks line

/-! ## Taking comments out -/

/-- The text without its comments.  The line feeds behind them stay. -/
def withoutComments (text : List Char) : List Char :=
  join ((split text).filter (·.shape ≠ .comment))

@[simp]
theorem withoutComments_nil : withoutComments [] = [] := by
  simp [withoutComments]

/-- A comment in front is left out. -/
theorem withoutComments_of_comment {c : Char} {rest : List Char}
    (hcomment : (first c rest).shape = .comment) :
    withoutComments (c :: rest) =
      withoutComments ((c :: rest).drop (first c rest).text.length) := by
  rw [withoutComments, split_cons, List.filter_cons_of_neg (by simp [hcomment])]
  rfl

/-- Every other piece in front is kept. -/
theorem withoutComments_of_ne {c : Char} {rest : List Char}
    (hcomment : (first c rest).shape ≠ .comment) :
    withoutComments (c :: rest) =
      (first c rest).text ++
        withoutComments ((c :: rest).drop (first c rest).text.length) := by
  rw [withoutComments, split_cons, List.filter_cons_of_pos (by simp [hcomment]), join_cons]
  rfl

/-- Behind a comment its line ends. -/
theorem not_begins_of_comment {c : Char} {rest : List Char}
    (hcomment : (first c rest).shape = .comment) :
    ¬Begins (· ≠ '\n') ((c :: rest).drop (first c rest).text.length) := by
  have hends := not_goesOn_first c rest
  rw [hcomment] at hends
  exact hends

/-- A text without its comments begins as the text does, unless it begins with a line
feed. -/
theorem begins_of_withoutComments {p : Char → Prop} (hp : ¬p '\n') {text : List Char}
    (hbegins : Begins p (withoutComments text)) : Begins p text := by
  cases text with
  | nil => simp at hbegins
  | cons c rest =>
      by_cases hcomment : (first c rest).shape = .comment
      · have hends := not_begins_of_comment hcomment
        rw [withoutComments_of_comment hcomment] at hbegins
        cases hdrop : (c :: rest).drop (first c rest).text.length with
        | nil => simp [hdrop] at hbegins
        | cons d more =>
            have hd : d = '\n' := by simpa [hdrop] using hends
            have hbreak : (first '\n' more).shape = .lineBreak := rfl
            have hnone : (first '\n' more).shape ≠ .comment := hbreak ▸ (by decide)
            rw [hdrop, hd, withoutComments_of_ne hnone] at hbegins
            exact absurd ((Lexeme.begins_cons _ _ _).1 hbegins) hp
      · rw [withoutComments_of_ne hcomment] at hbegins
        exact (Lexeme.begins_cons _ _ _).2 ((Lexeme.begins_cons _ _ _).1 hbegins)

/-- A fraction at the beginning of a text without its comments stands in the text. -/
theorem beginsFraction_of_withoutComments {text : List Char}
    (hbegins : Lexeme.BeginsFraction (withoutComments text)) : Lexeme.BeginsFraction text := by
  rcases hbegins with ⟨more, hmore, hdigit⟩
  have hpoint : Begins (· = '.') text := by
    apply begins_of_withoutComments (by decide)
    exact ⟨'.', more, hmore, rfl⟩
  rcases hpoint with ⟨_, rest, rfl, rfl⟩
  have hfirst : first '.' rest = ⟨.operator .dot, ['.']⟩ := by
    rw [first, Lexeme.tail_of_mark (rfl : Lexeme.mark? '.' = some .dot)]
  have hnone : (first '.' rest).shape ≠ .comment := by
    rw [hfirst]
    exact Lexeme.Shape.noConfusion
  rw [withoutComments_of_ne hnone, hfirst] at hmore
  have hrest : withoutComments rest = more := (List.cons.inj hmore).2
  refine ⟨rest, rfl, ?_⟩
  apply begins_of_withoutComments (by decide)
  rwa [hrest]

/-- A lexeme that ends in a text ends there without the comments behind it. -/
theorem not_goesOn_withoutComments {c : Char} {rest : List Char} :
    ¬(first c rest).shape.GoesOn (first c rest).text
      (withoutComments ((c :: rest).drop (first c rest).text.length)) := by
  have hends := not_goesOn_first c rest
  by_cases hopen : (first c rest).shape = .unterminated
  · rw [hopen] at hends ⊢
    rw [not_ne_iff.1 hends, withoutComments_nil]
    exact fun hmore => hmore rfl
  · rw [Lexeme.goesOn_iff] at hends ⊢
    rintro (htakes | ⟨hnumber, hwhole, hfraction⟩)
    · apply hends
      exact Or.inl (begins_of_withoutComments (Lexeme.not_takes_lineFeed hopen _) htakes)
    · apply hends
      exact Or.inr ⟨hnumber, hwhole, beginsFraction_of_withoutComments hfraction⟩

/-- The pieces of a text without its comments are the other pieces of the text. -/
theorem split_withoutComments (text : List Char) :
    split (withoutComments text) = (split text).filter (·.shape ≠ .comment) := by
  induction text using split_induction with
  | nil => simp
  | cons c rest ih =>
      by_cases hcomment : (first c rest).shape = .comment
      · rw [withoutComments_of_comment hcomment, ih, split_cons,
          List.filter_cons_of_neg (by simp [hcomment])]
      · rw [withoutComments_of_ne hcomment, split_first_append not_goesOn_withoutComments, ih,
          split_cons, List.filter_cons_of_pos (by simp [hcomment])]

/-- A text has the tokens, the faults and the lines that it has without its comments. -/
theorem found_withoutComments (text : List Char) (line : Nat) :
    tokens line (split (withoutComments text)) = tokens line (split text) ∧
      faults line (split (withoutComments text)) = faults line (split text) ∧
      (withoutComments text).count '\n' = text.count '\n' := by
  rw [split_withoutComments]
  induction text using split_induction generalizing line with
  | nil => simp
  | cons c rest ih =>
      have hparts := congrArg (List.count '\n') (text_first_append c rest)
      rw [List.count_append] at hparts
      by_cases hcomment : (first c rest).shape = .comment
      · rcases ih line with ⟨htokens, hfaults, hcount⟩
        rcases found_comment hcomment line
          (split ((c :: rest).drop (first c rest).text.length)) with ⟨htokens', hfaults'⟩
        rcases exists_body_of_comment hcomment with ⟨-, -, -, hline⟩
        rw [withoutComments_of_comment hcomment, split_cons,
          List.filter_cons_of_neg (by simp [hcomment]), htokens, hfaults, hcount, htokens',
          hfaults']
        refine ⟨rfl, rfl, ?_⟩
        rw [← hparts, hline, Nat.zero_add]
      · rcases ih (line + (first c rest).text.count '\n') with ⟨htokens, hfaults, hcount⟩
        rw [withoutComments_of_ne hcomment, split_cons,
          List.filter_cons_of_pos (by simp [hcomment]), tokens, faults, htokens, hfaults,
          List.count_append, hcount]
        exact ⟨rfl, rfl, hparts⟩

end Piece
end Lox
