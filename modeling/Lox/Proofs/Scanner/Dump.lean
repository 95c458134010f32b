import Lox.Proofs.Scanner.NumberTokens
import Lox.Proofs.Scanner.Outcome

/-!
# Dumps of scanned tokens

A dump joins the kind, the lexeme and the literal of a token by blanks and escapes nothing, and the
comparison of tokens takes a boolean for a number and not-a-number for no number at all.  So tokens
of any make may be told apart by neither.  Tokens of a scan are told apart by both: their kind and
their lexeme decide the literal, which is never a boolean or not-a-number, and a lexeme ends at the
first blank behind it, or at its closing quote.

Main results:

- Theorem {lit}`Genuine.same_iff`: genuine tokens are the same if they agree in kind, lexeme and
  line.
- Theorem {lit}`Genuine.same_iff_eq`: so the comparison is equality.
- Theorem {lit}`Genuine.dump_eq_iff`: a dump is read in one way.
- Theorem {lit}`Scanned.genuine`: the tokens that a scan adds are genuine.
- Theorem {lit}`dump_faithful`: the dumps and the comparison of scanned tokens.
-/

namespace Lox

open Lexeme (Means)

/-! ## Lexemes in a line -/

namespace Lexeme

theorem not_letter_blank : ¬Letter ' ' := by
  decide

theorem not_digit_blank : ¬Digit ' ' := by
  decide

/-- No blank is in a word. -/
theorem blank_not_mem_of_word {text : List Char} (hword : Shape.word.Accepts text) :
    ' ' ∉ text := by
  rcases hword with ⟨c, rest, rfl, hletter, hrest⟩
  rw [List.mem_cons, not_or]
  constructor
  · rintro rfl
    exact not_letter_blank hletter
  · intro hmem
    rcases hrest ' ' hmem with hletter | hdigit
    · exact not_letter_blank hletter
    · exact not_digit_blank hdigit

/-- No blank is in a number. -/
theorem blank_not_mem_of_number {text : List Char} (hnumber : Shape.number.Accepts text) :
    ' ' ∉ text := by
  rcases Numeral.exists_pointed_of_number hnumber with ⟨whole, part, rfl, hwhole, hpart⟩
  intro hmem
  rcases Numeral.plain_pointed hwhole.2 hpart ' ' hmem with hdigit | hpoint
  · exact not_digit_blank hdigit
  · exact absurd hpoint (by decide)

/-- The lexeme of a token is a string in quotes, or holds no blank. -/
theorem Means.quoted_or_blank_not_mem {text : List Char} {kind : Token.Kind} {literal : Value}
    (hmeans : Means text kind literal) :
    (kind = .string ∧ Shape.string.Accepts text) ∨ (kind ≠ .string ∧ ' ' ∉ text) := by
  cases hmeans with
  | operator hoperator =>
      have hall : ∀ operator ∈ operators, operator.2 ≠ .string ∧ ' ' ∉ operator.1 := by decide
      exact .inr (hall _ hoperator)
  | @string body hbody => exact .inl ⟨rfl, body, rfl, hbody⟩
  | number hnumber hread => exact .inr ⟨by decide, blank_not_mem_of_number hnumber⟩
  | keyword keyword =>
      exact .inr ⟨Token.Kind.noConfusion, blank_not_mem_of_word (accepts_keyword keyword)⟩
  | name hword hfree => exact .inr ⟨by decide, blank_not_mem_of_word hword⟩

/-- A lexeme means neither a boolean nor not-a-number. -/
theorem Means.literal_ne {text : List Char} {kind : Token.Kind} {literal : Value}
    (hmeans : Means text kind literal) :
    (∀ value, literal ≠ .boolean value) ∧ literal ≠ .number .nan := by
  cases hmeans with
  | number hnumber hread =>
      rcases (Means.number hnumber hread).exists_rounds with ⟨w, x, -, -, -, hliteral, hrounds⟩
      rw [hliteral]
      refine ⟨fun value => Value.noConfusion, ?_⟩
      rw [ne_eq, Value.number.injEq]
      exact hrounds.ne_nan
  | _ => exact ⟨fun value => Value.noConfusion, Value.noConfusion⟩

/-- A string in quotes ends at its second quote. -/
theorem append_inj_of_string {text text' rest rest' : List Char}
    (hstring : Shape.string.Accepts text) (hstring' : Shape.string.Accepts text')
    (heq : text ++ rest = text' ++ rest') : text = text' := by
  rcases hstring with ⟨body, rfl, hbody⟩
  rcases hstring' with ⟨body', rfl, hbody'⟩
  have hquoted : body ++ '\x22' :: rest = body' ++ '\x22' :: rest' := by
    simpa using heq
  rw [(append_inj_of_stop hbody hbody' hquoted).1]

end Lexeme

/-! ## Literals and kinds -/

/-- Not-a-number alone may differ loosely from itself. -/
theorem Value.looselyEqual_self {v : Value} (hv : v ≠ .number .nan) :
    v.looselyEqual v = true := by
  cases v with
  | nil => rfl
  | boolean b => cases b <;> decide
  | number x =>
      have hx : x ≠ .nan := fun hnan => hv (congrArg number hnan)
      simp only [looselyEqual, asNumber?, Binary64.equal_self, decide_eq_true_iff]
      exact hx
  | string s => simp [looselyEqual, asNumber?, equal]

/-- No blank is in the name of a kind. -/
theorem Token.Kind.blank_not_mem_name (kind : Kind) : ' ' ∉ kind.name.toList := by
  have hall : ∀ kind ∈ all, ' ' ∉ kind.name.toList := by decide
  exact hall kind (mem_all kind)

namespace Token

/-! ## Genuine tokens -/

/-- The token means what its lexeme stands for, or it ends a text. -/
inductive Genuine : Token → Prop where
  | lexeme {token : Token} (hmeans : Means token.lexeme.toList token.kind token.literal) :
      Genuine token
  | endOfText (line : Nat) : Genuine ⟨.endOfText, "", .nil, line⟩

section

variable {a b : Token}

/-- The literal is nil, a string or a number that is equal to itself. -/
theorem Genuine.literal_ne (ha : a.Genuine) :
    (∀ value, a.literal ≠ .boolean value) ∧ a.literal ≠ .number .nan := by
  cases ha with
  | lexeme hmeans => exact hmeans.literal_ne
  | endOfText line => exact ⟨fun value => Value.noConfusion, Value.noConfusion⟩

/-- Of two tokens of one kind both have a meaning, or both end a text. -/
theorem Genuine.means_or_eq (ha : a.Genuine) (hb : b.Genuine) (hkind : a.kind = b.kind) :
    (Means a.lexeme.toList a.kind a.literal ∧ Means b.lexeme.toList b.kind b.literal) ∨
      (a.lexeme = b.lexeme ∧ a.literal = b.literal) := by
  cases ha with
  | lexeme hmeans =>
      cases hb with
      | lexeme hmeans' => exact .inl ⟨hmeans, hmeans'⟩
      | endOfText line => exact absurd hkind hmeans.kind_ne_endOfText
  | endOfText line =>
      cases hb with
      | lexeme hmeans' => exact absurd hkind.symm hmeans'.kind_ne_endOfText
      | endOfText line' => exact .inr ⟨rfl, rfl⟩

/-- The kind and the lexeme decide the literal. -/
theorem Genuine.literal_eq (ha : a.Genuine) (hb : b.Genuine) (hkind : a.kind = b.kind)
    (hlexeme : a.lexeme = b.lexeme) : a.literal = b.literal := by
  rcases ha.means_or_eq hb hkind with ⟨hmeans, hmeans'⟩ | ⟨-, hliteral⟩
  · rw [hlexeme] at hmeans
    exact (Lexeme.means_unique hmeans hmeans').2
  · exact hliteral

/-! ## Comparison -/

/-- Genuine tokens are the same if they agree in kind, lexeme and line. -/
theorem Genuine.same_iff (ha : a.Genuine) (hb : b.Genuine) :
    a.same b = true ↔ a.kind = b.kind ∧ a.lexeme = b.lexeme ∧ a.line = b.line := by
  simp only [same, Bool.and_eq_true, decide_eq_true_iff, beq_iff_eq]
  constructor
  · rintro ⟨⟨⟨hkind, hlexeme⟩, -⟩, hline⟩
    exact ⟨hkind, hlexeme, hline⟩
  · rintro ⟨hkind, hlexeme, hline⟩
    refine ⟨⟨⟨hkind, hlexeme⟩, ?_⟩, hline⟩
    rw [← ha.literal_eq hb hkind hlexeme]
    exact Value.looselyEqual_self ha.literal_ne.2

/-- The comparison of genuine tokens is equality. -/
theorem Genuine.same_iff_eq (ha : a.Genuine) (hb : b.Genuine) : a.same b = true ↔ a = b := by
  rw [ha.same_iff hb]
  constructor
  · rintro ⟨hkind, hlexeme, hline⟩
    have hliteral := ha.literal_eq hb hkind hlexeme
    cases a
    cases b
    cases hkind
    cases hlexeme
    cases hliteral
    cases hline
    rfl
  · rintro rfl
    exact ⟨rfl, rfl, rfl⟩

/-! ## Dumps -/

/-- A dump is the name of the kind, the lexeme and the literal, with a blank between two of them. -/
theorem toList_dump (token : Token) :
    token.dump.toList = token.kind.name.toList ++
      ' ' :: (token.lexeme.toList ++ ' ' :: (token.literal.spell .dump).toList) := by
  simp [dump]

/-- Behind the kind, a dump is read in one way. -/
theorem Genuine.lexeme_eq (ha : a.Genuine) (hb : b.Genuine) (hkind : a.kind = b.kind)
    {rest rest' : List Char}
    (heq : a.lexeme.toList ++ ' ' :: rest = b.lexeme.toList ++ ' ' :: rest') :
    a.lexeme = b.lexeme := by
  rcases ha.means_or_eq hb hkind with ⟨hmeans, hmeans'⟩ | ⟨hlexeme, -⟩
  · rw [← String.toList_inj]
    rw [hkind] at hmeans
    -- The kind tells whether the lexeme goes to its closing quote or to the blank behind it.
    rcases hmeans.quoted_or_blank_not_mem with ⟨hstring, hquoted⟩ | ⟨hother, hblank⟩
    · rcases hmeans'.quoted_or_blank_not_mem with ⟨-, hquoted'⟩ | ⟨hother, -⟩
      · exact Lexeme.append_inj_of_string hquoted hquoted' heq
      · exact absurd hstring hother
    · rcases hmeans'.quoted_or_blank_not_mem with ⟨hstring, -⟩ | ⟨-, hblank'⟩
      · exact absurd hstring hother
      · exact (Lexeme.append_inj_of_stop hblank hblank' heq).1
  · exact hlexeme

/-- The dump of a genuine token decides all of it but its line. -/
theorem Genuine.dump_eq_iff (ha : a.Genuine) (hb : b.Genuine) :
    a.dump = b.dump ↔ a.kind = b.kind ∧ a.lexeme = b.lexeme ∧ a.literal = b.literal := by
  constructor
  · intro hdump
    have htext := congrArg String.toList hdump
    rw [toList_dump, toList_dump] at htext
    rcases Lexeme.append_inj_of_stop a.kind.blank_not_mem_name b.kind.blank_not_mem_name htext with
      ⟨hname, hfields⟩
    have hkind := Kind.name_injective (String.toList_inj.1 hname)
    have hlexeme := ha.lexeme_eq hb hkind hfields
    exact ⟨hkind, hlexeme, ha.literal_eq hb hkind hlexeme⟩
  · rintro ⟨hkind, hlexeme, hliteral⟩
    rw [dump, dump, hkind, hlexeme, hliteral]

end

end Token

namespace Scanner

open Token (Genuine)

/-! ## Scanned tokens -/

/-- The token is one that a scan adds to those that its scanner has. -/
def Scanned (token : Token) : Prop :=
  ∃ (s last : Scanner) (found : List Token), scanTokens s = .ok last.tokens last ∧
    last.tokens.toList = s.tokens.toList ++ found ∧ token ∈ found

/-- The tokens that a scan adds are genuine. -/
theorem Scanned.genuine {token : Token} (hscanned : Scanned token) : token.Genuine := by
  rcases hscanned with ⟨s, last, found, hscan, htokens, hmem⟩
  rcases exists_tokenStream s with ⟨stream, hstream, hlaps⟩
  rw [scanTokens_eq, EStateM.Result.ok.injEq] at hscan
  rcases hscan with ⟨-, rfl⟩
  rw [tokens_addEnd, hlaps, List.append_assoc] at htokens
  rw [← List.append_cancel_left htokens, List.mem_append, List.mem_singleton] at hmem
  rcases hmem with hmem | rfl
  · exact .lexeme (hstream.means token hmem)
  · exact .endOfText _

/-- All tokens of a source are scanned. -/
theorem scanned_of_mem_scan {source : String} {token : Token} (hmem : token ∈ (scan source).1) :
    Scanned token := by
  rcases exists_scanTokens_eq_scan source with ⟨last, hscan, hresult⟩
  rw [hresult, ← Array.mem_toList_iff] at hmem
  exact ⟨ofSource source, last, last.tokens.toList, hscan, rfl, hmem⟩

/-- Scanned tokens, of one source or of several, are the same exactly if they are on one line and
have one dump, and exactly if they agree in kind, lexeme and line.  The dump decides the kind, the
lexeme and the literal.  So the comparison of scanned tokens is reflexive, symmetric and
transitive, and tokens that are the same have the same literal, which is no boolean. -/
theorem dump_faithful {a b : Token} (ha : Scanned a) (hb : Scanned b) :
    (a.same b = true ↔ a.line = b.line ∧ a.dump = b.dump) ∧
      (a.same b = true ↔ a.kind = b.kind ∧ a.lexeme = b.lexeme ∧ a.line = b.line) ∧
      (a.dump = b.dump ↔ a.kind = b.kind ∧ a.lexeme = b.lexeme ∧ a.literal = b.literal) ∧
      a.same a = true ∧ (a.same b = true → b.same a = true) ∧
      (∀ c, a.same b = true → b.same c = true → a.same c = true) ∧
      (a.same b = true → a.literal = b.literal) ∧ ∀ value, a.literal ≠ .boolean value := by
  have hsame := ha.genuine.same_iff hb.genuine
  have hdump := ha.genuine.dump_eq_iff hb.genuine
  refine ⟨?_, hsame, hdump, ?_, ?_, ?_, ?_, ha.genuine.literal_ne.1⟩
  · rw [hsame, hdump]
    constructor
    · rintro ⟨hkind, hlexeme, hline⟩
      exact ⟨hline, hkind, hlexeme, ha.genuine.literal_eq hb.genuine hkind hlexeme⟩
    · rintro ⟨hline, hkind, hlexeme, -⟩
      exact ⟨hkind, hlexeme, hline⟩
  · exact (ha.genuine.same_iff_eq ha.genuine).2 rfl
  · rw [a.same_comm]
    exact id
  · intro c
    rw [ha.genuine.same_iff_eq hb.genuine]
    rintro rfl
    exact id
  · rw [ha.genuine.same_iff_eq hb.genuine]
    rintro rfl
    rfl

/-- Numbers of one value and different lexemes have different dumps, also on one line. -/
theorem dump_faithful_point :
    Scanned ⟨.number, "1", .number .one, 1⟩ ∧ Scanned ⟨.number, "1.0", .number .one, 1⟩ ∧
      (Token.mk .number "1" (.number .one) 1).dump ≠
        (Token.mk .number "1.0" (.number .one) 1).dump ∧
      (Token.mk .number "1" (.number .one) 1).same ⟨.number, "1.0", .number .one, 1⟩ ≠ true := by
  have ha : Scanned ⟨.number, "1", .number .one, 1⟩ :=
    @scanned_of_mem_scan "1" _ (by decide +kernel)
  have hb : Scanned ⟨.number, "1.0", .number .one, 1⟩ :=
    @scanned_of_mem_scan "x = 1.0" _ (by decide +kernel)
  obtain ⟨hline, hlexeme, -⟩ := dump_faithful ha hb
  have hother : ("1" : String) ≠ "1.0" := by decide
  have hsame : ¬(Token.mk .number "1" (.number .one) 1).same
      ⟨.number, "1.0", .number .one, 1⟩ = true := fun hsame => hother (hlexeme.1 hsame).2.1
  exact ⟨ha, hb, fun hdump => hsame (hline.2 ⟨rfl, hdump⟩), hsame⟩

/-- Tokens that no scan adds may be taken for others, differ from themselves, or share a dump. -/
example :
    (Token.mk .number "1" (.boolean true) 1).same ⟨.number, "1", .number .one, 1⟩ = true ∧
      (Token.mk .number "1" (.number .nan) 1).same ⟨.number, "1", .number .nan, 1⟩ = false ∧
      (Token.mk .identifier "a b" .nil 1).dump =
        (Token.mk .identifier "a" (.string "b None") 1).dump := by
  decide +kernel

end Scanner
end Lox
