import Lox.Proofs.Lexeme.Significant
import Lox.Proofs.Scanner.History
import Lox.Proofs.Scanner.Places

/-!
# Calls that fail

A call on a scanner fails in two ways only.  An advance, and a scan of a lexeme, which begins
with one, fail for want of text at the end of the source and past it; the scanner is then one
place further.  The reading of a number fails if the text from the start of the lexeme to the
end of the digits is no numeral; the scanner then stands behind these digits.  Apart from its
place a call that fails leaves the scanner as it was.

Main results:

- Theorem {lit}`outcome`: what a call comes to.
- Theorem {lit}`performAll_call_fails_iff`: which calls fail after a history of calls, and what
  they leave behind.
-/

namespace Lox
namespace Scanner

/-! ## What a call that fails reads and leaves behind -/

/-- A call reads a text as a number: the text from the start of the lexeme to the last place
of the digits that follow, with a point and the digits behind it where there are some. -/
inductive Reads (s : Scanner) : Call → List Char → Nat → Prop where
  | number {rest : List Char}
      (hrest : Lexeme.LongestRest (s.source.drop s.current) rest) :
      Reads s .number ((s.source.take (s.current + rest.length)).drop s.start)
        (s.current + rest.length)
  | scanToken {c : Char} {rest : List Char} (hplace : s.source[s.current]? = some c)
      (hdigit : Lexeme.Digit c)
      (hrest : Lexeme.LongestRest (s.source.drop (s.current + 1)) rest) :
      Reads s .scanToken ((s.source.take (s.current + 1 + rest.length)).drop s.start)
        (s.current + 1 + rest.length)

/-- The scanner has gone to a place and is otherwise as it was. -/
structure MovesTo (s : Scanner) (place : Nat) (next : Scanner) : Prop where
  source_eq : next.source = s.source
  start_eq : next.start = s.start
  current_eq : next.current = place
  line_eq : next.line = s.line
  tokens_eq : next.tokens = s.tokens
  faults_eq : next.faults = s.faults

theorem movesTo_widen (s : Scanner) : MovesTo s (s.current + 1) s.widen :=
  ⟨rfl, rfl, rfl, rfl, rfl, rfl⟩

/-- A piece without a line feed moves the scanner on by its length. -/
theorem movesTo_consume {piece : List Char} (hbreak : piece.count '\n' = 0) (s : Scanner) :
    MovesTo s (s.current + piece.length) (s.consume piece) := by
  refine ⟨rfl, rfl, s.current_consume piece, ?_, rfl, rfl⟩
  simp [consume, hbreak]

theorem MovesTo.trans {s next last : Scanner} {place final : Nat}
    (hnext : MovesTo s place next) (hlast : MovesTo next final last) : MovesTo s final last where
  source_eq := hlast.source_eq.trans hnext.source_eq
  start_eq := hlast.start_eq.trans hnext.start_eq
  current_eq := hlast.current_eq
  line_eq := hlast.line_eq.trans hnext.line_eq
  tokens_eq := hlast.tokens_eq.trans hnext.tokens_eq
  faults_eq := hlast.faults_eq.trans hnext.faults_eq

/-- A call reads one text as a number. -/
theorem Reads.unique {s : Scanner} {c : Call} {text text' : List Char} {last last' : Nat}
    (hreads : Reads s c text last) (hreads' : Reads s c text' last') :
    text = text' ∧ last = last' := by
  cases hreads with
  | number hrest =>
      cases hreads' with
      | number hrest' =>
          rw [(Lexeme.longestRest_iff _ _).1 hrest, (Lexeme.longestRest_iff _ _).1 hrest']
          exact ⟨rfl, rfl⟩
  | scanToken hplace hdigit hrest =>
      cases hreads' with
      | scanToken hplace' hdigit' hrest' =>
          rw [(Lexeme.longestRest_iff _ _).1 hrest, (Lexeme.longestRest_iff _ _).1 hrest']
          exact ⟨rfl, rfl⟩

/-- A scan that reads a number has a digit to begin with. -/
theorem Reads.rest_ne_nil {s : Scanner} {c : Call} {text : List Char} {last : Nat}
    (hreads : Reads s c text last) (hcall : c = .advance ∨ c = .scanToken) : s.rest ≠ [] := by
  intro hrest
  cases hreads with
  | number => simp at hcall
  | scanToken hplace => simp [getElem?_current, peek?, hrest] at hplace

/-! ## Steps that fail -/

/-- The scanner behind the digits that are next. -/
def behindNumber (s : Scanner) : Scanner :=
  s.consume (Lexeme.numberTail s.rest)

/-- The digits that are next move the scanner behind them. -/
theorem movesTo_behindNumber (s : Scanner) :
    MovesTo s (s.current + (Lexeme.numberTail s.rest).length) s.behindNumber :=
  movesTo_consume (Lexeme.numberRest_numberTail s.rest).count_lineFeed s

/-- The text that is read as a number is the lexeme behind its digits. -/
theorem lexeme_behindNumber (s : Scanner) :
    s.behindNumber.lexeme =
      (s.source.take (s.current + (Lexeme.numberTail s.rest).length)).drop s.start := by
  rw [← drop_take_source, s.movesTo_behindNumber.current_eq]
  rfl

/-- The rest of a number is passed first, and then the lexeme is read. -/
theorem number_eq (s : Scanner) :
    number s =
      match Numeral.read? s.behindNumber.lexeme with
      | some x => .ok () (s.behindNumber.addToken .number (.number x))
      | none =>
        .error (.malformedNumeral (String.ofList s.behindNumber.lexeme)) s.behindNumber :=
  rfl

/-- The rest of a number is read together with the lexeme in front of it. -/
theorem reads_number (s : Scanner) :
    Reads s .number s.behindNumber.lexeme
      (s.current + (Lexeme.numberTail s.rest).length) := by
  rw [lexeme_behindNumber]
  apply Reads.number
  rw [Lexeme.longestRest_iff, rest_eq_drop_current]

/-- Only a number can be malformed. -/
theorem exists_emit {shape : Lexeme.Shape} (hnumber : shape ≠ .number) (line : Nat)
    (s : Scanner) : ∃ next, emit shape line s = .ok () next := by
  cases shape with
  | number => exact absurd rfl hnumber
  | _ => exact ⟨_, rfl⟩

/-- A lexeme that begins with a digit is scanned by the rest of its number. -/
theorem scanToken_of_digit {s : Scanner} {c : Char} {more : List Char}
    (hrest : s.rest = c :: more) (hdigit : Lexeme.isDigit c = true) :
    scanToken s = number s.widen := by
  rw [scanToken_of_cons hrest, Lexeme.tail_of_digit hdigit, number, rest_widen, hrest,
    List.tail_cons]

/-- A scan that begins with a digit reads the number from the start of the lexeme on. -/
theorem reads_scanToken {s : Scanner} {c : Char} {more : List Char}
    (hrest : s.rest = c :: more) (hdigit : Lexeme.isDigit c = true) :
    Reads s .scanToken s.widen.behindNumber.lexeme
      (s.current + 1 + (Lexeme.numberTail s.widen.rest).length) := by
  have hplace : s.source[s.current]? = some c := by
    rw [getElem?_current, peek?, hrest, List.head?_cons]
  rw [lexeme_behindNumber]
  apply Reads.scanToken hplace ((Lexeme.isDigit_iff c).1 hdigit)
  rw [Lexeme.longestRest_iff, rest_eq_drop_current]
  rfl

/-! ## Calls -/

/-- What a call comes to: an answer, where neither text is wanting nor a malformed numeral is
read, or one of two failures. -/
inductive Outcome (s : Scanner) (c : Call) : Except ScanError Answer × Scanner → Prop where
  | answer {answer : Answer} {next : Scanner}
      (hrest : c = .advance ∨ c = .scanToken → s.rest ≠ [])
      (hread : ∀ text last, Reads s c text last → Numeral.read? text ≠ none) :
      Outcome s c (.ok answer, next)
  | pastEnd {next : Scanner} (hcall : c = .advance ∨ c = .scanToken) (hrest : s.rest = [])
      (hmoves : MovesTo s (s.current + 1) next) : Outcome s c (.error .pastEnd, next)
  | malformed {text : List Char} {last : Nat} {next : Scanner} (hreads : Reads s c text last)
      (hread : Numeral.read? text = none) (hmoves : MovesTo s last next) :
      Outcome s c (.error (.malformedNumeral (String.ofList text)), next)

section

variable {α : Type} {s next : Scanner} {c : Call} {step : ScanM α} (answer : α → Answer)

/-- A call answers with what is made of the answer of its step. -/
theorem call_of_step_ok {a : α} (hcall : perform c = step >>= fun a => pure (answer a))
    (hstep : step s = .ok a next) : s.call c = (.ok (answer a), next) := by
  rw [call, hcall]
  simp [bind, EStateM.bind, hstep, pure, EStateM.pure]

/-- A call fails where its step does. -/
theorem call_of_step_error {error : ScanError}
    (hcall : perform c = step >>= fun a => pure (answer a))
    (hstep : step s = .error error next) : s.call c = (.error error, next) := by
  rw [call, hcall]
  simp [bind, EStateM.bind, hstep]

end

/-- A call that neither advances nor reads a number has an answer. -/
theorem exists_answer {c : Call} (hadvance : c ≠ .advance) (hnumber : c ≠ .number)
    (hscan : c ≠ .scanToken) (s : Scanner) :
    ∃ answer next, s.call c = (.ok answer, next) := by
  cases c with
  | advance => exact absurd rfl hadvance
  | number => exact absurd rfl hnumber
  | scanToken => exact absurd rfl hscan
  | accept expected =>
      have hstep : ∃ flag next, accept expected s = .ok flag next := by
        unfold accept
        split
        · exact ⟨true, _, rfl⟩
        · exact ⟨false, _, rfl⟩
      rcases hstep with ⟨flag, next, hstep⟩
      exact ⟨.flag flag, next, call_of_step_ok .flag rfl hstep⟩
  | string =>
      have hshape : (Lexeme.stringTail s.rest).1 ≠ .number := by
        rcases Lexeme.stringTail_shape s.rest with hshape | hshape <;> simp [hshape]
      rcases exists_emit hshape s.line (s.consume (Lexeme.stringTail s.rest).2) with
        ⟨next, hemit⟩
      have hstep : string s = .ok () next := hemit
      exact ⟨.done, next, call_of_step_ok (fun _ => .done) rfl hstep⟩
  | scanTokens => exact ⟨.tokens _, _, call_of_step_ok .tokens rfl (scanTokens_eq s)⟩
  | _ => exact ⟨_, _, rfl⟩

/-- A call that goes on over a number reads it there, or fails. -/
theorem outcome_of_number {s t : Scanner} {c : Call} {step : ScanM Unit} {last : Nat}
    (hcall : perform c = step >>= fun _ => pure .done) (hstep : step s = number t)
    (hrest : c = .advance ∨ c = .scanToken → s.rest ≠ [])
    (hreads : Reads s c t.behindNumber.lexeme last) (hmoves : MovesTo s last t.behindNumber) :
    Outcome s c (s.call c) := by
  rw [number_eq] at hstep
  cases hread : Numeral.read? t.behindNumber.lexeme with
  | none =>
      rw [hread] at hstep
      rw [call_of_step_error _ hcall hstep]
      exact .malformed hreads hread hmoves
  | some x =>
      rw [hread] at hstep
      rw [call_of_step_ok _ hcall hstep]
      refine .answer hrest ?_
      intro text last' hreads'
      rw [← (hreads.unique hreads').1, hread]
      exact Option.some_ne_none x

/-- An advance fails for want of text, and never otherwise. -/
theorem outcome_advance (s : Scanner) : Outcome s .advance (s.call .advance) := by
  cases hrest : s.rest with
  | nil =>
      have hstep : advance s = .error .pastEnd s.widen := by simp [advance, peek?, hrest]
      have hcall : s.call .advance = (.error .pastEnd, s.widen) :=
        call_of_step_error (fun c => .character (some c)) rfl hstep
      rw [hcall]
      exact .pastEnd (Or.inl rfl) hrest s.movesTo_widen
  | cons c more =>
      have hstep : advance s = .ok c s.widen := by simp [advance, peek?, hrest]
      have hcall : s.call .advance = (.ok (.character (some c)), s.widen) :=
        call_of_step_ok (fun c => .character (some c)) rfl hstep
      rw [hcall]
      refine .answer (by simp [hrest]) ?_
      intro text last hreads
      cases hreads

/-- A scan of a lexeme fails for want of text, or where its number is malformed. -/
theorem outcome_scanToken (s : Scanner) : Outcome s .scanToken (s.call .scanToken) := by
  cases hrest : s.rest with
  | nil =>
      have hcall : s.call .scanToken = (.error .pastEnd, s.widen) :=
        call_of_step_error (fun _ => .done) rfl (scanToken_of_nil hrest)
      rw [hcall]
      exact .pastEnd (Or.inr rfl) hrest s.movesTo_widen
  | cons c more =>
      by_cases hdigit : Lexeme.isDigit c = true
      · have hmoves := s.movesTo_widen.trans s.widen.movesTo_behindNumber
        exact outcome_of_number rfl (scanToken_of_digit hrest hdigit) (by simp [hrest])
          (reads_scanToken hrest hdigit) hmoves
      · have hshape : (Lexeme.tail c more).1 ≠ .number :=
          fun hnumber => hdigit (Lexeme.isDigit_of_tail hnumber)
        rcases exists_emit hshape s.widen.line (s.widen.consume (Lexeme.tail c more).2) with
          ⟨next, hemit⟩
        have hstep : scanToken s = .ok () next := (scanToken_of_cons hrest).trans hemit
        have hcall : s.call .scanToken = (.ok .done, next) :=
          call_of_step_ok (fun _ => .done) rfl hstep
        rw [hcall]
        refine .answer (by simp [hrest]) ?_
        intro text last hreads
        cases hreads with
        | scanToken hplace hd =>
            rw [getElem?_current, peek?, hrest, List.head?_cons, Option.some.injEq] at hplace
            exact absurd (hplace ▸ hd.isDigit) hdigit

/-- What a call comes to. -/
theorem outcome (s : Scanner) (c : Call) : Outcome s c (s.call c) := by
  by_cases hadvance : c = .advance
  · exact hadvance ▸ s.outcome_advance
  by_cases hnumber : c = .number
  · rw [hnumber]
    exact outcome_of_number rfl rfl (by simp) s.reads_number s.movesTo_behindNumber
  by_cases hscan : c = .scanToken
  · exact hscan ▸ s.outcome_scanToken
  rcases exists_answer hadvance hnumber hscan s with ⟨answer, next, hcall⟩
  rw [hcall]
  refine .answer (by simp [hadvance, hscan]) ?_
  intro text last hreads
  cases hreads with
  | number => exact absurd rfl hnumber
  | scanToken => exact absurd rfl hscan

/-! ## Which calls fail -/

/-- Calls fail for want of text where they begin with an advance and no text is left. -/
theorem call_pastEnd_iff (s : Scanner) (c : Call) :
    (s.call c).1 = .error .pastEnd ↔ (c = .advance ∨ c = .scanToken) ∧ s.rest = [] := by
  have houtcome := s.outcome c
  generalize s.call c = result at houtcome ⊢
  cases houtcome with
  | answer hrest hread =>
      refine iff_of_false nofun ?_
      rintro ⟨hcall, hnil⟩
      exact hrest hcall hnil
  | pastEnd hcall hrest hmoves => exact iff_of_true rfl ⟨hcall, hrest⟩
  | malformed hreads hread hmoves =>
      refine iff_of_false nofun ?_
      rintro ⟨hcall, hnil⟩
      exact hreads.rest_ne_nil hcall hnil

/-- Calls fail for a malformed numeral where they read a text as a number that is none. -/
theorem call_malformed_iff (s : Scanner) (c : Call) (text : List Char) :
    (s.call c).1 = .error (.malformedNumeral (String.ofList text)) ↔
      Numeral.read? text = none ∧ ∃ last, Reads s c text last := by
  have houtcome := s.outcome c
  generalize s.call c = result at houtcome ⊢
  cases houtcome with
  | answer hrest hread =>
      refine iff_of_false nofun ?_
      rintro ⟨hnone, last, hreads⟩
      exact hread text last hreads hnone
  | pastEnd hcall hrest hmoves =>
      refine iff_of_false nofun ?_
      rintro ⟨-, last, hreads⟩
      exact hreads.rest_ne_nil hcall hrest
  | malformed hreads hread hmoves =>
      rename_i other last next
      constructor
      · intro hsame
        rw [Except.error.injEq, ScanError.malformedNumeral.injEq, String.ofList_inj] at hsame
        subst hsame
        exact ⟨hread, last, hreads⟩
      · rintro ⟨-, last', hreads'⟩
        rw [(hreads.unique hreads').1]

/-- A call that fails for want of text has gone one place on. -/
theorem movesTo_of_pastEnd {s : Scanner} {c : Call}
    (hfails : (s.call c).1 = .error .pastEnd) : MovesTo s (s.current + 1) (s.call c).2 := by
  have houtcome := s.outcome c
  generalize s.call c = result at houtcome hfails ⊢
  cases houtcome with
  | answer hrest hread => cases hfails
  | pastEnd hcall hrest hmoves => exact hmoves
  | malformed hreads hread hmoves => cases hfails

/-- A call that fails over a number has gone behind its digits. -/
theorem movesTo_of_malformed {s : Scanner} {c : Call} {text : List Char} {last : Nat}
    (hreads : Reads s c text last) (hread : Numeral.read? text = none) :
    MovesTo s last (s.call c).2 := by
  have houtcome := s.outcome c
  generalize s.call c = result at houtcome ⊢
  cases houtcome with
  | answer hrest hanswer => exact absurd hread (hanswer text last hreads)
  | pastEnd hcall hrest hmoves => exact absurd hrest (hreads.rest_ne_nil hcall)
  | malformed hreads' hread' hmoves =>
      rw [(hreads.unique hreads').2]
      exact hmoves

theorem rest_eq_nil_iff (s : Scanner) : s.rest = [] ↔ s.source.length ≤ s.current := by
  rw [rest_eq_drop_current, List.drop_eq_nil_iff]

/-- After every history of calls, a call fails for want of text exactly if it is an advance or
a scan of a lexeme and the scanner is at the end of its source or past it; then it moves the
scanner on by one place.  It fails for a malformed numeral exactly if it reads as a number a
text that is none; then it moves the scanner behind the digits.  In neither case does anything
but the place change.  No other call fails, and a cursor fails as the scanner does. -/
theorem performAll_call_fails_iff (source : String) (history : List Call) :
    ∃ s, s = (ofSource source).performAll history ∧ s.source = source.toList ∧
      (∀ c, (s.call c).1 = .error .pastEnd ↔
        (c = .advance ∨ c = .scanToken) ∧ source.length ≤ s.current) ∧
      (∀ c, (s.call c).1 = .error .pastEnd → MovesTo s (s.current + 1) (s.call c).2) ∧
      (∀ c text, (s.call c).1 = .error (.malformedNumeral (String.ofList text)) ↔
        Numeral.read? text = none ∧ ∃ last, Reads s c text last) ∧
      (∀ c text last, Reads s c text last → Numeral.read? text = none →
        MovesTo s last (s.call c).2) ∧
      (∀ c, c ≠ .advance → c ≠ .number → c ≠ .scanToken →
        ∃ answer next, s.call c = (.ok answer, next)) ∧
      ∀ c, Cursor.perform Numeral.read? c
          ((Cursor.ofSource source).performAll Numeral.read? history) =
        seen (perform c s) := by
  have hsource := (source_performAll source history).1
  have hcursor := (ofSource source).performAll_cursor history
  rw [cursor_ofSource] at hcursor
  refine ⟨_, rfl, hsource, ?_, fun c => movesTo_of_pastEnd,
    fun c text => call_malformed_iff _ c text, fun c text last => movesTo_of_malformed,
    fun c hadvance hnumber hscan => exists_answer hadvance hnumber hscan _, ?_⟩
  · intro c
    rw [call_pastEnd_iff, rest_eq_nil_iff, hsource, String.length_toList]
  · intro c
    rw [hcursor, perform_cursor]

/-- Behind the numeral of a text with two points, the rest is read together with it. -/
theorem performAll_call_fails_iff_dotted :
    ∃ s, s = (ofSource "1.2.3").performAll [.scanToken] ∧
      (s.call .number).1 = .error (.malformedNumeral "1.2.3") ∧
      MovesTo s 5 (s.call .number).2 := by
  obtain ⟨s, hs, -, -, -, hmalformed, hmoves, -⟩ :=
    performAll_call_fails_iff "1.2.3" [.scanToken]
  have hnone : Numeral.read? ['1', '.', '2', '.', '3'] = none := by decide +kernel
  have htail : ['.', '3'] = Lexeme.numberTail (s.source.drop s.current) := by
    subst hs
    decide +kernel
  have hreads : Reads s .number ['1', '.', '2', '.', '3'] 5 := by
    have hreads := Reads.number ((Lexeme.longestRest_iff _ _).2 htail)
    subst hs
    exact hreads
  exact ⟨s, hs, (hmalformed _ _).2 ⟨hnone, 5, hreads⟩, hmoves _ _ _ hreads hnone⟩

end Scanner
end Lox
