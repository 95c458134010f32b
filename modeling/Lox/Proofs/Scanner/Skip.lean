import Lox.Proofs.Scanner.Completion
import Lox.Proofs.Scanner.Failure

/-!
# Going on to a character

Comments and strings are passed by one loop, which goes on to the next character of a kind and
leaves it where it is.  The loop ends from every place, also past the end of the text.  It stops
at the first place at which the character stands, or at the end of the text, and counts the line
feeds that it has passed; so it never counts the one that it stops at.

Main results:

- Theorem {lit}`SkipsTo.found_iff`: the character is found exactly if it is in the text that is
  left.
- Theorem {lit}`SkipsTo.unique`: from one place there is one way to go on to a character.
- Theorem {lit}`call_skipTo_iff`: the call goes this way, and every such way is the call.
- Theorem {lit}`performAll_call_skipTo`: the loop after every history of calls.
-/

namespace Lox
namespace Scanner

/-! ## Characters between places -/

/-- A character is in what is left from a place on if it stands there or behind. -/
theorem mem_drop_iff {text : List Char} {first : Nat} {c : Char} :
    c ∈ text.drop first ↔ ∃ place, first ≤ place ∧ text[place]? = some c := by
  rw [List.mem_iff_getElem?]
  constructor
  · rintro ⟨i, hplace⟩
    rw [List.getElem?_drop] at hplace
    exact ⟨first + i, Nat.le_add_right _ _, hplace⟩
  · rintro ⟨place, hle, hplace⟩
    refine ⟨place - first, ?_⟩
    rwa [List.getElem?_drop, Nat.add_sub_cancel' hle]

/-- A character is between two places if it stands at the first one or behind, and before the
last one. -/
theorem mem_drop_take_iff {text : List Char} {first last : Nat} {c : Char} :
    c ∈ (text.take last).drop first ↔
      ∃ place, first ≤ place ∧ place < last ∧ text[place]? = some c := by
  simp only [mem_drop_iff, List.getElem?_take, Option.ite_none_right_eq_some]

/-- The beginning of what is left lies between two places of the source. -/
theorem drop_take_current {s : Scanner} {piece : List Char} (hbegins : piece <+: s.rest) :
    (s.source.take (s.current + piece.length)).drop s.current = piece := by
  rw [List.drop_take, Nat.add_sub_cancel_left, ← rest_eq_drop_current]
  exact (List.prefix_iff_eq_take.1 hbegins).symm

/-! ## The way to a character -/

/-- The scanner has passed places at which other characters stand, up to the first place of the
given one or, where there is none, to the end of the text, and has counted the line feeds that
stand there. -/
structure SkipsTo (s : Scanner) (c : Char) (found : Bool) (next : Scanner) : Prop where
  source_eq : next.source = s.source
  start_eq : next.start = s.start
  tokens_eq : next.tokens = s.tokens
  faults_eq : next.faults = s.faults
  le_current : s.current ≤ next.current
  ne_of_lt : ∀ place, s.current ≤ place → place < next.current → s.source[place]? ≠ some c
  current_of_found : found = true → s.source[next.current]? = some c
  current_of_missing : found = false → next.current = max s.source.length s.current
  line_eq : next.line = s.line + ((s.source.take next.current).drop s.current).count '\n'

section

variable {s next next' : Scanner} {c : Char} {found found' : Bool}

/-- No place of the character is passed. -/
theorem SkipsTo.current_le (hskips : SkipsTo s c found next) {place : Nat}
    (hplace : s.current ≤ place) (hsource : s.source[place]? = some c) :
    next.current ≤ place := by
  by_contra hpassed
  exact hskips.ne_of_lt place hplace (Nat.not_le.1 hpassed) hsource

/-- The character is found exactly if it is in the text that is left. -/
theorem SkipsTo.found_iff (hskips : SkipsTo s c found next) :
    found = true ↔ c ∈ s.source.drop s.current := by
  rw [mem_drop_iff]
  constructor
  · intro hfound
    exact ⟨next.current, hskips.le_current, hskips.current_of_found hfound⟩
  · rintro ⟨place, hplace, hsource⟩
    have hle := hskips.current_le hplace hsource
    rcases List.getElem?_eq_some_iff.1 hsource with ⟨hlength, -⟩
    by_contra hmissing
    have hcurrent := hskips.current_of_missing (Bool.eq_false_iff.2 hmissing)
    omega

/-- On the way to the next line feed no line is counted. -/
theorem SkipsTo.line_of_lineFeed (hskips : SkipsTo s '\n' found next) : next.line = s.line := by
  rw [hskips.line_eq, Nat.add_eq_left, List.count_eq_zero, mem_drop_take_iff]
  rintro ⟨place, hplace, hpassed, hsource⟩
  exact hskips.ne_of_lt place hplace hpassed hsource

/-- From one place there is one way to go on to a character. -/
theorem SkipsTo.unique (hskips : SkipsTo s c found next) (hskips' : SkipsTo s c found' next') :
    found = found' ∧ next = next' := by
  have hfound : found = found' := by
    rw [Bool.eq_iff_iff, hskips.found_iff, hskips'.found_iff]
  subst hfound
  have hcurrent : next.current = next'.current := by
    cases found with
    | false => rw [hskips.current_of_missing rfl, hskips'.current_of_missing rfl]
    | true =>
        -- Each stops at a place of the character, and neither passes the other's.
        apply Nat.le_antisymm
        · exact hskips.current_le hskips'.le_current (hskips'.current_of_found rfl)
        · exact hskips'.current_le hskips.le_current (hskips.current_of_found rfl)
  refine ⟨rfl, cursor_inj ?_⟩
  rw [cursor, cursor, hskips.source_eq, hskips'.source_eq, hskips.start_eq, hskips'.start_eq,
    hskips.tokens_eq, hskips'.tokens_eq, hskips.faults_eq, hskips'.faults_eq, hskips.line_eq,
    hskips'.line_eq, hcurrent]

/-- Where a way to a character ends, it is no step further to that character. -/
theorem SkipsTo.again (hskips : SkipsTo s c found next) : SkipsTo next c found next where
  source_eq := rfl
  start_eq := rfl
  tokens_eq := rfl
  faults_eq := rfl
  le_current := Nat.le_refl _
  ne_of_lt := fun _ hle hlt => absurd hlt (Nat.not_lt.2 hle)
  current_of_found := by
    rw [hskips.source_eq]
    exact hskips.current_of_found
  current_of_missing := by
    intro hmissing
    have hcurrent := hskips.current_of_missing hmissing
    rw [hskips.source_eq]
    omega
  line_eq := by
    rw [List.drop_eq_nil_of_le (List.length_take_le _ _)]
    rfl

end

/-! ## The call -/

/-- Behind the characters before one of a kind that is left, this one is next. -/
theorem peek?_consume_takeWhile {s : Scanner} {c : Char} (hfound : s.rest.contains c = true) :
    (s.consume (s.rest.takeWhile (· != c))).peek? = some c := by
  have hother := List.head?_dropWhile_not (· != c) s.rest
  rw [← isSome_head?_dropWhile] at hfound
  rw [peek?, rest_consume_takeWhile]
  cases hnext : (s.rest.dropWhile (· != c)).head? with
  | none => simp [hnext] at hfound
  | some d =>
      rw [hnext] at hother
      rw [bne_eq_false_iff_eq.1 hother]

/-- The characters before the next one of a kind are the way to it. -/
theorem skipsTo_consume (s : Scanner) (c : Char) :
    SkipsTo s c (s.rest.contains c) (s.consume (s.rest.takeWhile (· != c))) where
  source_eq := rfl
  start_eq := rfl
  tokens_eq := rfl
  faults_eq := rfl
  le_current := by
    rw [current_consume]
    exact Nat.le_add_right _ _
  ne_of_lt := by
    intro place hplace hpassed hsource
    have hmem := mem_drop_take_iff.2 ⟨place, hplace, hpassed, hsource⟩
    rw [current_consume, drop_take_current (List.takeWhile_prefix _)] at hmem
    have hother := List.mem_takeWhile_imp hmem
    exact bne_iff_ne.1 hother rfl
  current_of_found := by
    intro hfound
    rw [← peek?_consume_takeWhile hfound, ← getElem?_current]
    rfl
  current_of_missing := by
    intro hmissing
    have hall : s.rest.takeWhile (· != c) = s.rest := by
      rw [List.takeWhile_eq_self_iff]
      intro d hmem
      rw [bne_iff_ne]
      rintro rfl
      rw [List.contains_iff_mem.2 hmem] at hmissing
      cases hmissing
    rw [current_consume, hall, current_add_length_rest]
  line_eq := by
    rw [current_consume, drop_take_current (List.takeWhile_prefix _)]
    rfl

/-- The call goes on to the next character of a kind, and this is what going on to it means. -/
theorem call_skipTo_iff (s next : Scanner) (c : Char) (found : Bool) :
    s.call (.skipTo c) = (.ok (.flag found), next) ↔ SkipsTo s c found next := by
  have hskips := s.skipsTo_consume c
  have hcall : s.call (.skipTo c) =
      (.ok (.flag (s.rest.contains c)), s.consume (s.rest.takeWhile (· != c))) := rfl
  rw [hcall]
  constructor
  · intro hsame
    rw [Prod.mk.injEq, Except.ok.injEq, Answer.flag.injEq] at hsame
    rcases hsame with ⟨rfl, rfl⟩
    exact hskips
  · intro hskips'
    rcases hskips.unique hskips' with ⟨rfl, rfl⟩
    rfl

/-- After every history of calls, the call that goes on to a character answers whether it is in
the text that is left, and its loop ends after one round for every place that is left and one
more.  It leads to the first place of the character, and to the end of the text where there is
none, counts the line feeds in between, which are none on the way to a line feed, and changes
nothing else.  A second call answers the same and changes nothing. -/
theorem performAll_call_skipTo (source : String) (history : List Call) (c : Char) :
    ∃ (s next : Scanner) (found : Bool), s = (ofSource source).performAll history ∧
      s.source = source.toList ∧ s.call (.skipTo c) = (.ok (.flag found), next) ∧
      (∀ rounds, source.length - s.current < rounds →
        Cursor.loop (Cursor.skipRound c) rounds
            ((Cursor.ofSource source).performAll Numeral.read? history) =
          .ok found next.cursor) ∧
      (found = true ↔ c ∈ source.toList.drop s.current) ∧ SkipsTo s c found next ∧
      (c = '\n' → next.line = s.line) ∧
      next.call (.skipTo c) = (.ok (.flag found), next) := by
  have hsource := (source_performAll source history).1
  have hcursor := (ofSource source).performAll_cursor history
  rw [cursor_ofSource] at hcursor
  generalize hs : (ofSource source).performAll history = s at hsource hcursor
  have hskips := s.skipsTo_consume c
  refine ⟨s, _, _, rfl, hsource, rfl, ?_, ?_, hskips, ?_, ?_⟩
  · intro rounds hrounds
    rw [hcursor]
    apply loop_skipRound
    rwa [rest_eq_drop_current, List.length_drop, hsource, String.length_toList]
  · rw [hskips.found_iff, hsource]
  · rintro rfl
    exact hskips.line_of_lineFeed
  · exact (call_skipTo_iff _ _ _ _).2 hskips.again

/-- The second of two ways to a line feed is empty, and the way from there to a letter counts two
lines. -/
example :
    let s := (ofSource "//\n\na").performAll [.skipTo '\n', .skipTo '\n']
    let next := s.performAll [.skipTo 'a']
    (s.current, s.line, next.current, next.line) = (2, 1, 4, 3) := by
  decide +kernel

end Scanner
end Lox
