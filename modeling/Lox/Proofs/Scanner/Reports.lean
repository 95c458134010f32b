import Lox.Session
import Lox.Proofs.Lexeme.Slice
import Lox.Proofs.Scanner.Lines

/-!
# Reports of a scan

A scan reports every stray character of its source, on the line of that character, and
behind them the string that is not closed, on the line of its opening quote, if there is
one.  A reporter collects these texts behind its own and writes each as a line.

Main results:

- Theorem {lit}`faults_split`: the faults of a text are its stray characters and, last, its
  open string.
- Theorem {lit}`reportFaults_eq`: what faults do to a reporter.
- Theorem {lit}`scan_reports_faults`: what a scan does to a reporter.
-/

namespace Lox
namespace Piece

open Lexeme (Shape SliceAt Stray)

/-! ## The places of pieces -/

/-- The places of the pieces of a class, if the first piece begins at the given place. -/
def places (shape : Shape) (start : Nat) : List Piece → List Nat
  | [] => []
  | piece :: more =>
      if piece.shape = shape then start :: places shape (start + piece.text.length) more
      else places shape (start + piece.text.length) more

theorem places_cons_eq {shape : Shape} {piece : Piece} (hshape : piece.shape = shape)
    (start : Nat) (more : List Piece) :
    places shape start (piece :: more) =
      start :: places shape (start + piece.text.length) more := by
  rw [places, if_pos hshape]

theorem places_cons_ne {shape : Shape} {piece : Piece} (hshape : piece.shape ≠ shape)
    (start : Nat) (more : List Piece) :
    places shape start (piece :: more) = places shape (start + piece.text.length) more := by
  rw [places, if_neg hshape]

/-- The pieces of a class are at the places of its slices. -/
theorem mem_places_split_iff {shape : Shape} {start place : Nat} {text : List Char} :
    place ∈ places shape start (split text) ↔
      ∃ offset slice, place = start + offset ∧ SliceAt text offset shape slice := by
  induction text using split_induction generalizing start with
  | nil =>
      rw [split_nil, places]
      constructor
      · intro hmem
        cases hmem
      · rintro ⟨offset, slice, -, hslice⟩
        exact (Lexeme.not_sliceAt_nil _ _ _ hslice).elim
  | cons c rest ih =>
      have hmem : place ∈ places shape start (split (c :: rest)) ↔
          ((first c rest).shape = shape ∧ place = start) ∨
            place ∈ places shape (start + (first c rest).text.length)
              (split ((c :: rest).drop (first c rest).text.length)) := by
        rw [split_cons]
        by_cases hshape : (first c rest).shape = shape
        · rw [places_cons_eq hshape, List.mem_cons, and_iff_right hshape]
        · rw [places_cons_ne hshape, or_iff_right fun h => hshape h.1]
      rw [hmem, ih]
      constructor
      · rintro (⟨rfl, rfl⟩ | ⟨offset, slice, rfl, hslice⟩)
        · exact ⟨0, _, rfl, .first (cut_first c rest)⟩
        · exact ⟨_, slice, Nat.add_assoc _ _ _, .later (cut_first c rest) hslice⟩
      · rintro ⟨offset, slice, rfl, hslice⟩
        rcases Lexeme.sliceAt_cons_iff.1 hslice with ⟨rfl, rfl, -⟩ | ⟨later, rfl, hlater⟩
        · exact Or.inl ⟨rfl, rfl⟩
        · exact Or.inr ⟨later, slice, (Nat.add_assoc _ _ _).symm, hlater⟩

/-- The unexpected pieces of a text stand at the places of its stray characters. -/
theorem mem_strays_iff {text : List Char} {place : Nat} :
    place ∈ places .unexpected 0 (split text) ↔ Stray text place := by
  rw [mem_places_split_iff, Lexeme.stray_iff]
  constructor
  · rintro ⟨offset, slice, rfl, hslice⟩
    exact ⟨slice, (Nat.zero_add offset).symm ▸ hslice⟩
  · rintro ⟨slice, hslice⟩
    exact ⟨place, slice, (Nat.zero_add place).symm, hslice⟩

/-- No piece of a text lies in front of the text. -/
theorem le_of_mem_places {shape : Shape} {start place : Nat} {text : List Char}
    (hmem : place ∈ places shape start (split text)) : start ≤ place := by
  rcases mem_places_split_iff.1 hmem with ⟨offset, -, rfl, -⟩
  exact Nat.le_add_right start offset

/-- One string at most is not closed. -/
theorem exists_opening (start : Nat) (text : List Char) :
    ∃ opening : Option Nat, opening.toList = places .unterminated start (split text) := by
  induction text using split_induction generalizing start with
  | nil => exact ⟨none, by rw [split_nil]; rfl⟩
  | cons c rest ih =>
      by_cases hopen : (first c rest).shape = .unterminated
      · refine ⟨some start, ?_⟩
        rw [split_of_unterminated hopen, places_cons_eq hopen]
        rfl
      · rw [split_cons, places_cons_ne hopen]
        exact ih _

/-- The stray characters of a text come in order, and the open string behind them. -/
theorem places_pairwise_lt (start : Nat) (text : List Char) :
    (places .unexpected start (split text) ++
      places .unterminated start (split text)).Pairwise (· < ·) := by
  induction text using split_induction generalizing start with
  | nil =>
      rw [split_nil]
      exact List.Pairwise.nil
  | cons c rest ih =>
      have hmore := ih (start + (first c rest).text.length)
      by_cases hopen : (first c rest).shape = .unterminated
      · have hstray : (first c rest).shape ≠ .unexpected := by
          rw [hopen]
          decide
        rw [split_of_unterminated hopen, places_cons_ne hstray, places_cons_eq hopen]
        exact List.pairwise_singleton _ _
      rw [split_cons, places_cons_ne hopen]
      by_cases hstray : (first c rest).shape = .unexpected
      · rw [places_cons_eq hstray, List.cons_append, List.pairwise_cons]
        refine ⟨?_, hmore⟩
        intro place hmem
        have hle : start + (first c rest).text.length ≤ place := by
          rcases List.mem_append.1 hmem with hmem | hmem
          · exact le_of_mem_places hmem
          · exact le_of_mem_places hmem
        rw [text_of_unexpected hstray, List.length_singleton] at hle
        exact hle
      · rw [places_cons_ne hstray]
        exact hmore

/-! ## The faults of a text -/

/-- The faults of a text are its stray characters and, last, its open string, each on the
line of its place. -/
theorem faults_split {source text : List Char} {start : Nat}
    (hdrop : source.drop start = text) :
    faults (lineAt source start) (split text) =
      (places .unexpected start (split text)).map
          (fun place => ⟨lineAt source place, .unexpectedCharacter⟩) ++
        (places .unterminated start (split text)).map
          (fun place => ⟨lineAt source place, .unterminatedString⟩) := by
  induction text using split_induction generalizing start with
  | nil =>
      rw [split_nil]
      rfl
  | cons c rest ih =>
      have hparts := text_first_append c rest
      have hbehind : source.drop (start + (first c rest).text.length) =
          (c :: rest).drop (first c rest).text.length := by
        rw [← List.drop_drop, hdrop]
      have hline := lineAt_add (hdrop.trans hparts.symm)
      have hmore := ih hbehind
      rw [hline] at hmore
      by_cases hopen : (first c rest).shape = .unterminated
      · rw [split_of_unterminated hopen]
        simp [faults, places, fault?, hopen]
      by_cases hstray : (first c rest).shape = .unexpected
      · rw [split_cons, faults, hmore]
        simp [places, fault?, hstray]
      · have hnone : (first c rest).fault? (lineAt source start) = none := by
          unfold fault?
          split
          · contradiction
          · contradiction
          · rfl
        rw [split_cons, faults, hnone, hmore, places_cons_ne hopen, places_cons_ne hstray]
        rfl

end Piece

/-! ## Reporters -/

/-- The text of a report on a fault. -/
def Fault.text (fault : Fault) : String :=
  "[line " ++ toString fault.line ++ "] Error: " ++ fault.message

namespace Reporter

/-- A report on a fault collects its text, writes it as a line and is an error. -/
theorem errorLine_eq (r : Reporter) (fault : Fault) :
    r.errorLine fault.line fault.message =
      { r with
        errors := r.errors.push fault.text
        hadError := true
        output := r.output ++ (fault.text ++ "\n") } := by
  have htext : reportText fault.line "" fault.message = fault.text := by
    simp [reportText, Fault.text, String.append_assoc]
  rw [errorLine, report, htext]
  rfl

/-- Faults are collected in order, each one is written as a line, and there is an error if
there was one or there is a fault. -/
theorem reportFaults_eq (r : Reporter) (faults : List Fault) :
    r.reportFaults faults.toArray =
      { r with
        errors := r.errors ++ (faults.map Fault.text).toArray
        hadError := r.hadError || !(faults.map Fault.text).isEmpty
        output := r.output ++
          String.join ((faults.map Fault.text).map fun text => text ++ "\n") } := by
  rw [reportFaults, List.foldl_toArray]
  induction faults generalizing r with
  | nil => simp
  | cons fault more ih =>
      rw [List.foldl_cons, ih, errorLine_eq]
      simp [String.append_assoc]

/-- Faults that are reported one after the other are reported together. -/
theorem reportFaults_append (r : Reporter) (few more : Array Fault) :
    r.reportFaults (few ++ more) = (r.reportFaults few).reportFaults more :=
  Array.foldl_append

/-! ## The reports of a scan -/

/-- A scan under a reporter returns the tokens of the source and reports its faults. -/
theorem scan_eq_reportFaults (r : Reporter) (source : String) :
    r.scan source = ((Lox.scan source).1, r.reportFaults (Lox.scan source).2) :=
  rfl

/-- The faults that a scanner is left with are those that are reported. -/
theorem scan_of_scanTokens (r : Reporter) {source : String} {last : Scanner}
    (hscan : Scanner.scanTokens (.ofSource source) = .ok last.tokens last) :
    r.scan source = (last.tokens, r.reportFaults last.faults) := by
  rw [scan_eq_reportFaults, Lox.scan, hscan]

/-- The text of a report on the line of a place of a source. -/
def reportAt (source : List Char) (message : String) (place : Nat) : String :=
  "[line " ++ toString (lineAt source place) ++ "] Error: " ++ message

/-- The texts that a scan reports. -/
theorem text_faults_split (source : List Char) :
    (Piece.faults 1 (Piece.split source)).map Fault.text =
      (Piece.places .unexpected 0 (Piece.split source)).map
          (reportAt source "Unexpected character.") ++
        (Piece.places .unterminated 0 (Piece.split source)).map
          (reportAt source "Unterminated string.") := by
  have hfaults := @Piece.faults_split source source 0 List.drop_zero
  have hline : lineAt source 0 = 1 := by simp [lineAt]
  rw [hline] at hfaults
  rw [hfaults, List.map_append, List.map_map, List.map_map]
  rfl

/-- A source splits into lexemes if it has no stray character and no open string. -/
theorem splits_iff_places {source : List Char} :
    Lexeme.Splits source ↔ Piece.places .unexpected 0 (Piece.split source) = [] ∧
      Piece.places .unterminated 0 (Piece.split source) = [] := by
  have hnone (shape : Lexeme.Shape) :
      Piece.places shape 0 (Piece.split source) = [] ↔
        ∀ place slice, ¬Lexeme.SliceAt source place shape slice := by
    simp [List.eq_nil_iff_forall_not_mem, Piece.mem_places_split_iff]
  rw [Lexeme.splits_iff, hnone, hnone]

/-- A scan reports the stray characters of its source in order, and behind them the string
that is not closed, if there is one.  Apart from that it leaves the reporter as it was, so
that there is no error in a source that splits into lexemes. -/
theorem scan_reports_faults (r : Reporter) (source : String) :
    ∃ (strays : List Nat) (opening : Option Nat) (texts : List String),
      (∀ place, place ∈ strays ↔ Lexeme.Stray source.toList place) ∧
      (∀ place, opening = some place ↔
        ∃ slice, Lexeme.SliceAt source.toList place .unterminated slice) ∧
      (strays ++ opening.toList).Pairwise (· < ·) ∧
      ((strays ++ opening.toList).map (lineAt source.toList)).Pairwise (· ≤ ·) ∧
      texts = strays.map (reportAt source.toList "Unexpected character.") ++
        opening.toList.map (reportAt source.toList "Unterminated string.") ∧
      (∃ last, Scanner.scanTokens (.ofSource source) = .ok (r.scan source).1 last) ∧
      (r.scan source).2 =
        { r with
          errors := r.errors ++ texts.toArray
          hadError := r.hadError || !texts.isEmpty
          output := r.output ++ String.join (texts.map fun text => text ++ "\n") } ∧
      ((r.scan source).2.hadError = false ↔
        r.hadError = false ∧ Lexeme.Splits source.toList) := by
  rcases Piece.exists_opening 0 source.toList with ⟨opening, hopening⟩
  have horder := Piece.places_pairwise_lt 0 source.toList
  have htexts := text_faults_split source.toList
  rw [← hopening] at horder htexts
  rw [scan_eq_reportFaults, scan_eq, reportFaults_eq]
  refine ⟨_, opening, _, fun place => Piece.mem_strays_iff, ?_, horder, ?_, htexts, ?_, rfl,
    ?_⟩
  · intro place
    rw [← Option.mem_toList, hopening, Piece.mem_places_split_iff]
    simp
  · rw [List.pairwise_map]
    exact horder.imp fun hlt => lineAt_mono _ (Nat.le_of_lt hlt)
  · rcases Scanner.scanTokens_ofText source.toList with ⟨last, hscan, htokens, -⟩
    exact ⟨last, htokens ▸ hscan⟩
  · rw [splits_iff_places, ← hopening]
    simp [htexts]

/-- The open string comes last, and counts for the line of its quote. -/
example : ((Reporter.fresh false).scan "@ \"#\" // %\n~ \"\n\n$").2.errors =
    #["[line 1] Error: Unexpected character.", "[line 2] Error: Unexpected character.",
      "[line 2] Error: Unterminated string."] := by
  decide +kernel

/-- The split is by longest match: two slashes are a comment, not two operators. -/
example : ((Reporter.fresh false).scan "//\"\n\"").2.hadError = true := by
  decide +kernel

end Reporter
end Lox
