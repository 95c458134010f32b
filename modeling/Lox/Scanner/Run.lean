import Lox.Scanner.Step

/-!
# Runs of a scanner

A run scans lexeme after lexeme until the text ends, and adds the token that ends
the text.  Each lexeme starts where the one before it has ended.

Main results:

- Theorem {lit}`scanAll_of_isAtEnd`: at the end of the text a run scans nothing.
-/

namespace Lox
namespace Scanner

/-- Scan lexeme after lexeme until nothing is left. -/
def scanAll : ScanM Unit := fun s =>
  if s.isAtEnd then
    .ok () s
  else
    match _hscan : scanToken s.mark with
    | .ok () next => scanAll next
    | .error error next => .error error next
termination_by s => s.rest.length
decreasing_by
  have hless := length_rest_scanToken _hscan
  simpa using hless

/-- At the end of the text a run scans nothing. -/
theorem scanAll_of_isAtEnd {s : Scanner} (hend : s.isAtEnd = true) :
    scanAll s = .ok () s := by
  rw [scanAll, if_pos hend]

/-- Scan what is left of the text and add the token that ends it. -/
def scanTokens : ScanM (Array Token) := do
  scanAll
  modifyGet fun s => (s.addEnd.tokens, s.addEnd)

end Scanner

/-- The tokens and the faults of a source. -/
def scan (source : String) : Array Token × Array Fault :=
  match Scanner.scanTokens (.ofSource source) with
  | .ok _ s => (s.tokens, s.faults)
  | .error _ s => (s.tokens, s.faults)

end Lox
