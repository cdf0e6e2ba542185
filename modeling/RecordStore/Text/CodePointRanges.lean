/-!
# Ranges of code points

A property of characters as a table: closed ranges of code points, ascending and apart.  `covers_of_gap` says that a
character between two ranges does not have the property.
-/

namespace RecordStore

/-- Each range ends before the next begins, and at least one code point lies between them. -/
def CodePointRanges.ascending : List (Nat × Nat) → Bool
  | [] => true
  | [span] => span.1 ≤ span.2
  | span :: next :: rest => span.1 ≤ span.2 && span.2 + 1 < next.1 && ascending (next :: rest)

structure CodePointRanges where
  spans : List (Nat × Nat)
  spans_ascending : CodePointRanges.ascending spans = true := by decide +kernel

namespace CodePointRanges

/-- How many code points the ranges hold. -/
def size (ranges : CodePointRanges) : Nat :=
  ranges.spans.foldl (fun size span => size + (span.2 + 1 - span.1)) 0

def covers (ranges : CodePointRanges) (c : Char) : Bool :=
  ranges.spans.any fun span => span.1 ≤ c.toNat && c.toNat ≤ span.2

theorem covers_of_gap (ranges : CodePointRanges) {low high : Nat}
    (gap : (ranges.spans.all fun span => span.2 < low || high ≤ span.1) = true) {c : Char} (hl : low ≤ c.toNat)
    (hh : c.toNat < high) : ranges.covers c = false := by
  rw [covers, List.any_eq_false]
  intro span mem
  have apart := List.all_eq_true.1 gap span mem
  simp only [Bool.or_eq_true, decide_eq_true_eq] at apart
  simp only [Bool.and_eq_true, decide_eq_true_eq]
  omega

end CodePointRanges

end RecordStore
