/-!
# Page numbers

A file is a row of pages of one size; the page of an offset is found by division.
-/

namespace RecordStore

/-- The number of a page in its file. -/
abbrev PageNumber := Nat

namespace PageNumber

/-- Page numbers have 32 bits; the number of a page past that range wraps. -/
def ofOffset (offset pageSize : Nat) : PageNumber := offset / pageSize % (1 <<< 32)

def start (page : PageNumber) (pageSize : Nat) : Nat := page * pageSize

def text (page : PageNumber) : String := s!"page#{page}"

end PageNumber

end RecordStore
