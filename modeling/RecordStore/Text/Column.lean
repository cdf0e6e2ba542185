/-!
# Text in columns

A text shorter than its column is filled with blanks; a longer one is kept whole.
-/

namespace RecordStore.Column

def blanks (count : Nat) : String := String.ofList (List.replicate count ' ')

def alignLeft (width : Nat) (s : String) : String := s ++ blanks (width - s.length)

def alignRight (width : Nat) (s : String) : String := blanks (width - s.length) ++ s

/-- An odd blank goes to the right. -/
def center (width : Nat) (s : String) : String :=
  let gap := width - s.length
  blanks (gap / 2) ++ s ++ blanks (gap - gap / 2)

end RecordStore.Column
