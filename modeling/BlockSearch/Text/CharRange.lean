set_option autoImplicit false

namespace BlockSearch

abbrev CharRange := Nat × Nat

namespace CharRange

-- Stops at the first range that begins above the value, so the table has to ascend.
def covers : List CharRange → Nat → Bool
  | [], _ => false
  | (first, last) :: table, value =>
      if value < first then false else if value ≤ last then true else covers table value

end CharRange

end BlockSearch
