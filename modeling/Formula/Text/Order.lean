/-! The order of texts: by the code points of their characters, a text before its extensions. -/

namespace Formula.Text

def order : List Char → List Char → Ordering
  | [], [] => .eq
  | [], _ :: _ => .lt
  | _ :: _, [] => .gt
  | c :: cs, d :: ds => (compare c.toNat d.toNat).then (order cs ds)

end Formula.Text
