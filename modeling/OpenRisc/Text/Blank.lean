set_option autoImplicit false

namespace OpenRisc.Text

def isBlank (c : Char) : Bool :=
  let code := c.toNat
  (0x09 ≤ code && code ≤ 0x0d) || code == 0x20 || code == 0x85 || code == 0xa0 ||
    code == 0x1680 || (0x2000 ≤ code && code ≤ 0x200a) || code == 0x2028 || code == 0x2029 ||
    code == 0x202f || code == 0x205f || code == 0x3000

def words (text : List Char) : List (List Char) :=
  (text.splitOnP isBlank).filter fun word => !word.isEmpty

theorem words_append_blank (front back : List Char) (blank : Char)
    (separates : isBlank blank = true) :
    words (front ++ blank :: back) = words front ++ words back := by
  simp [words, List.splitOnP_append_cons _ _ separates]

end OpenRisc.Text
