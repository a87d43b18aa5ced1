/-! # Classes of characters

A class of characters is written as the ascending code points at which membership changes: the
first is the first member, the second the first character after it that is no member, and so on.
Long standard classes take one number per border this way.
-/

namespace Warden.Text

/-- A set of characters, given by the code points at which membership flips. -/
structure CharClass where
  /-- The borders, ascending; membership is off before the first one. -/
  borders : List Nat

namespace CharClass

/-- Membership at code point `n`, when it is `inside` before the first of the borders. -/
def insideAt (n : Nat) : (inside : Bool) → (borders : List Nat) → Bool
  | inside, [] => inside
  | inside, b :: bs => if n < b then inside else insideAt n (!inside) bs

/-- The character is a member of the class. -/
def contains (cls : CharClass) (c : Char) : Bool :=
  insideAt c.toNat false cls.borders

end CharClass

end Warden.Text
