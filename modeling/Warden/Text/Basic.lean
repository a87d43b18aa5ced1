/-! # Text as lists of characters

Names, paths and request parameters are cut and compared character by character. The functions
here say what the pieces are on lists of characters, where induction is available, and lift each
one to `String`.

* **`splitChars`** cuts at every separator; a text without separators is its own only piece
  (`splitChars_of_notMem`), and otherwise the first piece ends at the first one
  (`splitChars_append`).
* **`cutFirst`** cuts at the first separator only.
* **`beginsWith`**, **`occursIn`** and **`endsWith`** are the relations of prefixes, infixes and
  suffixes.
-/

namespace Warden.Text

/-! ## Splitting -/

/-- The pieces of a text between the separators; a text without separators is its own only piece. -/
def splitChars (sep : Char) : List Char → List (List Char)
  | [] => [[]]
  | c :: cs =>
    if c = sep then [] :: splitChars sep cs
    else
      match splitChars sep cs with
      | [] => [[c]]
      | piece :: pieces => (c :: piece) :: pieces

theorem splitChars_ne_nil (sep : Char) (cs : List Char) : splitChars sep cs ≠ [] := by
  cases cs with
  | nil => simp [splitChars]
  | cons c cs =>
    rw [splitChars]
    split
    · simp
    · split <;> simp

/-- A text without the separator is its own only piece. -/
theorem splitChars_of_notMem {sep : Char} {cs : List Char} (h : sep ∉ cs) :
    splitChars sep cs = [cs] := by
  induction cs with
  | nil => rfl
  | cons c cs ih =>
    rw [List.mem_cons, not_or] at h
    rw [splitChars, if_neg (Ne.symm h.1), ih h.2]

/-- The first piece ends at the first separator. -/
theorem splitChars_append {sep : Char} {cs : List Char} (h : sep ∉ cs) (rest : List Char) :
    splitChars sep (cs ++ sep :: rest) = cs :: splitChars sep rest := by
  induction cs with
  | nil => simp [splitChars]
  | cons c cs ih =>
    rw [List.mem_cons, not_or] at h
    rw [List.cons_append, splitChars, if_neg (Ne.symm h.1), ih h.2]

/-- The pieces of `s` between the separators, in order. -/
def split (sep : Char) (s : String) : List String :=
  (splitChars sep s.toList).map String.ofList

/-- The pieces written with `sep` between them. -/
def join (sep : String) (pieces : List String) : String :=
  String.intercalate sep pieces

/-- What stands before and after the first separator, if there is one. -/
def cutFirst (sep : Char) : List Char → Option (List Char × List Char)
  | [] => none
  | c :: cs =>
    if c = sep then some ([], cs)
    else (cutFirst sep cs).map fun (before, after) => (c :: before, after)

/-- What stands in `s` before and after the first separator, if there is one. -/
def cut? (sep : Char) (s : String) : Option (String × String) :=
  (cutFirst sep s.toList).map fun (before, after) => (String.ofList before, String.ofList after)

/-! ## Occurrences -/

/-- `needle` begins `text`. -/
def beginsWith : (needle text : List Char) → Bool
  | [], _ => true
  | _ :: _, [] => false
  | n :: ns, c :: cs => n == c && beginsWith ns cs

/-- `needle` stands somewhere in `text`. -/
def occursIn (needle : List Char) : List Char → Bool
  | [] => needle.isEmpty
  | c :: cs => beginsWith needle (c :: cs) || occursIn needle cs

/-- `needle` ends `text`. -/
def endsWith (needle text : List Char) : Bool :=
  beginsWith needle.reverse text.reverse

theorem beginsWith_iff_prefix {needle text : List Char} :
    beginsWith needle text = true ↔ needle <+: text := by
  induction needle generalizing text with
  | nil => simp [beginsWith]
  | cons n ns ih =>
    cases text with
    | nil => simp [beginsWith]
    | cons c cs => simp [beginsWith, ih, List.cons_prefix_cons]

/-- Occurring somewhere is the relation of infixes: no place is missed and none is made up. -/
theorem occursIn_iff_infix {needle text : List Char} :
    occursIn needle text = true ↔ needle <:+: text := by
  induction text with
  | nil => simp [occursIn]
  | cons c cs ih => simp [occursIn, beginsWith_iff_prefix, ih, List.infix_cons_iff]

theorem endsWith_iff_suffix {needle text : List Char} :
    endsWith needle text = true ↔ needle <:+ text := by
  rw [endsWith, beginsWith_iff_prefix, List.reverse_prefix]

/-- How often a character stands in a text. -/
def countChar (c : Char) (s : String) : Nat :=
  s.toList.count c

/-- `s` has the character `c`. -/
def hasChar (c : Char) (s : String) : Bool :=
  s.toList.contains c

/-! ## Replacing single characters -/

/-- Every character replaced by the text that `f` gives for it. -/
def expandChars (f : Char → List Char) (s : String) : String :=
  String.ofList (s.toList.flatMap f)

/-! ## Order -/

/-- Texts are ordered by the code points of their characters. -/
def comesBefore : List Char → List Char → Bool
  | _, [] => false
  | [], _ :: _ => true
  | a :: as, b :: bs => a.val < b.val || (a == b && comesBefore as bs)

/-- The texts in code point order. -/
def sorted (texts : List String) : List String :=
  texts.mergeSort fun a b => !comesBefore b.toList a.toList

end Warden.Text
