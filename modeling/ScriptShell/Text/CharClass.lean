/-! # Classes of characters

Blank characters, and sets of characters given by inclusive code point ranges. `isBlank` is the
`White_Space` property; `CodeRanges` is the shape in which the larger properties of this library are
tabulated. -/

namespace ScriptShell.Text

/-- A set of characters as inclusive code point ranges, in increasing order. -/
abbrev CodeRanges := List (Nat × Nat)

/-- Whether `c` lies in one of the ranges. -/
def CodeRanges.has (ranges : CodeRanges) (c : Char) : Bool :=
  ranges.any fun range => range.1 ≤ c.toNat && c.toNat ≤ range.2

/-- The blank characters outside ASCII. -/
def wideBlanks : CodeRanges :=
  [(0x85, 0x85), (0xa0, 0xa0), (0x1680, 0x1680), (0x2000, 0x200a), (0x2028, 0x2029),
   (0x202f, 0x202f), (0x205f, 0x205f), (0x3000, 0x3000)]

/-- Characters with the `White_Space` property: tab to carriage return, the space, and the blanks
outside ASCII. -/
def isBlank (c : Char) : Bool :=
  c == ' ' || (0x09 ≤ c.toNat && c.toNat ≤ 0x0d) || (0x80 ≤ c.toNat && wideBlanks.has c)

/-! ## Trimming -/

/-- Drops leading blanks. -/
def trimStart (text : List Char) : List Char :=
  text.dropWhile isBlank

/-- Drops the longest suffix whose characters all satisfy `drop`. -/
def dropEndWhile (drop : Char → Bool) (text : List Char) : List Char :=
  (text.reverse.dropWhile drop).reverse

/-- Drops trailing blanks. -/
def trimEnd (text : List Char) : List Char :=
  dropEndWhile isBlank text

/-- Drops leading and trailing blanks. -/
def trim (text : List Char) : List Char :=
  trimEnd (trimStart text)

/-! ## Affixes -/

/-- What follows `lead` in `text`, when `text` starts with it. -/
def dropLead? : List Char → List Char → Option (List Char)
  | [], text => some text
  | _ :: _, [] => none
  | c :: lead, d :: text => if c = d then dropLead? lead text else none

/-- What precedes `tail` in `text`, when `text` ends with it. -/
def dropTail? (tail text : List Char) : Option (List Char) :=
  (dropLead? tail.reverse text.reverse).map List.reverse

/-- Whether `needle` occurs in `text` as a contiguous part; the empty text occurs everywhere. -/
def hasPart (needle : List Char) : List Char → Bool
  | [] => needle.isEmpty
  | c :: text => needle.isPrefixOf (c :: text) || hasPart needle text

@[simp] theorem dropLead?_nil (text : List Char) : dropLead? [] text = some text := by
  cases text <;> rfl

/-- A text starts with `lead` exactly when it is `lead` followed by what is left. -/
theorem dropLead?_eq_some_iff {lead text rest : List Char} :
    dropLead? lead text = some rest ↔ text = lead ++ rest := by
  induction lead generalizing text with
  | nil => simp [eq_comm]
  | cons c lead ih =>
    cases text with
    | nil => simp [dropLead?]
    | cons d text => by_cases h : c = d <;> simp_all [dropLead?, eq_comm]

end ScriptShell.Text
