import Mathlib.Data.Int.Notation
import Mathlib.Data.List.Basic
import Mathlib.Tactic.Common

set_option relaxedAutoImplicit false
set_option autoImplicit false

/-!
# The configuration file

The class `Config` (`Shared/Config/Config.cpp`): a file of lines `key = value`, read once at start.

## Main definitions

* `SteerStone.Config.reload` — `Reload`.
* `SteerStone.Config.getStringDefault`, `SteerStone.Config.getIntDefault` — the settings.

## Implementation notes

* The characters of the file are those of the classic locale; a lower case letter is found for a
  letter of ASCII only.
* `m_Entries` is a list in which the last assignment of a key comes first.
-/

namespace SteerStone

/-- `m_Entries`: keys and values. -/
abbrev Config := List (List Char × List Char)

namespace Config

/-- `std::isspace`. -/
def isSpace (c : Char) : Bool := c = ' ' ∨ (9 ≤ c.toNat ∧ c.toNat ≤ 13)

/-- `boost::algorithm::trim_left`. -/
def trimLeft (s : List Char) : List Char := s.dropWhile isSpace

/-- `boost::algorithm::trim_copy_if`. -/
def trimCopyIf (p : Char → Bool) (s : List Char) : List Char :=
  ((s.dropWhile p).reverse.dropWhile p).reverse

/-- `boost::algorithm::to_lower_copy`. -/
def toLowerCopy (s : List Char) : List Char := s.map Char.toLower

/-- What a line is: nothing, an entry, or neither. -/
inductive Line where
  | skipped
  | entry (key value : List Char)
  | malformed
  deriving DecidableEq, Repr

/-- One round of the loop of `Reload`. -/
def readLine (line : List Char) : Line :=
  let line := trimLeft line
  if line = [] then .skipped
  else if line.head? = some '#' ∨ line.head? = some '[' then .skipped
  else if '=' ∈ line then
    .entry (trimCopyIf isSpace (toLowerCopy (line.takeWhile (· ≠ '='))))
      (trimCopyIf (· = '"') (trimCopyIf isSpace ((line.dropWhile (· ≠ '=')).drop 1)))
  else .malformed

/-- The loop of `Reload`, from a line on; it ends with false at a line that is neither. -/
def readLines : List (List Char) → Config → Option Config
  | [], entries => some entries
  | line :: lines, entries =>
    match readLine line with
    | .skipped => readLines lines entries
    | .entry key value => readLines lines ((key, value) :: entries)
    | .malformed => none

/-- `Reload`, on the text of a file that can be opened: the entries, or false. -/
def reload (text : String) : Option Config := readLines (text.toList.splitOn '\n') []

/-- `IsSet`. -/
def isSet (config : Config) (name : String) : Bool :=
  (List.lookup (toLowerCopy name.toList) config).isSome

/-- `GetStringDefault`. -/
def getStringDefault (config : Config) (name default : String) : String :=
  match List.lookup (toLowerCopy name.toList) config with
  | some value => String.ofList value
  | none => default

/-- `std::stoi`: it throws when there is no number or it is no `int32`. -/
def stoi (text : List Char) : Option ℤ :=
  let text := trimLeft text
  let negative := text.head? = some '-'
  let signed := text.head? = some '-' ∨ text.head? = some '+'
  let digits := (if signed then text.drop 1 else text).takeWhile Char.isDigit
  let value : ℤ := digits.foldl (fun n c => 10 * n + (c.toNat - 48 : ℕ)) 0
  let value := if negative then -value else value
  if digits = [] ∨ value < -2147483648 ∨ 2147483647 < value then none else some value

/-- `GetIntDefault`, unless `std::stoi` throws. -/
def getIntDefault (config : Config) (name : String) (default : ℤ) : Option ℤ :=
  stoi (config.getStringDefault name (toString default)).toList

end Config

end SteerStone
