/-!
# Column names

Columns are named by letters in bijective base 26, a number system without a zero: `A` to `Z` count
1 to 26, and each further letter on the left weighs 26 times as much.
-/

namespace FormulaSheet

/-- The letter that counts `digit + 1`. -/
def columnLetter (digit : Nat) : Char := Char.ofNat ('A'.toNat + digit)

/-- The letters of a number in bijective base 26, followed by `suffix`. -/
def columnLetters (number : Nat) (suffix : List Char) : List Char :=
  if number = 0 then suffix
  else columnLetters ((number - 1) / 26) (columnLetter ((number - 1) % 26) :: suffix)
termination_by number
decreasing_by omega

/-- The name of the column at an index from 0. -/
def columnName (index : Nat) : String := String.ofList (columnLetters (index + 1) [])

end FormulaSheet
