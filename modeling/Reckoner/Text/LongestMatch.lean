/-!
# The longest spelling

A table gives each of its entries a spelling. At a text, the entry that counts
is the one with the longest spelling the text begins with; of two entries with
equally long spellings, the one listed first.
-/

namespace Reckoner.Text

/-- The text begins with the given spelling. -/
def startsWith (spelling : String) (text : List Char) : Bool :=
  spelling.toList.isPrefixOf text

/-- The entry in place of the best one so far, if the text begins with it and
    it is longer. -/
def longer {α : Type} (spelling : α → String) (text : List Char) (best : Option α) (entry : α) :
    Option α :=
  if startsWith (spelling entry) text &&
      best.all (fun b => (spelling b).length < (spelling entry).length) then
    some entry
  else best

/-- The entry of the table with the longest spelling the text begins with. -/
def longestMatch {α : Type} (spelling : α → String) (table : List α) (text : List Char) :
    Option α :=
  table.foldl (longer spelling text) none

end Reckoner.Text
