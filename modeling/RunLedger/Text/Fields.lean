/-!
# Texts cut at a mark

A mark divides a text of characters or bytes: into what stands before its first occurrence and what
stands behind, or into all the fields between its occurrences.

## Main definitions

* `Text.cut`: the text before the first mark and the text behind it.
* `Text.fields`: the texts between the marks.
-/

namespace RunLedger.Text

variable {α : Type} [DecidableEq α]

/-- The text before the first occurrence of a mark, and the text behind it. -/
def cut (mark : α) (cs : List α) : List α × List α :=
  (cs.takeWhile (· != mark), (cs.dropWhile (· != mark)).drop 1)

/-- The texts between the occurrences of a mark, one more than there are marks. -/
def fields (mark : α) : List α → List (List α)
  | [] => [[]]
  | c :: cs =>
    if c = mark then [] :: fields mark cs
    else
      match fields mark cs with
      | [] => [[c]]
      | f :: fs => (c :: f) :: fs

end RunLedger.Text
