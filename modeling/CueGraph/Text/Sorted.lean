/-!
# Sorted sets of texts

`sortedSet` puts texts in the order of their code points and keeps each once.
-/

namespace CueGraph.Text

/-- Texts in ascending order, each once. -/
def sortedSet (texts : List String) : List String := texts.eraseDups.mergeSort (· ≤ ·)

end CueGraph.Text
