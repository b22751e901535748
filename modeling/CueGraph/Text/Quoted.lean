/-!
# Literals of the script

Two kinds of text literal occur in a script. A string literal stands between double quotes, with a
backslash in front of every double quote and every backslash. A template literal stands between
back-ticks, with a backslash in front of every back-tick.

Main statement: `unescape_escapeString` (the escapes of a string literal read back as the text).
-/

namespace CueGraph.Text

/-- The characters of a string literal: a backslash stands in front of each backslash and each
double quote. -/
def escapeStringChars : List Char → List Char
  | [] => []
  | c :: rest =>
    if c = '\\' ∨ c = '"' then '\\' :: c :: escapeStringChars rest else c :: escapeStringChars rest

/-- The characters of a template literal: a backslash stands in front of each back-tick. -/
def escapeTemplateChars : List Char → List Char
  | [] => []
  | c :: rest =>
    if c = '\x60' then '\\' :: c :: escapeTemplateChars rest else c :: escapeTemplateChars rest

/-- A text as it stands inside a string literal. -/
def escapeString (s : String) : String := String.ofList (escapeStringChars s.toList)

/-- A text as it stands inside a template literal. -/
def escapeTemplate (s : String) : String := String.ofList (escapeTemplateChars s.toList)

def quote (s : String) : String := "\"" ++ escapeString s ++ "\""

def templateLiteral (s : String) : String := "\x60" ++ escapeTemplate s ++ "\x60"

/-- Reads the inside of a string literal: a backslash stands for the character after it. -/
def unescapeChars : List Char → List Char
  | [] => []
  | ['\\'] => []
  | '\\' :: c :: rest => c :: unescapeChars rest
  | c :: rest => c :: unescapeChars rest

theorem unescape_escapeString (cs : List Char) : unescapeChars (escapeStringChars cs) = cs := by
  induction cs with
  | nil => rfl
  | cons c rest ih =>
    by_cases h : c = '\\' ∨ c = '"'
    · simp [escapeStringChars, h, unescapeChars, ih]
    · rw [escapeStringChars, if_neg h]
      rw [unescapeChars.eq_4 c (escapeStringChars rest) (by simp_all) (by simp_all), ih]

end CueGraph.Text
