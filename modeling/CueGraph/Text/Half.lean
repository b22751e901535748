/-!
# Texts with halves of surrogate pairs

A document can name half of a surrogate pair without the other half. Such a half is no character,
but a text can hold it, and then the text cannot be encoded. In a text of this library a half is
spelled with two characters: `mark`, which is the last of all characters, and one that bears the
number of the half. For this reason the character `mark` itself is spelled twice.

Main statements: `points_spelling` (what is spelled is read again) and `encode?_ofChars` (what is
made of characters is encoded as these characters).
-/

namespace CueGraph.Text

/-- The character in front of the one that bears the number of a half. -/
def mark : Char := Char.ofNat 0x10FFFF

/-- What a text is made of: characters, and halves of surrogate pairs, counted from 0xd800. -/
inductive Point where
  | char (c : Char)
  | half (number : Fin 0x800)
  deriving DecidableEq

/-- The characters with which a text holds a point. -/
def Point.spelling : Point → List Char
  | char c => if c = mark then [mark, mark] else [c]
  | half number => [mark, Char.ofNat (0x100000 + number)]

/-- The number that a character behind a mark bears. -/
def halfNumber? (c : Char) : Option (Fin 0x800) :=
  if h : 0x100000 ≤ c.toNat ∧ c.toNat < 0x100800 then some ⟨c.toNat - 0x100000, by omega⟩ else none

/-- What the characters of a text stand for. A mark that announces nothing stands for itself. -/
def points : List Char → List Point
  | [] => []
  | [c] => [.char c]
  | c :: d :: rest =>
    if c = mark then
      if d = mark then .char mark :: points rest
      else
        match halfNumber? d with
        | some number => .half number :: points rest
        | none => .char c :: points (d :: rest)
    else .char c :: points (d :: rest)

def Point.char? : Point → Option Char
  | char c => some c
  | half _ => none

/-- The characters of a text, when it is made of characters alone. -/
def encode? (s : String) : Option (List Char) := (points s.toList).mapM Point.char?

/-- Whether a text can be encoded. -/
def isEncodable (s : String) : Bool := (encode? s).isSome

/-- The text that is made of these characters. -/
def ofChars (cs : List Char) : String := String.ofList (cs.flatMap fun c => (Point.char c).spelling)

theorem toNat_halfChar (number : Fin 0x800) :
    (Char.ofNat (0x100000 + number)).toNat = 0x100000 + number := by
  have hvalid : (0x100000 + number.val).isValidChar := .inr ⟨by omega, by omega⟩
  rw [Char.ofNat, dif_pos hvalid]
  rfl

theorem halfNumber?_ofNat (number : Fin 0x800) :
    halfNumber? (Char.ofNat (0x100000 + number)) = some number := by
  have hnat := toNat_halfChar number
  simp only [halfNumber?, hnat]
  rw [dif_pos ⟨by omega, by omega⟩]
  simp

theorem points_cons_of_ne {c : Char} (h : c ≠ mark) (rest : List Char) :
    points (c :: rest) = .char c :: points rest := by
  cases rest with
  | nil => rfl
  | cons d rest => rw [points, if_neg h]

theorem points_spelling (ps : List Point) : points (ps.flatMap Point.spelling) = ps := by
  induction ps with
  | nil => rfl
  | cons p ps ih =>
    rw [List.flatMap_cons]
    cases p with
    | char c =>
      rw [Point.spelling]
      split
      · next hmark =>
        rw [List.cons_append, List.cons_append, points, if_pos rfl, if_pos rfl, hmark,
          List.nil_append, ih]
      · next hne => rw [List.singleton_append, points_cons_of_ne hne, ih]
    | half number =>
      have hne : Char.ofNat (0x100000 + number) ≠ mark := by
        intro heq
        have hnat : 0x10FFFF = 0x100000 + number.val :=
          (congrArg Char.toNat heq).symm.trans (toNat_halfChar number)
        omega
      rw [Point.spelling, List.cons_append, List.cons_append, points, if_pos rfl, if_neg hne,
        halfNumber?_ofNat, List.nil_append]
      dsimp only
      rw [ih]

/-- Characters make a text that is encoded as these characters. -/
theorem encode?_ofChars (cs : List Char) : encode? (ofChars cs) = some cs := by
  have hpoints : points (ofChars cs).toList = cs.map Point.char := by
    rw [ofChars, String.toList_ofList, ← List.flatMap_map Point.char, points_spelling]
  have hchars : ∀ cs : List Char, (cs.map Point.char).mapM Point.char? = some cs := by
    intro cs
    induction cs with
    | nil => rfl
    | cons c rest ih =>
      rw [List.map_cons, List.mapM_cons, ih]
      rfl
  rw [encode?, hpoints, hchars]

end CueGraph.Text
