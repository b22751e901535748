import CueGraph.Call

/-!
# Items between commas

The items of a text are its pieces between commas, without the blanks around them and without the
blank pieces. So an item can stand in a list as it is (`IsItem`), the items of two texts with a
comma between them are those of each (`commaItems_append`), and items that are written with commas
between them, with or without blanks behind the commas, are read back (`commaItems_intercalate`).

Main statement: `items_normal`.
-/

namespace CueGraph

namespace Text

/-! ## Trimming what is trimmed -/

/-- The characters begin with none that is blank, and end with none. -/
structure Trimmed (cs : List Char) : Prop where
  front : ∀ c, cs.head? = some c → isBlankChar c = false
  behind : ∀ c, cs.getLast? = some c → isBlankChar c = false

variable {cs : List Char}

theorem Trimmed.dropBlank_eq (h : Trimmed cs) : dropBlank cs = cs := by
  rw [dropBlank, dropWhile_of_head?_not_blank h.front, dropBlankEnd_eq_self h.behind]

/-- Blanks in front of what is trimmed are cut off. -/
theorem Trimmed.dropBlank_append (h : Trimmed cs) {blanks : List Char}
    (hblanks : ∀ c ∈ blanks, isBlankChar c = true) : dropBlank (blanks ++ cs) = cs := by
  rw [dropBlank, List.dropWhile_append_of_pos hblanks]
  exact h.dropBlank_eq

theorem dropBlank_sublist (cs : List Char) : (dropBlank cs).Sublist cs := by
  obtain ⟨tail, htail, -⟩ := dropBlankEnd_append (cs.dropWhile isBlankChar)
  have hstart : (dropBlank cs).Sublist (cs.dropWhile isBlankChar) := by
    rw [htail]
    exact List.sublist_append_left _ _
  exact hstart.trans (List.dropWhile_sublist _)

theorem trimmed_dropBlank (cs : List Char) : Trimmed (dropBlank cs) where
  front := by
    intro c hc
    -- the first character stays the first when the end is cut off
    obtain ⟨tail, htail, -⟩ := dropBlankEnd_append (cs.dropWhile isBlankChar)
    have hfirst : (cs.dropWhile isBlankChar).head? = some c := by
      rw [htail, List.head?_append, ← dropBlank, hc, Option.some_or]
    have hnot := List.head?_dropWhile_not isBlankChar cs
    rw [hfirst] at hnot
    simpa using hnot
  behind := fun _ hc => not_isBlankChar_getLast _ hc

/-! ## Pieces -/

theorem not_mem_of_mem_pieces {separator : Char} {piece : List Char}
    (h : piece ∈ pieces separator cs) : separator ∉ piece := by
  induction cs generalizing piece with
  | nil =>
    obtain rfl := List.mem_singleton.1 h
    exact List.not_mem_nil
  | cons c rest ih =>
    by_cases hc : c = separator
    · rw [pieces, if_pos hc] at h
      rcases List.mem_cons.1 h with rfl | h
      · exact List.not_mem_nil
      · exact ih h
    · rw [pieces, if_neg hc] at h
      cases hp : pieces separator rest with
      | nil => exact absurd hp (pieces_ne_nil separator rest)
      | cons first more =>
        rw [hp] at h ih
        rcases List.mem_cons.1 h with rfl | h
        · have hfirst : separator ∉ first := ih List.mem_cons_self
          exact List.not_mem_cons_of_ne_of_not_mem (Ne.symm hc) hfirst
        · exact ih (List.mem_cons_of_mem _ h)

theorem pieces_of_not_mem {separator : Char} (h : separator ∉ cs) : pieces separator cs = [cs] := by
  induction cs with
  | nil => rfl
  | cons c rest ih =>
    rw [List.mem_cons, not_or] at h
    rw [pieces, if_neg (Ne.symm h.1), ih h.2]

/-! ## Items -/

/-- A text that can stand as an item of a list: it is not blank, holds no comma, and has no blank
character at either end. -/
structure IsItem (s : String) : Prop where
  shown : isBlank s = false
  noComma : ',' ∉ s.toList
  trimmed : Trimmed s.toList

theorem items_append (texts more : List String) :
    items (texts ++ more) = items texts ++ items more := by
  rw [items, List.map_append, List.filter_append]
  rfl

/-- The items of two texts with a comma between them are those of each. -/
theorem commaItems_append (a b : String) :
    commaItems (a ++ "," ++ b) = commaItems a ++ commaItems b := by
  have hlist : (a ++ "," ++ b).toList = a.toList ++ ',' :: b.toList := by
    rw [String.toList_append, String.toList_append, List.append_assoc]
    rfl
  rw [commaItems, hlist, pieces_append, List.map_append, items_append]
  rfl

theorem isItem_of_mem {s item : String} (h : item ∈ commaItems s) : IsItem item := by
  obtain ⟨hm, hempty⟩ := List.mem_filter.1 h
  obtain ⟨text, htext, rfl⟩ := List.mem_map.1 hm
  obtain ⟨piece, hpiece, rfl⟩ := List.mem_map.1 htext
  have hlist : (trim (String.ofList piece)).toList = dropBlank piece := by
    rw [trim, String.toList_ofList, String.toList_ofList]
  have htrimmed : Trimmed (trim (String.ofList piece)).toList := by
    rw [hlist]
    exact trimmed_dropBlank piece
  refine ⟨?_, ?_, htrimmed⟩
  · -- a text that is trimmed and not empty is not blank
    rw [← Bool.not_eq_true, ← trim_eq_empty, trim, htrimmed.dropBlank_eq, String.ofList_toList]
    simpa using hempty
  · rw [hlist]
    intro hcomma
    exact not_mem_of_mem_pieces hpiece ((dropBlank_sublist piece).subset hcomma)

theorem commaItems_of_isBlank {s : String} (h : isBlank s = true) : commaItems s = [] := by
  have hcomma : ',' ∉ s.toList := by
    intro hm
    have hblank := List.all_eq_true.1 h ',' hm
    exact absurd hblank (by decide)
  have htrim : trim s = "" := trim_eq_empty.2 h
  rw [commaItems, pieces_of_not_mem hcomma, List.map_singleton, String.ofList_toList, items,
    List.map_singleton, htrim]
  rfl

/-- An item behind blanks is the one item of its text. -/
theorem IsItem.commaItems_eq {s : String} (h : IsItem s) {blanks : String}
    (hblanks : isBlank blanks = true) : commaItems (blanks ++ s) = [s] := by
  have hblank := List.all_eq_true.1 hblanks
  have hcomma : ',' ∉ (blanks ++ s).toList := by
    rw [String.toList_append, List.mem_append, not_or]
    refine ⟨fun hm => ?_, h.noComma⟩
    exact absurd (hblank ',' hm) (by decide)
  have htrim : trim (blanks ++ s) = s := by
    rw [trim, String.toList_append, h.trimmed.dropBlank_append hblank, String.ofList_toList]
  have hne : s.isEmpty = false := by
    rw [← Bool.not_eq_true, String.isEmpty_iff]
    rintro rfl
    exact absurd h.shown (by decide)
  rw [commaItems, pieces_of_not_mem hcomma, List.map_singleton, String.ofList_toList, items,
    List.map_singleton, htrim, List.filter_cons_of_pos (by rw [hne]; rfl), List.filter_nil]

/-- Items are read back from the text in which commas stand between them, whatever blanks follow the
commas. -/
theorem commaItems_intercalate {blanks : String} (hblanks : isBlank blanks = true)
    {list : List String} (hlist : ∀ item ∈ list, IsItem item) :
    commaItems (("," ++ blanks).intercalate list) = list := by
  -- behind the first comma the text goes on with blanks
  have hbehind : ∀ before, isBlank before = true →
      commaItems (before ++ ("," ++ blanks).intercalate list) = list := by
    induction list with
    | nil =>
      intro before hbefore
      rw [String.intercalate_nil, String.append_empty]
      exact commaItems_of_isBlank hbefore
    | cons item rest ih =>
      intro before hbefore
      obtain ⟨hitem, hrest⟩ := List.forall_mem_cons.1 hlist
      cases rest with
      | nil =>
        rw [String.intercalate_singleton]
        exact hitem.commaItems_eq hbefore
      | cons next more =>
        rw [String.intercalate_cons_cons]
        calc commaItems (before ++ (item ++ ("," ++ blanks) ++
                ("," ++ blanks).intercalate (next :: more)))
            = commaItems (before ++ item ++ "," ++
                (blanks ++ ("," ++ blanks).intercalate (next :: more))) := by
              simp only [String.append_assoc]
          _ = commaItems (before ++ item) ++
                commaItems (blanks ++ ("," ++ blanks).intercalate (next :: more)) :=
              commaItems_append _ _
          _ = [item] ++ (next :: more) := by
              rw [hitem.commaItems_eq hbefore, ih hrest blanks hblanks]
  simpa using hbehind "" rfl

end Text

open Text

/-! ## Main theorem -/

/-- The items of a text are not blank, hold no comma, and have no blank character at either end. The
items of two texts with a comma between them are those of the one and then those of the other. Such
items are read back from the text in which commas stand between them, with or without a blank
behind each, so nothing changes when the items of a text are put together and cut apart again. -/
theorem items_normal :
    (∀ s, ∀ item ∈ splitItems (.str s), IsItem item) ∧
    (∀ a b, splitItems (.str (a ++ "," ++ b)) = splitItems (.str a) ++ splitItems (.str b)) ∧
    (∀ list, (∀ item ∈ list, IsItem item) →
      splitItems (.str (",".intercalate list)) = list ∧
        splitItems (.str (", ".intercalate list)) = list) ∧
    ∀ s, splitItems (.str (",".intercalate (splitItems (.str s)))) = splitItems (.str s) ∧
      splitItems (.str (", ".intercalate (splitItems (.str s)))) = splitItems (.str s) := by
  have hitems : ∀ s, ∀ item ∈ splitItems (.str s), IsItem item := fun s item h => isItem_of_mem h
  have hback : ∀ list, (∀ item ∈ list, IsItem item) →
      splitItems (.str (",".intercalate list)) = list ∧
        splitItems (.str (", ".intercalate list)) = list := fun list hlist =>
    ⟨commaItems_intercalate (show isBlank "" = true from rfl) hlist,
      commaItems_intercalate (show isBlank " " = true from rfl) hlist⟩
  exact ⟨hitems, commaItems_append, hback, fun s => hback _ (hitems s)⟩

/-- Two users between blanks, with an empty place between them. -/
theorem items_normal_users :
    (∀ item ∈ ["Ann Lee", "Bo"], IsItem item) ∧
      splitItems (.str " Ann Lee ,, Bo\t") = ["Ann Lee", "Bo"] ∧
      splitItems (.str (", ".intercalate ["Ann Lee", "Bo"])) = ["Ann Lee", "Bo"] := by
  have husers : splitItems (.str " Ann Lee ,, Bo\t") = ["Ann Lee", "Bo"] := by decide +kernel
  obtain ⟨hitems, -, hback, -⟩ := items_normal
  have hlist : ∀ item ∈ ["Ann Lee", "Bo"], IsItem item := by
    rw [← husers]
    exact hitems _
  exact ⟨hlist, husers, (hback _ hlist).2⟩

end CueGraph
