import CueGraph.Script.Text

/-!
# Where an entry stands in a script

The lines of a script are those that open it, those of its entries one after the other, and those
that close it. So the lines of one entry stand in one piece, its declarations in front, between what
the earlier entries make and what the later ones make (`scriptLines_split`). More entries behind
leave what is written in front as it is (`render_append`).
-/

namespace CueGraph

namespace Entry

/-- The lines of an entry as they stand in the script, without its declarations. -/
def ended : Entry → List String
  | block b => endChain b.lines
  | statement s => s.lines

theorem written_eq (e : Entry) : e.written = e.declarations ++ e.ended := by
  cases e with
  | block b => rfl
  | statement s => rfl

theorem length_endChain (lines : List String) : (endChain lines).length = lines.length := by
  induction lines with
  | nil => rfl
  | cons line rest ih =>
    cases rest with
    | nil => rfl
    | cons next rest => exact congrArg (· + 1) ih

theorem ended_ne_nil {e : Entry} (h : e.lines ≠ []) : e.ended ≠ [] := by
  cases e with
  | block b =>
    intro hnil
    have hlength := length_endChain b.lines
    rw [show endChain b.lines = [] from hnil] at hlength
    exact h (List.length_eq_zero_iff.1 hlength.symm)
  | statement s => exact h

theorem written_ne_nil {e : Entry} (h : e.lines ≠ []) : e.written ≠ [] := by
  rw [written_eq]
  exact List.append_ne_nil_of_right_ne_nil _ (ended_ne_nil h)

/-- What keeps two entries apart. -/
def gap (separate : Bool) : List String := if separate then [""] else []

/-- The groups of lines that entries make; an entry that leaves no trace makes none. -/
def groups (entries : List Entry) : List (List String) :=
  (entries.map written).filter (!·.isEmpty)

/-- What entries leave in front of a later one. -/
def inFront (separate : Bool) (entries : List Entry) : List String :=
  (groups entries).flatMap (· ++ gap separate)

/-- What entries leave behind an earlier one. -/
def behind (separate : Bool) (entries : List Entry) : List String :=
  (groups entries).flatMap (gap separate ++ ·)

theorem intercalate_cons {sep group : List String} {groups : List (List String)} :
    sep.intercalate (group :: groups) = group ++ groups.flatMap (sep ++ ·) := by
  induction groups generalizing group with
  | nil => rw [List.intercalate_singleton, List.flatMap_nil, List.append_nil]
  | cons next rest ih =>
    rw [List.intercalate_cons_cons, ih, List.flatMap_cons, List.append_assoc, List.append_assoc]

theorem joinGroups_split (separate : Bool) (earlier : List (List String)) (group : List String)
    (later : List (List String)) :
    joinGroups separate (earlier ++ group :: later) =
      earlier.flatMap (· ++ gap separate) ++ group ++ later.flatMap (gap separate ++ ·) := by
  cases separate with
  | false => simp [joinGroups, gap, List.flatMap_def]
  | true =>
    induction earlier with
    | nil => exact intercalate_cons
    | cons first rest ih =>
      -- something follows the first group, so the gap does
      have hcons : joinGroups true (first :: rest ++ group :: later) =
          first ++ gap true ++ joinGroups true (rest ++ group :: later) := by
        cases rest with
        | nil => exact List.intercalate_cons_cons
        | cons next rest => exact List.intercalate_cons_cons
      rw [hcons, ih, List.flatMap_cons]
      simp only [List.append_assoc]

/-- Groups keep to themselves: what comes behind is kept apart from what is there. -/
theorem joinGroups_append (separate : Bool) {a b : List (List String)} (ha : a ≠ []) (hb : b ≠ []) :
    joinGroups separate (a ++ b) =
      joinGroups separate a ++ gap separate ++ joinGroups separate b := by
  obtain ⟨first, rest, rfl⟩ := List.exists_cons_of_ne_nil hb
  obtain ⟨front, last, rfl⟩ := (List.eq_nil_or_concat a).resolve_left ha
  have hfront : joinGroups separate (front ++ [last]) =
      front.flatMap (· ++ gap separate) ++ last := by
    simpa using joinGroups_split separate front last []
  have hback : joinGroups separate (first :: rest) =
      first ++ rest.flatMap (gap separate ++ ·) := joinGroups_split separate [] first rest
  -- the first group behind is one that follows the last in front
  have hall := joinGroups_split separate front last (first :: rest)
  rw [List.flatMap_cons] at hall
  rw [List.concat_eq_append, hfront, hback, List.append_assoc front, List.singleton_append, hall]
  simp only [List.append_assoc]

/-- More entries behind change nothing of what is written for those in front. -/
theorem body_append (separate : Bool) (a b : List Entry) :
    ∃ more, body separate (a ++ b) = body separate a ++ more := by
  have hgroups : groups (a ++ b) = groups a ++ groups b := by
    rw [groups, List.map_append, List.filter_append]
    rfl
  rw [body, body, ← groups, ← groups, hgroups]
  by_cases ha : groups a = []
  · rw [ha, List.nil_append]
    exact ⟨joinGroups separate (groups b), by cases separate <;> rfl⟩
  · by_cases hb : groups b = []
    · exact ⟨[], by rw [hb, List.append_nil, List.append_nil]⟩
    · exact ⟨_, (joinGroups_append separate ha hb).trans (List.append_assoc ..)⟩

/-- Without a frame around it, the text of a script goes on where that of a shorter one ends. -/
theorem render_append (separate : Bool) (a b : List Entry) :
    ∃ more, render { wrap := false, separate } (a ++ b) =
      render { wrap := false, separate } a ++ more := by
  obtain ⟨more, hmore⟩ := body_append separate a b
  refine ⟨String.join (more.map (· ++ "\n")), ?_⟩
  have hlines : ∀ entries,
      scriptLines { wrap := false, separate } entries = body separate entries := fun _ => rfl
  rw [render, render, hlines, hlines, hmore, List.map_append, String.join_append]

theorem body_split (separate : Bool) {earlier later : List Entry} {e : Entry}
    (he : e.written ≠ []) :
    body separate (earlier ++ e :: later) =
      inFront separate earlier ++ e.written ++ behind separate later := by
  have hgroups : groups (earlier ++ e :: later) = groups earlier ++ e.written :: groups later := by
    rw [groups, List.map_append, List.filter_append, List.map_cons,
      List.filter_cons_of_pos (by simpa using he)]
    rfl
  rw [body, ← groups, hgroups]
  exact joinGroups_split separate _ _ _

/-- The lines that open a script. -/
def opening (style : ScriptStyle) : List String := if style.wrap then [openingLine, ""] else []

/-- The lines that close a script. -/
def closing (style : ScriptStyle) : List String := if style.wrap then ["", closingLine] else []

/-- The lines of an entry stand in one piece, its declarations in front. -/
theorem scriptLines_split (style : ScriptStyle) {earlier later : List Entry} {e : Entry}
    (he : e.written ≠ []) :
    scriptLines style (earlier ++ e :: later) =
      opening style ++ inFront style.separate earlier ++ e.declarations ++ e.ended ++
        behind style.separate later ++ closing style := by
  have hbody : body style.separate (earlier ++ e :: later) = _ := body_split style.separate he
  have hne : body style.separate (earlier ++ e :: later) ≠ [] := by
    rw [hbody]
    intro hnil
    exact he (List.append_eq_nil_iff.1 (List.append_eq_nil_iff.1 hnil).1).2
  rw [scriptLines, opening, closing]
  cases style.wrap with
  | false => simp [hbody, written_eq]
  | true =>
    rw [if_neg (by simp), if_neg (by simpa using hne), hbody, written_eq]
    simp

end Entry

end CueGraph
