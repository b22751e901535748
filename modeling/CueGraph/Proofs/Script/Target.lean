import CueGraph.Proofs.Json.Literal
import CueGraph.Proofs.Number.Numerals

/-!
# Target expressions

Every mode has an opening that all expressions of its targets start with, and no opening starts with
another (`opening_starts`). So an expression tells the mode of its target, and what stands behind
the opening tells the rest: the literal of a text tells the text, and a numeral tells its number up
to the sign of zero. Two nodes whose options give one expression select one mode, the two names of
a stored entity apart, and agree on the option that the mode reads (`render_target_inj`).

Main statement: `resolve_exact`.
-/

namespace CueGraph

open Text

/-! ## Openings -/

namespace TargetMode

/-- The mode, where the two names of a stored entity are one. -/
def plain : TargetMode → TargetMode
  | name => storedName
  | mode => mode

/-- What the expressions of a mode start with. -/
def opening : TargetMode → String
  | selectedToken => "canvas.tokens.controlled[0]"
  | selectedTarget => "Array.from(game.user.targets)[0]"
  | tokenId => "canvas.tokens.get("
  | tokenName => "canvas.tokens.placeables.find(t => t.name === "
  | tileId => "canvas.tiles.get("
  | point => "\x7b x: "
  | storedName | name => "\""
  | inToken => "inToken"
  | inTile => "inTile"

theorem mem_all (mode : TargetMode) : mode ∈ all := by
  cases mode <;> simp [all]

theorem opening_starts {m m' : TargetMode} (h : m.opening.toList <+: m'.opening.toList) :
    m.plain = m'.plain := by
  have hall : ∀ m ∈ all, ∀ m' ∈ all,
      m.opening.toList.isPrefixOf m'.opening.toList = true → m.plain = m'.plain := by
    decide +kernel
  exact hall m m.mem_all m' m'.mem_all (List.isPrefixOf_iff_prefix.2 h)

theorem ofKey?_eq_some_iff {s : String} {m : TargetMode} : ofKey? s = some m ↔ s = m.key := by
  constructor
  · intro h
    have hkey := List.find?_some h
    exact (beq_iff_eq.1 hkey).symm
  · rintro rfl
    exact ofKey?_key m

end TargetMode

namespace Target

/-- The mode that gives a target. -/
def mode : Target → TargetMode
  | selectedToken => .selectedToken
  | selectedTarget => .selectedTarget
  | token _ => .tokenId
  | tokenNamed _ => .tokenName
  | tile _ => .tileId
  | point .. => .point
  | stored _ => .storedName
  | inToken => .inToken
  | inTile => .inTile

theorem pointLiteral_eq (x y : Finite) :
    pointLiteral x y = "\x7b x: " ++ (x.numeral ++ ", y: " ++ y.numeral ++ " \x7d") := by
  unfold pointLiteral objectLiteral
  apply String.toList_injective
  simp [String.intercalate_cons_of_ne_nil]

theorem render_starts (t : Target) : t.mode.opening.toList <+: t.render.toList := by
  have hrest : ∃ rest, t.render = t.mode.opening ++ rest := by
    cases t with
    | point x y => exact ⟨_, pointLiteral_eq x y⟩
    | token text => exact ⟨_, String.append_assoc⟩
    | tokenNamed text => exact ⟨_, String.append_assoc⟩
    | tile text => exact ⟨_, String.append_assoc⟩
    | stored text => exact ⟨_, String.append_assoc⟩
    | _ => exact ⟨"", String.append_empty.symm⟩
  obtain ⟨rest, hrest⟩ := hrest
  rw [hrest, String.toList_append]
  exact List.prefix_append _ _

/-- An expression tells the mode of its target. -/
theorem plain_of_render {t u : Target} (h : t.render = u.render) :
    t.mode.plain = u.mode.plain := by
  have ht := t.render_starts
  rw [h] at ht
  rcases List.prefix_or_prefix_of_prefix ht u.render_starts with hstarts | hstarts
  · exact TargetMode.opening_starts hstarts
  · exact (TargetMode.opening_starts hstarts).symm

theorem quoted_inj {front back s t : String} :
    front ++ quote s ++ back = front ++ quote t ++ back ↔ s = t := by
  rw [String.append_left_inj, String.append_right_inj, quote_inj]

theorem not_mem_numeral {c : Char} (hc : isNumeralChar c = false) (x : Finite) :
    c ∉ x.numeral.toList := by
  intro hm
  rw [isNumeralText_numeral x c hm] at hc
  cases hc

/-- The first numeral of a point ends at the only comma. -/
theorem pointLiteral_inj {x y x' y' : Finite} :
    pointLiteral x y = pointLiteral x' y' ↔ x.Same x' ∧ y.Same y' := by
  constructor
  · intro h
    rw [pointLiteral_eq, pointLiteral_eq, String.append_right_inj, String.append_left_inj] at h
    have hchars : x.numeral.toList ++ ',' :: (" y: ".toList ++ y.numeral.toList) =
        x'.numeral.toList ++ ',' :: (" y: ".toList ++ y'.numeral.toList) := by
      simpa using congrArg String.toList h
    have hcomma : ',' ∉ " y: ".toList ++ y.numeral.toList := by
      rw [List.mem_append, not_or]
      exact ⟨by simp, not_mem_numeral rfl y⟩
    rw [List.append_cons_inj_of_notMem (not_mem_numeral rfl x) hcomma] at hchars
    obtain ⟨hx, -, hrest⟩ := hchars
    have hy := List.append_cancel_left hrest
    exact ⟨Finite.numeral_inj.1 (String.toList_inj.1 hx),
      Finite.numeral_inj.1 (String.toList_inj.1 hy)⟩
  · rintro ⟨hx, hy⟩
    unfold pointLiteral
    rw [Finite.numeral_inj.2 hx, Finite.numeral_inj.2 hy]

/-! ## Options -/

variable {c c' : Config} {m m' : TargetMode} {key : String}

/-- The text that names a stored entity: the first of the two names that is not blank. -/
def storedText (c : Config) : String :=
  if c.hasText "storedName" then c.trimmed "storedName" else c.trimmed "name"

/-- The option that the mode needs is not blank. -/
def Filled (c : Config) : TargetMode → Prop
  | .tokenId => isBlank (c.text "tokenId") = false
  | .tokenName => isBlank (c.text "tokenName") = false
  | .tileId => isBlank (c.text "tileId") = false
  | .storedName | .name => isBlank (c.text "storedName") = false ∨ isBlank (c.text "name") = false
  | _ => True

/-- The target that the options give in a mode. -/
def inMode (c : Config) : TargetMode → Target
  | .selectedToken => selectedToken
  | .selectedTarget => selectedTarget
  | .tokenId => token (c.text "tokenId")
  | .tokenName => tokenNamed (c.text "tokenName")
  | .tileId => tile (c.text "tileId")
  | .point => point (c.number "x") (c.number "y")
  | .storedName | .name => stored (storedText c)
  | .inToken => inToken
  | .inTile => inTile

/-- The options agree on what the mode reads: the text of an id or a name, the trimmed name of a
stored entity, or the numbers of a point up to the sign of zero. -/
def SameOption (c c' : Config) : TargetMode → Prop
  | .tokenId => c.text "tokenId" = c'.text "tokenId"
  | .tokenName => c.text "tokenName" = c'.text "tokenName"
  | .tileId => c.text "tileId" = c'.text "tileId"
  | .point => (c.number "x").Same (c'.number "x") ∧ (c.number "y").Same (c'.number "y")
  | .storedName | .name => storedText c = storedText c'
  | _ => True

theorem if_hasText {t u : Target} :
    (if c.hasText key then some u else none) = some t ↔
      isBlank (c.text key) = false ∧ t = u := by
  rw [← Config.hasText_iff, Option.ite_none_right_eq_some, Option.some.injEq, eq_comm (a := u)]

/-- The first name counts, and the second one only when the first is blank. -/
theorem if_stored {t : Target} :
    (if c.hasText "storedName" then some (stored (c.trimmed "storedName"))
      else if c.hasText "name" then some (stored (c.trimmed "name")) else none) = some t ↔
      (isBlank (c.text "storedName") = false ∨ isBlank (c.text "name") = false) ∧
        t = stored (storedText c) := by
  unfold storedText
  by_cases hfirst : c.hasText "storedName" = true
  · rw [if_pos hfirst, if_pos hfirst, Option.some.injEq]
    constructor
    · rintro rfl
      exact ⟨.inl (Config.hasText_iff.1 hfirst), rfl⟩
    · rintro ⟨-, rfl⟩
      rfl
  · have hblank : ¬ isBlank (c.text "storedName") = false := by
      rw [← Config.hasText_iff]
      exact hfirst
    rw [if_neg hfirst, if_neg hfirst, if_hasText, or_iff_right hblank]

theorem ofMode?_eq_some_iff {t : Target} :
    ofMode? c m = some t ↔ Filled c m ∧ t = inMode c m := by
  unfold ofMode? Filled inMode
  cases m with
  | tokenId => exact if_hasText
  | tokenName => exact if_hasText
  | tileId => exact if_hasText
  | storedName => exact if_stored
  | name => exact if_stored
  | _ => simp [eq_comm]

/-! ## Expressions -/

theorem mode_inMode (c : Config) (m : TargetMode) : (inMode c m).mode.plain = m.plain := by
  cases m <;> rfl

theorem inMode_plain (c : Config) (m : TargetMode) : inMode c m.plain = inMode c m := by
  cases m <;> rfl

theorem sameOption_plain : SameOption c c' m.plain ↔ SameOption c c' m := by
  cases m <;> exact Iff.rfl

/-- In one mode, expressions are equal exactly if the options agree on what the mode reads. -/
theorem render_inMode_inj :
    (inMode c m).render = (inMode c' m).render ↔ SameOption c c' m := by
  cases m with
  | tokenId => exact quoted_inj
  | tokenName => exact quoted_inj
  | tileId => exact quoted_inj
  | point => exact pointLiteral_inj
  | storedName => exact quote_inj
  | name => exact quote_inj
  | _ => exact ⟨fun _ => trivial, fun _ => rfl⟩

theorem render_target_inj : (inMode c m).render = (inMode c' m').render ↔
    m.plain = m'.plain ∧ SameOption c c' m := by
  constructor
  · intro h
    have hplain := plain_of_render h
    rw [mode_inMode, mode_inMode] at hplain
    refine ⟨hplain, ?_⟩
    rw [← sameOption_plain, ← render_inMode_inj, inMode_plain, h, hplain, inMode_plain]
  · rintro ⟨hplain, hsame⟩
    rw [← inMode_plain c m, ← inMode_plain c' m', ← hplain, render_inMode_inj, sameOption_plain]
    exact hsame

/-! ## Main theorem -/

/-- The mode that the options select: the option `key`, or the fallback when that is empty. -/
inductive Selects (c : Config) (fallback : Option String) (key : String) : String → Prop
  | own (hne : c.text key ≠ "") : Selects c fallback key (c.text key)
  | fallback {mode : String} (hempty : c.text key = "") (hmode : fallback = some mode) :
    Selects c fallback key mode

variable {allowed : List String} {fallback : Option String} {mode : String}

theorem selects_iff :
    Selects c fallback key mode ↔ modeText c fallback key = some mode := by
  unfold modeText
  by_cases hempty : c.text key = ""
  · rw [if_pos (by simpa using hempty)]
    constructor
    · rintro (hne | ⟨-, hmode⟩)
      · exact absurd hempty hne
      · exact hmode
    · exact .fallback hempty
  · rw [if_neg (by simpa using hempty), Option.some.injEq]
    constructor
    · rintro (- | ⟨hne, -⟩)
      · rfl
      · exact absurd hne hempty
    · rintro rfl
      exact .own hempty

theorem resolve_eq_some_iff {t : Target} :
    resolve c allowed fallback key = some t ↔ ∃ m : TargetMode,
      Selects c fallback key m.key ∧ m.key ∈ allowed ∧ Filled c m ∧ t = inMode c m := by
  unfold resolve
  simp only [Option.bind_eq_bind, Option.bind_eq_some_iff, Option.ite_none_right_eq_some,
    TargetMode.ofKey?_eq_some_iff, ofMode?_eq_some_iff, ← selects_iff]
  constructor
  · rintro ⟨_, hselects, hallowed, m, rfl, hfilled, ht⟩
    exact ⟨m, hselects, hallowed, hfilled, ht⟩
  · rintro ⟨m, hselects, hallowed, hfilled, ht⟩
    exact ⟨m.key, hselects, hallowed, m, rfl, hfilled, ht⟩

/-- An expression comes out exactly if the selected mode is known and allowed and the option that
it needs is not blank. Two nodes have one expression exactly if they select one mode, the two names
of a stored entity apart, and agree on the option that the mode reads. -/
theorem resolve_exact (allowed : List String) (fallback : Option String) (key : String) :
    (∀ c, ((resolve c allowed fallback key).map render).isSome ↔ ∃ m : TargetMode,
      Selects c fallback key m.key ∧ m.key ∈ allowed ∧ Filled c m) ∧
    ∀ c c' e e', (resolve c allowed fallback key).map render = some e →
      (resolve c' allowed fallback key).map render = some e' →
      ∃ m m' : TargetMode, Selects c fallback key m.key ∧ Selects c' fallback key m'.key ∧
        (e = e' ↔ m.plain = m'.plain ∧ SameOption c c' m) := by
  constructor
  · intro c
    rw [Option.isSome_map, Option.isSome_iff_exists]
    constructor
    · rintro ⟨t, ht⟩
      obtain ⟨m, hselects, hallowed, hfilled, -⟩ := resolve_eq_some_iff.1 ht
      exact ⟨m, hselects, hallowed, hfilled⟩
    · rintro ⟨m, hselects, hallowed, hfilled⟩
      exact ⟨inMode c m, resolve_eq_some_iff.2 ⟨m, hselects, hallowed, hfilled, rfl⟩⟩
  · intro c c' e e' he he'
    obtain ⟨t, ht, rfl⟩ := Option.map_eq_some_iff.1 he
    obtain ⟨t', ht', rfl⟩ := Option.map_eq_some_iff.1 he'
    obtain ⟨m, hselects, -, -, rfl⟩ := resolve_eq_some_iff.1 ht
    obtain ⟨m', hselects', -, -, rfl⟩ := resolve_eq_some_iff.1 ht'
    exact ⟨m, m', hselects, hselects', render_target_inj⟩

/-- An entity by the second of its two names, with blanks around it. -/
def hexByName : Config := ⟨[("mode", .str "name"), ("name", .str " Hex\t")]⟩

/-- The same entity by the first name, in the fallback mode. -/
def hexByFallback : Config := ⟨[("mode", .str ""), ("storedName", .str "Hex")]⟩

theorem resolve_exact_hex :
    let modes := ["stored-name", "name"]
    let fallback := some "stored-name"
    (resolve hexByName modes fallback "mode").map render = some "\"Hex\"" ∧
      (resolve hexByFallback modes fallback "mode").map render = some "\"Hex\"" ∧
      ∃ m m' : TargetMode, Selects hexByName fallback "mode" m.key ∧
        Selects hexByFallback fallback "mode" m'.key ∧ m.plain = m'.plain ∧
        SameOption hexByName hexByFallback m := by
  intro modes fallback
  have hname : (resolve hexByName modes fallback "mode").map render = some "\"Hex\"" := by
    decide +kernel
  have hfallback : (resolve hexByFallback modes fallback "mode").map render =
      some "\"Hex\"" := by
    decide +kernel
  obtain ⟨m, m', hm, hm', hsame⟩ :=
    (resolve_exact modes fallback "mode").2 _ _ _ _ hname hfallback
  exact ⟨hname, hfallback, m, m', hm, hm', hsame.1 rfl⟩

end Target

end CueGraph
