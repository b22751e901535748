import Mathlib.Data.List.Nodup
import CueGraph.Config
import CueGraph.Call
import CueGraph.Proofs.Number.Numerals

/-!
# Guards of lines

Some lines are written only for numbers in a range: a wait above zero, a range of time that ends
after it begins, a chance between zero and one. The comparison is made with doubles, and what is
written are their numerals. A guard tells the range of what is read back from the text between the
brackets of a line (`guards`). A numeral reads back as a double of the same rank, so every
comparison survives (`reads_above`, `ascending_numeral`), and no line stands under two guards
(`guarded_line`).
-/

namespace CueGraph

namespace Catalog

/-! ## Numbers in a text -/

/-- The text is a number with the property. -/
def Reads (P : Finite → Prop) (s : String) : Prop := ∃ x, Finite.read? s = some x ∧ P x

/-- The texts are numbers, of which the second is larger. -/
def Ascending (s t : String) : Prop :=
  ∃ x y, Finite.read? s = some x ∧ Finite.read? t = some y ∧ x < y

/-- The text is a number above zero. -/
def ReadsPositive : String → Prop := Reads (.zero < ·)

/-! ## Guards

What stands between the brackets of a call, for each kind of call with a guard. -/

/-- A wait: one number above zero, or a range of them. -/
inductive WaitArgs : String → Prop
  | fixed {a : String} (h : ReadsPositive a) : WaitArgs a
  | range {a b : String} (h : ReadsPositive a) (hrange : Ascending a b) :
      WaitArgs (a ++ ", " ++ b)

inductive TimeRangeArgs : String → Prop
  | range {a b : String} (h : Ascending a b) : TimeRangeArgs (a ++ ", " ++ b)

/-- A repetition: a count above one, and then no delay, one other than zero, or a range of them. -/
inductive RepeatsArgs : String → Prop
  | count {n : String} (h : Reads (.one < ·) n) : RepeatsArgs n
  | delay {n d : String} (h : Reads (.one < ·) n) (hd : Reads (·.isZero = false) d) :
      RepeatsArgs (n ++ ", " ++ d)
  | delays {n low high : String} (h : Reads (.one < ·) n) (hrange : Ascending low high) :
      RepeatsArgs (n ++ ", " ++ low ++ ", " ++ high)

/-- A condition: a truth value, or a chance strictly between zero and one. -/
inductive PlayIfArgs : String → Prop
  | yes : PlayIfArgs "true"
  | no : PlayIfArgs "false"
  | chance {p : String} (h : Reads (fun x => .zero < x ∧ x < .one) p) :
      PlayIfArgs ("() => Math.random() < " ++ p)

/-- A fade: a duration above zero, with or without options. -/
inductive FadeArgs : String → Prop
  | plain {d : String} (h : ReadsPositive d) : FadeArgs d
  | options {d : String} (h : ReadsPositive d) (options : String) : FadeArgs (d ++ ", " ++ options)

/-- A scale in time: a scale and a duration above zero, with or without options. -/
inductive ScaleArgs : String → Prop
  | plain {s d : String} (hs : Reads (fun _ => True) s) (h : ReadsPositive d) :
      ScaleArgs (s ++ ", " ++ d)
  | options {s d : String} (hs : Reads (fun _ => True) s) (h : ReadsPositive d) (options : String) :
      ScaleArgs (s ++ ", " ++ d ++ ", " ++ options)

/-- A width above zero, or a width and a height above zero. -/
inductive SizeText : String → Prop
  | width {w : String} (h : ReadsPositive w) : SizeText w
  | both {w h : String} (hw : ReadsPositive w) (hh : ReadsPositive h) :
      SizeText ("\x7b width: " ++ w ++ ", height: " ++ h ++ " \x7d")

/-- A size, with or without options. -/
inductive SizeArgs : String → Prop
  | plain {s : String} (h : SizeText s) : SizeArgs s
  | options {s : String} (h : SizeText s) (options : String) : SizeArgs (s ++ ", " ++ options)

/-- The options of a shake that hold numbers. -/
def shakeNumbers : List String :=
  ["strength", "duration", "frequency", "fadeInDuration", "fadeOutDuration"]

/-- One option of a shake: a number above zero, or that there is no rotation. -/
inductive ShakeField : String → Prop
  | number {key s : String} (hkey : key ∈ shakeNumbers) (h : ReadsPositive s) :
      ShakeField (key ++ ": " ++ s)
  | noRotation : ShakeField "rotation: false"

inductive ShakeArgs : String → Prop
  | options {fields : List String} (h : ∀ field ∈ fields, ShakeField field) :
      ShakeArgs ("\x7b " ++ ", ".intercalate fields ++ " \x7d")

/-- A kind of line, and what holds of the text between the brackets. -/
structure Guard where
  /-- What stands in front of the bracket. -/
  front : String
  back : String
  Holds : String → Prop

def Guard.line (g : Guard) (inside : String) : String := g.front ++ "(" ++ inside ++ g.back

/-- The guard of a call in a chain. -/
def chainGuard (method : String) (Holds : String → Prop) : Guard := ⟨"  ." ++ method, ")", Holds⟩

def waitGuard : Guard := ⟨"seq.wait", ");", WaitArgs⟩

def timeRangeGuard : Guard := chainGuard "timeRange" TimeRangeArgs

def repeatsGuard : Guard := chainGuard "repeats" RepeatsArgs

def playIfGuard : Guard := chainGuard "playIf" PlayIfArgs

def playbackRateGuard : Guard :=
  chainGuard "playbackRate" (Reads fun x => .zero < x ∧ ¬x.Same .one)

def fadeMethods : List String := ["fadeIn", "fadeOut", "fadeInAudio", "fadeOutAudio"]

def scaleMethods : List String := ["scaleIn", "scaleOut"]

/-- The methods with one number, which is above zero. -/
def positiveMethods : List String := ["startTime", "endTime", "radius", "distance", "lockView"]

def guards : List Guard :=
  [waitGuard, timeRangeGuard, repeatsGuard, playIfGuard, playbackRateGuard,
    chainGuard "size" SizeArgs, chainGuard "shake" ShakeArgs] ++
    fadeMethods.map (chainGuard · FadeArgs) ++ scaleMethods.map (chainGuard · ScaleArgs) ++
    positiveMethods.map (chainGuard · ReadsPositive)

/-- Whatever guard a line stands under, it holds. -/
def Guarded (line : String) : Prop :=
  ∀ g ∈ guards, ∀ inside, line = g.line inside → g.Holds inside

/-! ## Numerals keep their range -/

variable {c : Config} {x y : Finite} {key method line : String}

theorem reads_numeral {P : Finite → Prop} (h : P x.canonical) : Reads P x.numeral :=
  ⟨x.canonical, Finite.read?_numeral x, h⟩

theorem reads_above (h : y < x) : Reads (y < ·) x.numeral := reads_numeral (Finite.lt_canonical.2 h)

theorem readsPositive_of_positive (h : c.positive key = true) :
    ReadsPositive (c.number key).numeral := reads_above (Finite.isPositive_iff.1 h)

theorem ascending_numeral (h : x < y) : Ascending x.numeral y.numeral :=
  ⟨x.canonical, y.canonical, Finite.read?_numeral x, Finite.read?_numeral y,
    Finite.canonical_lt.2 (Finite.lt_canonical.2 h)⟩

/-! ## Lines under guards -/

/-- What stands in front of the first bracket is told from what stands behind it. -/
theorem front_inj {front front' : List Char} (h : '(' ∉ front) (h' : '(' ∉ front')
    {rest rest' : List Char} (heq : front ++ '(' :: rest = front' ++ '(' :: rest') :
    front = front' ∧ rest = rest' := by
  induction front generalizing front' with
  | nil =>
    cases front' with
    | nil => exact ⟨rfl, (List.cons.inj heq).2⟩
    | cons c cs => exact absurd ((List.cons.inj heq).1 ▸ List.mem_cons_self) h'
  | cons c cs ih =>
    cases front' with
    | nil => exact absurd ((List.cons.inj heq).1 ▸ List.mem_cons_self) h
    | cons d ds =>
      obtain ⟨rfl, hrest⟩ := List.cons.inj heq
      obtain ⟨rfl, hback⟩ := ih (fun hm => h (.tail _ hm)) (fun hm => h' (.tail _ hm)) hrest
      exact ⟨rfl, hback⟩

theorem guards_front : ∀ g ∈ guards, '(' ∉ g.front.toList := by decide +kernel

theorem guards_nodup : (guards.map (·.front)).Nodup := by decide +kernel

theorem toList_line (g : Guard) (inside : String) :
    (g.line inside).toList = g.front.toList ++ '(' :: (inside ++ g.back).toList := by
  simp [Guard.line]

theorem guarded_line {g : Guard} {inside : String} (hg : g ∈ guards) (h : g.Holds inside) :
    Guarded (g.line inside) := by
  intro g' hg' inside' heq
  have hchars := congrArg String.toList heq
  rw [toList_line, toList_line] at hchars
  obtain ⟨hfront, hrest⟩ := front_inj (guards_front g hg) (guards_front g' hg') hchars
  -- no two guards share a front, so the texts end in the same way
  obtain rfl := List.inj_on_of_nodup_map guards_nodup hg hg' (String.toList_inj.1 hfront)
  rw [String.toList_inj, String.append_left_inj] at hrest
  rwa [← hrest]

/-- A line with a front of its own is under no guard. -/
theorem guarded_free {front : String} (rest : String) (hfront : '(' ∉ front.toList)
    (h : front ∉ guards.map (·.front)) : Guarded (front ++ "(" ++ rest) := by
  intro g hg inside heq
  have hchars := congrArg String.toList heq
  have hfree : (front ++ "(" ++ rest).toList = front.toList ++ '(' :: rest.toList := by simp
  rw [hfree, toList_line] at hchars
  obtain ⟨hsame, -⟩ := front_inj hfront (guards_front g hg) hchars
  rw [String.toList_inj.1 hsame] at h
  exact absurd (List.mem_map_of_mem hg) h

/-- What a call has between its brackets. -/
def inBrackets (call : Call) : String :=
  let args := call.args.map Arg.render
  let options := call.options.map Setting.render
  ", ".intercalate (if options.isEmpty then args else args ++ [objectLiteral options])

theorem chainGuard_line (call : Call) (Holds : String → Prop) :
    (chainGuard call.method Holds).line (inBrackets call) = call.line := rfl

/-- The lines of these calls hold what their guards ask for. -/
def GuardedCalls (calls : List Call) : Prop := ∀ call ∈ calls, Guarded call.line

/-- Calls of the method are under no guard. -/
def IsFree (method : String) : Prop :=
  '(' ∉ ("  ." ++ method).toList ∧ "  ." ++ method ∉ guards.map (·.front)

instance (method : String) : Decidable (IsFree method) := inferInstanceAs (Decidable (_ ∧ _))

namespace GuardedCalls

variable {call : Call} {calls calls' : List Call}

theorem lines (h : GuardedCalls calls) : ∀ line ∈ calls.map Call.line, Guarded line :=
  List.forall_mem_map.2 h

theorem nil : GuardedCalls [] := List.forall_mem_nil _

theorem append (h : GuardedCalls calls) (h' : GuardedCalls calls') :
    GuardedCalls (calls ++ calls') := List.forall_mem_append.2 ⟨h, h'⟩

/-- A call under a guard. -/
theorem under {Holds : String → Prop} {inside : String}
    (hg : chainGuard call.method Holds ∈ guards) (h : Holds inside)
    (hinside : inBrackets call = inside) : GuardedCalls [call] := by
  refine List.forall_mem_singleton.2 ?_
  rw [← chainGuard_line call Holds, hinside]
  exact guarded_line hg h

/-- A call of a method without a guard. -/
theorem free (h : IsFree call.method) : GuardedCalls [call] := by
  refine List.forall_mem_singleton.2 ?_
  have hline : call.line = "  ." ++ call.method ++ "(" ++ (inBrackets call ++ ")") :=
    String.append_assoc
  rw [hline]
  exact guarded_free _ h.1 h.2

end GuardedCalls

end Catalog

end CueGraph
