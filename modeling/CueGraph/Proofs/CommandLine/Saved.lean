import CueGraph.CommandLine.Disk
import CueGraph.Proofs.Fallible

/-!
# What saving a text does to a disk

Saving makes the folders on the way one by one, opens the file and then writes it. Whether it
succeeds or fails on the way, what was on the disk stays there (`MoreFolders`), but for the one file
when it is opened. That file is found under its path, with the text, or empty when the text cannot
be encoded (`Gains`).

Main statement: `saving_save`.
-/

namespace CueGraph

namespace Disk

/-- The second disk is the first one, where more folders may have been made. -/
structure MoreFolders (d after : Disk) : Prop where
  present : after.present = d.present
  entries : ∀ place, after.entryAt place = d.entryAt place ∨
    d.entryAt place = none ∧ after.entryAt place = some .folder

/-- The text has come to the disk: the path leads to it, and at all other places the disk is as it
was, where more folders may have been made. -/
structure Gains (d : Disk) (p : Path) (text : String) (after : Disk) : Prop where
  found : after.look p = some (.text text)
  entries : ∃ written, after.entryAt written = some (.text text) ∧ ∀ place, place ≠ written →
    after.entryAt place = d.entryAt place ∨
      d.entryAt place = none ∧ after.entryAt place = some .folder

/-- The disk that a change leaves, whether it fails or not. -/
def leftBy : Except Failure Disk → Disk
  | .ok d => d
  | .error failure => failure.left

variable {d d' after : Disk} {p : Path} {place folder : List String} {text : String}

theorem MoreFolders.refl (d : Disk) : d.MoreFolders d := ⟨rfl, fun _ => .inl rfl⟩

theorem MoreFolders.trans (h : d.MoreFolders d') (h' : d'.MoreFolders after) :
    d.MoreFolders after where
  present := h'.present.trans h.present
  entries := by
    intro place
    rcases h'.entries place with hsame | ⟨hnone, hmade⟩
    · rw [hsame]
      exact h.entries place
    · rcases h.entries place with hfirst | ⟨-, hfolder⟩
      · exact .inr ⟨hfirst.symm.trans hnone, hmade⟩
      · rw [hfolder] at hnone
        cases hnone

/-- What is put where no folder stands, which is not at the root, reads back. -/
theorem entryAt_put_of_ne (h : d.entryAt place ≠ some .folder) (entry : FileEntry)
    (other : List String) :
    (d.put place entry).entryAt other = if other = place then some entry else d.entryAt other := by
  have hroot : place ≠ [] := by
    rintro rfl
    exact h rfl
  exact entryAt_put d place other entry hroot

/-! ## Making folders -/

theorem moreFolders_put (h : d.entryAt place = none) : d.MoreFolders (d.put place .folder) := by
  refine ⟨rfl, fun other => ?_⟩
  rw [entryAt_put_of_ne (by simp [h])]
  by_cases hother : other = place
  · rw [if_pos hother, hother]
    exact .inr ⟨h, rfl⟩
  · rw [if_neg hother]
    exact .inl rfl

theorem moreFolders_makeFolder (h : d.makeFolder p = .ok after) : d.MoreFolders after := by
  unfold makeFolder at h
  split at h
  · obtain rfl := Except.ok.inj h
    exact .refl d
  · obtain ⟨folder, -, h⟩ := bind_eq_ok.1 h
    dsimp only at h
    split at h
    · next hnone =>
      obtain rfl := Except.ok.inj h
      exact moreFolders_put hnone
    · obtain rfl := Except.ok.inj h
      exact .refl d
    · cases h

theorem moreFolders_orLeave {change : Except FileError Disk}
    (h : ∀ after, change = .ok after → d.MoreFolders after) :
    d.MoreFolders (leftBy (d.orLeave change)) := by
  cases change with
  | error e => exact .refl d
  | ok after => exact h after rfl

/-- However far the making of folders comes, folders are all that is made. -/
theorem moreFolders_makeFolders (d : Disk) (slashes : Nat) (names : List String) :
    d.MoreFolders (leftBy (d.makeFolders slashes names)) := by
  induction names with
  | nil => exact .refl d
  | cons name up ih =>
    unfold makeFolders
    split
    · cases hup : d.makeFolders slashes up with
      | error failure =>
        rw [hup] at ih
        exact ih
      | ok made =>
        rw [hup] at ih
        exact ih.trans (moreFolders_orLeave fun _ h => moreFolders_makeFolder h)
    · exact moreFolders_orLeave fun _ h => moreFolders_makeFolder h

/-! ## Writing the file -/

theorem walk_append (d : Disk) (place names more : List String) :
    d.walk place (names ++ more) = (do d.walk (← d.walk place names) more) := by
  induction names generalizing place with
  | nil => rfl
  | cons name rest ih =>
    rw [List.cons_append, walk, walk]
    split
    · split
      · exact ih _
      · rfl
    · rfl

/-- A way leads where it led before a file was put on the disk. -/
theorem walk_put {names : List String} (hfile : d.entryAt place ≠ some .folder) (entry : FileEntry)
    {start : List String} (h : d.walk start names = .ok folder) :
    (d.put place entry).walk start names = .ok folder := by
  have hput := entryAt_put_of_ne hfile entry
  induction names generalizing start with
  | nil => exact h
  | cons name rest ih =>
    rw [walk] at h ⊢
    by_cases hstart : d.entryAt start = some .folder
    · -- the way goes through folders only, so not through the file
      have hne : start ≠ place := by
        rintro rfl
        exact hfile hstart
      rw [if_pos hstart] at h
      rw [if_pos ((hput start).trans (by rw [if_neg hne, hstart]))]
      split at h
      · next hnext =>
        have hthere : ((d.put place entry).entryAt (step start name)).isSome := by
          rw [hput]
          split
          · rfl
          · exact hnext
        rw [if_pos hthere]
        exact ih h
      · cases h
    · rw [if_neg hstart] at h
      cases h

/-- The names of a path are those of its folder and the last one. -/
theorem names_eq {name : String} (h : p.names.getLast? = some name) :
    p.names = p.parent.names ++ [name] := by
  obtain ⟨front, hfront⟩ := List.getLast?_eq_some_iff.1 h
  rw [Path.parent, hfront, List.dropLast_concat]

/-- A file stands in the folder of its path, where no folder of its name stands. -/
theorem filePlace_eq_ok (h : d.filePlace p = .ok place) : ∃ folder name,
    p.names = p.parent.names ++ [name] ∧ d.walk (d.start p) p.parent.names = .ok folder ∧
      d.entryAt folder = some .folder ∧ d.entryAt place ≠ some .folder ∧
      place = step folder name := by
  unfold filePlace at h
  split at h
  · cases h
  · next name hname =>
    obtain ⟨folder, hfolder, h⟩ := bind_eq_ok.1 h
    obtain ⟨found, hwalk, hfound⟩ := bind_eq_ok.1 hfolder
    dsimp only at h
    split at h
    · cases h
    · next hfile =>
      obtain rfl := Except.ok.inj h
      split at hfound
      · next hthere =>
        obtain rfl := Except.ok.inj hfound
        exact ⟨found, name, names_eq hname, hwalk, hthere, hfile, rfl⟩
      · cases hfound

theorem look_put (h : d.filePlace p = .ok place) (text : String) :
    (d.put place (.text text)).look p = some (.text text) := by
  obtain ⟨folder, name, hnames, hwalk, hfolder, hfile, rfl⟩ := filePlace_eq_ok h
  have hput := entryAt_put_of_ne hfile (.text text)
  have hwritten := (hput (step folder name)).trans (if_pos rfl)
  -- the folder is still there when the file is written
  have hne : folder ≠ step folder name := fun hsame => hfile (hsame ▸ hfolder)
  have hthere : (d.put (step folder name) (.text text)).entryAt folder = some .folder := by
    rw [hput, if_neg hne, hfolder]
  have hway := walk_put hfile (.text text) hwalk
  have hlast : (d.put (step folder name) (.text text)).walk folder [name] =
      .ok (step folder name) := by
    rw [walk, if_pos hthere, if_pos (by rw [hwritten]; rfl), walk]
  have hall : (d.put (step folder name) (.text text)).walk (d.start p) p.names =
      .ok (step folder name) := by
    rw [hnames, walk_append, hway, ok_bind, hlast]
  have hstart : (d.put (step folder name) (.text text)).start p = d.start p := rfl
  rw [look, hstart, hall]
  exact hwritten

theorem gains_put (h : d.MoreFolders d') (hplace : d'.filePlace p = .ok place) (text : String) :
    d.Gains p text (d'.put place (.text text)) := by
  obtain ⟨-, -, -, -, -, hfile, -⟩ := filePlace_eq_ok hplace
  have hput := entryAt_put_of_ne hfile (.text text)
  refine ⟨look_put hplace text, place, (hput _).trans (if_pos rfl), fun other hother => ?_⟩
  rw [hput, if_neg hother]
  exact h.entries other

/-! ## Saving -/

/-- The file that a path names can be opened to be written. -/
def Opens (d : Disk) (p : Path) : Prop := ∃ after, d.save p "" = .ok after

/-- What saving a text does to a disk is one of three things. The text is saved, and the disk gains
it and nothing else; or the file opens and the text cannot be encoded, and the disk gains an empty
file; or the file does not open, and there are more folders at most. -/
inductive Saving (d : Disk) (p : Path) (text : String) : Except Failure Disk → Prop
  | saved {after : Disk} (hopens : d.Opens p) (htext : Text.isEncodable text = true)
      (h : d.Gains p text after) : Saving d p text (.ok after)
  | spoiled {after : Disk} (hopens : d.Opens p) (htext : Text.isEncodable text = false)
      (h : d.Gains p "" after) : Saving d p text (.error ⟨.notEncodable, after⟩)
  | refused {failure : Failure} (hopens : ¬ d.Opens p) (h : d.MoreFolders failure.left) :
      Saving d p text (.error failure)

theorem isEncodable_empty : Text.isEncodable "" = true := rfl

theorem saving_save (d : Disk) (p : Path) (text : String) : d.Saving p text (d.save p text) := by
  have hmake := moreFolders_makeFolders d p.slashes p.parent.names.reverse
  cases hmade : d.makeFolders p.slashes p.parent.names.reverse with
  | error failure =>
    have hsave : ∀ text, d.save p text = .error failure := by
      intro text
      rw [save, hmade]
      rfl
    rw [hmade] at hmake
    rw [hsave]
    refine .refused ?_ hmake
    rintro ⟨after, hafter⟩
    rw [hsave] at hafter
    cases hafter
  | ok made =>
    rw [hmade] at hmake
    cases hplace : made.filePlace p with
    | error e =>
      have hsave : ∀ text, d.save p text = .error ⟨e, made⟩ := by
        intro text
        rw [save, hmade, ok_bind, hplace]
        rfl
      rw [hsave]
      refine .refused ?_ hmake
      rintro ⟨after, hafter⟩
      rw [hsave] at hafter
      cases hafter
    | ok place =>
      have hsave : ∀ text, d.save p text =
          if Text.isEncodable text then .ok (made.put place (.text text))
          else .error ⟨.notEncodable, made.put place (.text "")⟩ := by
        intro text
        rw [save, hmade, ok_bind, hplace]
        rfl
      have hopens : d.Opens p := ⟨_, (hsave "").trans (if_pos isEncodable_empty)⟩
      rw [hsave]
      cases htext : Text.isEncodable text with
      | true => exact .saved hopens htext (gains_put hmake hplace text)
      | false => exact .spoiled hopens htext (gains_put hmake hplace "")

end Disk

end CueGraph
