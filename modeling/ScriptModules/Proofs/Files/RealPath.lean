import ScriptModules.Proofs.Files.Spelling
import ScriptModules.Proofs.Text.Lossy

/-!
# Real paths

However a walk goes, by links and `..`, it goes down only from directories, so that all above the
place where it ends is a directory (`OnDirectories`).  The path of that place has no link in it,
then.  Places with names that are text have different paths (`toPath_inj`), and the paths are
shown as they are (`ofString_toString_toPath`).

The real path is found by looking at every real path on the way.  That is done for all that can
be found if none of these is too long (`realPath_of_find`).
-/

namespace ScriptModules

namespace Path

@[simp] theorem toString_ofString (text : String) : (ofString text).toString = text := by
  rw [toString, ofString, Text.lossy_ofText, String.ofList_toList]

theorem ofString_append (a b : String) :
    ofString (a ++ b) = ⟨(ofString a).bytes ++ (ofString b).bytes⟩ :=
  congrArg Path.mk (Bytes.ofText_append a b)

/-- Bytes without slashes that are put before others are put before the first piece. -/
theorem split_append_of_notMem {name bytes first : Bytes} {pieces : List Bytes}
    (h : slash ∉ name) (hs : split bytes = first :: pieces) :
    split (name ++ bytes) = (name ++ first) :: pieces := by
  induction name with
  | nil => exact hs
  | cons byte name ih =>
      obtain ⟨hbyte, hname⟩ := not_or.mp (mt List.mem_cons.mpr h)
      rw [List.cons_append, split, if_neg (Ne.symm hbyte), ih hname]
      rfl

theorem isIdle_eq_false {piece : Bytes} (hnil : piece ≠ []) (hpoint : piece ≠ [point]) :
    isIdle piece = false := by
  simp [isIdle, hnil, hpoint]

theorem component?_of_isPiece {name : Name} (h : IsPiece name) :
    component? name = some (.normal name) := by
  rw [component?, isIdle_eq_false h.ne_nil h.ne_point, if_neg Bool.false_ne_true, if_neg h.ne_points]

end Path

namespace FileSystem

open ScriptModules.Path (IsPiece)

variable {fs : FileSystem} {path : Path} {location other result : Location} {steps : List Step}

/-! ## What is above a place -/

/-- All that is above a location is a directory. -/
def OnDirectories (fs : FileSystem) (location : Location) : Prop :=
  ∀ above, above <+: location → above ≠ location → fs.node? above = some .directory

theorem onDirectories_nil : fs.OnDirectories [] :=
  fun _ hunder hne => absurd (List.prefix_nil.mp hunder) hne

theorem OnDirectories.of_isPrefix (h : fs.OnDirectories location) (hp : other <+: location) :
    fs.OnDirectories other := by
  intro above hunder hne
  refine h above (hunder.trans hp) ?_
  rintro rfl
  exact hne (hunder.eq_of_length (Nat.le_antisymm hunder.length_le hp.length_le))

theorem OnDirectories.concat (h : fs.OnDirectories location)
    (hd : fs.node? location = some .directory) (name : Name) :
    fs.OnDirectories (location ++ [name]) := by
  intro above hunder hne
  have habove := (List.prefix_concat_iff.mp hunder).resolve_left hne
  by_cases heq : above = location
  · rw [heq]
    exact hd
  · exact h above habove heq

/-- A walk stays on directories.  The induction is on the steps, as they are taken. -/
theorem OnDirectories.walkWith {jump : Location → List Step → Except IoError Location}
    {follow : Bool} (hj : ∀ place steps result, fs.OnDirectories place →
      jump place steps = .ok result → fs.OnDirectories result)
    (steps : List Step) (place : Location) (h : fs.OnDirectories place)
    (hw : fs.walkWith follow jump place steps = .ok result) : fs.OnDirectories result := by
  induction steps generalizing place with
  | nil =>
      cases hw
      exact h
  | cons step steps ih =>
      obtain ⟨hd, htakes⟩ := walkWith_cons_iff.mp hw
      cases htakes with
      | stay hrest => exact ih place h hrest
      | up hrest => exact ih _ (h.of_isPrefix (List.dropLast_prefix place)) hrest
      | down _ _ _ hrest => exact ih _ (h.concat hd _) hrest
      | stop _ _ _ heq => exact heq ▸ h.concat hd _
      | jump _ _ _ _ hrest =>
          refine hj _ _ _ ?_ hrest
          split
          · exact onDirectories_nil
          · exact h

theorem OnDirectories.walk {follow : Bool} (links : Nat) (place : Location) (steps : List Step)
    (result : Location) (h : fs.OnDirectories place)
    (hw : fs.walk follow links place steps = .ok result) : fs.OnDirectories result := by
  induction links generalizing place steps result with
  | zero =>
      refine h.walkWith ?_ steps place hw
      intro _ _ _ _ hnever
      cases hnever
  | succ links ih => exact h.walkWith ih steps place hw

/-- The way out of lost directories ends above them. -/
theorem location_of_leaveLost (lost : Nat) (location : Location) (steps : List Step) {start : Place}
    {left : List Step} (h : leaveLost lost location steps = .ok (start, left))
    (hlost : start.lost = 0) : start.location = location.take (location.length - lost) := by
  induction steps generalizing lost location with
  | nil =>
      cases lost with
      | zero =>
          cases h
          simp
      | succ lost =>
          cases h
          cases hlost
  | cons step steps ih =>
      cases lost with
      | zero =>
          cases h
          simp
      | succ lost =>
          cases step with
          | stay => exact ih (lost + 1) location h
          | up =>
              rw [ih lost location.dropLast h, List.length_dropLast, List.dropLast_eq_take,
                List.take_take, Nat.sub_sub, Nat.add_comm 1 lost]
              congr 1
              omega
          | down name => cases h

theorem Grounded.onDirectories (hg : fs.Grounded) :
    fs.OnDirectories (fs.workingDirectory.take (fs.workingDirectory.length - fs.lost)) := by
  intro above hunder hne
  by_cases hlost : fs.lost ≤ fs.workingDirectory.length
  · have hle := hunder.length_le
    have heq := List.prefix_iff_eq_take.mp hunder
    rw [List.length_take] at hle
    rw [List.take_take, Nat.min_eq_left (by omega)] at heq
    rw [heq]
    exact hg _ (by omega)
  · rw [Nat.sub_eq_zero_of_le (by omega), List.take_zero] at hunder hne
    exact absurd (List.prefix_nil.mp hunder) hne

theorem Grounded.onDirectories_of_placeOf (hg : fs.Grounded) {follow : Bool} {found : Place}
    (h : fs.placeOf follow path steps = .ok found) (hlost : found.lost = 0) :
    fs.OnDirectories found.location := by
  simp only [FileSystem.placeOf] at h
  split at h
  · cases h
  split at h
  · cases h
  split at h
  · cases h
  split at h
  · obtain ⟨location, hw, rfl⟩ := Outcome.of_map_eq_ok h
    exact onDirectories_nil.walk _ _ _ _ hw
  · obtain ⟨⟨start, left⟩, hl, hrest⟩ := Outcome.of_bind_eq_ok h
    simp only at hrest
    split at hrest
    · rename_i hpositive
      cases hrest
      exact absurd hlost (Nat.ne_of_gt hpositive)
    · rename_i hzero
      obtain ⟨location, hw, heq⟩ := Outcome.of_bind_eq_ok hrest
      cases heq
      have hstart : start.location =
          fs.workingDirectory.take (fs.workingDirectory.length - fs.lost) :=
        location_of_leaveLost _ _ _ hl (Nat.eq_zero_of_not_pos hzero)
      exact OnDirectories.walk _ _ _ _ (hstart ▸ hg.onDirectories) hw

/-! ## Files that are found -/

theorem exists_fileAt (h : fs.isFile path = true) : ∃ location, fs.FileAt path location := by
  unfold isFile at h
  split at h
  · rename_i found content time heq
    obtain ⟨location, lost⟩ := found
    have hnode := (placeOf_of_find heq).2
    unfold nodeAt? at hnode
    split at hnode
    · cases hnode
    · rename_i hlost
      obtain rfl : lost = 0 := by simpa using hlost
      exact ⟨location, content, time, heq⟩
  · cases h

theorem isFile_iff : fs.isFile path = true ↔ ∃ location, fs.FileAt path location := by
  refine ⟨exists_fileAt, ?_⟩
  rintro ⟨location, content, time, hfind⟩
  rw [isFile, hfind]

/-- A path leads to one file. -/
theorem FileAt.unique {other : Location} (h : fs.FileAt path location)
    (ho : fs.FileAt path other) : location = other := by
  obtain ⟨content, time, hfind⟩ := h
  obtain ⟨content', time', hother⟩ := ho
  rw [hfind] at hother
  exact congrArg (fun found => found.1.location) (Except.ok.inj hother)

theorem FileAt.node (h : fs.FileAt path location) :
    ∃ content time, fs.node? location = some (.file content time) := by
  obtain ⟨content, time, hfind⟩ := h
  exact ⟨content, time, (placeOf_of_find hfind).2⟩

theorem FileAt.onDirectories (hg : fs.Grounded) (h : fs.FileAt path location) :
    fs.OnDirectories location := by
  obtain ⟨content, time, hfind⟩ := h
  exact hg.onDirectories_of_placeOf (placeOf_of_find hfind).1 rfl

/-- A path that is too long leads to no file. -/
theorem isFile_eq_false_of_long (h : pathLimit < path.bytes.length) : fs.isFile path = false := by
  have hplace : ∃ error, fs.placeOf true path (stepsOf path) = .error error := by
    rw [placeOf, if_pos h]
    split
    · exact ⟨_, rfl⟩
    · split <;> exact ⟨_, rfl⟩
  obtain ⟨error, hplace⟩ := hplace
  rw [FileSystem.isFile, FileSystem.find, hplace]
  rfl

/-! ## Paths of places -/

/-- All names are text, and such as can stand between slashes. -/
def HasTextNames (fs : FileSystem) : Prop :=
  ∀ entry ∈ fs.nodes, ∀ name ∈ entry.1, IsPiece name ∧ ∃ text, name = Bytes.ofText text

theorem HasTextNames.of_node? (h : fs.HasTextNames) {node : Node}
    (hn : fs.node? location = some node) :
    ∀ name ∈ location, IsPiece name ∧ ∃ text, name = Bytes.ofText text := by
  unfold node? at hn
  split at hn
  · rename_i hroot
    rw [hroot]
    exact fun _ hname => (nomatch hname)
  · exact h _ (Association.mem_of_lookup hn)

theorem toPath_of_ne_nil (h : location ≠ []) :
    Location.toPath location = ⟨location.flatMap (Path.slash :: ·)⟩ :=
  congrArg Path.mk (if_neg h)

/-- What stands between the slashes of a path that is put together from pieces. -/
theorem split_flatMap (h : ∀ piece ∈ location, Path.slash ∉ piece) :
    Path.split (location.flatMap (Path.slash :: ·)) = [] :: location := by
  induction location with
  | nil => rfl
  | cons piece location ih =>
      obtain ⟨hpiece, hrest⟩ := List.forall_mem_cons.mp h
      rw [List.flatMap_cons, List.cons_append, Path.split, if_pos rfl,
        Path.split_append_of_notMem hpiece (ih hrest), List.append_nil]

theorem filterMap_component? (h : ∀ name ∈ location, IsPiece name) :
    location.filterMap Path.component? = location.map .normal := by
  induction location with
  | nil => rfl
  | cons name location ih =>
      obtain ⟨hname, hrest⟩ := List.forall_mem_cons.mp h
      rw [List.filterMap_cons_some (Path.component?_of_isPiece hname), ih hrest, List.map_cons]

/-- The path of a place is absolute, and has its names for components. -/
theorem components_toPath (h : ∀ name ∈ location, IsPiece name) :
    (Location.toPath location).components = .root :: location.map .normal := by
  have hnames := filterMap_component? h
  cases location with
  | nil => rfl
  | cons name location =>
      have habs : (Location.toPath (name :: location)).isAbsolute = true := rfl
      have hidle : Path.component? [] = none := rfl
      simp only [Path.components, habs, if_pos]
      rw [toPath_of_ne_nil (List.cons_ne_nil name location),
        split_flatMap fun piece hpiece => (h piece hpiece).slash_notMem,
        List.filterMap_cons_none hidle, hnames]

theorem toPath_inj (h : ∀ name ∈ location, IsPiece name) (ho : ∀ name ∈ other, IsPiece name) :
    Location.toPath location = Location.toPath other ↔ location = other := by
  refine ⟨fun heq => ?_, congrArg _⟩
  have hcomponents := congrArg Path.components heq
  rw [components_toPath h, components_toPath ho, List.cons.injEq] at hcomponents
  exact (List.map_inj_right fun _ _ hsame => Component.normal.inj hsame).mp hcomponents.2

theorem exists_ofString_flatMap (h : ∀ name ∈ location, ∃ text, name = Bytes.ofText text) :
    ∃ text, Path.ofString text = ⟨location.flatMap (Path.slash :: ·)⟩ := by
  induction location with
  | nil => exact ⟨"", rfl⟩
  | cons name location ih =>
      obtain ⟨⟨first, rfl⟩, hrest⟩ := List.forall_mem_cons.mp h
      obtain ⟨rest, hpath⟩ := ih hrest
      have hslash : Path.ofString "/" = ⟨[Path.slash]⟩ := by decide
      refine ⟨"/" ++ first ++ rest, ?_⟩
      rw [Path.ofString_append, Path.ofString_append, hpath, hslash]
      rfl

/-- A path that is text is shown as it is. -/
theorem ofString_toString_toPath (h : ∀ name ∈ location, ∃ text, name = Bytes.ofText text) :
    Path.ofString (Location.toPath location).toString = Location.toPath location := by
  have htext : ∃ text, Path.ofString text = Location.toPath location := by
    cases location with
    | nil => exact ⟨"/", by decide⟩
    | cons name location =>
        rw [toPath_of_ne_nil (List.cons_ne_nil name location)]
        exact exists_ofString_flatMap h
  obtain ⟨text, heq⟩ := htext
  rw [← heq, Path.toString_ofString]

/-! ## Finding real paths -/

theorem of_realPath_eq_ok {real : Path} (h : fs.realPath path = .ok real) :
    ∃ place node, fs.find path = .ok (place, node) ∧ real = Location.toPath place.location := by
  obtain ⟨⟨place, node⟩, hfind, hrest⟩ := Outcome.of_bind_eq_ok h
  refine ⟨place, node, hfind, ?_⟩
  simp only at hrest
  split at hrest
  · cases hrest
  · split at hrest
    · cases hrest
      rfl
    · cases hrest

/-- No path is too long, neither of what there is nor of the working directory. -/
structure HasShortPaths (fs : FileSystem) : Prop where
  nodes : ∀ entry ∈ fs.nodes, (Location.toPath entry.1).bytes.length ≤ pathLimit
  workingDirectory : (Location.toPath fs.workingDirectory).bytes.length ≤ pathLimit

theorem isLong_eq_false : Location.isLong location = false ↔
    (Location.toPath location).bytes.length ≤ pathLimit := by
  rw [Location.isLong, decide_eq_false_iff_not, Nat.not_lt]

theorem length_toPath_take (location : Location) (depth : Nat) :
    (Location.toPath (location.take depth)).bytes.length ≤
      (Location.toPath location).bytes.length := by
  by_cases hnil : location.take depth = []
  · have hone : 1 ≤ (Location.toPath location).bytes.length := by
      cases location with
      | nil => exact Nat.le_refl 1
      | cons name location => exact Nat.succ_le_succ (Nat.zero_le _)
    rw [hnil]
    exact hone
  · have hlocation : location ≠ [] := by
      rintro rfl
      exact hnil List.take_nil
    have hwhole : location.flatMap (Path.slash :: ·) =
        (location.take depth).flatMap (Path.slash :: ·) ++
          (location.drop depth).flatMap (Path.slash :: ·) := by
      rw [← List.flatMap_append, List.take_append_drop]
    rw [toPath_of_ne_nil hnil, toPath_of_ne_nil hlocation, hwhole, List.length_append]
    exact Nat.le_add_right _ _

/-- Then everything can be named. -/
theorem HasShortPaths.named (h : fs.HasShortPaths) : fs.named = fs := by
  have hnodes : (fs.nodes.filter fun entry => !Location.isLong entry.1) = fs.nodes := by
    rw [List.filter_eq_self]
    intro entry hentry
    rw [isLong_eq_false.mpr (h.nodes entry hentry)]
    rfl
  have hnone : (((List.range (fs.workingDirectory.length + 1)).map
      fs.workingDirectory.take).countP Location.isLong) = 0 := by
    rw [List.countP_eq_zero, List.forall_mem_map]
    intro depth _
    rw [isLong_eq_false.mpr (Nat.le_trans (length_toPath_take _ depth) h.workingDirectory)]
    exact Bool.false_ne_true
  rw [FileSystem.named, hnodes, hnone, Nat.max_zero]

theorem realPath_of_find (hs : fs.HasShortPaths) {place : Place} {node : Node}
    (h : fs.find path = .ok (place, node)) (hhere : path.isAbsolute = true ∨ fs.lost = 0) :
    fs.realPath path = .ok (Location.toPath place.location) := by
  have hreachable : (!path.isAbsolute && decide (0 < fs.lost)) = false := by
    rcases hhere with habs | hlost
    · rw [habs]
      rfl
    · rw [hlost, Bool.and_eq_false_iff]
      exact Or.inr rfl
  rw [realPath, h, hs.named, h]
  simp only [bind, Except.bind, hreachable]
  rfl

end FileSystem

end ScriptModules
