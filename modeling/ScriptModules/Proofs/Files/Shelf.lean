import Mathlib
import ScriptModules.Proofs.Files.Spelling

/-!
# A directory of files

A program may keep files in a directory and be alone there.  What it does then comes to a
table from names to files (`Shelf`): reading and listing answer from the table, removing and
replacing change it at one name, and nothing else of the directory matters.

Paths may lead through links and `..`, also through the directory itself.  That no walk
changes is since a file that is written or removed is no step on any way to the directory
(`Shelf.edit`).

Not every name can be written: its path may be too long (`Admits`).  But one that could once
can ever after, and so can every shorter one.
-/

namespace ScriptModules.FileSystem

open ScriptModules.Path (IsPiece)

variable {fs after : FileSystem} {directory : Path} {place : Location} {name : Name}

/-! ## A slash at the end -/

section Slash

variable {result : Location}

/-- Staying where a walk has ended leads nowhere else. -/
theorem walkWith_of_append_stay {jump : Location → List Step → Except IoError Location}
    (hj : ∀ start steps, jump start (steps ++ [.stay]) = .ok result →
      jump start steps = .ok result)
    (steps : List Step) (start : Location)
    (h : fs.walkWith true jump start (steps ++ [.stay]) = .ok result) :
    fs.walkWith true jump start steps = .ok result := by
  induction steps generalizing start with
  | nil =>
      obtain ⟨-, htakes⟩ := walkWith_cons_iff.mp h
      cases htakes with
      | stay hrest => exact hrest
  | cons step steps ih =>
      rw [List.cons_append, walkWith_cons_iff] at h
      obtain ⟨hd, htakes⟩ := h
      rw [walkWith_cons_iff]
      refine ⟨hd, ?_⟩
      cases htakes with
      | stay hrest => exact .stay (ih start hrest)
      | up hrest => exact .up (ih start.dropLast hrest)
      | down hlen hn hnode hrest => exact .down hlen hn hnode (ih _ hrest)
      | stop _ _ hend _ => exact absurd rfl hend.2
      | jump hlen hn _ htarget hrest =>
          rw [← List.append_assoc] at hrest
          exact .jump hlen hn (fun hend => hend.2 rfl) htarget (hj _ _ hrest)

theorem walk_of_append_stay (links : Nat) (start : Location) (steps : List Step)
    (h : fs.walk true links start (steps ++ [.stay]) = .ok result) :
    fs.walk true links start steps = .ok result := by
  induction links generalizing start steps with
  | zero =>
      refine walkWith_of_append_stay ?_ steps start h
      intro _ _ hnever
      cases hnever
  | succ links ih => exact walkWith_of_append_stay ih steps start h

theorem leaveLost_of_append_stay (lost : Nat) (location : Location) (steps : List Step)
    {start : Place} {left : List Step}
    (h : leaveLost lost location (steps ++ [.stay]) = .ok (start, left)) :
    0 < start.lost ∨ ∃ before, leaveLost lost location steps = .ok (start, before) ∧
      left = before ++ [.stay] := by
  induction steps generalizing lost location with
  | nil =>
      cases lost with
      | zero =>
          cases h
          exact Or.inr ⟨[], rfl, rfl⟩
      | succ lost =>
          cases h
          exact Or.inl (Nat.succ_pos lost)
  | cons first steps ih =>
      cases lost with
      | zero =>
          cases h
          exact Or.inr ⟨first :: steps, rfl, rfl⟩
      | succ lost =>
          cases first with
          | stay => exact ih (lost + 1) location h
          | up => exact ih lost location.dropLast h
          | down other => cases h

/-- A slash at the end of a path to a place in the tree makes no difference. -/
theorem placeOf_of_append_stay {path : Path} {steps : List Step}
    (h : fs.placeOf true path (steps ++ [.stay]) = .ok ⟨place, 0⟩) :
    fs.placeOf true path steps = .ok ⟨place, 0⟩ := by
  simp only [placeOf] at h ⊢
  split at h
  · cases h
  split at h
  · cases h
  split at h
  · cases h
  rename_i hzero hempty hlong
  rw [if_neg hzero, if_neg hempty, if_neg hlong]
  split at h
  · rename_i habs
    rw [if_pos habs]
    obtain ⟨location, hw, heq⟩ := Outcome.of_map_eq_ok h
    cases heq
    rw [walk_of_append_stay _ _ _ hw]
    rfl
  · rename_i hrel
    rw [if_neg hrel]
    obtain ⟨⟨start, left⟩, hl, hrest⟩ := Outcome.of_bind_eq_ok h
    simp only at hrest
    split at hrest
    · rename_i hlost
      cases hrest
      cases hlost
    · rename_i hlost
      obtain ⟨location, hw, heq⟩ := Outcome.of_bind_eq_ok hrest
      cases heq
      rcases leaveLost_of_append_stay _ _ _ hl with hnever | ⟨before, hbefore, rfl⟩
      · exact absurd hnever hlost
      · simp only [hbefore, bind, Except.bind, if_neg hlost]
        rw [walk_of_append_stay _ _ _ hw]
        rfl

/-- The way to a directory without the slash that may stand at its end. -/
theorem placeOf_stepsTo {node : Node} (h : fs.find directory = .ok (⟨place, 0⟩, node)) :
    fs.placeOf true directory (stepsTo directory) = .ok ⟨place, 0⟩ := by
  have hplace := (placeOf_of_find h).1
  unfold stepsOf at hplace
  simp only at hplace
  split at hplace
  · exact placeOf_of_append_stay hplace
  · exact hplace

end Slash

/-! ## Listing -/

/-- The names below a location, as the nodes come. -/
def namesBelow (place : Location) (nodes : List (Location × Node)) : List Name :=
  nodes.filterMap fun entry =>
    if entry.1.dropLast = place ∧ entry.1 ≠ [] then entry.1.getLast? else none

theorem childNames_perm (fs : FileSystem) (place : Location) :
    (fs.childNames place).Perm (namesBelow place fs.nodes) :=
  List.mergeSort_perm _ _

theorem mem_namesBelow {nodes : List (Location × Node)} :
    name ∈ namesBelow place nodes ↔ ∃ node, (place ++ [name], node) ∈ nodes := by
  unfold namesBelow
  rw [List.mem_filterMap]
  constructor
  · rintro ⟨⟨key, node⟩, hmem, h⟩
    simp only at h
    split at h
    · rename_i hbelow
      obtain ⟨above, rfl⟩ := List.getLast?_eq_some_iff.mp h
      rw [List.dropLast_concat] at hbelow
      rw [← hbelow.1]
      exact ⟨node, hmem⟩
    · cases h
  · rintro ⟨node, hmem⟩
    exact ⟨_, hmem, by simp⟩

theorem mem_childNames : name ∈ fs.childNames place ↔ fs.node? (place ++ [name]) ≠ none := by
  have hne : place ++ [name] ≠ [] := by simp
  rw [(childNames_perm fs place).mem_iff, mem_namesBelow, node?, if_neg hne]
  constructor
  · rintro ⟨node, hmem⟩ hnone
    simpa using List.lookup_eq_none_iff.mp hnone _ hmem
  · intro hsome
    obtain ⟨node, hnode⟩ := Option.ne_none_iff_exists'.mp hsome
    exact ⟨node, Association.mem_of_lookup hnode⟩

/-! ## Shelves -/

/-- Files by name, each with its contents and its time. -/
abbrev Files := Name → Option (Bytes × Timestamp)

/-- A file may be written by a name in the directory. -/
structure Admits (fs : FileSystem) (directory : Path) (place : Location) (name : Name) :
    Prop where
  isPiece : IsPiece name
  target : fs.target (directory.join ⟨name⟩) = .ok (.child place name)
  located : (!directory.isAbsolute && decide (0 < fs.lost)) = false

/-- A directory in the tree that holds certain files and nothing else, each written by its
name. -/
structure Shelf (directory : Path) (place : Location) (files : Files) (fs : FileSystem) :
    Prop where
  grounded : fs.Grounded
  found : fs.find directory = .ok (⟨place, 0⟩, .directory)
  file : ∀ name, fs.node? (place ++ [name]) = (files name).map fun file => .file file.1 file.2
  below : ∀ name rest, rest ≠ [] → fs.node? (place ++ name :: rest) = none
  nodup : (fs.childNames place).Nodup
  admits : ∀ name, files name ≠ none → fs.Admits directory place name

variable {files : Files} {content : Bytes} {time : Timestamp}

/-- An empty directory is one. -/
theorem shelf_of_empty (hg : fs.Grounded)
    (hf : fs.find directory = .ok (⟨place, 0⟩, .directory))
    (he : ∀ name rest, fs.node? (place ++ name :: rest) = none) :
    Shelf directory place (fun _ => none) fs := by
  have hnames : fs.childNames place = [] := by
    rw [List.eq_nil_iff_forall_not_mem]
    exact fun name hmem => mem_childNames.mp hmem (he name [])
  exact ⟨hg, hf, fun name => he name [], fun name rest _ => he name rest,
    hnames ▸ List.nodup_nil, fun _ hne => absurd rfl hne⟩

theorem Shelf.way (h : Shelf directory place files fs) :
    fs.placeOf true directory (stepsTo directory) = .ok ⟨place, 0⟩ :=
  placeOf_stepsTo h.found

theorem Shelf.stands (h : Shelf directory place files fs) :
    fs.node? place = some .directory :=
  (placeOf_of_find h.found).2

/-- The names of a shelf's files lead to the shelf. -/
theorem Shelf.eq_of_target (h : Shelf directory place files fs) (hname : IsPiece name)
    {other : Location} {last : Name}
    (ht : fs.target (directory.join ⟨name⟩) = .ok (.child other last)) :
    other = place ∧ last = name := by
  obtain ⟨hother, -, -, rfl⟩ := (target_join_iff directory hname).mp ht
  have hsame := placeOf_unique hother h.way
    (isAbsolute_join directory (isAbsolute_of_isPiece hname))
  exact ⟨congrArg Place.location hsame, rfl⟩

/-! ## Looking at a shelf -/

/-- The names of the files are listed, each once. -/
theorem Shelf.list (h : Shelf directory place files fs) :
    ∃ names, fs.list directory = .ok names ∧ names.Nodup ∧
      ∀ name, name ∈ names ↔ files name ≠ none := by
  refine ⟨fs.childNames place, ?_, h.nodup, fun name => ?_⟩
  · unfold FileSystem.list
    rw [h.found]
    rfl
  · rw [mem_childNames, h.file]
    cases files name <;> simp

theorem Shelf.node_of_some (h : Shelf directory place files fs)
    (hf : files name = some (content, time)) :
    fs.node? (place ++ [name]) = some (.file content time) := by
  rw [h.file, hf]
  rfl

theorem Shelf.read (h : Shelf directory place files fs)
    (hf : files name = some (content, time)) : fs.read (directory.join ⟨name⟩) = .ok content := by
  have ha := h.admits name (by simp [hf])
  exact read_join directory ha.isPiece ha.target (h.node_of_some hf)

/-- Nothing else is read. -/
theorem Shelf.of_read (h : Shelf directory place files fs) (hname : IsPiece name)
    (hr : fs.read (directory.join ⟨name⟩) = .ok content) :
    ∃ time, files name = some (content, time) := by
  obtain ⟨found, time, hfound, hlost, hfile⟩ := read_eq_ok_iff.mp hr
  rw [stepsOf_join directory hname] at hfound
  obtain ⟨other, hother, -, hstands⟩ := placeOf_of_append_down hfound
  have hsame := placeOf_unique hother h.way
    (isAbsolute_join directory (isAbsolute_of_isPiece hname))
  obtain rfl : other = place := congrArg Place.location hsame
  obtain ⟨node, hnode, hend⟩ := hstands.node
  rw [h.file] at hnode
  cases hf : files name with
  | none =>
      rw [hf] at hnode
      cases hnode
  | some file =>
      rw [hf] at hnode
      cases hnode
      rw [hend fun _ hlink => Node.noConfusion hlink, h.file, hf] at hfile
      cases hfile
      exact ⟨_, rfl⟩

theorem Shelf.status (h : Shelf directory place files fs)
    (hf : files name = some (content, time)) :
    fs.status (directory.join ⟨name⟩) = some ⟨content.length, time⟩ := by
  have ha := h.admits name (by simp [hf])
  obtain ⟨hplace, -, hlen, -⟩ := (target_join_iff directory ha.isPiece).mp ha.target
  have hthere : fs.placeOf false (directory.join ⟨name⟩) (stepsOf (directory.join ⟨name⟩)) =
      .ok ⟨place ++ [name], 0⟩ := by
    rw [stepsOf_join directory ha.isPiece]
    exact placeOf_append_down hplace h.stands hlen (h.node_of_some hf)
      fun _ hlink => Node.noConfusion hlink
  have hnode : fs.nodeAt? ⟨place ++ [name], 0⟩ = some (.file content time) := h.node_of_some hf
  simp only [FileSystem.status, hthere, Except.toOption, bind, Option.bind, hnode]
  rfl

/-! ## Changing a shelf -/

/-- The files of a shelf become others, under names that are admitted, and nothing else
changes.  Whatever is admitted stays so. -/
theorem Shelf.become (h : Shelf directory place files fs) {others : Files}
    (hn : ∀ location, (∀ name, location ≠ place ++ [name]) →
      after.node? location = fs.node? location)
    (hf : ∀ name, after.node? (place ++ [name]) =
      (others name).map fun file => .file file.1 file.2)
    (hw : after.workingDirectory = fs.workingDirectory) (hl : after.lost = fs.lost)
    (hd : (after.childNames place).Nodup)
    (ha : ∀ name, others name ≠ none → fs.Admits directory place name) :
    Shelf directory place others after ∧
      ∀ name, fs.Admits directory place name → after.Admits directory place name := by
  have hplace : ∀ name, place ≠ place ++ [name] := fun name => by simp
  -- Seen from afterwards, only files of the shelf may have been different before.
  have halters : Alters (fun location => ∃ name, location = place ++ [name]) after fs := by
    refine ⟨fun location node hnode => ?_, hw.symm, hl.symm⟩
    by_cases hthere : ∃ name, location = place ++ [name]
    · obtain ⟨name, rfl⟩ := hthere
      refine Or.inr ⟨⟨name, rfl⟩, ?_⟩
      rw [h.file] at hnode
      obtain ⟨old, -, rfl⟩ := Option.map_eq_some_iff.mp hnode
      exact ⟨old.1, old.2, rfl⟩
    · rw [hn location fun name heq => hthere ⟨name, heq⟩]
      exact Or.inl hnode
  have hkept : ∀ {path : Path} {steps : List Step},
      fs.placeOf true path steps = .ok ⟨place, 0⟩ →
        after.placeOf true path steps = .ok ⟨place, 0⟩ := by
    intro path steps hp
    rcases halters.placeOf hp with hsame | ⟨-, name, hnever⟩
    · exact hsame
    · exact absurd hnever (hplace name)
  have hdirectory : after.node? place = some .directory :=
    (hn place hplace).trans h.stands
  have hadmits : ∀ name, fs.Admits directory place name →
      after.Admits directory place name := by
    intro name ho
    refine ⟨ho.isPiece, ?_, by rw [hl]; exact ho.located⟩
    obtain ⟨hway, -, hlen, -⟩ := (target_join_iff directory ho.isPiece).mp ho.target
    exact (target_join_iff directory ho.isPiece).mpr ⟨hkept hway, hdirectory, hlen, rfl⟩
  refine ⟨⟨?_, ?_, hf, fun name rest hrest => ?_, hd, fun name hne => hadmits name (ha name hne)⟩,
    hadmits⟩
  · refine h.grounded.of_directories hw hl fun location hlocation => ?_
    rw [hn location, hlocation]
    rintro name rfl
    rw [h.file] at hlocation
    obtain ⟨old, -, hnever⟩ := Option.map_eq_some_iff.mp hlocation
    cases hnever
  · have hnode : after.nodeAt? ⟨place, 0⟩ = some .directory := hdirectory
    simp only [find, hkept (placeOf_of_find h.found).1, bind, Except.bind, hnode]
  · rw [hn, h.below name rest hrest]
    intro other heq
    exact hrest (List.cons.inj (List.append_cancel_left heq)).2

/-- Reading the clock changes no file. -/
theorem Shelf.tick (h : Shelf directory place files fs) :
    Shelf directory place files fs.tick.2 ∧
      ∀ name, fs.Admits directory place name → fs.tick.2.Admits directory place name :=
  h.become (fun _ _ => rfl) h.file rfl rfl h.nodup h.admits

/-- One file of a shelf is changed, or taken away, and nothing else. -/
theorem Shelf.edit (h : Shelf directory place files fs) (file : Option (Bytes × Timestamp))
    (ha : fs.Admits directory place name)
    (hn : ∀ location, after.node? location = if location = place ++ [name]
      then file.map fun file => .file file.1 file.2 else fs.node? location)
    (hw : after.workingDirectory = fs.workingDirectory) (hl : after.lost = fs.lost)
    (hd : (after.childNames place).Nodup) :
    Shelf directory place (Function.update files name file) after ∧
      ∀ other, fs.Admits directory place other → after.Admits directory place other := by
  refine h.become (fun location hother => ?_) (fun other => ?_) hw hl hd fun other hother => ?_
  · rw [hn, if_neg (hother name)]
  · rw [hn]
    by_cases heq : other = name
    · rw [heq, if_pos rfl, Function.update_self]
    · rw [if_neg (by simpa using heq), Function.update_of_ne heq]
      exact h.file other
  · by_cases heq : other = name
    · exact heq ▸ ha
    · rw [Function.update_of_ne heq] at hother
      exact h.admits other hother

theorem nodup_childNames_of_sublist (h : (fs.childNames place).Nodup)
    (hs : after.nodes.Sublist fs.nodes) : (after.childNames place).Nodup := by
  rw [(childNames_perm after place).nodup_iff]
  exact (((childNames_perm fs place).nodup_iff.mp h).sublist (hs.filterMap _))

/-- A name is listed once also after a file is put there. -/
theorem nodup_childNames_setNode (h : (fs.childNames place).Nodup) (name : Name) (node : Node) :
    ((fs.setNode (place ++ [name]) node).childNames place).Nodup := by
  rw [(childNames_perm _ place).nodup_iff]
  have hnodes : namesBelow place (fs.setNode (place ++ [name]) node).nodes =
      name :: namesBelow place (fs.nodes.filter (·.1 ≠ place ++ [name])) := by
    simp [setNode, namesBelow]
  rw [hnodes, List.nodup_cons]
  constructor
  · rw [mem_namesBelow]
    rintro ⟨old, hmem⟩
    simpa using (List.mem_filter.mp hmem).2
  · exact ((childNames_perm fs place).nodup_iff.mp h).sublist (List.filter_sublist.filterMap _)

/-- Removing a name takes its file away. -/
theorem Shelf.removeFile (h : Shelf directory place files fs) (hname : IsPiece name)
    (hr : fs.removeFile (directory.join ⟨name⟩) = .ok after) :
    Shelf directory place (Function.update files name none) after ∧
      ∀ other, fs.Admits directory place other → after.Admits directory place other := by
  obtain ⟨there, htarget, hdir, rfl⟩ := removeFile_join directory hname hr
  obtain ⟨rfl, -⟩ := h.eq_of_target hname htarget
  have hne : there ++ [name] ≠ [] := by simp
  have hsome : files name ≠ none := by
    intro hnone
    obtain ⟨_, htarget', hrest⟩ := Outcome.of_bind_eq_ok hr
    rw [htarget] at htarget'
    cases htarget'
    simp only [h.file, hnone, Option.map_none] at hrest
    cases hrest
  have halters := alters_dropNode h.grounded hne hdir
  refine h.edit none (h.admits name hsome) (fun location => ?_) halters.workingDirectory
    halters.lost (nodup_childNames_of_sublist h.nodup List.filter_sublist)
  rw [node?_dropNode _ _ _ hne]
  by_cases heq : location = there ++ [name]
  · rw [if_pos (heq ▸ List.prefix_refl _), if_pos heq]
    rfl
  · rw [if_neg heq]
    split
    · -- Below a file there is nothing.
      rename_i hprefix
      obtain ⟨rest, rfl⟩ := hprefix
      cases rest with
      | nil => exact absurd (List.append_nil _) heq
      | cons next rest =>
          rw [List.append_assoc]
          exact (h.below name (next :: rest) (List.cons_ne_nil _ _)).symm
    · rfl

/-- Every file of a shelf can be removed, and nothing else. -/
theorem Shelf.exists_removeFile_iff (h : Shelf directory place files fs) (hname : IsPiece name) :
    (∃ after, fs.removeFile (directory.join ⟨name⟩) = .ok after) ↔ files name ≠ none := by
  constructor
  · rintro ⟨after, hr⟩ hnone
    obtain ⟨there, htarget, hrest⟩ := Outcome.of_bind_eq_ok hr
    cases there with
    | directory => cases hrest
    | child parent last =>
        obtain ⟨rfl, rfl⟩ := h.eq_of_target hname htarget
        simp only [h.file, hnone, Option.map_none] at hrest
        cases hrest
  · intro hsome
    obtain ⟨file, hfile⟩ := Option.ne_none_iff_exists'.mp hsome
    exact removeFile_of_read directory hname (h.read hfile)

/-- Replacing a file puts the new one under its name. -/
theorem Shelf.replaceFile (h : Shelf directory place files fs) (hname : IsPiece name)
    (hr : fs.replaceFile directory (directory.join ⟨name⟩) content = .ok after) :
    Shelf directory place (Function.update files name (some (content, fs.tick.1))) after ∧
      ∀ other, fs.Admits directory place other → after.Admits directory place other := by
  obtain ⟨there, htarget, -, rfl⟩ := replaceFile_join directory hname hr
  obtain ⟨rfl, -⟩ := h.eq_of_target hname htarget
  have hlocated : (!directory.isAbsolute && decide (0 < fs.lost)) = false := by
    unfold FileSystem.replaceFile at hr
    split at hr
    · cases hr
    · rename_i hlocated
      simpa using hlocated
  exact h.edit (some (content, fs.tick.1)) ⟨hname, htarget, hlocated⟩
    (fun location => node?_setNode _ _ _ (by simp)) rfl rfl
    (nodup_childNames_setNode h.nodup name _)

/-- A file can be written under every name that is admitted. -/
theorem Shelf.exists_replaceFile_iff (h : Shelf directory place files fs)
    (hname : IsPiece name) (content : Bytes) :
    (∃ after, fs.replaceFile directory (directory.join ⟨name⟩) content = .ok after) ↔
      fs.Admits directory place name := by
  constructor
  · rintro ⟨after, hr⟩
    obtain ⟨there, htarget, -, rfl⟩ := replaceFile_join directory hname hr
    obtain ⟨rfl, -⟩ := h.eq_of_target hname htarget
    refine ⟨hname, htarget, ?_⟩
    unfold FileSystem.replaceFile at hr
    split at hr
    · cases hr
    · rename_i hlocated
      simpa using hlocated
  · intro ha
    have hnode : fs.node? (place ++ [name]) ≠ some .directory := by
      rw [h.file]
      cases files name <;> simp
    unfold FileSystem.replaceFile
    rw [ha.located, h.found]
    simp only [Bool.false_eq_true, if_false, renameNew, ha.target, bind, Except.bind,
      if_neg hnode]
    exact ⟨_, rfl⟩

/-! ## Shorter names -/

/-- The paths of names in a directory begin alike. -/
theorem exists_front (directory : Path) : ∃ front, ∀ name, IsPiece name →
    (directory.join ⟨name⟩).bytes = front ++ name := by
  by_cases hend : directory.bytes = [] ∨ directory.bytes.getLast? = some Path.slash
  · refine ⟨directory.bytes, fun name hname => ?_⟩
    rw [Path.join, isAbsolute_of_isPiece hname, if_neg Bool.false_ne_true, if_pos hend]
  · refine ⟨directory.bytes ++ [Path.slash], fun name hname => ?_⟩
    rw [Path.join, isAbsolute_of_isPiece hname, if_neg Bool.false_ne_true, if_neg hend,
      List.append_assoc]
    rfl

/-- With a name, every shorter one is admitted. -/
theorem Admits.of_length_le (h : fs.Admits directory place name) {other : Name}
    (hother : IsPiece other) (hzero : 0 ∉ other) (hle : other.length ≤ name.length) :
    fs.Admits directory place other := by
  obtain ⟨hway, hdirectory, hlen, -⟩ := (target_join_iff directory h.isPiece).mp h.target
  obtain ⟨front, hfront⟩ := exists_front directory
  have hname := hfront name h.isPiece
  have hbytes := hfront other hother
  have hclean := zero_notMem_of_placeOf hway
  have hshort : (directory.join ⟨name⟩).bytes.length ≤ pathLimit := by
    simp only [placeOf] at hway
    split at hway
    · cases hway
    split at hway
    · cases hway
    split at hway
    · cases hway
    · omega
  refine ⟨hother, (target_join_iff directory hother).mpr ⟨?_, hdirectory, by omega, rfl⟩, h.located⟩
  refine placeOf_respell hway ?_ ?_ ?_ ?_
  · rw [isAbsolute_join directory (isAbsolute_of_isPiece hother),
      isAbsolute_join directory (isAbsolute_of_isPiece h.isPiece)]
  · rw [hname, List.mem_append] at hclean
    rw [hbytes, List.mem_append]
    exact fun hmem => hmem.elim (fun hfrontmem => hclean (Or.inl hfrontmem)) hzero
  · rw [hbytes]
    exact List.append_ne_nil_of_right_ne_nil _ hother.ne_nil
  · rw [hbytes, List.length_append]
    rw [hname, List.length_append] at hshort
    omega

end ScriptModules.FileSystem
