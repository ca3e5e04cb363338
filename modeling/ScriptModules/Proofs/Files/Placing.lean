import ScriptModules.Proofs.Files.Reading

/-!
# Files that stand in a place are found there

Writing a file finds the place for it by walking to the directory above, and reading
walks to the file itself.  So what was written is read back by the same path: the
walk to the directory goes on to the file by one more step (`placeOf_append_down`).

It is read back as long as the way to the directory stays, whatever else comes or goes
(`Holds`).  That the way needs nothing of what may go is said by a part of the file
system, its `base`, in which it can be walked as well.
-/

namespace ScriptModules

/-! ## Paths to names in a directory -/

namespace Path

/-- A name by which a path goes down: not empty, without slashes, and neither `.` nor
`..`. -/
structure IsPiece (name : Name) : Prop where
  ne_nil : name ≠ []
  slash_notMem : slash ∉ name
  ne_point : name ≠ [point]
  ne_points : name ≠ [point, point]

/-- A slash separates the pieces before it from those after it. -/
theorem split_append_slash (a b : Bytes) : split (a ++ slash :: b) = split a ++ split b := by
  induction a with
  | nil => simp [split]
  | cons byte a ih =>
      rw [List.cons_append, split, split, ih]
      split
      · rfl
      · cases hs : split a with
        | nil => exact absurd hs (split_ne_nil a)
        | cons piece pieces => rfl

theorem split_of_slash_notMem {name : Name} (h : slash ∉ name) : split name = [name] := by
  induction name with
  | nil => rfl
  | cons byte name ih =>
      obtain ⟨hbyte, hname⟩ := not_or.mp (mt List.mem_cons.mpr h)
      rw [split, if_neg (Ne.symm hbyte), ih hname]

end Path

namespace FileSystem

open ScriptModules.Path (IsPiece)

theorem Step.ofPiece?_of_isPiece {name : Name} (h : IsPiece name) :
    Step.ofPiece? name = some (.down name) := by
  rw [Step.ofPiece?, if_neg h.ne_nil, if_neg h.ne_point, if_neg h.ne_points]

/-- The steps to the directory itself, whether or not it is spelled with slashes at its
end. -/
def stepsTo (directory : Path) : List Step :=
  (Path.split directory.bytes).filterMap Step.ofPiece?

variable {fs base after : FileSystem} {directory path : Path} {name : Name}
  {place result : Location} {content : Bytes}

theorem isAbsolute_of_isPiece (h : IsPiece name) : (⟨name⟩ : Path).isAbsolute = false := by
  cases name with
  | nil => rfl
  | cons byte rest =>
      have hne : byte ≠ Path.slash := fun heq => h.slash_notMem (heq ▸ List.mem_cons_self)
      simpa [Path.isAbsolute] using hne

/-- A relative path seen from a directory stands behind a slash, unless the directory is
empty. -/
theorem bytes_join (directory : Path) (h : path.isAbsolute = false) :
    (directory.bytes = [] ∧ (directory.join path).bytes = path.bytes) ∨
      ∃ above, (directory.bytes = above ∧ above ≠ [] ∨ directory.bytes = above ++ [Path.slash]) ∧
        (directory.join path).bytes = above ++ Path.slash :: path.bytes := by
  rw [Path.join, h]
  simp only [Bool.false_eq_true, if_false]
  split
  · rename_i hend
    rcases hend with hnil | hslash
    · rw [hnil]
      exact Or.inl ⟨rfl, rfl⟩
    · obtain ⟨above, habove⟩ := List.getLast?_eq_some_iff.mp hslash
      refine Or.inr ⟨above, Or.inr habove, ?_⟩
      rw [habove, List.append_assoc]
      rfl
  · rename_i hother
    exact Or.inr ⟨directory.bytes, Or.inl ⟨rfl, fun hnil => hother (Or.inl hnil)⟩, rfl⟩

theorem isAbsolute_join (directory : Path) (h : path.isAbsolute = false) :
    (directory.join path).isAbsolute = directory.isAbsolute := by
  rcases bytes_join directory h with ⟨hnil, heq⟩ | ⟨above, hdirectory, heq⟩
  · unfold Path.isAbsolute at h ⊢
    rw [heq, hnil]
    exact h
  · unfold Path.isAbsolute
    rcases hdirectory with ⟨hsame, hne⟩ | hslash
    · rw [heq, hsame, List.head?_append, List.head?_eq_some_head hne]
      rfl
    · rw [heq, hslash, List.head?_append, List.head?_append]
      rfl

/-- The steps of a relative path come after those to the directory. -/
theorem stepsTo_join (directory : Path) (h : path.isAbsolute = false) :
    stepsTo (directory.join path) = stepsTo directory ++ stepsTo path := by
  have hnil : (Path.split []).filterMap Step.ofPiece? = [] := rfl
  unfold stepsTo
  rcases bytes_join directory h with ⟨hempty, heq⟩ | ⟨above, hdirectory, heq⟩
  · rw [heq, hempty, hnil, List.nil_append]
  · rw [heq, Path.split_append_slash, List.filterMap_append]
    rcases hdirectory with ⟨hsame, -⟩ | hslash
    · rw [hsame]
    · rw [hslash, Path.split_append_slash, List.filterMap_append, hnil, List.append_nil]

/-- The one step to a name. -/
theorem stepsTo_of_isPiece (h : IsPiece name) : stepsTo ⟨name⟩ = [.down name] := by
  rw [stepsTo, Path.split_of_slash_notMem h.slash_notMem,
    List.filterMap_cons_some (Step.ofPiece?_of_isPiece h), List.filterMap_nil]

/-- The steps to a name in a directory. -/
theorem stepsTo_join_name (directory : Path) (h : IsPiece name) :
    stepsTo (directory.join ⟨name⟩) = stepsTo directory ++ [.down name] := by
  rw [stepsTo_join directory (isAbsolute_of_isPiece h), stepsTo_of_isPiece h]

/-- A path seen from a directory ends as it does. -/
theorem getLast?_join (directory : Path) (h : path.isAbsolute = false) (hne : path.bytes ≠ []) :
    (directory.join path).bytes.getLast? = path.bytes.getLast? := by
  rcases bytes_join directory h with ⟨-, heq⟩ | ⟨above, -, heq⟩
  · rw [heq]
  · rw [heq, List.getLast?_append, List.getLast?_cons, List.getLast?_eq_some_getLast hne]
    rfl

/-- There is no slash at the end of the path of a name. -/
theorem getLast?_join_name (directory : Path) (h : IsPiece name) :
    (directory.join ⟨name⟩).bytes.getLast? ≠ some Path.slash := by
  rw [getLast?_join directory (isAbsolute_of_isPiece h) h.ne_nil]
  exact fun hsome => h.slash_notMem (List.mem_of_getLast? hsome)

theorem bytes_join_ne_nil (directory : Path) (h : IsPiece name) :
    (directory.join ⟨name⟩).bytes ≠ [] := by
  rcases bytes_join directory (isAbsolute_of_isPiece h) with ⟨-, heq⟩ | ⟨above, -, heq⟩
  · rw [heq]
    exact h.ne_nil
  · simp [heq]

theorem stepsOf_join (directory : Path) (h : IsPiece name) :
    stepsOf (directory.join ⟨name⟩) = stepsTo directory ++ [.down name] := by
  rw [← stepsTo_join_name directory h, stepsOf, if_neg (getLast?_join_name directory h)]
  rfl

/-! ## Walking one step further -/

/-- A walk goes on by one more step where that step can be taken, also where a link at the end is
not followed. -/
theorem walkWith_append {follow : Bool} {last : Step}
    {jump jump' : Location → List Step → Except IoError Location}
    (hlast : ∀ jump, fs.walkWith follow jump place [last] = .ok result)
    (hj : ∀ start steps, jump start steps = .ok place →
      jump' start (steps ++ [last]) = .ok result)
    (steps : List Step) (start : Location)
    (h : fs.walkWith true jump start steps = .ok place) :
    fs.walkWith follow jump' start (steps ++ [last]) = .ok result := by
  induction steps generalizing start with
  | nil =>
      cases h
      exact hlast jump'
  | cons step steps ih =>
      obtain ⟨hstart, htakes⟩ := walkWith_cons_iff.mp h
      rw [List.cons_append, walkWith_cons_iff]
      refine ⟨hstart, ?_⟩
      cases htakes with
      | stay hrest => exact .stay (ih start hrest)
      | up hrest => exact .up (ih start.dropLast hrest)
      | down hl hm hm' hrest => exact .down hl hm hm' (ih _ hrest)
      | stop hl hm hend heq => exact absurd rfl hend.2
      | jump hl hm hgo htarget hrest =>
          refine .jump hl hm (fun hend => List.append_ne_nil_of_right_ne_nil steps
            (List.cons_ne_nil _ _) hend.1) htarget ?_
          rw [← List.append_assoc]
          exact hj _ _ hrest

/-- The same of walks through a number of links. -/
theorem walk_append {follow : Bool} {last : Step}
    (hlast : ∀ jump, fs.walkWith follow jump place [last] = .ok result)
    (links : Nat) (start : Location) (steps : List Step)
    (h : fs.walk true links start steps = .ok place) :
    fs.walk follow links start (steps ++ [last]) = .ok result := by
  induction links generalizing start steps with
  | zero =>
      refine walkWith_append hlast ?_ steps start h
      intro _ _ hnever
      cases hnever
  | succ links ih => exact walkWith_append hlast ih steps start h

/-- Steps out of lost directories that come to the tree leave the last step to do there. -/
theorem leaveLost_append {step : Step} (lost : Nat) (location : Location) (steps : List Step)
    {start : Place} {left : List Step} (h : leaveLost lost location steps = .ok (start, left))
    (hl : start.lost = 0) :
    leaveLost lost location (steps ++ [step]) = .ok (start, left ++ [step]) := by
  induction steps generalizing lost location with
  | nil =>
      cases lost with
      | zero =>
          cases h
          rfl
      | succ lost =>
          cases h
          cases hl
  | cons first steps ih =>
      cases lost with
      | zero =>
          cases h
          rfl
      | succ lost =>
          cases first with
          | stay => exact ih (lost + 1) location h
          | up => exact ih lost location.dropLast h
          | down name => cases h

/-- A path whose other steps lead to a place in the tree leads on from there. -/
theorem placeOf_append {follow : Bool} {steps : List Step} {last : Step}
    (hp : fs.placeOf true path steps = .ok ⟨place, 0⟩)
    (hlast : ∀ jump, fs.walkWith follow jump place [last] = .ok result) :
    fs.placeOf follow path (steps ++ [last]) = .ok ⟨result, 0⟩ := by
  simp only [placeOf] at hp ⊢
  split at hp
  · cases hp
  split at hp
  · cases hp
  split at hp
  · cases hp
  rename_i hzero hempty hlong
  rw [if_neg hzero, if_neg hempty, if_neg hlong]
  split at hp
  · rename_i habs
    rw [if_pos habs]
    obtain ⟨location, hw, heq⟩ := Outcome.of_map_eq_ok hp
    cases heq
    rw [walk_append hlast _ _ _ hw]
    rfl
  · rename_i hrel
    rw [if_neg hrel]
    obtain ⟨⟨start, left⟩, hl, hrest⟩ := Outcome.of_bind_eq_ok hp
    simp only at hrest
    split at hrest
    · rename_i hlost
      cases hrest
      cases hlost
    · rename_i hlost
      obtain ⟨location, hw, heq⟩ := Outcome.of_bind_eq_ok hrest
      cases heq
      rw [leaveLost_append _ _ _ hl (by omega)]
      simp only [bind, Except.bind, if_neg hlost]
      rw [walk_append hlast _ _ _ hw]
      rfl

/-- From a directory it leads to a file or a directory in it. -/
theorem placeOf_append_down {follow : Bool} {steps : List Step}
    (hp : fs.placeOf true path steps = .ok ⟨place, 0⟩)
    (hd : fs.node? place = some .directory) (hlen : ¬ nameLimit < name.length) {node : Node}
    (hn : fs.node? (place ++ [name]) = some node) (hnode : ∀ target, node ≠ .link target) :
    fs.placeOf follow path (steps ++ [.down name]) = .ok ⟨place ++ [name], 0⟩ :=
  placeOf_append hp fun _ => walkWith_cons_iff.mpr ⟨hd, .down hlen hn hnode rfl⟩

/-- And it stays in it. -/
theorem placeOf_append_stay {follow : Bool} {steps : List Step}
    (hp : fs.placeOf true path steps = .ok ⟨place, 0⟩) (hd : fs.node? place = some .directory) :
    fs.placeOf follow path (steps ++ [.stay]) = .ok ⟨place, 0⟩ :=
  placeOf_append hp fun _ => walkWith_cons_iff.mpr ⟨hd, .stay rfl⟩

/-! ## Walking one step less -/

/-- A name stands in a directory, and a walk to it ends there unless it is a link. -/
structure Stands (fs : FileSystem) (name : Name) (result place : Location) : Prop where
  directory : fs.node? place = some .directory
  short : ¬ nameLimit < name.length
  node : ∃ node, fs.node? (place ++ [name]) = some node ∧
    ((∀ target, node ≠ .link target) → result = place ++ [name])

/-- A walk down to a name comes through the directory where it stands. -/
theorem walkWith_of_append_down {jump : Location → List Step → Except IoError Location}
    (hj : ∀ start steps, jump start (steps ++ [.down name]) = .ok result →
      ∃ place, jump start steps = .ok place ∧ Stands fs name result place)
    (steps : List Step) (start : Location)
    (h : fs.walkWith true jump start (steps ++ [.down name]) = .ok result) :
    ∃ place, fs.walkWith true jump start steps = .ok place ∧ Stands fs name result place := by
  induction steps generalizing start with
  | nil =>
      obtain ⟨hd, htakes⟩ := walkWith_cons_iff.mp h
      refine ⟨start, rfl, ?_⟩
      cases htakes with
      | down hlen hn hnode hrest =>
          cases hrest
          exact ⟨hd, hlen, _, hn, fun _ => rfl⟩
      | stop _ _ hend _ => exact absurd rfl hend.2
      | jump hlen hn _ _ _ => exact ⟨hd, hlen, _, hn, fun hnever => absurd rfl (hnever _)⟩
  | cons step steps ih =>
      rw [List.cons_append, walkWith_cons_iff] at h
      obtain ⟨hd, htakes⟩ := h
      simp only [walkWith_cons_iff]
      cases htakes with
      | stay hrest =>
          obtain ⟨place, hplace, hstands⟩ := ih start hrest
          exact ⟨place, ⟨hd, .stay hplace⟩, hstands⟩
      | up hrest =>
          obtain ⟨place, hplace, hstands⟩ := ih start.dropLast hrest
          exact ⟨place, ⟨hd, .up hplace⟩, hstands⟩
      | down hlen hn hnode hrest =>
          obtain ⟨place, hplace, hstands⟩ := ih _ hrest
          exact ⟨place, ⟨hd, .down hlen hn hnode hplace⟩, hstands⟩
      | stop _ _ hend _ => exact absurd rfl hend.2
      | jump hlen hn _ htarget hrest =>
          rw [← List.append_assoc] at hrest
          obtain ⟨place, hplace, hstands⟩ := hj _ _ hrest
          exact ⟨place, ⟨hd, .jump hlen hn (fun hend => hend.2 rfl) htarget hplace⟩, hstands⟩

/-- The same of walks through a number of links. -/
theorem walk_of_append_down (links : Nat) (start : Location) (steps : List Step)
    (h : fs.walk true links start (steps ++ [.down name]) = .ok result) :
    ∃ place, fs.walk true links start steps = .ok place ∧ Stands fs name result place := by
  induction links generalizing start steps with
  | zero =>
      refine walkWith_of_append_down ?_ steps start h
      intro _ _ hnever
      cases hnever
  | succ links ih => exact walkWith_of_append_down ih steps start h

/-- No step down leads out of lost directories. -/
theorem leaveLost_of_append_down (lost : Nat) (location : Location) (steps : List Step)
    {start : Place} {left : List Step}
    (h : leaveLost lost location (steps ++ [.down name]) = .ok (start, left)) :
    ∃ before, leaveLost lost location steps = .ok (start, before) ∧
      left = before ++ [.down name] ∧ start.lost = 0 := by
  induction steps generalizing lost location with
  | nil =>
      cases lost with
      | zero =>
          cases h
          exact ⟨[], rfl, rfl, rfl⟩
      | succ lost => cases h
  | cons first steps ih =>
      cases lost with
      | zero =>
          cases h
          exact ⟨first :: steps, rfl, rfl, rfl⟩
      | succ lost =>
          cases first with
          | stay => exact ih (lost + 1) location h
          | up => exact ih lost location.dropLast h
          | down other => cases h

/-- A path down to a name leads through the directory where it stands. -/
theorem placeOf_of_append_down {steps : List Step} {found : Place}
    (h : fs.placeOf true path (steps ++ [.down name]) = .ok found) :
    ∃ place, fs.placeOf true path steps = .ok ⟨place, 0⟩ ∧ found.lost = 0 ∧
      Stands fs name found.location place := by
  simp only [placeOf] at h ⊢
  split at h
  · cases h
  split at h
  · cases h
  split at h
  · cases h
  rename_i hzero hempty hlong
  simp only [if_neg hzero, if_neg hempty, if_neg hlong]
  split at h
  · rename_i habs
    obtain ⟨location, hw, rfl⟩ := Outcome.of_map_eq_ok h
    obtain ⟨place, hplace, hstands⟩ := walk_of_append_down _ _ _ hw
    refine ⟨place, ?_, rfl, hstands⟩
    rw [if_pos habs, hplace]
    rfl
  · rename_i hrel
    obtain ⟨⟨start, left⟩, hl, hrest⟩ := Outcome.of_bind_eq_ok h
    obtain ⟨before, hbefore, rfl, hzero⟩ := leaveLost_of_append_down _ _ _ hl
    simp only [if_neg (show ¬ 0 < start.lost by omega)] at hrest
    obtain ⟨location, hw, heq⟩ := Outcome.of_bind_eq_ok hrest
    cases heq
    obtain ⟨place, hplace, hstands⟩ := walk_of_append_down _ _ _ hw
    refine ⟨place, ?_, rfl, hstands⟩
    rw [if_neg hrel, hbefore]
    simp only [bind, Except.bind, if_neg (show ¬ 0 < start.lost by omega), hplace]
    rfl

/-- Steps of two spellings of one kind lead to one place. -/
theorem placeOf_unique {follow : Bool} {other : Path} {steps : List Step} {first second : Place}
    (h₁ : fs.placeOf follow path steps = .ok first)
    (h₂ : fs.placeOf follow other steps = .ok second)
    (habs : path.isAbsolute = other.isAbsolute) : first = second := by
  simp only [placeOf, habs] at h₁ h₂
  split at h₁
  · cases h₁
  split at h₁
  · cases h₁
  split at h₁
  · cases h₁
  split at h₂
  · cases h₂
  split at h₂
  · cases h₂
  split at h₂
  · cases h₂
  rw [h₁] at h₂
  exact Except.ok.inj h₂

/-! ## Names in a directory -/

/-- The place of a name in a directory is where the way to the directory leads. -/
theorem target_join_iff (directory : Path) (h : IsPiece name) {last : Name} :
    fs.target (directory.join ⟨name⟩) = .ok (.child place last) ↔
      fs.placeOf true (directory.join ⟨name⟩) (stepsTo directory) = .ok ⟨place, 0⟩ ∧
        fs.node? place = some .directory ∧ ¬ nameLimit < name.length ∧ last = name := by
  have hsteps : (Path.split (directory.join ⟨name⟩).bytes).filterMap Step.ofPiece? =
      stepsTo directory ++ [.down name] := stepsTo_join_name directory h
  unfold target
  simp only [hsteps, List.dropLast_concat, List.getLast?_concat]
  constructor
  · intro htarget
    obtain ⟨above, habove, hrest⟩ := Outcome.of_bind_eq_ok htarget
    cases hnode : fs.nodeAt? above with
    | none =>
        rw [hnode] at hrest
        cases hrest
    | some node =>
        cases node with
        | file content time =>
            rw [hnode] at hrest
            cases hrest
        | link there =>
            rw [hnode] at hrest
            cases hrest
        | directory =>
            rw [hnode] at hrest
            obtain ⟨hlost, hrest⟩ := Outcome.of_guard_eq_ok hrest
            obtain ⟨hlen, hrest⟩ := Outcome.of_guard_eq_ok hrest
            cases hrest
            obtain ⟨location, lost⟩ := above
            obtain rfl : lost = 0 := by simpa using hlost
            exact ⟨habove, by simpa [nodeAt?] using hnode, hlen, rfl⟩
  · rintro ⟨hplace, hdirectory, hlen, rfl⟩
    have hnode : fs.nodeAt? ⟨place, 0⟩ = some .directory := by simpa [nodeAt?] using hdirectory
    rw [hplace]
    simp only [bind, Except.bind, hnode, Nat.lt_irrefl, if_false, if_neg hlen]
    rfl

/-- A file that stands under a name in a directory is read by that name. -/
theorem read_join (directory : Path) (h : IsPiece name) {last : Name} {time : Timestamp}
    (ht : fs.target (directory.join ⟨name⟩) = .ok (.child place last))
    (hf : fs.node? (place ++ [name]) = some (.file content time)) :
    fs.read (directory.join ⟨name⟩) = .ok content := by
  obtain ⟨hplace, hdirectory, hlen, -⟩ := (target_join_iff directory h).mp ht
  refine read_eq_ok_iff.mpr ⟨⟨place ++ [name], 0⟩, time, ?_, rfl, hf⟩
  rw [stepsOf_join directory h]
  exact placeOf_append_down hplace hdirectory hlen hf fun _ hlink => Node.noConfusion hlink

/-- What is removed by a name in a directory stood where the way to the directory
leads. -/
theorem removeFile_join (directory : Path) (h : IsPiece name)
    (hr : fs.removeFile (directory.join ⟨name⟩) = .ok after) :
    ∃ place, fs.target (directory.join ⟨name⟩) = .ok (.child place name) ∧
      fs.node? (place ++ [name]) ≠ some .directory ∧ after = fs.dropNode (place ++ [name]) := by
  obtain ⟨there, htarget, hrest⟩ := Outcome.of_bind_eq_ok hr
  cases there with
  | directory => cases hrest
  | child place last =>
      obtain ⟨-, -, -, rfl⟩ := (target_join_iff directory h).mp htarget
      refine ⟨place, htarget, ?_⟩
      simp only at hrest
      split at hrest
      · cases hrest
      · cases hrest
      · rename_i node hdir hnode
        obtain ⟨-, heq⟩ := Outcome.of_guard_eq_ok hrest
        cases heq
        refine ⟨fun hsome => ?_, rfl⟩
        exact hdir (Option.some.inj (hnode.symm.trans hsome))

/-- What is written under a name in a directory stands where the way to the directory
leads. -/
theorem replaceFile_join {parent : Path} (directory : Path) (h : IsPiece name)
    (hr : fs.replaceFile parent (directory.join ⟨name⟩) content = .ok after) :
    ∃ place, fs.target (directory.join ⟨name⟩) = .ok (.child place name) ∧
      fs.node? (place ++ [name]) ≠ some .directory ∧
      after = fs.tick.2.setNode (place ++ [name]) (.file content fs.tick.1) := by
  have hrename : fs.renameNew (directory.join ⟨name⟩) content = .ok after := by
    unfold replaceFile at hr
    split at hr
    · cases hr
    · split at hr
      · cases hr
      · split at hr
        · rename_i hrename
          cases hr
          exact hrename
        · cases hr
      · cases hr
  obtain ⟨there, htarget, hrest⟩ := Outcome.of_bind_eq_ok hrename
  cases there with
  | directory => cases hrest
  | child place last =>
      obtain ⟨-, -, -, rfl⟩ := (target_join_iff directory h).mp htarget
      obtain ⟨hdir, heq⟩ := Outcome.of_guard_eq_ok hrest
      cases heq
      exact ⟨place, htarget, hdir, rfl⟩

/-! ## Removing what can be read -/

/-- What is read by a name in a directory can be removed by it, link or not, -/
theorem removeFile_of_read (directory : Path) (h : IsPiece name)
    (hread : fs.read (directory.join ⟨name⟩) = .ok content) :
    ∃ after, fs.removeFile (directory.join ⟨name⟩) = .ok after := by
  obtain ⟨found, time, hfound, -, hfile⟩ := read_eq_ok_iff.mp hread
  rw [stepsOf_join directory h] at hfound
  obtain ⟨place, hplace, -, hstands⟩ := placeOf_of_append_down hfound
  obtain ⟨node, hnode, hend⟩ := hstands.node
  have htarget : fs.target (directory.join ⟨name⟩) = .ok (.child place name) :=
    (target_join_iff directory h).mpr ⟨hplace, hstands.directory, hstands.short, rfl⟩
  have hlast := getLast?_join_name directory h
  simp only [removeFile, htarget, bind, Except.bind, hnode]
  cases node with
  | directory =>
      rw [hend fun _ hlink => Node.noConfusion hlink, hnode] at hfile
      cases hfile
  | file content time =>
      simp only [if_neg hlast]
      exact ⟨_, rfl⟩
  | link target =>
      simp only [if_neg hlast]
      exact ⟨_, rfl⟩

/-- and then there is nothing to read. -/
theorem read_removeFile_ne_ok (hg : fs.Grounded) (directory : Path) (h : IsPiece name)
    (hr : fs.removeFile (directory.join ⟨name⟩) = .ok after) (read : Bytes) :
    after.read (directory.join ⟨name⟩) ≠ .ok read := by
  intro hread
  obtain ⟨place, htarget, hdir, rfl⟩ := removeFile_join directory h hr
  have hlocation : place ++ [name] ≠ [] := by simp
  obtain ⟨found, -, hfound, -⟩ := read_eq_ok_iff.mp hread
  rw [stepsOf_join directory h] at hfound
  obtain ⟨now, hnow, -, hstands⟩ := placeOf_of_append_down hfound
  -- The directory of the name is the one it was removed from.
  have hbefore : fs.placeOf true (directory.join ⟨name⟩) (stepsTo directory) = .ok ⟨now, 0⟩ := by
    rcases (alters_dropNode hg hlocation hdir).placeOf hnow with hsame | ⟨-, hnever⟩
    · exact hsame
    · exact hnever.elim
  obtain ⟨hplace, -⟩ := (target_join_iff directory h).mp htarget
  obtain rfl : place = now := congrArg Place.location (placeOf_unique hplace hbefore rfl)
  obtain ⟨node, hnode, -⟩ := hstands.node
  rw [node?_dropNode _ _ _ hlocation, if_pos (List.prefix_refl _)] at hnode
  cases hnode

/-! ## Files that stay -/

/-- A file stands at a location, and `base` is a part of the file system. -/
structure Holds (base : FileSystem) (location : Location) (content : Bytes)
    (fs : FileSystem) : Prop where
  grounded : fs.Grounded
  part : Alters (fun _ => False) fs base
  file : ∃ time, fs.node? location = some (.file content time)

/-- Where a path leads in a part of a file system, it leads in all of it. -/
theorem Alters.target_join (h : Alters (fun _ => False) fs base) (hname : IsPiece name)
    {last : Name} (ht : base.target (directory.join ⟨name⟩) = .ok (.child place last)) :
    fs.target (directory.join ⟨name⟩) = .ok (.child place last) := by
  obtain ⟨hplace, hdirectory, hrest⟩ := (target_join_iff directory hname).mp ht
  refine (target_join_iff directory hname).mpr ⟨?_, h.directory hdirectory, hrest⟩
  rcases h.placeOf hplace with hsame | ⟨_, hnever⟩
  · exact hsame
  · exact hnever.elim

variable {last : Name}

/-- The file is read by its name if the part has the way to it. -/
theorem Holds.read (h : Holds base (place ++ [name]) content fs) (hname : IsPiece name)
    (ht : base.target (directory.join ⟨name⟩) = .ok (.child place last)) :
    fs.read (directory.join ⟨name⟩) = .ok content := by
  obtain ⟨time, hfile⟩ := h.file
  exact read_join directory hname (h.part.target_join hname ht) hfile

/-- Writing the file makes it stand there. -/
theorem holds_replaceFile {parent : Path} (hg : fs.Grounded)
    (hpart : Alters (fun _ => False) fs base) (hname : IsPiece name)
    (ht : base.target (directory.join ⟨name⟩) = .ok (.child place last))
    (hbase : base.node? (place ++ [name]) = none)
    (hr : fs.replaceFile parent (directory.join ⟨name⟩) content = .ok after) :
    Holds base (place ++ [name]) content after := by
  have hgrounded := (adds_replaceFile hr hg).1
  obtain ⟨there, htarget, -, rfl⟩ := replaceFile_join directory hname hr
  have heq := (hpart.target_join hname ht).symm.trans htarget
  simp only [Except.ok.injEq, Target.child.injEq] at heq
  obtain ⟨rfl, -⟩ := heq
  have hlocation : place ++ [name] ≠ [] := by simp
  refine ⟨hgrounded, ⟨?_, hpart.workingDirectory, hpart.lost⟩, fs.tick.1, ?_⟩
  · intro location node hnode
    refine Or.inl ?_
    rw [node?_setNode _ _ _ hlocation, if_neg]
    · rcases hpart.nodes location node hnode with hsame | ⟨hnever, -⟩
      · exact hsame
      · exact hnever.elim
    · intro heq
      rw [heq, hbase] at hnode
      cases hnode
  · rw [node?_setNode _ _ _ hlocation, if_pos rfl]

/-- Reading the clock moves no file. -/
theorem Holds.tick {location : Location} (h : Holds base location content fs) :
    Holds base location content fs.tick.2 :=
  ⟨h.grounded, ⟨h.part.nodes, h.part.workingDirectory, h.part.lost⟩, h.file⟩

/-- Removing another name takes away nothing that is needed, if in the part it is a
directory or nothing. -/
theorem Holds.removeFile (h : Holds base (place ++ [name]) content fs) (hname : IsPiece name)
    (ht : base.target (directory.join ⟨name⟩) = .ok (.child place last))
    {other : Name} (hother : IsPiece other) (hne : other ≠ name)
    (hbase : base.node? (place ++ [other]) = some .directory ∨
      ∀ location, place ++ [other] <+: location → base.node? location = none)
    (hr : fs.removeFile (directory.join ⟨other⟩) = .ok after) :
    Holds base (place ++ [name]) content after := by
  have hadds : Adds (fun _ => False) fs after := adds_removeFile hr
  have hgrounded := (hadds h.grounded).1
  obtain ⟨there, htarget, hdir, rfl⟩ := removeFile_join directory hother hr
  -- Both names are in the one directory.
  obtain ⟨hplace, -⟩ := (target_join_iff directory hname).mp (h.part.target_join hname ht)
  obtain ⟨hthere, -⟩ := (target_join_iff directory hother).mp htarget
  have hunique := placeOf_unique hplace hthere (by
    rw [isAbsolute_join directory (isAbsolute_of_isPiece hname),
      isAbsolute_join directory (isAbsolute_of_isPiece hother)])
  obtain rfl : place = there := congrArg Place.location hunique
  have hgone : ∀ location, place ++ [other] <+: location → base.node? location = none := by
    rcases hbase with hdirectory | hnone
    · exact absurd (h.part.directory hdirectory) hdir
    · exact hnone
  have hlocation : place ++ [other] ≠ [] := by simp
  have halters := alters_dropNode h.grounded hlocation hdir
  refine ⟨hgrounded, ⟨?_, h.part.workingDirectory, h.part.lost.trans halters.lost.symm⟩, ?_⟩
  · intro location node hnode
    refine Or.inl ?_
    rw [node?_dropNode _ _ _ hlocation, if_neg]
    · rcases h.part.nodes location node hnode with hsame | ⟨hnever, -⟩
      · exact hsame
      · exact hnever.elim
    · intro hpre
      rw [hgone location hpre] at hnode
      cases hnode
  · obtain ⟨time, hfile⟩ := h.file
    refine ⟨time, ?_⟩
    rw [node?_dropNode _ _ _ hlocation, if_neg]
    · exact hfile
    · intro hpre
      have heq := hpre.eq_of_length (by simp)
      exact hne (List.singleton_inj.mp (List.append_cancel_left heq))

end FileSystem

end ScriptModules
