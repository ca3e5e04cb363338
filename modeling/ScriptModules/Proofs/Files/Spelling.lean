import ScriptModules.Proofs.Files.Placing

/-!
# Where paths lead without links

A link can take a walk anywhere.  Where there are none, a walk that comes to an end comes to
where its steps say (`landing`): every name is a step down and every `..` a step up.  So the
place of a file is known by the spelling of a path that leads to it (`locate`).

The spellings looked at here are those the resolver makes: a relative path seen from a
directory, and a suffix put after a path.  A suffix without slashes touches the last step
only.
-/

namespace ScriptModules

namespace Path

/-- A path that ends in a slash has an empty last piece. -/
theorem getLast?_ne_slash {bytes last : Bytes} {pieces : List Bytes}
    (h : split bytes = pieces ++ [last]) (hlast : last ≠ []) : bytes.getLast? ≠ some slash := by
  intro hslash
  obtain ⟨before, rfl⟩ := List.getLast?_eq_some_iff.mp hslash
  rw [split_append_slash] at h
  exact hlast (List.append_singleton_inj.mp h).2.symm

/-- An absolute path has an empty first piece. -/
theorem isAbsolute_eq_false {path : Path} {first : Bytes} {pieces : List Bytes}
    (h : split path.bytes = first :: pieces) (hfirst : first ≠ []) : path.isAbsolute = false := by
  rw [isAbsolute, beq_eq_false_iff_ne]
  intro habs
  obtain ⟨rest, hrest⟩ := List.head?_eq_some_iff.mp habs
  rw [hrest, split, if_pos rfl] at h
  exact hfirst (List.cons.inj h).1.symm

/-- Bytes without slashes that are put after a path are put after its last piece. -/
theorem split_append {suffix : Bytes} (h : slash ∉ suffix) (bytes : Bytes) :
    ∃ pieces last, split bytes = pieces ++ [last] ∧
      split (bytes ++ suffix) = pieces ++ [last ++ suffix] := by
  induction bytes with
  | nil => exact ⟨[], [], rfl, split_of_slash_notMem h⟩
  | cons byte bytes ih =>
      obtain ⟨pieces, last, hsplit, happend⟩ := ih
      rw [List.cons_append, split, split, hsplit, happend]
      split
      · exact ⟨[] :: pieces, last, rfl, rfl⟩
      · cases pieces with
        | nil => exact ⟨[], byte :: last, rfl, rfl⟩
        | cons first pieces => exact ⟨(byte :: first) :: pieces, last, rfl, rfl⟩

theorem isAbsolute_append {path : Path} {suffix : String} (h : path.isAbsolute = false)
    (hsuffix : slash ∉ Bytes.ofText suffix) : (path.append suffix).isAbsolute = false := by
  rw [isAbsolute, beq_eq_false_iff_ne] at h ⊢
  cases hbytes : path.bytes with
  | nil =>
      rw [append, hbytes, List.nil_append]
      exact fun hhead => hsuffix (List.mem_of_mem_head? hhead)
  | cons byte bytes =>
      rw [append, hbytes, List.cons_append, List.head?_cons]
      rw [hbytes, List.head?_cons] at h
      exact h

/-- It makes no difference whether a suffix is put after a path before or after the path is
seen from a directory. -/
theorem append_join (directory : Path) {path : Path} {suffix : String}
    (h : path.isAbsolute = false) (hsuffix : slash ∉ Bytes.ofText suffix) :
    (directory.join path).append suffix = directory.join (path.append suffix) := by
  simp only [join, h, isAbsolute_append h hsuffix, Bool.false_eq_true, if_false]
  split <;> simp [append]

end Path

namespace FileSystem

open ScriptModules.Path (IsPiece)

/-- Nothing is a link. -/
def LinkFree (fs : FileSystem) : Prop :=
  ∀ location target, fs.node? location ≠ some (.link target)

/-- Where a step leads. -/
def Step.landing (place : Location) : Step → Location
  | .stay => place
  | .up => place.dropLast
  | .down name => place ++ [name]

/-- Where steps lead, one after the other. -/
def landing (start : Location) (steps : List Step) : Location :=
  steps.foldl Step.landing start

/-- Where the steps of a path begin. -/
def startOf (fs : FileSystem) (path : Path) : Location :=
  if path.isAbsolute then [] else fs.workingDirectory

/-- Where a path leads by its spelling. -/
def locate (fs : FileSystem) (path : Path) : Location :=
  landing (fs.startOf path) (stepsTo path)

/-- A path leads to a file. -/
def FileAt (fs : FileSystem) (path : Path) (location : Location) : Prop :=
  ∃ content time, fs.find path = .ok (⟨location, 0⟩, .file content time)

/-- A path leads to a directory that is not lost. -/
def DirectoryAt (fs : FileSystem) (path : Path) (location : Location) : Prop :=
  fs.find path = .ok (⟨location, 0⟩, .directory)

variable {fs : FileSystem} {follow : Bool} {directory other path : Path} {name : Name}
  {place result : Location} {steps : List Step} {content : Bytes}

/-! ## Walks -/

theorem landing_append (start : Location) (first second : List Step) :
    landing start (first ++ second) = landing (landing start first) second :=
  List.foldl_append

theorem linkFree_of_nodes (h : ∀ entry ∈ fs.nodes, ∀ target, entry.2 ≠ .link target) :
    fs.LinkFree := by
  intro location target hlink
  unfold node? at hlink
  split at hlink
  · cases hlink
  · exact h _ (Association.mem_of_lookup hlink) target rfl

/-- A walk ends where its steps lead.  The induction is on the steps, each of which is taken
as it stands since no link changes it. -/
theorem LinkFree.walkWith (h : fs.LinkFree)
    {jump : Location → List Step → Except IoError Location} (steps : List Step)
    (place : Location) (hw : fs.walkWith follow jump place steps = .ok result) :
    result = landing place steps := by
  induction steps generalizing place with
  | nil =>
      cases hw
      rfl
  | cons step steps ih =>
      obtain ⟨-, htakes⟩ := walkWith_cons_iff.mp hw
      cases htakes with
      | stay hrest => exact ih place hrest
      | up hrest => exact ih place.dropLast hrest
      | down _ _ _ hrest => exact ih _ hrest
      | stop _ hn _ _ => exact absurd hn (h _ _)
      | jump _ hn _ _ _ => exact absurd hn (h _ _)

theorem LinkFree.walk (h : fs.LinkFree) {links : Nat}
    (hw : fs.walk follow links place steps = .ok result) : result = landing place steps := by
  cases links with
  | zero => exact h.walkWith steps place hw
  | succ links => exact h.walkWith steps place hw

/-- The steps out of lost directories and those that are left lead where all of them lead. -/
theorem landing_leaveLost (lost : Nat) (location : Location) (steps : List Step) {start : Place}
    {left : List Step} (h : leaveLost lost location steps = .ok (start, left)) :
    landing location steps = landing start.location left ∧ (0 < start.lost → left = []) := by
  induction steps generalizing lost location with
  | nil =>
      cases lost with
      | zero =>
          cases h
          exact ⟨rfl, fun hlost => absurd hlost (Nat.lt_irrefl 0)⟩
      | succ lost =>
          cases h
          exact ⟨rfl, fun _ => rfl⟩
  | cons step steps ih =>
      cases lost with
      | zero =>
          cases h
          exact ⟨rfl, fun hlost => absurd hlost (Nat.lt_irrefl 0)⟩
      | succ lost =>
          cases step with
          | stay => exact ih (lost + 1) location h
          | up => exact ih lost location.dropLast h
          | down name => cases h

theorem LinkFree.placeOf (h : fs.LinkFree) {found : Place}
    (hp : fs.placeOf follow path steps = .ok found) :
    found.location = landing (fs.startOf path) steps := by
  simp only [FileSystem.placeOf] at hp
  split at hp
  · cases hp
  split at hp
  · cases hp
  split at hp
  · cases hp
  unfold startOf
  split at hp
  · rename_i habs
    obtain ⟨location, hw, rfl⟩ := Outcome.of_map_eq_ok hp
    rw [if_pos habs]
    exact h.walk hw
  · rename_i hrel
    rw [if_neg hrel]
    obtain ⟨⟨start, left⟩, hl, hrest⟩ := Outcome.of_bind_eq_ok hp
    obtain ⟨hlanding, hleft⟩ := landing_leaveLost _ _ _ hl
    rw [hlanding]
    simp only at hrest
    split at hrest
    · rename_i hlost
      cases hrest
      rw [hleft hlost]
      rfl
    · obtain ⟨location, hw, heq⟩ := Outcome.of_bind_eq_ok hrest
      cases heq
      exact h.walk hw

/-! ## Spellings -/

/-- Where a path leads, seen from a directory. -/
theorem locate_join (directory path : Path) :
    fs.locate (directory.join path) =
      landing (if path.isAbsolute then [] else fs.locate directory) (stepsTo path) := by
  cases habs : path.isAbsolute with
  | true =>
      rw [Path.join, habs, if_pos rfl, if_pos rfl, locate, startOf, if_pos habs]
  | false =>
      rw [if_neg Bool.false_ne_true, locate, locate, startOf, startOf,
        isAbsolute_join directory habs, stepsTo_join directory habs, landing_append]

/-- The name a step goes down to. -/
def Step.name? : Step → Option Name
  | .down name => some name
  | _ => none

/-- The names steps go down to. -/
def namesOf (steps : List Step) : List Name :=
  steps.filterMap Step.name?

/-- Steps none of which leads up add their names. -/
theorem landing_eq_append (hup : .up ∉ steps) (start : Location) :
    landing start steps = start ++ namesOf steps := by
  induction steps generalizing start with
  | nil => simp [landing, namesOf]
  | cons step steps ih =>
      have hrest : .up ∉ steps := fun hmem => hup (List.mem_cons_of_mem step hmem)
      have hgo : landing start (step :: steps) = landing (step.landing start) steps := rfl
      rw [hgo, ih hrest]
      cases step with
      | stay => rfl
      | up => exact absurd List.mem_cons_self hup
      | down name => simp [Step.landing, namesOf, Step.name?]

theorem mem_namesOf : name ∈ namesOf steps ↔ .down name ∈ steps := by
  unfold namesOf
  rw [List.mem_filterMap]
  constructor
  · rintro ⟨step, hstep, hname⟩
    cases step with
    | stay => cases hname
    | up => cases hname
    | down other =>
        cases hname
        exact hstep
  · intro hdown
    exact ⟨.down name, hdown, rfl⟩

/-- The last step goes down to the last name, or to none. -/
theorem mem_namesOf_of_dropLast {step : Step} (h : name ∈ (namesOf (steps ++ [step])).dropLast) :
    name ∈ namesOf steps := by
  rw [namesOf, List.filterMap_append, ← namesOf] at h
  cases step with
  | stay => exact List.dropLast_subset _ (by simpa [List.filterMap_cons, Step.name?] using h)
  | up => exact List.dropLast_subset _ (by simpa [List.filterMap_cons, Step.name?] using h)
  | down last => simpa [List.filterMap_cons, Step.name?] using h

/-- A suffix without slashes changes the last step at most. -/
theorem stepsTo_append {suffix : String} (h : Path.slash ∉ Bytes.ofText suffix) (path : Path) :
    ∃ before last, stepsTo path = before ++ (Step.ofPiece? last).toList ∧
      stepsTo (path.append suffix) =
        before ++ (Step.ofPiece? (last ++ Bytes.ofText suffix)).toList := by
  obtain ⟨pieces, last, hsplit, happend⟩ := Path.split_append h path.bytes
  have hlast : ∀ piece, [piece].filterMap Step.ofPiece? = (Step.ofPiece? piece).toList := by
    intro piece
    rw [List.filterMap_cons]
    cases Step.ofPiece? piece <;> rfl
  refine ⟨pieces.filterMap Step.ofPiece?, last, ?_, ?_⟩
  · rw [stepsTo, hsplit, List.filterMap_append, hlast]
  · rw [stepsTo, Path.append, happend, List.filterMap_append, hlast]

/-! ## Files and directories -/

theorem placeOf_of_find {found : Place} {node : Node} (h : fs.find path = .ok (found, node)) :
    fs.placeOf true path (stepsOf path) = .ok found ∧ fs.nodeAt? found = some node := by
  obtain ⟨there, hplace, hrest⟩ := Outcome.of_bind_eq_ok h
  cases hnode : fs.nodeAt? there with
  | none =>
      rw [hnode] at hrest
      cases hrest
  | some node =>
      rw [hnode] at hrest
      cases hrest
      exact ⟨hplace, hnode⟩

/-- What a path leads to stands where its spelling says. -/
theorem LinkFree.location_of_find (h : fs.LinkFree) {found : Place} {node : Node}
    (hf : fs.find path = .ok (found, node)) : found.location = fs.locate path := by
  rw [h.placeOf (placeOf_of_find hf).1, locate]
  unfold stepsOf stepsTo
  dsimp only
  split
  · rw [landing_append]
    rfl
  · rfl

theorem LinkFree.fileAt (h : fs.LinkFree) (hf : fs.isFile path = true) :
    fs.FileAt path (fs.locate path) := by
  unfold isFile at hf
  split at hf
  · rename_i found content time heq
    obtain ⟨location, lost⟩ := found
    have hlocation : location = fs.locate path := h.location_of_find heq
    have hnode := (placeOf_of_find heq).2
    unfold nodeAt? at hnode
    split at hnode
    · cases hnode
    · rename_i hlost
      obtain rfl : lost = 0 := by simpa using hlost
      rw [← hlocation]
      exact ⟨content, time, heq⟩
  · cases hf

theorem isFile_of_read (h : fs.read path = .ok content) : fs.isFile path = true := by
  obtain ⟨⟨place, node⟩, hfind, hrest⟩ := Outcome.of_bind_eq_ok h
  cases node with
  | file content time => rw [isFile, hfind]
  | directory => cases hrest
  | link target => cases hrest

theorem find_of_isDirectory (h : fs.isDirectory path = true) :
    ∃ found, fs.find path = .ok (found, .directory) := by
  unfold isDirectory at h
  split at h
  · rename_i found heq
    exact ⟨found, heq⟩
  · cases h

/-- A path that ends in a name leads to no lost directory. -/
theorem LinkFree.directoryAt (h : fs.LinkFree) (hsteps : stepsOf path = steps ++ [.down name])
    (hd : fs.isDirectory path = true) : fs.DirectoryAt path (fs.locate path) := by
  obtain ⟨⟨location, lost⟩, hfind⟩ := find_of_isDirectory hd
  have hlocation : location = fs.locate path := h.location_of_find hfind
  obtain ⟨hplace, -⟩ := placeOf_of_find hfind
  rw [hsteps] at hplace
  obtain ⟨-, -, hlost, -⟩ := placeOf_of_append_down hplace
  obtain rfl : lost = 0 := hlost
  rw [← hlocation]
  exact hfind

theorem zero_notMem_of_placeOf {found : Place} (h : fs.placeOf follow path steps = .ok found) :
    0 ∉ path.bytes := by
  unfold FileSystem.placeOf at h
  split at h
  · cases h
  · rename_i hzero
    simpa using hzero

theorem zero_mem_join (directory : Path) (h : path.isAbsolute = false) :
    0 ∈ (directory.join path).bytes ↔ 0 ∈ directory.bytes ∨ 0 ∈ path.bytes := by
  have hslash : ¬ 0 = Path.slash := by decide
  rcases bytes_join directory h with ⟨hnil, heq⟩ | ⟨above, ⟨hsame, -⟩ | hsame, heq⟩
  · simp [heq, hnil]
  · simp [heq, hsame, hslash]
  · simp [heq, hsame, hslash]

/-- What one path leads to, another one of its kind leads to by the same steps, unless it
cannot be walked at all. -/
theorem placeOf_respell {found : Place} (h : fs.placeOf follow path steps = .ok found)
    (habs : other.isAbsolute = path.isAbsolute) (hzero : 0 ∉ other.bytes)
    (hempty : other.bytes ≠ []) (hshort : other.bytes.length ≤ pathLimit) :
    fs.placeOf follow other steps = .ok found := by
  simp only [FileSystem.placeOf] at h ⊢
  split at h
  · cases h
  split at h
  · cases h
  split at h
  · cases h
  rw [if_neg (by simpa using hzero), if_neg hempty, if_neg (by omega), habs]
  exact h

/-- Two spellings of a directory give the same file under a name, if the second one is not
too long with the name behind it. -/
theorem LinkFree.read_join (h : fs.LinkFree) (hname : IsPiece name)
    (hd : fs.DirectoryAt directory place) (hother : fs.DirectoryAt other place)
    (hend : other.bytes.getLast? ≠ some Path.slash)
    (hshort : (other.join ⟨name⟩).bytes.length ≤ pathLimit)
    (hread : fs.read (directory.join ⟨name⟩) = .ok content) :
    fs.read (other.join ⟨name⟩) = .ok content := by
  obtain ⟨found, time, hfound, -, hfile⟩ := read_eq_ok_iff.mp hread
  have hrelative := isAbsolute_of_isPiece hname
  -- The file stands in the directory.
  obtain ⟨above, habove, -, hstands⟩ :=
    placeOf_of_append_down ((stepsOf_join directory hname) ▸ hfound)
  have hhere : above = place := by
    have hstart : fs.startOf (directory.join ⟨name⟩) = fs.startOf directory := by
      rw [startOf, startOf, isAbsolute_join directory hrelative]
    have hlanding : above = landing (fs.startOf (directory.join ⟨name⟩)) (stepsTo directory) :=
      h.placeOf habove
    rw [hlanding, hstart]
    exact (h.location_of_find hd).symm
  subst hhere
  obtain ⟨node, hnode, hplace⟩ := hstands.node
  have hnever : ∀ target, node ≠ .link target := fun target heq => h _ target (heq ▸ hnode)
  rw [hplace hnever] at hfile
  -- The other path leads to the directory, and on to the file.
  obtain ⟨hdirectory, -⟩ := placeOf_of_find hother
  rw [stepsOf, if_neg hend] at hdirectory
  have hzero : 0 ∉ (other.join ⟨name⟩).bytes := by
    have hwalked := zero_notMem_of_placeOf habove
    rw [zero_mem_join directory hrelative] at hwalked
    rw [zero_mem_join other hrelative]
    exact not_or.mpr ⟨zero_notMem_of_placeOf hdirectory, fun hmem => hwalked (Or.inr hmem)⟩
  have hway := placeOf_respell hdirectory (isAbsolute_join other hrelative) hzero
    (bytes_join_ne_nil other hname) hshort
  refine read_eq_ok_iff.mpr ⟨⟨above ++ [name], 0⟩, time, ?_, rfl, hfile⟩
  rw [stepsOf_join other hname]
  exact placeOf_append_down hway hstands.directory hstands.short hfile
    fun _ hlink => Node.noConfusion hlink

end FileSystem

end ScriptModules
