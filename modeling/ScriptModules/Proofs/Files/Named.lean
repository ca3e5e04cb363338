import ScriptModules.Proofs.Files.Tree

/-!
# What can be named

Canonicalization looks at every real path on the way, so it goes through the part of a file system
in which no path is too long (`FileSystem.named`).  A walk there is a walk in the file system
itself, also where the working directory counts as lost since its path is too long
(`placeOf_of_named`).  What a path leads to has a short path of its own, then
(`isLong_eq_false_of_realPath`), and this path is its own real path (`realPath_toPath`).
-/

namespace ScriptModules.FileSystem

variable {fs other : FileSystem} {place location result : Location} {node : Node}
  {steps : List Step} {path : Path}

/-! ## Walks -/

/-- A walk is one through the nodes. -/
theorem walkWith_eq_of_nodes (h : other.nodes = fs.nodes) (follow : Bool)
    (jump : Location → List Step → Except IoError Location) (place : Location)
    (steps : List Step) :
    other.walkWith follow jump place steps = fs.walkWith follow jump place steps := by
  have hnode : ∀ location, other.node? location = fs.node? location := by
    intro location
    rw [node?, node?, h]
  induction steps generalizing place with
  | nil => rw [walkWith, walkWith]
  | cons step steps ih => simp only [walkWith, hnode, ih]

theorem walk_eq_of_nodes (h : other.nodes = fs.nodes) (follow : Bool) (links : Nat) :
    other.walk follow links = fs.walk follow links := by
  induction links with
  | zero =>
      funext place steps
      exact walkWith_eq_of_nodes h follow _ place steps
  | succ links ih =>
      funext place steps
      rw [walk, walk, ih]
      exact walkWith_eq_of_nodes h follow _ place steps

theorem node?_named (fs : FileSystem) (location : Location) : fs.named.node? location =
    if Location.isLong location then none else fs.node? location := by
  have hlook := Association.lookup_filter fs.nodes (fun key => !Location.isLong key) location
  unfold node? named
  by_cases hroot : location = []
  · subst hroot
    rfl
  · simp only [if_neg hroot]
    rw [hlook]
    cases Location.isLong location <;> rfl

/-- What can be named is there, apart from where relative paths start. -/
theorem alters_named (fs : FileSystem) :
    Alters (fun _ => False) fs { fs.named with lost := fs.lost } := by
  refine ⟨fun location node hnode => Or.inl ?_, rfl, rfl⟩
  have hnamed : fs.named.node? location = some node := hnode
  rw [node?_named] at hnamed
  split at hnamed
  · cases hnamed
  · exact hnamed

/-- A walk through what can be named is one through what is there. -/
theorem walk_of_named {follow : Bool} {links : Nat}
    (h : fs.named.walk follow links place steps = .ok result) :
    fs.walk follow links place steps = .ok result := by
  have hsame : FileSystem.walk { fs.named with lost := fs.lost } follow links =
      fs.named.walk follow links := walk_eq_of_nodes (by rfl) follow links
  rw [← hsame] at h
  exact ((alters_named fs).walk links place steps result h).resolve_right id

/-- Steps out of lost directories may be taken as well where these are there. -/
theorem walkWith_leaveLost {follow : Bool}
    {jump : Location → List Step → Except IoError Location} (lost : Nat) (location : Location)
    (steps : List Step) {start : Place} {left : List Step}
    (hd : ∀ above, above <+: location → fs.node? above = some .directory)
    (h : leaveLost lost location steps = .ok (start, left)) :
    start.location <+: location ∧
      fs.walkWith follow jump location steps = fs.walkWith follow jump start.location left := by
  induction steps generalizing lost location with
  | nil =>
      cases lost with
      | zero =>
          cases h
          exact ⟨List.prefix_refl _, rfl⟩
      | succ lost =>
          cases h
          exact ⟨List.prefix_refl _, rfl⟩
  | cons step steps ih =>
      have hhere := hd location (List.prefix_refl _)
      cases lost with
      | zero =>
          cases h
          exact ⟨List.prefix_refl _, rfl⟩
      | succ lost =>
          cases step with
          | stay =>
              obtain ⟨hunder, hwalk⟩ := ih (lost + 1) location hd h
              refine ⟨hunder, ?_⟩
              rw [walkWith, hhere, ← hwalk]
          | up =>
              have hup := List.dropLast_prefix location
              obtain ⟨hunder, hwalk⟩ :=
                ih lost location.dropLast (fun above habove => hd above (habove.trans hup)) h
              refine ⟨hunder.trans hup, ?_⟩
              rw [walkWith, hhere, ← hwalk]
          | down name => cases h

theorem isLong_eq_false_of_node? (h : fs.named.node? location ≠ none) :
    Location.isLong location = false := by
  rw [node?_named] at h
  cases hlong : Location.isLong location with
  | true => rw [hlong, if_pos rfl] at h; exact absurd rfl h
  | false => rfl

/-- A path leads where it leads through what can be named. -/
theorem placeOf_of_named (hg : fs.Grounded) (hhere : path.isAbsolute = true ∨ fs.lost = 0)
    {found : Place} (h : fs.named.placeOf true path steps = .ok found) :
    fs.placeOf true path steps = .ok ⟨found.location, 0⟩ ∧
      (0 < found.lost → fs.node? found.location = some .directory) := by
  simp only [placeOf] at h ⊢
  split at h
  · cases h
  split at h
  · cases h
  split at h
  · cases h
  rename_i hzero hempty hlong
  rw [if_neg hzero, if_neg hempty, if_neg hlong]
  split at h
  · rename_i habs
    obtain ⟨location, hw, rfl⟩ := Outcome.of_map_eq_ok h
    rw [if_pos habs, walk_of_named hw]
    exact ⟨rfl, fun hnever => absurd hnever (Nat.lt_irrefl 0)⟩
  · rename_i hrel
    have hlost := hhere.resolve_left hrel
    have habove : ∀ above, above <+: fs.workingDirectory → fs.node? above = some .directory := by
      intro above habove
      rw [List.prefix_iff_eq_take.mp habove]
      exact hg _ (by rw [hlost]; exact habove.length_le)
    obtain ⟨⟨⟨start, lost⟩, left⟩, hl, hrest⟩ := Outcome.of_bind_eq_ok h
    -- Where the working directory cannot be named, the first steps lead out of it.
    have hleave : ∀ jump, start <+: fs.workingDirectory ∧
        fs.walkWith true jump fs.workingDirectory steps = fs.walkWith true jump start left :=
      fun jump => walkWith_leaveLost _ _ _ habove hl
    have hwalk : fs.walk true linkLimit fs.workingDirectory steps =
        fs.walk true linkLimit start left := by
      rw [linkLimit, walk]
      exact (hleave _).2
    have hplace : leaveLost fs.lost fs.workingDirectory steps =
        .ok (⟨fs.workingDirectory, 0⟩, steps) := by
      rw [hlost, leaveLost]
    simp only [if_neg hrel, hplace, bind, Except.bind, Nat.lt_irrefl, if_false, hwalk]
    simp only at hrest
    split at hrest
    · rename_i hpositive
      cases hrest
      rw [(landing_leaveLost _ _ _ hl).2 hpositive]
      exact ⟨rfl, fun _ => habove start (hleave fun _ _ => .error .notFound).1⟩
    · obtain ⟨location, hw, heq⟩ := Outcome.of_bind_eq_ok hrest
      cases heq
      rw [walk_of_named hw]
      exact ⟨rfl, fun hnever => absurd hnever (Nat.lt_irrefl 0)⟩

/-! ## Real paths -/

theorem realPath_eq_ok_iff {real : Path} : fs.realPath path = .ok real ↔
    ∃ place node, fs.find path = .ok (place, node) ∧ (path.isAbsolute = true ∨ fs.lost = 0) ∧
      (∃ found, fs.named.find path = .ok found) ∧ real = Location.toPath place.location := by
  have hguard : ¬ (!path.isAbsolute && decide (0 < fs.lost)) = true ↔
      path.isAbsolute = true ∨ fs.lost = 0 := by
    simp [Classical.or_iff_not_imp_left]
  unfold realPath
  constructor
  · intro h
    obtain ⟨⟨place, node⟩, hfind, hrest⟩ := Outcome.of_bind_eq_ok h
    obtain ⟨hhere, hrest⟩ := Outcome.of_guard_eq_ok hrest
    refine ⟨place, node, hfind, hguard.mp hhere, ?_⟩
    split at hrest
    · rename_i found hfound
      cases hrest
      exact ⟨⟨found, hfound⟩, rfl⟩
    · cases hrest
  · rintro ⟨place, node, hfind, hhere, ⟨found, hfound⟩, rfl⟩
    rw [hfind, hfound]
    simp only [bind, Except.bind, if_neg (hguard.mpr hhere)]
    rfl

/-- A path of a file that canonicalization accepts leads to something with a path of its own. -/
theorem isLong_eq_false_of_realPath (hg : fs.Grounded) {real : Path}
    (hfile : fs.FileAt path location) (h : fs.realPath path = .ok real) :
    Location.isLong location = false := by
  obtain ⟨content, time, hfind⟩ := hfile
  obtain ⟨hplace, hnode⟩ := placeOf_of_find hfind
  obtain ⟨-, -, -, hhere, ⟨⟨⟨there, lost⟩, last⟩, hfound⟩, -⟩ := realPath_eq_ok_iff.mp h
  obtain ⟨hnamed, hlast⟩ := placeOf_of_find hfound
  obtain ⟨hthere, hlost⟩ := placeOf_of_named hg hhere hnamed
  have hfileThere : fs.node? location = some (.file content time) := hnode
  cases Except.ok.inj (hplace.symm.trans hthere)
  by_cases hpositive : 0 < lost
  · rw [hlost hpositive] at hfileThere
    cases hfileThere
  · rw [nodeAt?, if_neg hpositive] at hlast
    exact isLong_eq_false_of_node? (by rw [hlast]; exact Option.some_ne_none _)

/-- The path of a file is its own real path. -/
theorem realPath_toPath (hf : fs.HasFileNames) (hd : fs.OnDirectories location)
    (hn : fs.node? location = some node) (hnode : ∀ target, node ≠ .link target)
    (hshort : Location.isLong location = false) :
    fs.realPath (Location.toPath location) = .ok (Location.toPath location) := by
  have hshort' := isLong_eq_false.mp hshort
  have hnamed : ∀ {place node}, place <+: location → fs.node? place = some node →
      fs.named.node? place = some node := by
    intro place node hunder hplace
    have hplaceShort : Location.isLong place = false := by
      rw [isLong_eq_false, List.prefix_iff_eq_take.mp hunder]
      exact Nat.le_trans (length_toPath_take _ _) hshort'
    rw [node?_named, hplaceShort]
    exact hplace
  have hfNamed : fs.named.HasFileNames :=
    fun entry hentry => hf entry (List.mem_filter.mp hentry).1
  have hdNamed : fs.named.OnDirectories location :=
    fun above hunder hne => hnamed hunder (hd above hunder hne)
  have hfound := find_toPath hf hd hn hnode hshort'
  have hfoundNamed := find_toPath hfNamed hdNamed (hnamed (List.prefix_refl _) hn) hnode hshort'
  have habs : (Location.toPath location).isAbsolute = true := by
    cases location <;> rfl
  exact realPath_eq_ok_iff.mpr ⟨_, _, hfound, Or.inl habs, ⟨_, hfoundNamed⟩, rfl⟩

end ScriptModules.FileSystem
