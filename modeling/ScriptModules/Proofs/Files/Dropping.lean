import ScriptModules.Proofs.Files.Named

/-!
# A file that is taken away

No walk goes on from a file, so one file less changes where paths lead in one way only: those that
led to the file lead to nothing (`find_dropNode_iff`).  Real paths stay as well, since what can be
named loses just this file (`named_dropNode`).
-/

namespace ScriptModules.FileSystem

variable {fs : FileSystem} {place location result : Location} {path : Path} {steps : List Step}
  {node : Node}

/-! ## Walks past a file -/

/-- Nothing but a file may stand at a location. -/
def IsLeaf (fs : FileSystem) (location : Location) : Prop :=
  ∀ node, fs.node? location = some node → ∃ content time, node = .file content time

theorem isLeaf_of_file {content : Bytes} {time : Timestamp}
    (h : fs.node? location = some (.file content time)) : fs.IsLeaf location := by
  intro node hnode
  rw [h] at hnode
  exact ⟨content, time, (Option.some.inj hnode).symm⟩

theorem IsLeaf.ne_directory (h : fs.IsLeaf location) : fs.node? location ≠ some .directory := by
  intro hd
  obtain ⟨_, _, hnever⟩ := h _ hd
  cases hnever

theorem IsLeaf.ne_nil (h : fs.IsLeaf location) : location ≠ [] := by
  rintro rfl
  exact h.ne_directory rfl

/-- What is not the file stays, if it stands on directories. -/
theorem IsLeaf.node?_dropNode (h : fs.IsLeaf location) (hd : fs.OnDirectories place)
    (hne : place ≠ location) : (fs.dropNode location).node? place = fs.node? place := by
  rw [FileSystem.node?_dropNode _ _ _ h.ne_nil, if_neg]
  exact fun hunder => h.ne_directory (hd location hunder (Ne.symm hne))

/-- A walk that does not end at the file is not changed. -/
theorem IsLeaf.walkWith {follow : Bool}
    {jump jump' : Location → List Step → Except IoError Location} (h : fs.IsLeaf location)
    (hne : result ≠ location) (hj : ∀ place steps, fs.OnDirectories place →
      jump place steps = .ok result → jump' place steps = .ok result)
    (steps : List Step) (place : Location) (hd : fs.OnDirectories place)
    (hw : fs.walkWith follow jump place steps = .ok result) :
    (fs.dropNode location).walkWith follow jump' place steps = .ok result := by
  induction steps generalizing place with
  | nil =>
      cases hw
      rfl
  | cons step steps ih =>
      obtain ⟨hplace, htakes⟩ := walkWith_cons_iff.mp hw
      have hhere : (fs.dropNode location).node? place = some .directory := by
        rw [h.node?_dropNode hd, hplace]
        rintro rfl
        exact h.ne_directory hplace
      have hchild : ∀ {name node}, fs.node? (place ++ [name]) = some node →
          place ++ [name] ≠ location →
            (fs.dropNode location).node? (place ++ [name]) = some node := by
        intro name node hnode hother
        rw [h.node?_dropNode (hd.concat hplace name) hother, hnode]
      have hlink : ∀ {name target}, fs.node? (place ++ [name]) = some (.link target) →
          place ++ [name] ≠ location := by
        rintro name target hnode rfl
        obtain ⟨_, _, hnever⟩ := h _ hnode
        cases hnever
      refine walkWith_cons_iff.mpr ⟨hhere, ?_⟩
      cases htakes with
      | stay hrest => exact .stay (ih place hd hrest)
      | up hrest => exact .up (ih _ (hd.of_isPrefix (List.dropLast_prefix place)) hrest)
      | @down name node hlen hn hnode hrest =>
          have hother : place ++ [name] ≠ location := by
            rintro rfl
            obtain ⟨content, time, rfl⟩ := h _ hn
            exact hne (walkWith_of_file hn hrest)
          exact .down hlen (hchild hn hother) hnode (ih _ (hd.concat hplace _) hrest)
      | stop hlen hn hend heq => exact .stop hlen (hchild hn (hlink hn)) hend heq
      | jump hlen hn hgo htarget hrest =>
          refine .jump hlen (hchild hn (hlink hn)) hgo htarget (hj _ _ ?_ hrest)
          split
          · exact onDirectories_nil
          · exact hd

theorem IsLeaf.walk {follow : Bool} (h : fs.IsLeaf location) (hne : result ≠ location)
    (links : Nat) (place : Location) (steps : List Step) (hd : fs.OnDirectories place)
    (hw : fs.walk follow links place steps = .ok result) :
    (fs.dropNode location).walk follow links place steps = .ok result := by
  induction links generalizing place steps with
  | zero =>
      refine h.walkWith hne ?_ steps place hd hw
      intro _ _ _ hnever
      cases hnever
  | succ links ih => exact h.walkWith hne ih steps place hd hw

theorem IsLeaf.placeOf {follow : Bool} {found : Place} (hg : fs.Grounded)
    (h : fs.IsLeaf location) (hp : fs.placeOf follow path steps = .ok found)
    (hne : found ≠ ⟨location, 0⟩) : (fs.dropNode location).placeOf follow path steps = .ok found := by
  have halters := alters_dropNode hg h.ne_nil h.ne_directory
  simp only [FileSystem.placeOf, halters.workingDirectory, halters.lost] at hp ⊢
  split at hp
  · cases hp
  split at hp
  · cases hp
  split at hp
  · cases hp
  rename_i hzero hempty hlong
  rw [if_neg hzero, if_neg hempty, if_neg hlong]
  split at hp
  · rename_i habs
    rw [if_pos habs]
    obtain ⟨result, hw, rfl⟩ := Outcome.of_map_eq_ok hp
    have hother : result ≠ location := fun heq => hne (heq ▸ rfl)
    rw [h.walk hother _ _ _ onDirectories_nil hw]
    rfl
  · rename_i hrel
    rw [if_neg hrel]
    obtain ⟨⟨start, left⟩, hl, hrest⟩ := Outcome.of_bind_eq_ok hp
    simp only [hl, bind, Except.bind]
    simp only at hrest
    split at hrest
    · rename_i hlost
      rw [if_pos hlost]
      exact hrest
    · rename_i hlost
      rw [if_neg hlost]
      obtain ⟨result, hw, heq⟩ := Outcome.of_bind_eq_ok hrest
      cases heq
      have hother : result ≠ location := fun heq => hne (heq ▸ rfl)
      have hstart : fs.OnDirectories start.location := by
        rw [location_of_leaveLost _ _ _ hl (Nat.eq_zero_of_not_pos hlost)]
        exact hg.onDirectories
      rw [h.walk hother _ _ _ hstart hw]
      rfl

/-- Paths lead where they led, but none leads to the file. -/
theorem find_dropNode_iff (hg : fs.Grounded) (h : fs.IsLeaf location) {found : Place} :
    (fs.dropNode location).find path = .ok (found, node) ↔
      fs.find path = .ok (found, node) ∧ found ≠ ⟨location, 0⟩ := by
  have halters := alters_dropNode hg h.ne_nil h.ne_directory
  have hgone : (fs.dropNode location).node? location = none := by
    rw [FileSystem.node?_dropNode _ _ _ h.ne_nil, if_pos (List.prefix_refl _)]
  constructor
  · intro hfind
    obtain ⟨hplace, hnode⟩ := placeOf_of_find hfind
    have hother : found ≠ ⟨location, 0⟩ := by
      rintro rfl
      have hnone : (fs.dropNode location).nodeAt? ⟨location, 0⟩ = none := hgone
      rw [hnone] at hnode
      cases hnode
    have hbefore := (halters.placeOf hplace).resolve_right fun hnever => hnever.2
    have hsame : fs.nodeAt? found = some node := by
      unfold nodeAt? at hnode ⊢
      split at hnode
      · rename_i hlost
        rwa [if_pos hlost]
      · rename_i hlost
        rw [if_neg hlost]
        exact (halters.nodes _ _ hnode).resolve_right fun hnever => hnever.1
    refine ⟨?_, hother⟩
    rw [find, hbefore]
    simp only [bind, Except.bind, hsame]
  · rintro ⟨hfind, hother⟩
    obtain ⟨hplace, hnode⟩ := placeOf_of_find hfind
    have hsame : (fs.dropNode location).nodeAt? found = some node := by
      unfold nodeAt? at hnode ⊢
      split at hnode
      · rename_i hlost
        rwa [if_pos hlost]
      · rename_i hlost
        obtain ⟨place, lost⟩ := found
        obtain rfl : lost = 0 := Nat.eq_zero_of_not_pos hlost
        rw [if_neg hlost, h.node?_dropNode (hg.onDirectories_of_placeOf hplace rfl), hnode]
        exact fun heq => hother (congrArg (Place.mk · 0) heq)
    rw [find, h.placeOf hg hplace hother]
    simp only [bind, Except.bind, hsame]

/-! ## Questions -/

/-- A file that is another one is found at another place. -/
theorem exists_found_ne (hfile : fs.isFile path = true) (hnot : ¬ fs.FileAt path location) :
    ∃ found content time, fs.find path = .ok (found, .file content time) ∧
      found ≠ ⟨location, 0⟩ := by
  obtain ⟨other, content, time, hfind⟩ := exists_fileAt hfile
  refine ⟨_, content, time, hfind, fun heq => hnot ⟨content, time, ?_⟩⟩
  rw [hfind, heq]

/-- A path is one of a file as before, unless it is one of the file that is gone. -/
theorem isFile_dropNode_iff (hg : fs.Grounded) (h : fs.IsLeaf location) :
    (fs.dropNode location).isFile path = true ↔
      fs.isFile path = true ∧ ¬ fs.FileAt path location := by
  constructor
  · intro hfile
    obtain ⟨other, content, time, hfind⟩ := exists_fileAt hfile
    obtain ⟨hbefore, hne⟩ := (find_dropNode_iff hg h).mp hfind
    have hat : fs.FileAt path other := ⟨content, time, hbefore⟩
    refine ⟨isFile_iff.mpr ⟨other, hat⟩, fun hlocation => hne ?_⟩
    rw [hat.unique hlocation]
  · rintro ⟨hfile, hnot⟩
    obtain ⟨found, content, time, hfind, hne⟩ := exists_found_ne hfile hnot
    rw [isFile, (find_dropNode_iff hg h).mpr ⟨hfind, hne⟩]

theorem isDirectory_dropNode (hg : fs.Grounded) (h : fs.IsLeaf location) (path : Path) :
    (fs.dropNode location).isDirectory path = fs.isDirectory path := by
  have hiff : ∀ fs : FileSystem, fs.isDirectory path = true ↔
      ∃ found, fs.find path = .ok (found, .directory) := by
    intro fs
    refine ⟨find_of_isDirectory, ?_⟩
    rintro ⟨found, hfind⟩
    rw [isDirectory, hfind]
  rw [Bool.eq_iff_iff, hiff, hiff]
  simp only [find_dropNode_iff hg h]
  refine ⟨fun ⟨found, hfind, _⟩ => ⟨found, hfind⟩, fun ⟨found, hfind⟩ => ⟨found, hfind, ?_⟩⟩
  rintro rfl
  exact h.ne_directory (placeOf_of_find hfind).2

/-- Other files hold what they held. -/
theorem readText_dropNode (hg : fs.Grounded) (h : fs.IsLeaf location)
    (hfile : fs.isFile path = true) (hnot : ¬ fs.FileAt path location) :
    (fs.dropNode location).readText path = fs.readText path := by
  obtain ⟨found, content, time, hfind, hne⟩ := exists_found_ne hfile hnot
  rw [readText, readText, read, read, hfind, (find_dropNode_iff hg h).mpr ⟨hfind, hne⟩]

/-! ## Real paths -/

/-- Of the directories on the way to the working directory the last ones have the longest paths. -/
theorem isLong_take {location : Location} {depth further : Nat} (hle : depth ≤ further)
    (h : Location.isLong (location.take depth) = true) :
    Location.isLong (location.take further) = true := by
  rw [← Bool.not_eq_false, isLong_eq_false] at h ⊢
  have hmono := length_toPath_take (location.take further) depth
  rw [List.take_take, Nat.min_eq_left hle] at hmono
  omega

theorem Grounded.named (hg : fs.Grounded) : fs.named.Grounded := by
  intro depth hdepth
  have hlost : depth + max fs.lost (((List.range (fs.workingDirectory.length + 1)).map
      fs.workingDirectory.take).countP Location.isLong) ≤ fs.workingDirectory.length := hdepth
  have hshort : Location.isLong (fs.workingDirectory.take depth) = false := by
    rw [← Bool.not_eq_true]
    intro hlong
    -- Otherwise all directories from this one on count as lost.
    have hall : ((List.range (fs.workingDirectory.length + 1 - depth)).map fun further =>
        fs.workingDirectory.take (depth + further)).countP Location.isLong =
          fs.workingDirectory.length + 1 - depth := by
      rw [List.countP_eq_length.mpr]
      · simp
      · rw [List.forall_mem_map]
        exact fun further _ => isLong_take (Nat.le_add_right _ _) hlong
    have hsplit : fs.workingDirectory.length + 1 =
        depth + (fs.workingDirectory.length + 1 - depth) := by omega
    rw [hsplit, List.range_add, List.map_append, List.countP_append, List.map_map] at hlost
    have hcomp : (fs.workingDirectory.take ∘ (depth + ·)) =
        fun further => fs.workingDirectory.take (depth + further) := rfl
    rw [hcomp, hall] at hlost
    omega
  show fs.named.node? (fs.workingDirectory.take depth) = some .directory
  rw [node?_named, hshort]
  exact hg depth (by omega)

theorem IsLeaf.named (h : fs.IsLeaf location) : fs.named.IsLeaf location := by
  intro node hnode
  rw [node?_named] at hnode
  split at hnode
  · cases hnode
  · exact h node hnode

/-- What can be named loses just this file. -/
theorem named_dropNode (hg : fs.Grounded) (h : fs.IsLeaf location) :
    (fs.dropNode location).named = fs.named.dropNode location := by
  have hext : ∀ {first second : FileSystem}, first.nodes = second.nodes →
      first.workingDirectory = second.workingDirectory → first.lost = second.lost →
        first.clock = second.clock → first = second := by
    rintro ⟨⟩ ⟨⟩ ⟨⟩ ⟨⟩ ⟨⟩ ⟨⟩
    rfl
  have hlost : (fs.dropNode location).lost = fs.lost :=
    (alters_dropNode hg h.ne_nil h.ne_directory).lost
  have hnamed : (fs.named.dropNode location).lost = fs.named.lost :=
    (alters_dropNode hg.named h.ne_nil h.named.ne_directory).lost
  refine hext ?_ rfl ?_ rfl
  · simp only [FileSystem.named, dropNode, List.filter_filter, Bool.and_comm]
  · rw [hnamed, FileSystem.named, FileSystem.named, hlost]
    rfl

/-- Real paths stay, but for those of the file. -/
theorem realPath_dropNode (hg : fs.Grounded) (h : fs.IsLeaf location)
    (hfile : fs.isFile path = true) (hnot : ¬ fs.FileAt path location) (real : Path) :
    (fs.dropNode location).realPath path = .ok real ↔ fs.realPath path = .ok real := by
  obtain ⟨there, content, time, hfind, hne⟩ := exists_found_ne hfile hnot
  have hlost : (fs.dropNode location).lost = fs.lost :=
    (alters_dropNode hg h.ne_nil h.ne_directory).lost
  have hfindAfter := (find_dropNode_iff hg h).mpr ⟨hfind, hne⟩
  have hnamed : (path.isAbsolute = true ∨ fs.lost = 0) →
      ((∃ found, (fs.named.dropNode location).find path = .ok found) ↔
        ∃ found, fs.named.find path = .ok found) := by
    intro hhere
    constructor
    · rintro ⟨⟨found, node⟩, hfound⟩
      exact ⟨_, ((find_dropNode_iff hg.named h.named).mp hfound).1⟩
    · rintro ⟨⟨found, node⟩, hfound⟩
      refine ⟨_, (find_dropNode_iff hg.named h.named).mpr ⟨hfound, ?_⟩⟩
      rintro rfl
      have hthere := (placeOf_of_named hg hhere (placeOf_of_find hfound).1).1
      rw [(placeOf_of_find hfind).1] at hthere
      exact hne (Except.ok.inj hthere)
  rw [realPath_eq_ok_iff, realPath_eq_ok_iff, hlost, named_dropNode hg h, hfind, hfindAfter]
  constructor
  · rintro ⟨place, node, heq, hhere, hfound, hreal⟩
    exact ⟨place, node, heq, hhere, (hnamed hhere).mp hfound, hreal⟩
  · rintro ⟨place, node, heq, hhere, hfound, hreal⟩
    exact ⟨place, node, heq, hhere, (hnamed hhere).mpr hfound, hreal⟩

end ScriptModules.FileSystem
