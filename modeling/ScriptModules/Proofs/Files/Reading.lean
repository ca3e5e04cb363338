import ScriptModules.Files.Update
import ScriptModules.Proofs.Association
import ScriptModules.Proofs.Outcome

/-!
# What a change of files does to reading

A path may lead through links and `..`, so a single node that changes can change
where many paths lead.  Yet the changes made here are tame.  Each of them takes
nodes away, or puts a file in a place (`Alters`).  A walk that comes to its end
afterwards came to the same end before, or it ends at a new file: so it goes for
its first step (`Takes`), and so for the rest.  Whatever can be read afterwards
could thus be read before by the same path, or is what was written (`Adds`).

Taking a file away could still move relative paths if the working directory
stood below that file.  No working directory does (`Grounded`), and none will.
-/

namespace ScriptModules.FileSystem

/-! ## Nodes -/

theorem node?_setNode (fs : FileSystem) {location : Location} (node : Node) (place : Location)
    (h : location ≠ []) :
    (fs.setNode location node).node? place =
      if place = location then some node else fs.node? place := by
  unfold setNode node?
  by_cases hp : place = []
  · simp [hp, Ne.symm h]
  · by_cases hl : place = location
    · simp [hl, h]
    · have hne : (place == location) = false := beq_eq_false_iff_ne.mpr hl
      have hlook := Association.lookup_filter fs.nodes (fun key => decide (key ≠ location)) place
      simp [hp, hl, List.lookup_cons, hne] at hlook ⊢
      exact hlook

theorem node?_dropNode (fs : FileSystem) (location place : Location) (h : location ≠ []) :
    (fs.dropNode location).node? place =
      if location <+: place then none else fs.node? place := by
  unfold dropNode node?
  by_cases hp : place = []
  · simp [hp, h]
  · have hlook := Association.lookup_filter fs.nodes (fun key => decide (¬ location <+: key)) place
    by_cases hpre : location <+: place
    · simp [hp, hpre] at hlook ⊢
      exact hlook
    · simp [hp, hpre] at hlook ⊢
      exact hlook

/-! ## One step of a walk -/

variable {fs middle after : FileSystem} {follow : Bool}
  {jump jump' : Location → List Step → Except IoError Location} {place result : Location}
  {steps : List Step}

/-- How a walk that comes to `result` takes its first step, and goes on. -/
inductive Takes (fs : FileSystem) (follow : Bool)
    (jump : Location → List Step → Except IoError Location) (result place : Location)
    (steps : List Step) : Step → Prop where
  | stay (h : fs.walkWith follow jump place steps = .ok result) :
      Takes fs follow jump result place steps .stay
  | up (h : fs.walkWith follow jump place.dropLast steps = .ok result) :
      Takes fs follow jump result place steps .up
  /-- Down to a file or a directory. -/
  | down {name : Name} {node : Node} (hlen : ¬ nameLimit < name.length)
      (hn : fs.node? (place ++ [name]) = some node) (hnode : ∀ target, node ≠ .link target)
      (h : fs.walkWith follow jump (place ++ [name]) steps = .ok result) :
      Takes fs follow jump result place steps (.down name)
  /-- Down to a link that is not followed. -/
  | stop {name : Name} {target : Path} (hlen : ¬ nameLimit < name.length)
      (hn : fs.node? (place ++ [name]) = some (.link target)) (hend : steps = [] ∧ ¬ follow)
      (h : place ++ [name] = result) : Takes fs follow jump result place steps (.down name)
  /-- Through a link. -/
  | jump {name : Name} {target : Path} (hlen : ¬ nameLimit < name.length)
      (hn : fs.node? (place ++ [name]) = some (.link target)) (hgo : ¬ (steps = [] ∧ ¬ follow))
      (htarget : target.bytes ≠ [])
      (h : jump (if target.isAbsolute then [] else place) (stepsOf target ++ steps) = .ok result) :
      Takes fs follow jump result place steps (.down name)

/-- A walk that comes to an end starts at a directory and takes its first step. -/
theorem walkWith_cons_iff {step : Step} :
    fs.walkWith follow jump place (step :: steps) = .ok result ↔
      fs.node? place = some .directory ∧ Takes fs follow jump result place steps step := by
  simp only [FileSystem.walkWith]
  constructor
  · intro h
    cases hn : fs.node? place with
    | none => simp [hn] at h
    | some node =>
        cases node with
        | file content time => simp [hn] at h
        | link target => simp [hn] at h
        | directory =>
            refine ⟨rfl, ?_⟩
            simp only [hn] at h
            cases step with
            | stay => exact .stay h
            | up => exact .up h
            | down name =>
                simp only at h
                split at h
                · cases h
                · rename_i hlen
                  split at h
                  · cases h
                  · rename_i target hlink
                    split at h
                    · rename_i hend
                      exact .stop hlen hlink hend (Except.ok.inj h)
                    · rename_i hgo
                      split at h
                      · cases h
                      · rename_i htarget
                        exact .jump hlen hlink hgo htarget h
                  · rename_i node hnode hchild
                    exact .down hlen hchild (fun target heq => hnode target heq) h
  · rintro ⟨hd, htakes⟩
    rw [hd]
    cases htakes with
    | stay h => exact h
    | up h => exact h
    | down hlen hn hnode h =>
        rename_i node
        simp only [if_neg hlen, hn]
        cases node with
        | link target => exact absurd rfl (hnode target)
        | file content time => exact h
        | directory => exact h
    | stop hlen hn hend h =>
        simp only [if_neg hlen, hn, if_pos hend]
        rw [h]
    | jump hlen hn hgo htarget h => simp only [if_neg hlen, hn, if_neg hgo, if_neg htarget, h]

/-! ## Walks through changed nodes -/

/-- The change from one file system to another brings no nodes but files, and those
only to the `fresh` places. -/
structure Alters (fresh : Location → Prop) (fs after : FileSystem) : Prop where
  /-- A node that is there afterwards was there before or is a fresh file. -/
  nodes : ∀ location node, after.node? location = some node →
    fs.node? location = some node ∨ (fresh location ∧ ∃ content time, node = .file content time)
  /-- Relative paths start where they started. -/
  workingDirectory : after.workingDirectory = fs.workingDirectory
  lost : after.lost = fs.lost

variable {fresh : Location → Prop}

/-- Directories are not fresh. -/
theorem Alters.directory (h : Alters fresh fs after) {location : Location}
    (hd : after.node? location = some .directory) : fs.node? location = some .directory := by
  rcases h.nodes location _ hd with hold | ⟨_, content, time, hfile⟩
  · exact hold
  · cases hfile

/-- Neither are links. -/
theorem Alters.link (h : Alters fresh fs after) {location : Location} {target : Path}
    (hl : after.node? location = some (.link target)) :
    fs.node? location = some (.link target) := by
  rcases h.nodes location _ hl with hold | ⟨_, content, time, hfile⟩
  · exact hold
  · cases hfile

/-- No walk goes on from a file. -/
theorem walkWith_of_file {content : Bytes} {time : Timestamp}
    (hn : fs.node? place = some (.file content time))
    (hw : fs.walkWith follow jump place steps = .ok result) : result = place := by
  cases steps with
  | nil =>
      cases hw
      rfl
  | cons step steps =>
      obtain ⟨hd, -⟩ := walkWith_cons_iff.mp hw
      rw [hn] at hd
      cases hd

/-- A walk that comes to an end after a change came to the same end before, or its end
is fresh.  The induction is on the steps left, which `walkWith` takes one by one. -/
theorem Alters.walkWith (h : Alters fresh fs after)
    (hj : ∀ place steps result, jump' place steps = .ok result →
      jump place steps = .ok result ∨ fresh result)
    (steps : List Step) (place : Location)
    (hw : after.walkWith follow jump' place steps = .ok result) :
    fs.walkWith follow jump place steps = .ok result ∨ fresh result := by
  induction steps generalizing place with
  | nil => exact Or.inl hw
  | cons step steps ih =>
      obtain ⟨hd, htakes⟩ := walkWith_cons_iff.mp hw
      rw [walkWith_cons_iff]
      have hsame : Takes fs follow jump result place steps step ∨ fresh result := by
        cases htakes with
        | stay hrest => exact (ih place hrest).imp_left .stay
        | up hrest => exact (ih place.dropLast hrest).imp_left .up
        | down hlen hn hnode hrest =>
            rcases h.nodes _ _ hn with hold | ⟨hfresh, content, time, rfl⟩
            · exact (ih _ hrest).imp_left (.down hlen hold hnode)
            · rw [walkWith_of_file hn hrest]
              exact Or.inr hfresh
        | stop hlen hn hend heq => exact Or.inl (.stop hlen (h.link hn) hend heq)
        | jump hlen hn hgo htarget hrest =>
            exact (hj _ _ _ hrest).imp_left (.jump hlen (h.link hn) hgo htarget)
      exact hsame.imp_left fun htaken => ⟨h.directory hd, htaken⟩

/-- The same of walks through a number of links. -/
theorem Alters.walk (h : Alters fresh fs after) {follow : Bool} (links : Nat)
    (place : Location) (steps : List Step) (result : Location)
    (hw : after.walk follow links place steps = .ok result) :
    fs.walk follow links place steps = .ok result ∨ fresh result := by
  induction links generalizing place steps result with
  | zero =>
      refine h.walkWith ?_ steps place hw
      intro _ _ _ hnever
      cases hnever
  | succ links ih => exact h.walkWith ih steps place hw

/-- A path leads where it led, or to a fresh place. -/
theorem Alters.placeOf (h : Alters fresh fs after) {follow : Bool} {path : Path}
    {steps : List Step} {place : Place} (hp : after.placeOf follow path steps = .ok place) :
    fs.placeOf follow path steps = .ok place ∨ (place.lost = 0 ∧ fresh place.location) := by
  simp only [FileSystem.placeOf, h.workingDirectory, h.lost] at hp ⊢
  split at hp
  · cases hp
  split at hp
  · cases hp
  split at hp
  · cases hp
  rename_i hzero hempty hlong
  rw [if_neg hzero, if_neg hempty, if_neg hlong]
  split at hp
  · rename_i habs
    rw [if_pos habs]
    obtain ⟨location, hw, rfl⟩ := Outcome.of_map_eq_ok hp
    rcases h.walk _ _ _ _ hw with hold | hfresh
    · exact Or.inl (by rw [hold]; rfl)
    · exact Or.inr ⟨rfl, hfresh⟩
  · rename_i hrel
    rw [if_neg hrel]
    obtain ⟨⟨start, left⟩, hl, hrest⟩ := Outcome.of_bind_eq_ok hp
    simp only [hl, bind, Except.bind]
    simp only at hrest
    split at hrest
    · rename_i hlost
      rw [if_pos hlost]
      exact Or.inl hrest
    · rename_i hlost
      rw [if_neg hlost]
      obtain ⟨location, hw, hplace⟩ := Outcome.of_bind_eq_ok hrest
      cases hplace
      rcases h.walk _ _ _ _ hw with hold | hfresh
      · exact Or.inl (by rw [hold]; rfl)
      · exact Or.inr ⟨rfl, hfresh⟩

/-! ## Reading -/

/-- What is read is the contents of a file at the place the path leads to. -/
theorem read_eq_ok_iff {path : Path} {content : Bytes} :
    fs.read path = .ok content ↔ ∃ place time, fs.placeOf true path (stepsOf path) = .ok place ∧
      place.lost = 0 ∧ fs.node? place.location = some (.file content time) := by
  unfold read find nodeAt?
  cases hp : fs.placeOf true path (stepsOf path) with
  | error e => simp [bind, Except.bind]
  | ok place =>
      by_cases hl : 0 < place.lost
      · simp [bind, Except.bind, hl, throw, throwThe, MonadExceptOf.throw]
        omega
      · have hz : place.lost = 0 := by omega
        cases hn : fs.node? place.location with
        | none => simp [bind, Except.bind, hz, hn]
        | some node =>
            cases node <;>
              simp [bind, Except.bind, hz, hn, throw, throwThe, MonadExceptOf.throw, pure,
                Except.pure]

/-- What can be read was there to be read, or stands in a fresh place. -/
theorem Alters.read (h : Alters fresh fs after) {path : Path} {content : Bytes}
    (hr : after.read path = .ok content) :
    fs.read path = .ok content ∨
      ∃ location time, fresh location ∧ after.node? location = some (.file content time) := by
  obtain ⟨place, time, hp, hl, hn⟩ := read_eq_ok_iff.mp hr
  rcases h.placeOf hp with hold | ⟨_, hfresh⟩
  · rcases h.nodes _ _ hn with hsame | ⟨hfresh, _⟩
    · exact Or.inl (read_eq_ok_iff.mpr ⟨place, time, hold, hl, hsame⟩)
    · exact Or.inr ⟨_, _, hfresh, hn⟩
  · exact Or.inr ⟨_, _, hfresh, hn⟩

/-! ## The working directory -/

/-- The working directory stands on directories, as far as it is not lost. -/
def Grounded (fs : FileSystem) : Prop :=
  ∀ depth, depth + fs.lost ≤ fs.workingDirectory.length →
    fs.node? (fs.workingDirectory.take depth) = some .directory

/-- The root is always there. -/
theorem grounded_of_root (h : fs.workingDirectory = []) : fs.Grounded := by
  intro depth _
  rw [h, List.take_nil]
  rfl

/-- It does while no directory goes away. -/
theorem Grounded.of_directories (hg : fs.Grounded)
    (hw : after.workingDirectory = fs.workingDirectory) (hl : after.lost = fs.lost)
    (hd : ∀ location, fs.node? location = some .directory →
      after.node? location = some .directory) : after.Grounded := by
  intro depth hdepth
  rw [hw] at hdepth ⊢
  rw [hl] at hdepth
  exact hd _ (hg depth hdepth)

/-- Something other than a directory is on no way to the working directory. -/
theorem Grounded.not_isPrefix (hg : fs.Grounded) {location : Location}
    (hn : fs.node? location ≠ some .directory) :
    ¬ location <+: fs.workingDirectory.take (fs.workingDirectory.length - fs.lost) := by
  intro hpre
  apply hn
  have hle := hpre.length_le
  rw [List.length_take] at hle
  have heq := List.prefix_iff_eq_take.mp hpre
  by_cases hlost : fs.lost ≤ fs.workingDirectory.length
  · rw [List.take_take, Nat.min_eq_left (by omega)] at heq
    rw [heq]
    exact hg _ (by omega)
  · have hnil : location = [] := List.eq_nil_of_length_eq_zero (by omega)
    simp [hnil, node?]

/-! ## Changes that add contents -/

/-- A change after which only old contents and the `written` ones can be read. -/
def Adds (written : Bytes → Prop) (fs after : FileSystem) : Prop :=
  fs.Grounded → after.Grounded ∧ ∀ path content, after.read path = .ok content →
    fs.read path = .ok content ∨ written content

variable {written : Bytes → Prop}

theorem Adds.refl : Adds written fs fs :=
  fun hg => ⟨hg, fun _ _ hr => Or.inl hr⟩

theorem Adds.trans (h₁ : Adds written fs middle) (h₂ : Adds written middle after) :
    Adds written fs after := by
  intro hg
  obtain ⟨hgm, hr₁⟩ := h₁ hg
  obtain ⟨hga, hr₂⟩ := h₂ hgm
  refine ⟨hga, fun path content hr => ?_⟩
  rcases hr₂ path content hr with hm | hw
  · exact hr₁ path content hm
  · exact Or.inr hw

theorem Adds.mono {more : Bytes → Prop} (h : Adds written fs after)
    (hmore : ∀ content, written content → more content) : Adds more fs after := by
  intro hg
  obtain ⟨hga, hr⟩ := h hg
  exact ⟨hga, fun path content hc => (hr path content hc).imp_right (hmore content)⟩

/-- Reading the clock changes no file. -/
theorem adds_tick (fs : FileSystem) : Adds written fs fs.tick.2 := by
  intro hg
  refine ⟨hg, fun path content hr => ?_⟩
  have halters : Alters (fun _ => False) fs fs.tick.2 :=
    ⟨fun _ _ hn => Or.inl hn, rfl, rfl⟩
  rcases halters.read hr with hold | ⟨_, _, hnever, _⟩
  · exact Or.inl hold
  · exact hnever.elim

/-- A file that is put where no directory stands adds its contents. -/
theorem adds_setNode {location : Location} (hl : location ≠ [])
    (hn : fs.node? location ≠ some .directory) (content : Bytes) (time : Timestamp) :
    Adds (· = content) fs (fs.setNode location (.file content time)) := by
  intro hg
  constructor
  · refine hg.of_directories rfl rfl fun place hplace => ?_
    rw [node?_setNode fs _ _ hl, if_neg, hplace]
    intro heq
    exact hn (heq ▸ hplace)
  · intro path read hr
    have halters : Alters (· = location) fs (fs.setNode location (.file content time)) := by
      refine ⟨fun place node hnode => ?_, rfl, rfl⟩
      rw [node?_setNode fs _ _ hl] at hnode
      split at hnode
      · rename_i heq
        exact Or.inr ⟨heq, content, time, (Option.some.inj hnode).symm⟩
      · exact Or.inl hnode
    rcases halters.read hr with hold | ⟨place, _, heq, hnode⟩
    · exact Or.inl hold
    · rw [node?_setNode fs _ _ hl, if_pos heq, Option.some.injEq, Node.file.injEq] at hnode
      exact Or.inr hnode.1.symm

/-- Taking away what is not a directory brings nothing and moves no relative path. -/
theorem alters_dropNode {location : Location} (hg : fs.Grounded) (hl : location ≠ [])
    (hn : fs.node? location ≠ some .directory) :
    Alters (fun _ => False) fs (fs.dropNode location) := by
  refine ⟨fun place node hnode => ?_, rfl, ?_⟩
  · rw [node?_dropNode fs _ _ hl] at hnode
    split at hnode
    · cases hnode
    · exact Or.inl hnode
  · simp only [dropNode, if_neg (hg.not_isPrefix hn)]

/-- So it adds nothing. -/
theorem adds_dropNode {location : Location} (hl : location ≠ [])
    (hn : fs.node? location ≠ some .directory) :
    Adds written fs (fs.dropNode location) := by
  intro hg
  have halters := alters_dropNode hg hl hn
  constructor
  · intro depth hdepth
    rw [halters.lost] at hdepth
    change depth + fs.lost ≤ fs.workingDirectory.length at hdepth
    show (fs.dropNode location).node? (fs.workingDirectory.take depth) = some .directory
    have hpre : ¬ location <+: fs.workingDirectory.take depth := fun hpre =>
      hg.not_isPrefix hn (hpre.trans (List.take_prefix_take_left (by omega)))
    rw [node?_dropNode fs _ _ hl, if_neg hpre]
    exact hg depth hdepth
  · intro path content hr
    rcases halters.read hr with hold | ⟨_, _, hnever, _⟩
    · exact Or.inl hold
    · exact hnever.elim

/-! ## Operations -/

/-- What is taken away was a file or a link. -/
theorem removeFile_eq_ok {path : Path} (h : fs.removeFile path = .ok after) :
    ∃ location, location ≠ [] ∧ fs.node? location ≠ some .directory ∧
      after = fs.dropNode location := by
  obtain ⟨there, _, hrest⟩ := Outcome.of_bind_eq_ok h
  cases there with
  | directory => cases hrest
  | child parent name =>
      simp only at hrest
      split at hrest
      · cases hrest
      · cases hrest
      · rename_i node hdir hn
        obtain ⟨_, heq⟩ := Outcome.of_guard_eq_ok hrest
        cases heq
        refine ⟨parent ++ [name], by simp, ?_, rfl⟩
        rw [hn]
        exact fun heq => hdir (Option.some.inj heq)

theorem adds_removeFile {path : Path} (h : fs.removeFile path = .ok after) :
    Adds written fs after := by
  obtain ⟨location, hl, hn, rfl⟩ := removeFile_eq_ok h
  exact adds_dropNode hl hn

/-- A file that is renamed to a path adds its contents. -/
theorem adds_renameNew {path : Path} {content : Bytes}
    (h : fs.renameNew path content = .ok after) : Adds (· = content) fs after := by
  obtain ⟨there, _, hrest⟩ := Outcome.of_bind_eq_ok h
  cases there with
  | directory => cases hrest
  | child parent name =>
      obtain ⟨hdir, heq⟩ := Outcome.of_guard_eq_ok hrest
      cases heq
      have hn : fs.tick.2.node? (parent ++ [name]) ≠ some .directory := hdir
      exact (adds_tick fs).trans (adds_setNode (by simp) hn content fs.tick.1)

theorem adds_replaceFile {directory path : Path} {content : Bytes}
    (h : fs.replaceFile directory path content = .ok after) : Adds (· = content) fs after := by
  unfold replaceFile at h
  split at h
  · cases h
  · split at h
    · cases h
    · split at h
      · rename_i hrename
        cases h
        exact adds_renameNew hrename
      · cases h
    · cases h

end ScriptModules.FileSystem
