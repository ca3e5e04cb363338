import ScriptModules.Proofs.Files.Reading

/-!
# Making directories

A directory that is made takes nothing away.  Where the directories of a path are
there already, nothing is made at all: a walk to a directory has come by every step
before its last one (`walk_concat`), so the first attempt to make the directory
finds that something stands there.
-/

namespace ScriptModules.FileSystem

variable {fs after : FileSystem} {path : Path}

/-! ## The working directory -/

theorem Grounded.makeDirectory (hg : fs.Grounded) {path : Path}
    (h : fs.makeDirectory path = .ok after) : after.Grounded := by
  obtain ⟨there, _, hrest⟩ := Outcome.of_bind_eq_ok h
  cases there with
  | directory => cases hrest
  | child parent name =>
      simp only at hrest
      split at hrest
      · cases hrest
      · cases hrest
        refine hg.of_directories rfl rfl fun place hplace => ?_
        rw [node?_setNode fs _ _ (by simp), hplace, ite_self]

theorem Grounded.ensureDirectory (hg : fs.Grounded) {path : Path}
    (h : fs.ensureDirectory path = .ok after) : after.Grounded := by
  unfold FileSystem.ensureDirectory at h
  split at h
  · rename_i hmake
    cases h
    exact hg.makeDirectory hmake
  · split at h
    · cases h
      exact hg
    · cases h

theorem Grounded.makeChain (hg : fs.Grounded) (paths : List Path) :
    (fs.makeChain paths).2.Grounded := by
  induction paths with
  | nil => exact hg
  | cons path above ih =>
      unfold FileSystem.makeChain
      split
      · exact hg
      · split
        · rename_i hmake
          exact hg.makeDirectory hmake
        · cases hc : fs.makeChain above with
          | mk made middle =>
              rw [hc] at ih
              cases made with
              | error e => exact ih
              | ok done =>
                  simp only
                  split
                  · rename_i hensure
                    exact ih.ensureDirectory hensure
                  · exact ih
        · exact hg

/-- Making directories takes none away. -/
theorem Grounded.makeDirectories (hg : fs.Grounded) (path : Path) :
    (fs.makeDirectories path).2.Grounded :=
  hg.makeChain path.ancestors

/-! ## Walks to the last step but one -/

/-- A step may be taken from a directory, and down only to what is there. -/
def Leads (fs : FileSystem) (place : Location) (step : Step) : Prop :=
  fs.node? place = some .directory ∧
    ∀ name, step = .down name → fs.node? (place ++ [name]) ≠ none

/-- A walk that comes to its end has come to where its last step leads from.  The
induction is on the other steps, which `walkWith` takes one by one. -/
theorem walkWith_concat {jump : Location → List Step → Except IoError Location} {step : Step}
    (hj : ∀ place steps result, jump place (steps ++ [step]) = .ok result →
      ∃ above, jump place steps = .ok above ∧ fs.Leads above step)
    {result : Location} (steps : List Step) (place : Location)
    (h : fs.walkWith true jump place (steps ++ [step]) = .ok result) :
    ∃ above, fs.walkWith true jump place steps = .ok above ∧ fs.Leads above step := by
  induction steps generalizing place with
  | nil =>
      obtain ⟨hd, htakes⟩ := walkWith_cons_iff.mp h
      refine ⟨place, rfl, hd, ?_⟩
      rintro name rfl hnone
      cases htakes with
      | down _ hn => simp [hnone] at hn
      | stop _ hn => simp [hnone] at hn
      | jump _ hn => simp [hnone] at hn
  | cons first steps ih =>
      rw [List.cons_append, walkWith_cons_iff] at h
      obtain ⟨hd, htakes⟩ := h
      have hbefore : ∃ above, Takes fs true jump above place steps first ∧ fs.Leads above step := by
        cases htakes with
        | stay hrest =>
            obtain ⟨above, hw, hleads⟩ := ih place hrest
            exact ⟨above, .stay hw, hleads⟩
        | up hrest =>
            obtain ⟨above, hw, hleads⟩ := ih place.dropLast hrest
            exact ⟨above, .up hw, hleads⟩
        | down hlen hn hnode hrest =>
            obtain ⟨above, hw, hleads⟩ := ih _ hrest
            exact ⟨above, .down hlen hn hnode hw, hleads⟩
        | stop _ _ hend => exact absurd rfl hend.2
        | jump hlen hn _ htarget hrest =>
            rw [← List.append_assoc] at hrest
            obtain ⟨above, hw, hleads⟩ := hj _ _ _ hrest
            exact ⟨above, .jump hlen hn (fun hend => hend.2 rfl) htarget hw, hleads⟩
      obtain ⟨above, htaken, hleads⟩ := hbefore
      exact ⟨above, walkWith_cons_iff.mpr ⟨hd, htaken⟩, hleads⟩

/-- The same of walks through a number of links. -/
theorem walk_concat {step : Step} (links : Nat) (place : Location) (steps : List Step)
    (result : Location) (h : fs.walk true links place (steps ++ [step]) = .ok result) :
    ∃ above, fs.walk true links place steps = .ok above ∧ fs.Leads above step := by
  induction links generalizing place steps result with
  | zero =>
      refine walkWith_concat ?_ steps place h
      intro _ _ _ hnever
      cases hnever
  | succ links ih => exact walkWith_concat ih steps place h

/-- The last step out of lost directories is left to do in the tree, or it was no step
down and the ones before it ended at a lost directory. -/
theorem leaveLost_concat {step : Step} (lost : Nat) (location : Location) (steps : List Step)
    {place : Place} {left : List Step}
    (h : leaveLost lost location (steps ++ [step]) = .ok (place, left)) :
    (∃ before, left = before ++ [step] ∧ place.lost = 0 ∧
        leaveLost lost location steps = .ok (place, before)) ∨
      ∃ above, leaveLost lost location steps = .ok (above, []) ∧ 0 < above.lost ∧
        ∀ name, step ≠ .down name := by
  induction steps generalizing lost location with
  | nil =>
      cases lost with
      | zero =>
          cases h
          exact Or.inl ⟨[], rfl, rfl, rfl⟩
      | succ lost =>
          cases step with
          | stay => exact Or.inr ⟨_, rfl, Nat.succ_pos lost, fun _ => Step.noConfusion⟩
          | up => exact Or.inr ⟨_, rfl, Nat.succ_pos lost, fun _ => Step.noConfusion⟩
          | down name => cases h
  | cons first steps ih =>
      cases lost with
      | zero =>
          cases h
          exact Or.inl ⟨first :: steps, rfl, rfl, rfl⟩
      | succ lost =>
          cases first with
          | stay => exact ih (lost + 1) location h
          | up => exact ih lost location.dropLast h
          | down name => cases h

/-- The place of all steps but the last is a directory.  When the last one leads down it
is in the tree, and something is there. -/
theorem placeOf_concat {steps : List Step} {step : Step} {place : Place}
    (h : fs.placeOf true path (steps ++ [step]) = .ok place) :
    ∃ above, fs.placeOf true path steps = .ok above ∧ fs.nodeAt? above = some .directory ∧
      ∀ name, step = .down name →
        above.lost = 0 ∧ fs.node? (above.location ++ [name]) ≠ none := by
  have hinTree : ∀ {above : Location}, fs.Leads above step →
      fs.nodeAt? ⟨above, 0⟩ = some .directory ∧ ∀ name, step = .down name →
        0 = 0 ∧ fs.node? (above ++ [name]) ≠ none :=
    fun hleads => ⟨hleads.1, fun name hname => ⟨rfl, hleads.2 name hname⟩⟩
  simp only [placeOf] at h ⊢
  split at h
  · cases h
  split at h
  · cases h
  split at h
  · cases h
  rename_i hzero hempty hlong
  rw [if_neg hzero, if_neg hempty, if_neg hlong]
  split at h
  · rename_i habs
    rw [if_pos habs]
    obtain ⟨location, hw, -⟩ := Outcome.of_map_eq_ok h
    obtain ⟨above, habove, hleads⟩ := walk_concat _ _ _ _ hw
    exact ⟨⟨above, 0⟩, by rw [habove]; rfl, hinTree hleads⟩
  · rename_i hrel
    rw [if_neg hrel]
    obtain ⟨⟨start, left⟩, hl, hrest⟩ := Outcome.of_bind_eq_ok h
    rcases leaveLost_concat _ _ _ hl with
      ⟨before, rfl, hlost, hbefore⟩ | ⟨above, habove, hlost, hdown⟩
    · have hkept : ¬ 0 < start.lost := by omega
      simp only [hbefore, bind, Except.bind]
      rw [if_neg hkept]
      simp only at hrest
      rw [if_neg hkept] at hrest
      obtain ⟨location, hw, -⟩ := Outcome.of_bind_eq_ok hrest
      obtain ⟨above, habove, hleads⟩ := walk_concat _ _ _ _ hw
      exact ⟨⟨above, 0⟩, by rw [habove]; rfl, hinTree hleads⟩
    · refine ⟨above, ?_, ?_, fun name hname => absurd hname (hdown name)⟩
      · simp only [habove, bind, Except.bind, if_pos hlost]
        rfl
      · rw [nodeAt?, if_pos hlost]

/-! ## Directories that are there -/

theorem isDirectory_iff : fs.isDirectory path = true ↔
    ∃ place, fs.placeOf true path (stepsOf path) = .ok place ∧
      fs.nodeAt? place = some .directory := by
  unfold isDirectory find
  cases hp : fs.placeOf true path (stepsOf path) with
  | error e => simp [bind, Except.bind]
  | ok place =>
      cases hn : fs.nodeAt? place with
      | none => simp [bind, Except.bind, hn]
      | some node => cases node <;> simp [bind, Except.bind, hn]

/-- As a place for a new node, a directory that is there is taken or no place at all. -/
theorem target_of_isDirectory (h : fs.isDirectory path = true) :
    (∃ parent name, fs.target path = .ok (.child parent name) ∧
        fs.node? (parent ++ [name]) ≠ none) ∨
      fs.target path = .ok .directory ∨ fs.target path = .error .nameTooLong := by
  obtain ⟨place, hp, hd⟩ := isDirectory_iff.mp h
  -- The slash at the end of a path is the step that `target` leaves out.
  have hthere : ∃ there,
      fs.placeOf true path ((Path.split path.bytes).filterMap Step.ofPiece?) = .ok there ∧
        fs.nodeAt? there = some .directory := by
    unfold stepsOf at hp
    simp only at hp
    split at hp
    · obtain ⟨above, habove, hdir, -⟩ := placeOf_concat hp
      exact ⟨above, habove, hdir⟩
    · exact ⟨place, hp, hd⟩
  obtain ⟨there, hplace, hdir⟩ := hthere
  unfold target
  rcases List.eq_nil_or_concat ((Path.split path.bytes).filterMap Step.ofPiece?) with
    hsteps | ⟨before, last, hsteps⟩
  · rw [hsteps] at hplace ⊢
    simp only [List.dropLast_nil, List.getLast?_nil, hplace, bind, Except.bind, hdir]
    exact Or.inr (Or.inl rfl)
  · rw [List.concat_eq_append] at hsteps
    rw [hsteps] at hplace ⊢
    obtain ⟨above, habove, habovedir, hdown⟩ := placeOf_concat hplace
    simp only [List.dropLast_concat, List.getLast?_concat, habove, bind, Except.bind, habovedir]
    cases last with
    | stay => exact Or.inr (Or.inl rfl)
    | up => exact Or.inr (Or.inl rfl)
    | down name =>
        obtain ⟨hlost, hnode⟩ := hdown name rfl
        simp only [hlost, Nat.lt_irrefl, if_false]
        split
        · exact Or.inr (Or.inr rfl)
        · exact Or.inl ⟨_, _, rfl, hnode⟩

/-- A directory that is there cannot be made, and not for want of one above it. -/
theorem makeDirectory_of_isDirectory (h : fs.isDirectory path = true) :
    ∃ e, fs.makeDirectory path = .error e ∧ e ≠ .notFound := by
  unfold makeDirectory
  rcases target_of_isDirectory h with ⟨parent, name, ht, hn⟩ | ht | ht
  · cases hc : fs.node? (parent ++ [name]) with
    | none => exact absurd hc hn
    | some node => exact ⟨.exists, by simp only [ht, bind, Except.bind, hc]; rfl, by decide⟩
  · exact ⟨.exists, by rw [ht]; rfl, by decide⟩
  · exact ⟨.nameTooLong, by rw [ht]; rfl, by decide⟩

/-- So making it changes nothing. -/
theorem makeDirectories_of_isDirectory (h : fs.isDirectory path = true) :
    fs.makeDirectories path = (.ok (), fs) := by
  obtain ⟨e, hmake, he⟩ := makeDirectory_of_isDirectory h
  unfold makeDirectories Path.ancestors makeChain
  split
  · rfl
  · rw [hmake]
    split
    · rename_i hok
      cases hok
    · rename_i hnone
      exact absurd (Except.error.inj hnone) he
    · rfl

end ScriptModules.FileSystem
