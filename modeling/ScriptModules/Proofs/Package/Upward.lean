import ScriptModules.Proofs.Files.Making
import ScriptModules.Proofs.Files.Tree
import ScriptModules.Proofs.Package.Directories

/-!
# The way upward from a path

The paths above a path are spelled by its first pieces (`ancestors_of_parent?`), so going upward
takes back the moves of the path one by one (`GoesOn`).  That is not the way to the directories
above the place it leads to: behind `..` the path comes by directories that it has left again.

Without links, a path that leaves only directories that are there leads to all the directories it
comes by (`LeavesDirectories.walk`), and finds the files in them (`isFile_join_iff`).
-/

namespace ScriptModules

open FileSystem

namespace Path

variable {path parent : Path} {pieces rest : List Bytes} {piece : Bytes}

/-! ## Upward -/

theorem split_unsplit (h : ∀ piece ∈ pieces, slash ∉ piece) (hne : pieces ≠ []) :
    split (unsplit pieces) = pieces := by
  induction pieces with
  | nil => exact absurd rfl hne
  | cons piece pieces ih =>
      obtain ⟨hpiece, hrest⟩ := List.forall_mem_cons.mp h
      by_cases hnil : pieces = []
      · subst hnil
        exact split_of_slash_notMem hpiece
      · rw [unsplit_cons hnil, split_append_slash, ih hrest hnil, split_of_slash_notMem hpiece,
          List.singleton_append]

theorem unsplit_append (h : pieces ≠ []) (hrest : rest ≠ []) :
    unsplit (pieces ++ rest) = unsplit pieces ++ slash :: unsplit rest := by
  induction pieces with
  | nil => exact absurd rfl h
  | cons piece pieces ih =>
      rw [List.cons_append, unsplit_cons (List.append_ne_nil_of_right_ne_nil pieces hrest)]
      by_cases hnil : pieces = []
      · subst hnil
        rfl
      · rw [ih hnil, unsplit_cons hnil, List.append_assoc, List.cons_append]

/-- What is above a path does not depend on idle pieces at its end. -/
theorem exists_dropIdle (h : pieces ≠ []) : ∃ idles, pieces = idles ++ dropIdle pieces ∧
    (∀ piece ∈ idles, isIdle piece = true) ∧ dropIdle pieces ≠ [] ∧
      above pieces = above (dropIdle pieces) := by
  induction pieces with
  | nil => exact absurd rfl h
  | cons piece rest ih =>
      by_cases hnil : rest = []
      · subst hnil
        exact ⟨[], rfl, nofun, List.cons_ne_nil _ _, rfl⟩
      · rw [dropIdle_cons hnil, above_cons hnil]
        cases hidle : isIdle piece with
        | true =>
            obtain ⟨idles, heq, hidles, hne, habove⟩ := ih hnil
            simp only [if_true]
            exact ⟨piece :: idles, congrArg _ heq, List.forall_mem_cons.mpr ⟨hidle, hidles⟩, hne,
              habove⟩
        | false =>
            simp only [Bool.false_eq_true, if_false]
            refine ⟨[], rfl, nofun, List.cons_ne_nil _ _, ?_⟩
            rw [above_cons hnil, hidle, if_neg Bool.false_ne_true]

/-- Pieces without idle ones at the end are a single one, or end in one that is not idle. -/
theorem dropIdle_cases (h : pieces ≠ []) : (∃ first, dropIdle pieces = [first]) ∨
    ∃ piece rest, rest ≠ [] ∧ dropIdle pieces = piece :: rest ∧ isIdle piece = false := by
  induction pieces with
  | nil => exact absurd rfl h
  | cons piece rest ih =>
      by_cases hnil : rest = []
      · subst hnil
        exact Or.inl ⟨piece, rfl⟩
      · rw [dropIdle_cons hnil]
        cases hidle : isIdle piece with
        | true => exact ih hnil
        | false => exact Or.inr ⟨piece, rest, hnil, rfl, hidle⟩

theorem above_ofPieces (h : ∀ piece ∈ pieces, slash ∉ piece) (hne : pieces ≠ []) :
    (ofPieces pieces).ancestors = ofPieces pieces :: above pieces := by
  by_cases hroot : pieces = [[]]
  · subst hroot
    rfl
  · have hslash : ∀ piece ∈ pieces.reverse, slash ∉ piece :=
      fun piece hpiece => h piece (List.mem_reverse.mp hpiece)
    rw [ancestors, ofPieces, if_neg hroot, split_unsplit hslash (mt List.reverse_eq_nil_iff.mp hne),
      List.reverse_reverse]

/-- The path above a path has all the others above it. -/
theorem ancestors_of_parent? (h : path.parent? = some parent) :
    path.ancestors = path :: parent.ancestors := by
  have hne : (split path.bytes).reverse ≠ [] :=
    mt List.reverse_eq_nil_iff.mp (split_ne_nil path.bytes)
  have hslash : ∀ piece ∈ (split path.bytes).reverse, slash ∉ piece :=
    fun piece hpiece => slash_notMem_of_mem_split (List.mem_reverse.mp hpiece)
  obtain ⟨idles, heq, -, -, habove⟩ := exists_dropIdle hne
  rw [parent?, habove] at h
  rw [ancestors, habove]
  rcases dropIdle_cases hne with ⟨first, hfirst⟩ | ⟨piece, rest, hrest, hpieces, hidle⟩
  · rw [hfirst, above] at h ⊢
    split at h
    · cases h
    · rename_i hnil
      cases h
      rw [if_neg hnil]
      rfl
  · rw [hpieces, above_cons hrest, hidle, if_neg Bool.false_ne_true] at h ⊢
    cases h
    obtain ⟨others, hothers, -, hkept, habove'⟩ := exists_dropIdle hrest
    rw [above_ofPieces _ hkept, habove']
    intro other hother
    refine hslash other ?_
    rw [heq, hpieces, hothers]
    simp [hother]

end Path

namespace FileSystem

open ScriptModules.Path (IsPiece)

variable {fs : FileSystem} {path parent : Path} {step : Step} {pieces rest : List Bytes}
  {piece : Bytes}

/-! ## Moves -/

/-- The steps up and down of a path. -/
def movesOf (path : Path) : List Step :=
  (stepsTo path).filter (· ≠ .stay)

/-- The moves of pieces. -/
def movesOfPieces (pieces : List Bytes) : List Step :=
  (pieces.filterMap Step.ofPiece?).filter (· ≠ .stay)

theorem movesOfPieces_append (pieces rest : List Bytes) :
    movesOfPieces (pieces ++ rest) = movesOfPieces pieces ++ movesOfPieces rest := by
  rw [movesOfPieces, List.filterMap_append, List.filter_append]
  rfl

theorem movesOfPieces_of_idle (h : ∀ piece ∈ pieces, Path.isIdle piece = true) :
    movesOfPieces pieces = [] := by
  induction pieces with
  | nil => rfl
  | cons piece pieces ih =>
      obtain ⟨hpiece, hrest⟩ := List.forall_mem_cons.mp h
      have hone : movesOfPieces [piece] = [] := by
        simp only [Path.isIdle, Bool.or_eq_true, beq_iff_eq] at hpiece
        rcases hpiece with rfl | rfl <;> rfl
      rw [← List.singleton_append, movesOfPieces_append, hone, ih hrest]
      rfl

/-- Idle pieces at the end are no moves. -/
theorem movesOfPieces_reverse_append {idles : List Bytes}
    (h : ∀ piece ∈ idles, Path.isIdle piece = true) (pieces : List Bytes) :
    movesOfPieces (idles ++ pieces).reverse = movesOfPieces pieces.reverse := by
  have hnone : movesOfPieces idles.reverse = [] :=
    movesOfPieces_of_idle fun piece hpiece => h piece (List.mem_reverse.mp hpiece)
  rw [List.reverse_append, movesOfPieces_append, hnone, List.append_nil]

theorem exists_movesOfPieces (h : Path.isIdle piece = false) :
    ∃ step, movesOfPieces [piece] = [step] := by
  simp only [Path.isIdle, Bool.or_eq_false_iff, beq_eq_false_iff_ne] at h
  have hsome : ∃ step, Step.ofPiece? piece = some step ∧ step ≠ .stay := by
    rw [Step.ofPiece?, if_neg h.1, if_neg h.2]
    split
    · exact ⟨_, rfl, Step.noConfusion⟩
    · exact ⟨_, rfl, Step.noConfusion⟩
  obtain ⟨step, hstep, hne⟩ := hsome
  refine ⟨step, ?_⟩
  rw [movesOfPieces, List.filterMap_cons_some hstep]
  simp [hne]

/-- How an absolute path goes on from the path above it. -/
structure GoesOn (parent : Path) (step : Step) (path : Path) : Prop where
  absolute : parent.isAbsolute = true
  ancestors : path.ancestors = path :: parent.ancestors
  moves : movesOf path = movesOf parent ++ [step]
  shorter : parent.bytes.length < path.bytes.length

/-- The path with the given pieces, last first, if the last one is empty. -/
theorem ofPieces_of_getLast? (h : ∀ piece ∈ pieces, Path.slash ∉ piece)
    (hlast : pieces.getLast? = some []) : (Path.ofPieces pieces).isAbsolute = true ∧
      movesOf (Path.ofPieces pieces) = movesOfPieces pieces.reverse := by
  by_cases hroot : pieces = [[]]
  · subst hroot
    exact ⟨rfl, rfl⟩
  · obtain ⟨front, rfl⟩ := List.getLast?_eq_some_iff.mp hlast
    have hfront : front.reverse ≠ [] := by
      intro hnil
      rw [List.reverse_eq_nil_iff.mp hnil] at hroot
      exact hroot rfl
    have hreverse : (front ++ [[]]).reverse = [] :: front.reverse := by simp
    have hslash : ∀ piece ∈ [] :: front.reverse, Path.slash ∉ piece := by
      rw [← hreverse]
      exact fun piece hpiece => h piece (List.mem_reverse.mp hpiece)
    rw [Path.ofPieces, if_neg hroot, hreverse]
    refine ⟨?_, ?_⟩
    · rw [Path.isAbsolute, Path.unsplit_cons hfront]
      rfl
    · rw [movesOf, stepsTo, Path.split_unsplit hslash (List.cons_ne_nil _ _)]
      rfl

/-- It is shorter than every path with more pieces behind it. -/
theorem length_ofPieces_lt (h : ∀ piece ∈ rest, Path.slash ∉ piece) (hpieces : pieces ≠ [])
    (hne : ∃ piece ∈ rest, piece ≠ []) : (Path.ofPieces pieces).bytes.length <
      (Path.unsplit (pieces.reverse ++ rest.reverse)).length := by
  obtain ⟨piece, hpiece, hfull⟩ := hne
  have hrest : rest.reverse ≠ [] := mt List.reverse_eq_nil_iff.mp (List.ne_nil_of_mem hpiece)
  rw [Path.unsplit_append (mt List.reverse_eq_nil_iff.mp hpieces) hrest, List.length_append,
    List.length_cons]
  by_cases hroot : pieces = [[]]
  · subst hroot
    have hbehind : Path.unsplit rest.reverse ≠ [] := by
      intro hnil
      have hsplit := Path.split_unsplit
        (fun piece hpiece => h piece (List.mem_reverse.mp hpiece)) hrest
      rw [hnil] at hsplit
      have hmem := List.mem_reverse.mpr hpiece
      rw [← hsplit] at hmem
      exact hfull (List.mem_singleton.mp hmem)
    have hpositive := List.length_pos_iff.mpr hbehind
    simp only [Path.ofPieces, if_true, List.length_singleton]
    omega
  · rw [Path.ofPieces, if_neg hroot]
    exact Nat.lt_add_of_pos_right (Nat.succ_pos _)

/-- An absolute path is the root, or goes on from one that is shorter. -/
theorem goesOn_of_isAbsolute (h : path.isAbsolute = true) :
    path.ancestors = [path] ∧ movesOf path = [] ∨ ∃ parent step, GoesOn parent step path := by
  have hlast : (Path.split path.bytes).reverse.getLast? = some [] := by
    obtain ⟨rest, hrest⟩ := List.head?_eq_some_iff.mp (beq_iff_eq.mp h)
    rw [hrest, Path.split, if_pos rfl, List.getLast?_reverse]
    rfl
  have hne : (Path.split path.bytes).reverse ≠ [] :=
    mt List.reverse_eq_nil_iff.mp (Path.split_ne_nil path.bytes)
  have hslash : ∀ piece ∈ (Path.split path.bytes).reverse, Path.slash ∉ piece :=
    fun piece hpiece => Path.slash_notMem_of_mem_split (List.mem_reverse.mp hpiece)
  obtain ⟨idles, heq, hidles, hkept, habove⟩ := Path.exists_dropIdle hne
  have hmoves : movesOf path =
      movesOfPieces (Path.dropIdle (Path.split path.bytes).reverse).reverse := by
    have hpieces := congrArg List.reverse heq
    rw [List.reverse_reverse] at hpieces
    exact (congrArg movesOfPieces hpieces).trans (movesOfPieces_reverse_append hidles _)
  rcases Path.dropIdle_cases hne with ⟨first, hfirst⟩ | ⟨piece, rest, hrest, hpieces, hidle⟩
  · refine Or.inl ?_
    rw [heq, hfirst, List.getLast?_concat] at hlast
    cases hlast
    refine ⟨?_, ?_⟩
    · rw [Path.ancestors, habove, hfirst]
      rfl
    · rw [hmoves, hfirst]
      rfl
  · refine Or.inr ?_
    obtain ⟨others, hothers, hidle', hkept', habove'⟩ := Path.exists_dropIdle hrest
    obtain ⟨step, hstep⟩ := exists_movesOfPieces hidle
    generalize hkeptEq : Path.dropIdle rest = kept at hothers hkept' habove'
    have hall : (Path.split path.bytes).reverse = (idles ++ piece :: others) ++ kept := by
      rw [heq, hpieces, hothers]
      simp
    have hlast' : kept.getLast? = some [] := by
      obtain ⟨last, hkeptLast⟩ :=
        Option.ne_none_iff_exists'.mp (mt List.getLast?_eq_none_iff.mp hkept')
      rw [hall, List.getLast?_append, hkeptLast] at hlast
      exact hkeptLast.trans hlast
    have hslash' : ∀ piece ∈ kept, Path.slash ∉ piece :=
      fun piece hpiece => hslash piece (hall ▸ List.mem_append_right _ hpiece)
    obtain ⟨habs, hparent⟩ := ofPieces_of_getLast? hslash' hlast'
    refine ⟨Path.ofPieces kept, step, habs, ?_, ?_, ?_⟩
    · refine Path.ancestors_of_parent? ?_
      rw [Path.parent?, habove, hpieces, Path.above_cons hrest, hidle, if_neg Bool.false_ne_true,
        hkeptEq]
      rfl
    · rw [hmoves, hpieces, hothers, List.reverse_cons, movesOfPieces_append,
        movesOfPieces_reverse_append hidle', hstep, hparent]
    · have hbehind : ∀ other ∈ idles ++ piece :: others, Path.slash ∉ other :=
        fun other hother => hslash other (hall ▸ List.mem_append_left _ hother)
      have hfull : piece ≠ [] := by
        rintro rfl
        cases hidle
      have hbytes : path.bytes =
          Path.unsplit (kept.reverse ++ (idles ++ piece :: others).reverse) := by
        rw [← List.reverse_append, ← hall, List.reverse_reverse, Path.unsplit_split]
      rw [hbytes]
      exact length_ofPieces_lt hbehind hkept' ⟨piece, by simp, hfull⟩

/-! ## Places on the way -/

variable {name : Name} {start : Location} {steps : List Step} {found : Path}
  {directory location : Location}

theorem landing_filter_stay (start : Location) (steps : List Step) :
    landing start (steps.filter (· ≠ .stay)) = landing start steps := by
  induction steps generalizing start with
  | nil => rfl
  | cons step steps ih =>
      have hgo : landing start (step :: steps) = landing (step.landing start) steps := rfl
      rw [hgo]
      cases step with
      | stay => exact ih start
      | up => exact ih start.dropLast
      | down name => exact ih (start ++ [name])

theorem locate_of_isAbsolute (h : path.isAbsolute = true) :
    fs.locate path = landing [] (movesOf path) := by
  rw [locate, startOf, if_pos h, movesOf, landing_filter_stay]

theorem GoesOn.locate (h : GoesOn parent step path) (habs : path.isAbsolute = true) :
    fs.locate path = step.landing (fs.locate parent) := by
  rw [locate_of_isAbsolute habs, locate_of_isAbsolute h.absolute, h.moves, landing_append]
  rfl

/-- All that moves leave by `..` is a directory. -/
def LeavesDirectories (fs : FileSystem) (moves : List Step) : Prop :=
  ∀ before after, moves = before ++ .up :: after →
    fs.node? (landing [] before) = some .directory

theorem leavesDirectories_iff {moves : List Step} : fs.LeavesDirectories moves ↔
    ∀ depth ∈ List.range moves.length, moves[depth]? = some .up →
      fs.node? (landing [] (moves.take depth)) = some .directory := by
  constructor
  · intro h depth _ hup
    obtain ⟨hlt, hget⟩ := List.getElem?_eq_some_iff.mp hup
    refine h _ (moves.drop (depth + 1)) ?_
    rw [← hget, ← List.drop_eq_getElem_cons hlt, List.take_append_drop]
  · rintro h before after rfl
    have hhere := h before.length (by simp) (by simp)
    rwa [List.take_left] at hhere

instance (fs : FileSystem) (moves : List Step) : Decidable (fs.LeavesDirectories moves) :=
  decidable_of_iff _ leavesDirectories_iff.symm

theorem LeavesDirectories.of_append {moves rest : List Step}
    (h : fs.LeavesDirectories (moves ++ rest)) : fs.LeavesDirectories moves :=
  fun before after heq => h before (after ++ rest) (by rw [heq]; simp)

theorem leavesDirectories_of_notMem {moves : List Step} (h : .up ∉ moves) :
    fs.LeavesDirectories moves :=
  fun _ _ heq => absurd (by rw [heq]; simp) h

/-- A path that leaves only directories leads to every directory it names.  The induction is on
the last step. -/
theorem LeavesDirectories.walk (ht : fs.IsTree) (hf : fs.HasFileNames) (steps : List Step)
    (h : fs.LeavesDirectories (steps.filter (· ≠ .stay)))
    (hd : fs.node? (landing [] steps) = some .directory) :
    fs.walk true linkLimit [] steps = .ok (landing [] steps) ∧
      ∀ name, .down name ∈ steps → 0 ∉ name := by
  induction steps using List.reverseRecOn with
  | nil => exact ⟨rfl, nofun⟩
  | append_singleton steps last ih =>
      rw [List.filter_append] at h
      rw [landing_append] at hd ⊢
      -- The walk to the last step, and the step itself.
      have hbefore : fs.node? (landing [] steps) = some .directory := by
        cases last with
        | stay => exact hd
        | up =>
            rw [← landing_filter_stay]
            exact h _ [] rfl
        | down name =>
            have hchild : fs.node? (landing [] steps ++ [name]) = some .directory := hd
            exact ht _ name (by rw [hchild]; exact Option.some_ne_none _)
      obtain ⟨hwalk, hzero⟩ := ih h.of_append hbefore
      have hlast : ∀ jump, fs.walkWith true jump (landing [] steps) [last] =
          .ok (landing (landing [] steps) [last]) := by
        intro jump
        refine walkWith_cons_iff.mpr ⟨hbefore, ?_⟩
        cases last with
        | stay => exact .stay rfl
        | up => exact .up rfl
        | down name =>
            have hname := (hf.of_node? hd name (List.mem_append_right _ List.mem_cons_self)).2.2
            exact .down (Nat.not_lt.mpr hname) hd (fun _ => Node.noConfusion) rfl
      refine ⟨walk_append hlast _ _ _ hwalk, fun name hname => ?_⟩
      rcases List.mem_append.mp hname with hmem | hmem
      · exact hzero name hmem
      · rw [← List.mem_singleton.mp hmem] at hd
        exact (hf.of_node? hd name (List.mem_append_right _ List.mem_cons_self)).2.1

theorem mem_unsplit {byte : UInt8} (h : byte ∈ Path.unsplit pieces) :
    byte = Path.slash ∨ ∃ piece ∈ pieces, byte ∈ piece := by
  induction pieces with
  | nil => cases h
  | cons piece pieces ih =>
      by_cases hnil : pieces = []
      · subst hnil
        exact Or.inr ⟨piece, List.mem_singleton_self piece, h⟩
      · rw [Path.unsplit_cons hnil, List.mem_append, List.mem_cons] at h
        rcases h with hpiece | rfl | hrest
        · exact Or.inr ⟨piece, List.mem_cons_self, hpiece⟩
        · exact Or.inl rfl
        · obtain hslash | ⟨other, hother, hbyte⟩ := ih hrest
          · exact Or.inl hslash
          · exact Or.inr ⟨other, List.mem_cons_of_mem _ hother, hbyte⟩

/-- A null byte in a path is one of a name to which it goes down. -/
theorem exists_down_of_zero_mem (h : 0 ∈ path.bytes) :
    ∃ name, .down name ∈ stepsTo path ∧ 0 ∈ name := by
  have hslash : ¬ 0 = Path.slash := by decide
  rw [← Path.unsplit_split path.bytes] at h
  obtain ⟨piece, hpiece, hzero⟩ := (mem_unsplit h).resolve_left hslash
  refine ⟨piece, List.mem_filterMap.mpr ⟨piece, hpiece, ?_⟩, hzero⟩
  have hne : piece ≠ [] ∧ piece ≠ [Path.point] ∧ piece ≠ [Path.point, Path.point] := by
    refine ⟨?_, ?_, ?_⟩ <;> · rintro rfl; revert hzero; decide
  rw [Step.ofPiece?, if_neg hne.1, if_neg hne.2.1, if_neg hne.2.2]

/-! ## Files on the way -/

/-- A directory has a file of this name. -/
def HasFile (fs : FileSystem) (directory : Location) (name : Name) : Prop :=
  ∃ content time, fs.node? (directory ++ [name]) = some (.file content time)

/-- A file under a name stands in the directory a path leads to. -/
theorem LinkFree.fileAt_join (hl : fs.LinkFree) (hname : IsPiece name)
    (h : fs.isFile (path.join ⟨name⟩) = true) :
    fs.FileAt (path.join ⟨name⟩) (fs.locate path ++ [name]) := by
  have hlocate : fs.locate (path.join ⟨name⟩) = fs.locate path ++ [name] := by
    rw [locate_join, isAbsolute_of_isPiece hname, if_neg Bool.false_ne_true,
      stepsTo_of_isPiece hname]
    rfl
  rw [← hlocate]
  exact hl.fileAt h

/-- Where a path without links looks for a file in a directory, it finds it. -/
theorem isFile_join_iff (hl : fs.LinkFree) (ht : fs.IsTree) (hf : fs.HasFileNames)
    (hname : IsPiece name) (habs : path.isAbsolute = true)
    (h : fs.LeavesDirectories (movesOf path))
    (hshort : (path.join ⟨name⟩).bytes.length ≤ pathLimit) :
    fs.isFile (path.join ⟨name⟩) = true ↔ fs.HasFile (fs.locate path) name := by
  have hrelative := isAbsolute_of_isPiece hname
  constructor
  · exact fun hfile => (hl.fileAt_join hname hfile).node
  · rintro ⟨content, time, hnode⟩
    have hlocation : fs.locate path = landing [] (stepsTo path) := by
      rw [locate, startOf, if_pos habs]
    rw [hlocation] at hnode
    have hd : fs.node? (landing [] (stepsTo path)) = some .directory :=
      ht _ name (by rw [hnode]; exact Option.some_ne_none _)
    obtain ⟨hwalk, hzero⟩ := LeavesDirectories.walk ht hf (stepsTo path) h hd
    obtain ⟨-, hnameZero, hnameShort⟩ :=
      hf.of_node? hnode name (List.mem_append_right _ List.mem_cons_self)
    have hjoinZero : ¬ (path.join ⟨name⟩).bytes.contains 0 = true := by
      rw [List.contains_iff_mem, zero_mem_join path hrelative, not_or]
      refine ⟨fun hmem => ?_, hnameZero⟩
      obtain ⟨other, hother, hmem⟩ := exists_down_of_zero_mem hmem
      exact hzero other hother hmem
    have hplace : fs.placeOf true (path.join ⟨name⟩) (stepsTo path) =
        .ok ⟨landing [] (stepsTo path), 0⟩ := by
      rw [placeOf, if_neg hjoinZero, if_neg (bytes_join_ne_nil path hname),
        if_neg (Nat.not_lt.mpr hshort), if_pos ((isAbsolute_join path hrelative).trans habs), hwalk]
      rfl
    refine isFile_of_read (read_eq_ok_iff.mpr ⟨⟨_, 0⟩, time, ?_, rfl, hnode⟩)
    rw [stepsOf_join path hname]
    exact placeOf_append_down hplace hd (Nat.not_lt.mpr hnameShort) hnode fun _ => Node.noConfusion

/-- Where a file of some name is looked for, the nearest place first. -/
def lookedAt (name path : Path) : List Path :=
  (path.ancestors.takeWhile (·.bytes ≠ [])).map (·.join name)

theorem bytes_ne_nil_of_isAbsolute (h : path.isAbsolute = true) : path.bytes ≠ [] := by
  intro hnil
  rw [Path.isAbsolute, hnil] at h
  cases h

theorem lookedAt_cons {paths : List Path} (h : path.ancestors = path :: paths)
    (hne : path.bytes ≠ []) (other : Path) :
    lookedAt other path = path.join other :: (paths.takeWhile (·.bytes ≠ [])).map (·.join other) := by
  rw [lookedAt, h, List.takeWhile_cons_of_pos (by simpa using hne), List.map_cons]

variable (fs) in
/-- A search upward from an absolute path: it ends there, or goes on from the path above it. -/
theorem find?_lookedAt_cases (habs : path.isAbsolute = true) (name : Path) :
    (fs.isFile (path.join name) = true ∧
        (lookedAt name path).find? fs.isFile = some (path.join name)) ∨
      fs.isFile (path.join name) = false ∧
        (movesOf path = [] ∧ (lookedAt name path).find? fs.isFile = none ∨
          ∃ parent step, GoesOn parent step path ∧
            (lookedAt name path).find? fs.isFile = (lookedAt name parent).find? fs.isFile) := by
  have hne := bytes_ne_nil_of_isAbsolute habs
  cases hfile : fs.isFile (path.join name) with
  | true =>
      refine Or.inl ⟨rfl, ?_⟩
      rw [lookedAt_cons rfl hne, List.find?_cons, hfile]
  | false =>
      refine Or.inr ⟨rfl, ?_⟩
      rcases goesOn_of_isAbsolute habs with ⟨hroot, hmoves⟩ | ⟨parent, step, hgoes⟩
      · refine Or.inl ⟨hmoves, ?_⟩
        rw [lookedAt_cons hroot hne, List.find?_cons, hfile]
        rfl
      · refine Or.inr ⟨parent, step, hgoes, ?_⟩
        rw [lookedAt_cons hgoes.ancestors hne, List.find?_cons, hfile]
        rfl

theorem length_join_bounds (path : Path) (hname : IsPiece name) :
    path.bytes.length + name.length ≤ (path.join ⟨name⟩).bytes.length ∧
      (path.join ⟨name⟩).bytes.length ≤ path.bytes.length + 1 + name.length := by
  rw [Path.join, isAbsolute_of_isPiece hname, if_neg Bool.false_ne_true]
  split
  · simp
  · simp
    omega

theorem GoesOn.length_join_le (h : GoesOn parent step path) (hname : IsPiece name) :
    (parent.join ⟨name⟩).bytes.length ≤ (path.join ⟨name⟩).bytes.length := by
  have hshorter := h.shorter
  have hupper := (length_join_bounds parent hname).2
  have hlower := (length_join_bounds path hname).1
  omega

theorem length_le_of_placeOf {follow : Bool} {place : Place}
    (h : fs.placeOf follow path steps = .ok place) : path.bytes.length ≤ pathLimit := by
  unfold placeOf at h
  split at h
  · cases h
  split at h
  · cases h
  split at h
  · cases h
  · rename_i hlong
    exact Nat.not_lt.mp hlong

/-- What a file stands in is a directory. -/
theorem isDirectory_of_isFile_join (hname : IsPiece name) (hne : path.bytes ≠ [])
    (h : fs.isFile (path.join ⟨name⟩) = true) : fs.isDirectory path = true := by
  have hrelative := isAbsolute_of_isPiece hname
  obtain ⟨location, content, time, hfind⟩ := exists_fileAt h
  obtain ⟨hplace, -⟩ := placeOf_of_find hfind
  rw [stepsOf_join path hname] at hplace
  obtain ⟨above, habove, -, hstands⟩ := placeOf_of_append_down hplace
  have hzero : 0 ∉ path.bytes := by
    have hjoin := zero_notMem_of_placeOf habove
    rw [zero_mem_join path hrelative, not_or] at hjoin
    exact hjoin.1
  have hshort : path.bytes.length ≤ pathLimit := by
    have hlower := (length_join_bounds path hname).1
    have hjoin := length_le_of_placeOf habove
    omega
  have hway := placeOf_respell habove (isAbsolute_join path hrelative).symm hzero hne hshort
  refine isDirectory_iff.mpr ⟨⟨above, 0⟩, ?_, hstands.directory⟩
  unfold stepsOf
  dsimp only
  split
  · exact placeOf_append_stay hway hstands.directory
  · exact hway

end FileSystem

end ScriptModules
