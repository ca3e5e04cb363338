import ScriptModules.Proofs.Files.Placing

/-!
# Replacing a file step by step

To replace a file is one step here (`replaceFile`), since nobody looks at a directory while it is
done.  This module takes it apart (`replaceThrough`).  A temporary file is made under a name that
is free, it is written, and it is moved to where the new file is to stand.  The disk may fail
before each of these (`DiskFault`), and then the temporary file is taken away.

* However far a replacement came that failed, it leaves all files as they were
  (`replaceThrough_error`).
* One that does not fail comes to what the one step comes to, and it fails for no other reason
  than a fault, a name that is not free, or that the one step fails (`replaceThrough_eq_ok_iff`).

The second holds since a temporary file is on no way to the directory it stands in: a walk never
goes on from a file.
-/

namespace ScriptModules.FileSystem

open ScriptModules.Path (IsPiece)

/-! ## The steps -/

/-- What a disk may fail to do while a file is replaced. -/
inductive DiskFault where
  /-- Make the temporary file. -/
  | making
  /-- Write more than so many bytes to it. -/
  | writing (count : Nat)
  /-- Move it to its place. -/
  | moving

/-- Why a file was not replaced. -/
inductive Failure where
  | disk (fault : DiskFault)
  /-- The files there do not admit it. -/
  | refused (cause : ReplaceError)

/-- Makes an empty file at a location and writes to it. -/
def writeAt (fs : FileSystem) (location : Location) (content : Bytes) : FileSystem :=
  let fs := fs.setNode location (.file [] fs.time)
  let (now, fs) := fs.tick
  fs.setNode location (.file content now)

/-- Takes away the file at a location. -/
def unlink (fs : FileSystem) (location : Location) : FileSystem :=
  { fs with nodes := fs.nodes.filter (·.1 ≠ location) }

/-- Moves a file to a path, in place of what stands there. -/
def moveTo (fs : FileSystem) (location : Location) (path : Path) :
    Except IoError FileSystem := do
  match fs.node? location with
  | none => throw .notFound
  | some node =>
    match ← fs.target path with
    | .child parent name =>
      if fs.node? (parent ++ [name]) = some .directory then throw .isDirectory
      else return (fs.unlink location).setNode (parent ++ [name]) node
    | .directory => throw .isDirectory

/-- Writes a temporary file at a location and moves it to a path, or takes it away again. -/
def moveInto (fs : FileSystem) (fault : Option DiskFault) (location : Location) (path : Path)
    (content : Bytes) : Except Failure Unit × FileSystem :=
  match fault with
  | some .making => (.error (.disk .making), fs)
  | some (.writing count) =>
    (.error (.disk (.writing count)), (fs.writeAt location (content.take count)).unlink location)
  | some .moving => (.error (.disk .moving), (fs.writeAt location content).unlink location)
  | none =>
    let written := fs.writeAt location content
    match written.moveTo location path with
    | .ok fs => (.ok (), fs)
    | .error cause => (.error (.refused (.rename cause)), written.unlink location)

/-- Writes a file through one with the name `temporary` in `directory`, on a disk with a fault
or without one. -/
def replaceThrough (fs : FileSystem) (fault : Option DiskFault) (temporary : Name)
    (directory path : Path) (content : Bytes) : Except Failure Unit × FileSystem :=
  if !directory.isAbsolute && 0 < fs.lost then (.error (.refused .noWorkingDirectory), fs)
  else match fs.find directory with
    | .error e => (.error (.refused (.temporary e)), fs)
    | .ok (place, .directory) =>
      if fs.node? (place.location ++ [temporary]) = none then
        fs.moveInto fault (place.location ++ [temporary]) path content
      else (.error (.refused (.temporary .exists)), fs)
    | .ok _ => (.error (.refused (.temporary .notDirectory)), fs)

/-- Nothing stands under the name in the directory, if there is one. -/
def IsFree (fs : FileSystem) (directory : Path) (temporary : Name) : Prop :=
  ∀ place, fs.find directory = .ok (place, .directory) →
    fs.node? (place.location ++ [temporary]) = none

variable {fs after : FileSystem} {location : Location} {content : Bytes}
  {directory path : Path} {name temporary : Name} {fault : Option DiskFault}

/-! ## A file that comes and goes -/

theorem setNode_setNode (fs : FileSystem) (location : Location) (first second : Node) :
    (fs.setNode location first).setNode location second = fs.setNode location second := by
  simp [setNode, List.filter_filter]

theorem unlink_setNode (hl : location ≠ []) (hn : fs.node? location = none) (node : Node) :
    (fs.setNode location node).unlink location = fs := by
  have hfree : ∀ entry ∈ fs.nodes, entry.1 ≠ location := by
    rw [node?, if_neg hl, List.lookup_eq_none_iff] at hn
    intro entry hentry heq
    simpa [heq] using hn entry hentry
  have hkept : fs.nodes.filter (·.1 ≠ location) = fs.nodes :=
    List.filter_eq_self.mpr fun entry hentry => decide_eq_true (hfree entry hentry)
  simp only [unlink, setNode, List.filter_cons, ne_eq, not_true_eq_false, decide_false,
    Bool.false_eq_true, if_false, List.filter_filter, Bool.and_self]
  exact congrArg (fun nodes => { fs with nodes }) hkept

/-- A file that is made and written stands there with its contents. -/
theorem writeAt_eq (fs : FileSystem) (location : Location) (content : Bytes) :
    fs.writeAt location content = fs.tick.2.setNode location (.file content fs.tick.1) :=
  setNode_setNode fs.tick.2 location (.file [] fs.time) (.file content fs.tick.1)

/-- When it is taken away, only time has passed. -/
theorem unlink_writeAt (hl : location ≠ []) (hn : fs.node? location = none) (content : Bytes) :
    (fs.writeAt location content).unlink location = fs.tick.2 := by
  rw [writeAt_eq]
  exact @unlink_setNode fs.tick.2 location hl hn _

/-! ## Failures -/

/-- Moving fails before it changes anything, and the temporary file is taken away then, as it is
after each other failure. -/
theorem moveInto_error {e : Failure} (hl : location ≠ []) (hn : fs.node? location = none)
    (h : (fs.moveInto fault location path content).1 = .error e) :
    ∃ clock, (fs.moveInto fault location path content).2 = { fs with clock } := by
  have hundone : ∀ content, ∃ clock,
      (fs.writeAt location content).unlink location = { fs with clock } :=
    fun content => ⟨fs.clock + 1, unlink_writeAt hl hn content⟩
  cases fault with
  | some fault =>
      cases fault with
      | making => exact ⟨fs.clock, rfl⟩
      | writing count => exact hundone _
      | moving => exact hundone _
  | none =>
      unfold moveInto at h ⊢
      cases hmove : (fs.writeAt location content).moveTo location path with
      | ok moved =>
          simp only [hmove] at h
          cases h
      | error cause =>
          simp only [hmove]
          exact hundone _

/-- A replacement that fails, in whatever way, leaves all files as they were. -/
theorem replaceThrough_error {e : Failure}
    (h : (fs.replaceThrough fault temporary directory path content).1 = .error e) :
    ∃ clock, (fs.replaceThrough fault temporary directory path content).2 = { fs with clock } := by
  unfold replaceThrough at h ⊢
  split
  · exact ⟨fs.clock, rfl⟩
  · rename_i hlocated
    rw [if_neg hlocated] at h
    split
    · exact ⟨fs.clock, rfl⟩
    · rename_i place hfind
      rw [hfind] at h
      split
      · rename_i hfree
        simp only [if_pos hfree] at h
        exact moveInto_error (by simp) hfree h
      · exact ⟨fs.clock, rfl⟩
    · exact ⟨fs.clock, rfl⟩

/-! ## With a temporary file in the directory -/

theorem node?_writeAt (fs : FileSystem) (hl : location ≠ []) (content : Bytes) (place : Location) :
    (fs.writeAt location content).node? place =
      if place = location then some (.file content fs.tick.1) else fs.node? place := by
  rw [writeAt_eq]
  exact node?_setNode fs.tick.2 _ place hl

/-- No directory comes or goes. -/
theorem directory_writeAt_iff (hl : location ≠ []) (hn : fs.node? location = none)
    {place : Location} :
    (fs.writeAt location content).node? place = some .directory ↔
      fs.node? place = some .directory := by
  rw [node?_writeAt fs hl]
  split
  · rename_i heq
    simp [heq, hn]
  · exact Iff.rfl

/-- So names are put in the same places as before. -/
theorem target_join_writeAt_iff (hl : location ≠ []) (hn : fs.node? location = none)
    (hname : IsPiece name) {place : Location} {last : Name} :
    (fs.writeAt location content).target (directory.join ⟨name⟩) = .ok (.child place last) ↔
      fs.target (directory.join ⟨name⟩) = .ok (.child place last) := by
  constructor
  · intro htarget
    obtain ⟨hplace, hstands, hrest⟩ := (target_join_iff directory hname).mp htarget
    have halters : Alters (· = location) fs (fs.writeAt location content) := by
      refine ⟨fun there node hthere => ?_, rfl, rfl⟩
      rw [node?_writeAt fs hl] at hthere
      split at hthere
      · rename_i heq
        exact Or.inr ⟨heq, content, fs.tick.1, (Option.some.inj hthere).symm⟩
      · exact Or.inl hthere
    have hbefore := (directory_writeAt_iff hl hn).mp hstands
    refine (target_join_iff directory hname).mpr ⟨?_, hbefore, hrest⟩
    rcases halters.placeOf hplace with hsame | ⟨-, hend⟩
    · exact hsame
    · -- The walk ends at a directory, and where the file has come there was none.
      obtain rfl : place = location := hend
      rw [hn] at hbefore
      cases hbefore
  · have halters : Alters (fun _ => False) (fs.writeAt location content) fs := by
      refine ⟨fun there node hthere => Or.inl ?_, rfl, rfl⟩
      rw [node?_writeAt fs hl, if_neg, hthere]
      rintro rfl
      rw [hn] at hthere
      cases hthere
    exact halters.target_join hname

/-- To move the temporary file is to put a new file in its place. -/
theorem moveTo_writeAt_iff (hl : location ≠ []) (hn : fs.node? location = none)
    (hname : IsPiece name) :
    (fs.writeAt location content).moveTo location (directory.join ⟨name⟩) = .ok after ↔
      fs.renameNew (directory.join ⟨name⟩) content = .ok after := by
  have hthere : (fs.writeAt location content).node? location = some (.file content fs.tick.1) := by
    rw [node?_writeAt fs hl, if_pos rfl]
  have hgone := unlink_writeAt hl hn content
  constructor
  · intro hmove
    simp only [moveTo, hthere] at hmove
    obtain ⟨there, hto, hrest⟩ := Outcome.of_bind_eq_ok hmove
    cases there with
    | directory => cases hrest
    | child place last =>
        obtain ⟨hnot, hmoved⟩ := Outcome.of_guard_eq_ok hrest
        rw [directory_writeAt_iff hl hn] at hnot
        rw [hgone] at hmoved
        simp only [renameNew, (target_join_writeAt_iff hl hn hname).mp hto, bind, Except.bind,
          if_neg hnot]
        exact hmoved
  · intro hrename
    obtain ⟨there, hto, hrest⟩ := Outcome.of_bind_eq_ok hrename
    cases there with
    | directory => cases hrest
    | child place last =>
        obtain ⟨hnot, hnew⟩ := Outcome.of_guard_eq_ok hrest
        rw [← @directory_writeAt_iff fs location content hl hn] at hnot
        simp only [moveTo, hthere, (target_join_writeAt_iff hl hn hname).mpr hto, bind,
          Except.bind, if_neg hnot, hgone]
        exact hnew

/-- Without a fault the temporary file takes the place of the new one. -/
theorem moveInto_eq_ok_iff (hl : location ≠ []) (hn : fs.node? location = none)
    (hname : IsPiece name) :
    fs.moveInto fault location (directory.join ⟨name⟩) content = (.ok (), after) ↔
      fault = none ∧ fs.renameNew (directory.join ⟨name⟩) content = .ok after := by
  cases fault with
  | some fault => cases fault <;> simp [moveInto]
  | none =>
      rw [← moveTo_writeAt_iff hl hn hname, moveInto]
      cases hmove : (fs.writeAt location content).moveTo location (directory.join ⟨name⟩) with
      | ok moved => simp
      | error cause => simp

/-- A replacement step by step succeeds just if nothing is wrong with the disk, the temporary name
is free and the replacement in one step succeeds.  They come to the same then. -/
theorem replaceThrough_eq_ok_iff (hname : IsPiece name) :
    fs.replaceThrough fault temporary directory (directory.join ⟨name⟩) content = (.ok (), after) ↔
      fault = none ∧ fs.IsFree directory temporary ∧
        fs.replaceFile directory (directory.join ⟨name⟩) content = .ok after := by
  unfold replaceThrough replaceFile IsFree
  split
  · simp
  · cases hfind : fs.find directory with
    | error e => simp
    | ok found =>
        obtain ⟨place, node⟩ := found
        cases node with
        | file content time => simp
        | link target => simp
        | directory =>
            by_cases hfree : fs.node? (place.location ++ [temporary]) = none
            · have hmoves := @moveInto_eq_ok_iff fs after (place.location ++ [temporary]) content
                directory name fault (by simp) hfree hname
              simp only [if_pos hfree, hmoves]
              cases fs.renameNew (directory.join ⟨name⟩) content <;> simp [hfree]
            · simp [hfree]

end ScriptModules.FileSystem
