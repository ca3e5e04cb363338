import Mathlib.Data.List.Induction
import Mathlib.Tactic.ByContra
import ScriptModules.Proofs.Files.RealPath

/-!
# Trees of files

A file system can hold nodes anywhere, but what programs make of it is a tree (`IsTree`), and the
names in it are such as can stand in a path (`HasFileNames`).  There the path of a place leads to
it, if it is not too long (`find_toPath`).
-/

namespace ScriptModules.FileSystem

open ScriptModules.Path (IsPiece)

variable {fs : FileSystem} {place location : Location} {node : Node}

/-! ## Trees -/

/-- Everything but the root stands in a directory. -/
def IsTree (fs : FileSystem) : Prop :=
  ∀ location name, fs.node? (location ++ [name]) ≠ none → fs.node? location = some .directory

/-- Nothing stands below a file or a link. -/
theorem IsTree.node?_eq_none (ht : IsTree fs) {location : Location}
    (hn : fs.node? location ≠ some .directory) (rest : List Name) (hrest : rest ≠ []) :
    fs.node? (location ++ rest) = none := by
  by_contra hsome
  induction rest using List.reverseRecOn with
  | nil => exact hrest rfl
  | append_singleton rest name ih =>
      rw [← List.append_assoc] at hsome
      have habove := ht _ name hsome
      rcases eq_or_ne rest [] with rfl | hne
      · rw [List.append_nil] at habove
        exact hn habove
      · exact ih hne (by rw [habove]; exact fun hnever => nomatch hnever)

/-- A file system is a tree if its nodes stand in directories. -/
theorem isTree_of_nodes (h : ∀ entry ∈ fs.nodes, fs.node? entry.1.dropLast = some .directory) :
    IsTree fs := by
  intro location name hsome
  have hne : location ++ [name] ≠ [] := by simp
  obtain ⟨node, hnode⟩ := Option.ne_none_iff_exists'.mp hsome
  rw [node?, if_neg hne] at hnode
  have habove := h _ (Association.mem_of_lookup hnode)
  rwa [List.dropLast_concat] at habove

/-! ## Names -/

instance (name : Name) : Decidable (IsPiece name) :=
  decidable_of_iff (name ≠ [] ∧ Path.slash ∉ name ∧ name ≠ [Path.point] ∧
      name ≠ [Path.point, Path.point])
    ⟨fun ⟨hnil, hslash, hpoint, hpoints⟩ => ⟨hnil, hslash, hpoint, hpoints⟩,
      fun h => ⟨h.ne_nil, h.slash_notMem, h.ne_point, h.ne_points⟩⟩

/-- All names are such as can stand in a path. -/
def HasFileNames (fs : FileSystem) : Prop :=
  ∀ entry ∈ fs.nodes, ∀ name ∈ entry.1, IsPiece name ∧ 0 ∉ name ∧ name.length ≤ nameLimit

instance (fs : FileSystem) : Decidable fs.HasFileNames :=
  inferInstanceAs (Decidable (∀ entry ∈ fs.nodes, ∀ name ∈ entry.1, _))

theorem HasFileNames.of_node? (h : fs.HasFileNames) (hn : fs.node? location = some node) :
    ∀ name ∈ location, IsPiece name ∧ 0 ∉ name ∧ name.length ≤ nameLimit := by
  unfold node? at hn
  split at hn
  · rename_i hroot
    rw [hroot]
    exact fun _ hname => (nomatch hname)
  · exact h _ (Association.mem_of_lookup hn)

/-! ## The way to a place -/

/-- The way down to a place, from a directory above it. -/
theorem walkWith_names {follow : Bool} {jump : Location → List Step → Except IoError Location}
    (rest : List Name) (place : Location) (hd : fs.OnDirectories (place ++ rest))
    (hlen : ∀ name ∈ rest, name.length ≤ nameLimit) (hn : fs.node? (place ++ rest) = some node)
    (hnode : ∀ target, node ≠ .link target) :
    fs.walkWith follow jump place (rest.map .down) = .ok (place ++ rest) := by
  induction rest generalizing place with
  | nil => rw [List.append_nil, List.map_nil, walkWith]
  | cons name rest ih =>
      obtain ⟨hname, hrest⟩ := List.forall_mem_cons.mp hlen
      have hsplit : place ++ name :: rest = place ++ [name] ++ rest := by simp
      have hhere : fs.node? place = some .directory :=
        hd place (List.prefix_append _ _) (by simp)
      rw [hsplit] at hd hn ⊢
      have hnext : ∃ next, fs.node? (place ++ [name]) = some next ∧
          ∀ target, next ≠ .link target := by
        cases rest with
        | nil => exact ⟨node, by rwa [List.append_nil] at hn, hnode⟩
        | cons other rest =>
            exact ⟨.directory, hd _ (List.prefix_append _ _) (by simp), fun _ => Node.noConfusion⟩
      obtain ⟨next, hnext, hnever⟩ := hnext
      rw [List.map_cons, walkWith_cons_iff]
      exact ⟨hhere, .down (Nat.not_lt.mpr hname) hnext hnever (ih _ hd hrest hn)⟩

theorem filterMap_ofPiece?_of_isPiece (h : ∀ name ∈ location, IsPiece name) :
    location.filterMap Step.ofPiece? = location.map .down := by
  induction location with
  | nil => rfl
  | cons name location ih =>
      obtain ⟨hname, hrest⟩ := List.forall_mem_cons.mp h
      rw [List.filterMap_cons_some (Step.ofPiece?_of_isPiece hname), ih hrest, List.map_cons]

/-- The steps of the path of a place. -/
theorem stepsOf_toPath (h : ∀ name ∈ location, IsPiece name) (hne : location ≠ []) :
    stepsOf (Location.toPath location) = location.map .down := by
  have hsplit : Path.split (Location.toPath location).bytes = [] :: location := by
    rw [toPath_of_ne_nil hne]
    exact split_flatMap fun piece hpiece => (h piece hpiece).slash_notMem
  have hend : (Location.toPath location).bytes.getLast? ≠ some Path.slash := by
    obtain ⟨front, last, hlast⟩ := (List.eq_nil_or_concat location).resolve_left hne
    rw [List.concat_eq_append] at hlast
    have hpieces : Path.split (Location.toPath location).bytes = ([] :: front) ++ [last] := by
      rw [hsplit, hlast]
      rfl
    exact Path.getLast?_ne_slash hpieces (h last (by rw [hlast]; simp)).ne_nil
  rw [stepsOf, if_neg hend, hsplit, List.filterMap_cons_none rfl]
  exact filterMap_ofPiece?_of_isPiece h

theorem zero_notMem_toPath (h : ∀ name ∈ location, 0 ∉ name) :
    0 ∉ (Location.toPath location).bytes := by
  have hslash : ¬ 0 = Path.slash := by decide
  by_cases hne : location = []
  · subst hne
    decide
  · rw [toPath_of_ne_nil hne]
    intro hmem
    obtain ⟨name, hname, hzero⟩ := List.mem_flatMap.mp hmem
    exact h name hname ((List.mem_cons.mp hzero).resolve_left hslash)

/-- The path of a place leads there. -/
theorem find_toPath (hf : fs.HasFileNames) (hd : fs.OnDirectories location)
    (hn : fs.node? location = some node) (hnode : ∀ target, node ≠ .link target)
    (hshort : (Location.toPath location).bytes.length ≤ pathLimit) :
    fs.find (Location.toPath location) = .ok (⟨location, 0⟩, node) := by
  have hnames := hf.of_node? hn
  have hwalk : fs.walk true linkLimit [] (stepsOf (Location.toPath location)) = .ok location := by
    by_cases hne : location = []
    · subst hne
      rfl
    · rw [stepsOf_toPath (fun name hname => (hnames name hname).1) hne, linkLimit, walk]
      exact walkWith_names location [] hd (fun name hname => (hnames name hname).2.2) hn hnode
  have hzero : ¬ (Location.toPath location).bytes.contains 0 = true := by
    rw [List.contains_iff_mem]
    exact zero_notMem_toPath fun name hname => (hnames name hname).2.1
  have hempty : (Location.toPath location).bytes ≠ [] := by
    cases location <;> exact List.cons_ne_nil _ _
  have habs : (Location.toPath location).isAbsolute = true := by
    cases location <;> rfl
  have hplace : fs.placeOf true (Location.toPath location) (stepsOf (Location.toPath location)) =
      .ok ⟨location, 0⟩ := by
    rw [placeOf, if_neg hzero, if_neg hempty, if_neg (Nat.not_lt.mpr hshort), if_pos habs, hwalk]
    rfl
  have hthere : fs.nodeAt? ⟨location, 0⟩ = some node := hn
  rw [find, hplace]
  simp only [bind, Except.bind, hthere]

end ScriptModules.FileSystem
